/-
Filters of the log: which events are let through.

Of the directives that an event falls under the most specific one decides: the one with the
longest target, then one with a field. A directive for a span, or one that asks for the value of
a field, decides about no event outside a span.
-/

import JobQueue.Json.Value
import JobQueue.Log.Directive

namespace JobQueue

/-- Something to be logged, outside all spans. -/
structure LogEvent where
  level : LogLevel
  target : String
  message : String
  fields : Fields

/-- The fields of an event, the message among them. -/
def LogEvent.allFields (e : LogEvent) : Fields := e.fields.insert "message" (.str e.message)

namespace Directive

/-- Whether a directive can decide about events outside spans. -/
def isForEvents (d : Directive) : Bool := d.span.isNone && d.field.all fun f => !f.hasValue

/-- Whether an event falls under a directive: by the start of its target, and by its field. -/
def covers (d : Directive) (e : LogEvent) : Bool :=
  d.target.all (fun t => e.target.startsWith t) &&
    d.field.all fun f => (Fields.get? e.allFields f.name).isSome

/-- The bytes of a directive's target; a directive without one comes before all others. -/
def targetWeight (d : Directive) : Nat :=
  match d.target with
  | none => 0
  | some t => t.utf8ByteSize + 1

/-- The name of the field, for comparison; empty without one. -/
def fieldName (d : Directive) : String := (d.field.map FieldPattern.name).getD ""

/-- Whether the second directive is at least as specific as the first. -/
def yieldsTo (a b : Directive) : Bool :=
  if a.targetWeight ≠ b.targetWeight then a.targetWeight < b.targetWeight
  else if a.field.isSome ≠ b.field.isSome then b.field.isSome
  else
    let (s, t) := (a.target.getD "", b.target.getD "")
    s < t || (s = t && !(b.fieldName < a.fieldName))

end Directive

/-- The directives of a filter, in the order they were written. -/
structure LogFilter where
  directives : List Directive
deriving Repr

namespace LogFilter

/-- The parts of a text between commas, those that are empty left out. -/
def pieces (s : String) : List String :=
  ((Text.splitAtChar ',' s.toList).filter fun cs => !cs.isEmpty).map String.ofList

/-- Reads a filter. -/
def read? (s : String) : Option LogFilter :=
  ((pieces s).mapM Directive.read?).map fun ds =>
    ⟨if ds.isEmpty then [.errorsOnly] else ds⟩

/-- The directive that decides about an event: the most specific, of equal ones the last. -/
def deciding? (f : LogFilter) (e : LogEvent) : Option Directive :=
  (f.directives.filter fun d => d.isForEvents && d.covers e).foldl
    (fun best d =>
      match best with
      | some b => if b.yieldsTo d then some d else some b
      | none => some d)
    none

/-- Whether an event is let through. -/
def shows (f : LogFilter) (e : LogEvent) : Bool :=
  match f.deciding? e with
  | some d => d.level.admits e.level
  | none => false

end LogFilter

end JobQueue
