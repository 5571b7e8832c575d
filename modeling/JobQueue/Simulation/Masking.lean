/-
Accounts that do not depend on the day or on chance.

A request may name the ids that are made later and may write a lease near the present as a token
such as `@ago:60@`. `Masking.expand` puts in what names and tokens stand for, `Masking.reveal`
goes the other way and hides other generated ids and times near the present.
-/

import JobQueue.Json.Value
import JobQueue.Time.Strict

namespace JobQueue

namespace Json

mutual

/-- The value with each of its texts changed. -/
def mapTexts (f : String → String) : Json → Json
  | .str s => .str (f s)
  | .arr items => .arr (mapItemTexts f items)
  | .obj fields => .obj (mapFieldTexts f fields)
  | v => v

/-- The items with each of their texts changed. -/
def mapItemTexts (f : String → String) : List Json → List Json
  | [] => []
  | x :: xs => mapTexts f x :: mapItemTexts f xs

/-- The fields with each text of their values changed. -/
def mapFieldTexts (f : String → String) : List (String × Json) → List (String × Json)
  | [] => []
  | (k, x) :: xs => (k, mapTexts f x) :: mapFieldTexts f xs

end

mutual

/-- The texts of a value, its keys left out. -/
def texts : Json → List String
  | .str s => [s]
  | .arr items => itemTexts items
  | .obj fields => fieldTexts fields
  | _ => []

/-- The texts of some items. -/
def itemTexts : List Json → List String
  | [] => []
  | x :: xs => texts x ++ itemTexts xs

/-- The texts of the values of some fields. -/
def fieldTexts : List (String × Json) → List String
  | [] => []
  | (_, x) :: xs => texts x ++ fieldTexts xs

end

end Json

namespace Simulation

/-- A lease so many seconds before or after the present. -/
structure Token where
  isBefore : Bool
  seconds : Nat
deriving DecidableEq, Repr

namespace Token

/-- What a token starts with. -/
def start (isBefore : Bool) : String := if isBefore then "@ago:" else "@in:"

/-- A token as it is written. -/
def text (t : Token) : String := start t.isBefore ++ Decimal.natText t.seconds ++ "@"

/-- The lease that a token stands for. -/
def lease (present : Instant) (t : Token) : String :=
  let distance : Int := if t.isBefore then -t.seconds else t.seconds
  (Instant.mk (present.seconds + distance) 0).leaseText

/-- A token of one kind at the start of a text. -/
def ofKind? (isBefore : Bool) (cs : List Char) : Option Token := do
  let rest ← Text.dropStart? (start isBefore).toList cs
  let (ds, rest) := Decimal.spanDigits rest
  let n ← Decimal.ofDigits? ds
  if rest.head? = some '@' then some ⟨isBefore, n⟩ else none

/-- A token at the start of a text. -/
def at? (cs : List Char) : Option Token := ofKind? true cs <|> ofKind? false cs

/-- All tokens in a text. -/
def all : List Char → List Token
  | [] => []
  | c :: rest => (at? (c :: rest)).toList ++ all rest

end Token

/-- How many characters of a text have the shape of another, in which a zero stands for a
character of some class; none if the text has another shape. -/
def shapeLength (isOfClass : Char → Bool) (shape : String) (cs : List Char) : Nat :=
  let shape := shape.toList
  let fits := (shape.zip cs).all fun (want, c) => if want = '0' then isOfClass c else c = want
  if cs.length < shape.length || !fits then 0 else shape.length

/-- A hexadecimal digit. -/
def isHexDigit (c : Char) : Bool := c.isDigit || ('a' ≤ c && c ≤ 'f')

/-- The length of a generated id at the start of a text, else zero. -/
def idLength (cs : List Char) : Nat :=
  shapeLength isHexDigit "00000000-0000-0000-0000-000000000000" cs

/-- The seconds from the present within which a time is hidden. -/
def nearby : Nat := 120

/-- The length of a time near the present at the start of a text, else zero. -/
def timeLength (present : Instant) (cs : List Char) : Nat :=
  let n := shapeLength Char.isDigit "0000-00-00T00:00:00" cs
  if n = 0 then 0
  else
    let rest := cs.drop n
    let fraction := match rest with
      | '.' :: more => 1 + (more.takeWhile Char.isDigit).length
      | _ => 0
    if (rest.drop fraction).head? = some 'Z' && fraction != 1 then
      let length := n + fraction + 1
      match Time.strict? (String.ofList (cs.take length)) with
      | some t => if (t.seconds - present.seconds).natAbs < nearby then length else 0
      | none => 0
    else 0

/-- A text with times near the present and generated ids hidden. `skipped` characters have been
hidden already. -/
def hide (present : Instant) (skipped : Nat) : List Char → List Char
  | [] => []
  | c :: rest =>
      match skipped with
      | n + 1 => hide present n rest
      | 0 =>
          let time := timeLength present (c :: rest)
          let id := idLength (c :: rest)
          if time > 0 then "<now>".toList ++ hide present (time - 1) rest
          else if id > 0 then "<uuid>".toList ++ hide present (id - 1) rest
          else c :: hide present 0 rest

/-- The names of ids, the latest first, and the tokens seen so far. -/
structure Masking where
  present : Instant
  names : List (String × String)
  tokens : List Token
  numbered : Nat

namespace Masking

/-- Nothing named. -/
def start (present : Instant) : Masking := ⟨present, [], [], 0⟩

/-- Gives an id a name. -/
def name (id given : String) (m : Masking) : Masking :=
  { m with names := (id, "<" ++ given ++ ">") :: m.names }

/-- Gives an id that has no name the next number for one. -/
def number (m : Masking) (id : String) : Masking :=
  if (m.names.lookup id).isSome then m
  else
    let n := m.numbered + 1
    { m.name id ("auto" ++ Decimal.natText n) with numbered := n }

/-- Learns the tokens of a request. -/
def learn (v : Json) (m : Masking) : Masking :=
  (v.texts.flatMap fun s => Token.all s.toList).foldl
    (fun m t => if m.tokens.contains t then m else { m with tokens := m.tokens ++ [t] }) m

/-- A text with what names and tokens stand for. -/
def expandText (m : Masking) (s : String) : String :=
  let named := m.names.foldl (fun s (id, name) => s.replace name id) s
  m.tokens.foldl (fun s t => s.replace t.text (t.lease m.present)) named

/-- A request with what names and tokens stand for. -/
def expand (m : Masking) (v : Json) : Json := v.mapTexts m.expandText

/-- A text with names and tokens for what they stand for. -/
def revealText (m : Masking) (s : String) : String :=
  let named := m.names.foldl (fun s (id, name) => s.replace id name) s
  let tokens := m.tokens.foldl (fun s t => s.replace (t.lease m.present) t.text) named
  if tokens.length < 20 then tokens else String.ofList (hide m.present 0 tokens.toList)

/-- An account with names and tokens for what they stand for. -/
def reveal (m : Masking) (v : Json) : Json := v.mapTexts m.revealText

end Masking

end Simulation

end JobQueue
