/-
Files of variables.

Each line gives a variable a value, which may stand between quotes and may use other variables. A
line goes on in the next one while a quote is open. Reading stops at the first line that is not in
order; what stands before it counts.
-/

import JobQueue.Decimal.Digits
import JobQueue.Text.Blank

namespace JobQueue.EnvFile

/-- Variables with their values. -/
abbrev Variables := List (String × String)

/-! ### Lines -/

/-- Where a line stands between its characters. -/
inductive LineState where
  | plain
  | blank
  | escape
  | strong
  | strongEscape
  | weak
  | weakEscape
  | comment
deriving DecidableEq, Repr

/-- The state after a character outside quotes. -/
def LineState.outside (c : Char) : LineState :=
  if c = '\\' then .escape else if c = '"' then .weak else if c = '\'' then .strong else .plain

/-- The state after a character. -/
def LineState.next (c : Char) : LineState → LineState
  | .blank => if c = '#' then .comment else .outside c
  | .escape => .plain
  | .plain => if Text.isBlank c && c != '\n' && c != '\r' then .blank else .outside c
  | .weak => if c = '\\' then .weakEscape else if c = '"' then .plain else .weak
  | .weakEscape => .weak
  | .strong => if c = '\\' then .strongEscape else if c = '\'' then .plain else .strong
  | .strongEscape => .strong
  | .comment => .comment

/-- The state at the end of a piece of text, and the piece up to the mark of a comment. -/
def scanLine : LineState → List Char → LineState × List Char
  | s, [] => (s, [])
  | s, c :: rest =>
      match s.next c with
      | .comment => (.comment, [])
      | next =>
          let (last, kept) := scanLine next rest
          (last, c :: kept)

/-- A text up to the end of its first line, that end included, and the rest. -/
def cutLine (cs : List Char) : List Char × List Char :=
  let line := cs.takeWhile (· != '\n')
  match cs.drop line.length with
  | '\n' :: rest => (line ++ ['\n'], rest)
  | rest => (line, rest)

/-- A line without its end. -/
def dropEnd (line : List Char) : List Char :=
  match line.reverse with
  | '\n' :: '\r' :: rest => rest.reverse
  | '\n' :: rest => rest.reverse
  | _ => line

/-- The logical lines of a text. `begun` holds the lines that the present one began with; a line
that the text does not end is left out. -/
def logicalLines : Nat → LineState → List Char → List Char → List (List Char)
  | 0, _, _, _ => []
  | fuel + 1, state, begun, cs =>
      if cs.isEmpty then []
      else
        let (line, rest) := cutLine cs
        let whole := begun ++ line
        if (Text.trimStart whole).head? = some '#' then [] :: logicalLines fuel .plain [] rest
        else
          match scanLine state line with
          | (.plain, _) => dropEnd whole :: logicalLines fuel .plain [] rest
          | (.comment, kept) => (begun ++ kept) :: logicalLines fuel .plain [] rest
          | (state, _) => logicalLines fuel state whole rest

/-! ### Values -/

/-- How far the name of a variable in a value has been read. -/
inductive Naming where
  | none
  /-- After a dollar sign. -/
  | open
  /-- Between braces. -/
  | braced
deriving DecidableEq, Repr

/-- A value while it is read. -/
structure Reader where
  strong : Bool
  weak : Bool
  escaped : Bool
  /-- Nothing but blanks and a comment may follow. -/
  ended : Bool
  naming : Naming
  /-- The name read so far, its last character first. -/
  name : List Char
  /-- The value read so far, its last character first. -/
  value : List Char

/-- Nothing read. -/
def Reader.start : Reader := ⟨false, false, false, false, .none, [], []⟩

/-- A character of a variable's name in a value. -/
def isNameChar (c : Char) : Bool := c.isAlphanum

/-- The reader with a character taken as it is. -/
def Reader.take (r : Reader) (c : Char) : Reader := { r with value := c :: r.value }

/-- The reader with the value of the variable that has been named. -/
def Reader.substitute (lookup : String → String) (r : Reader) : Reader :=
  let text := lookup (String.ofList r.name.reverse)
  { r with naming := .none, name := [], value := text.toList.reverse ++ r.value }

/-- The reader after a character while it reads a name. -/
def Reader.inName (lookup : String → String) (r : Reader) (c : Char) : Reader :=
  if isNameChar c then { r with name := c :: r.name }
  else
    match r.naming with
    | .braced => if c = '\x7d' then r.substitute lookup else { r with name := c :: r.name }
    | _ =>
        if c = '\x7b' && r.name.isEmpty then { r with naming := .braced }
        else
          let r := r.substitute lookup
          if c = '$' then { r with naming := .open } else r.take c

/-- The reader after a character, if the character may stand there. -/
def Reader.next (lookup : String → String) (r : Reader) (c : Char) : Option Reader :=
  if r.ended then if c = ' ' || c = '\t' then some r else none
  else if r.escaped then
    if c = '\\' || c = '\'' || c = '"' || c = '$' || c = ' ' then
      some { r.take c with escaped := false }
    else if c = 'n' then some { r.take '\n' with escaped := false }
    else none
  else if r.strong then if c = '\'' then some { r with strong := false } else some (r.take c)
  else if r.naming != .none then some (r.inName lookup c)
  else if c = '$' then some { r with naming := .open }
  else if r.weak then
    if c = '"' then some { r with weak := false }
    else if c = '\\' then some { r with escaped := true }
    else some (r.take c)
  else if c = '\'' then some { r with strong := true }
  else if c = '"' then some { r with weak := true }
  else if c = '\\' then some { r with escaped := true }
  else if c = ' ' || c = '\t' then some { r with ended := true }
  else some (r.take c)

/-- Reads a value to its end, or to the comment after it. -/
def readValue (lookup : String → String) : Reader → List Char → Option Reader
  | r, [] => some r
  | r, c :: rest =>
      if r.ended && c = '#' then some r
      else (r.next lookup c).bind fun r => readValue lookup r rest

/-- The value that a text writes. -/
def valueOf (lookup : String → String) (cs : List Char) : Option String := do
  let r ← readValue lookup .start cs
  if r.naming = .braced || r.strong || r.weak then none
  else some (String.ofList (r.substitute lookup).value.reverse)

/-! ### Variables -/

/-- A letter or the like that may begin a key. -/
def isKeyStart (c : Char) : Bool := c.isAlpha || c == '_'

/-- A character of a key. -/
def isKeyChar (c : Char) : Bool := c.isAlphanum || c == '_' || c == '.'

/-- A key, and what follows it and the blanks behind it. -/
def keyOf (cs : List Char) : Option (String × List Char) :=
  match cs with
  | c :: _ =>
      if isKeyStart c then
        some (String.ofList (cs.takeWhile isKeyChar), Text.trimStart (cs.dropWhile isKeyChar))
      else none
  | [] => none

/-- A key with the equals sign behind it; the word `export` may stand before the key. -/
def keySign (cs : List Char) : Option (String × List Char) := do
  let (key, rest) ← keyOf cs
  match key, rest with
  | _, '=' :: rest => some (key, rest)
  | "export", rest =>
      let (key, rest) ← keyOf rest
      match rest with
      | '=' :: rest => some (key, rest)
      | _ => none
  | _, _ => none

/-- The variable that a line sets; nothing where the line is empty or a comment. -/
def lineOf (lookup : String → String) (line : List Char) :
    Option (Option (String × String)) :=
  let cs := Text.trimStart (Text.trimEnd line)
  match cs with
  | [] => some none
  | '#' :: _ => some none
  | cs => do
      let (key, rest) ← keySign cs
      match Text.trimStart rest with
      | [] => some (some (key, ""))
      | '#' :: _ => some (some (key, ""))
      | rest => (valueOf lookup rest).map fun v => some (key, v)

/-- The value of a variable in a line: that of the environment, else the one set before in the
file, else nothing. -/
def known (environment set : Variables) (name : String) : String :=
  ((environment.lookup name).orElse fun () => set.lookup name).getD ""

/-- The environment after some lines. `set` holds what the lines before have set, the last first.
A variable that is there keeps its value. -/
def applyLines (environment set : Variables) : List (List Char) → Variables
  | [] => environment
  | line :: rest =>
      match lineOf (known environment set) line with
      | none => environment
      | some none => applyLines environment set rest
      | some (some (key, value)) =>
          let next := if (environment.lookup key).isSome then environment
            else environment ++ [(key, value)]
          applyLines next ((key, value) :: set) rest

/-- The environment after a file of variables. -/
def apply (environment : Variables) (file : String) : Variables :=
  let cs := file.toList
  let cs := if cs.head? = some (Char.ofNat 0xFEFF) then cs.tail else cs
  applyLines environment [] (logicalLines (cs.length + 1) .plain [] cs)

end JobQueue.EnvFile
