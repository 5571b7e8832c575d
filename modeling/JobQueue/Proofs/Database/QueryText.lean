/-
What the text of a query can hold.

The text of a query is put together from the name of the table, the names of the conditions and a
word on whether each of them asks for nothing (`Selection.text_eq`). Where all names are plain words
the database, which reads the text by itself (`Query.selection?`), finds in it the very conditions
that it was made for, each value in its own place (`Selection.selection?_query`).
-/

import JobQueue.Database.Selection
import Mathlib.Tactic.Tauto

namespace JobQueue.Database

/-! ### Plain words -/

/-- A character of a plain word: a letter without an accent, a digit or the low line. -/
def IsPlain (c : Char) : Prop :=
  ('a' ≤ c ∧ c ≤ 'z') ∨ ('A' ≤ c ∧ c ≤ 'Z') ∨ ('0' ≤ c ∧ c ≤ '9') ∨ c = '_'

/-- A word of such characters that no digit begins. -/
structure IsPlainWord (s : String) : Prop where
  nonempty : s ≠ ""
  plain : ∀ c ∈ s.toList, IsPlain c
  start : ∀ c, s.toList.head? = some c → ¬ ('0' ≤ c ∧ c ≤ '9')

theorem isWordChar_iff {c : Char} : isWordChar c = true ↔ IsPlain c := by
  delta isWordChar isWordStart Char.isAlpha Char.isUpper Char.isLower Char.isDigit IsPlain
  simp only [Char.le_def, Bool.or_eq_true, Bool.and_eq_true, decide_eq_true_eq, ge_iff_le]
  tauto

theorem isWordStart_iff {c : Char} :
    isWordStart c = true ↔ IsPlain c ∧ ¬ ('0' ≤ c ∧ c ≤ '9') := by
  have codes : '0'.val.toNat = 48 ∧ '9'.val.toNat = 57 ∧ 'A'.val.toNat = 65 ∧
      'Z'.val.toNat = 90 ∧ '_'.val.toNat = 95 ∧ 'a'.val.toNat = 97 := by decide
  delta isWordStart Char.isAlpha Char.isUpper Char.isLower IsPlain
  simp only [Char.le_def, Char.ext_iff, ← UInt32.toNat_inj, UInt32.le_iff_toNat_le,
    Bool.or_eq_true, Bool.and_eq_true, decide_eq_true_eq, ge_iff_le]
  omega

theorem isWord_iff {s : String} : isWord s = true ↔ IsPlainWord s := by
  rw [isWord]
  constructor
  · intro word
    cases chars : s.toList with
    | nil => simp [chars] at word
    | cons c cs =>
        rw [chars, Bool.and_eq_true, isWordStart_iff, List.all_eq_true] at word
        obtain ⟨⟨first, noDigit⟩, others⟩ := word
        refine ⟨?_, ?_, ?_⟩
        · rintro rfl
          cases chars
        · rw [chars, List.forall_mem_cons]
          exact ⟨first, fun d member => isWordChar_iff.mp (others d member)⟩
        · rw [chars]
          rintro _ ⟨⟩
          exact noDigit
  · rintro ⟨nonempty, plain, start⟩
    cases chars : s.toList with
    | nil => exact absurd (String.toList_eq_nil_iff.mp chars) nonempty
    | cons c cs =>
        rw [chars] at plain start
        rw [List.forall_mem_cons] at plain
        rw [Bool.and_eq_true, isWordStart_iff, List.all_eq_true]
        exact ⟨⟨plain.1, start c rfl⟩, fun d member => isWordChar_iff.mpr (plain.2 d member)⟩

theorem quote_notMem_of_isWord {s : String} (word : isWord s = true) : '"' ∉ s.toList := by
  intro member
  have plain := (isWord_iff.mp word).plain '"' member
  rw [IsPlain] at plain
  revert plain
  decide

/-! ### The text -/

/-- The conditions of a query as text: what joins a condition to what stands before it, the name of
a place, and whether the place is to hold nothing or the next value. -/
def joinedText (joint : String) : List (String × Bool) → String
  | [] => ""
  | (name, isNull) :: asked =>
      joint ++ "\"" ++ name ++ "\"" ++ (if isNull then " IS NULL" else " = ?") ++
        joinedText " AND " asked

/-- The text that asks for the lines of a table with something in some places. -/
def askedText (source : String) (asked : List (String × Bool)) : String :=
  "SELECT * FROM \"" ++ source ++ "\"" ++ joinedText " WHERE " asked

/-- The places that a selection asks for, and whether they are to hold nothing. -/
def Selection.asked (s : Selection) : List (String × Bool) :=
  s.conditions.map fun c => (c.name, c.wanted.isNull)

theorem joinedText_eq {joint : String} {c : Condition} {conditions : List Condition} :
    joinedText joint ((c :: conditions).map fun c => (c.name, c.wanted.isNull)) =
      joint ++ String.intercalate " AND " ((c :: conditions).map Condition.text) := by
  induction conditions generalizing joint c with
  | nil => simp [joinedText, Condition.text, String.append_assoc]
  | cons d conditions ih =>
      rw [List.map_cons, joinedText, ih]
      simp only [List.map_cons, String.intercalate_cons_cons, Condition.text, String.append_assoc]

/-- The text of a query depends on the names and on what is asked to be null only. -/
theorem Selection.text_eq (s : Selection) : s.text = askedText s.source s.asked := by
  obtain ⟨source, conditions⟩ := s
  delta text askedText asked
  dsimp only
  cases conditions with
  | nil => simp [joinedText]
  | cons c conditions =>
      rw [joinedText_eq]
      simp [String.append_assoc]

/-! ### Reading the text -/

/-- A part of the text of a query. -/
inductive Lexeme where
  | word (letters : String)
  | name (text : String)
  | sign (c : Char)
deriving DecidableEq, Repr

/-- What a reader is in the middle of, with the characters of it that have been read, the last
first. -/
inductive Lexer.Inside where
  | nothing
  | word (letters : List Char)
  | name (chars : List Char)
  /-- A quote has been read in a name: its end, unless another one follows. -/
  | quote (chars : List Char)

/-- A reader of text, with the parts that it has read, the last first. -/
structure Lexer where
  parts : List Lexeme
  inside : Lexer.Inside

namespace Lexer

/-- A character that begins a part, or stands between parts. -/
def begin (c : Char) (parts : List Lexeme) : Option Lexer :=
  if c = ' ' then some ⟨parts, .nothing⟩
  else if c = '"' then some ⟨parts, .name []⟩
  else if c.isAlpha then some ⟨parts, .word [c]⟩
  else if c = '*' || c = '=' || c = '?' then some ⟨.sign c :: parts, .nothing⟩
  else none

/-- The parts that have been read if the one in the middle ends here. -/
def ended? (l : Lexer) : Option (List Lexeme) :=
  match l.inside with
  | .nothing => some l.parts
  | .word letters => some (.word (String.ofList letters.reverse) :: l.parts)
  | .name _ => none
  | .quote chars => some (.name (String.ofList chars.reverse) :: l.parts)

/-- Reads a character. -/
def next (l : Lexer) (c : Char) : Option Lexer :=
  match l.inside with
  | .word letters =>
      if c.isAlpha then some ⟨l.parts, .word (c :: letters)⟩ else l.ended?.bind (begin c)
  | .name chars => some ⟨l.parts, if c = '"' then .quote chars else .name (c :: chars)⟩
  | .quote chars =>
      if c = '"' then some ⟨l.parts, .name ('"' :: chars)⟩ else l.ended?.bind (begin c)
  | .nothing => l.ended?.bind (begin c)

end Lexer

/-- The parts of a text. -/
def lexemes? (text : String) : Option (List Lexeme) :=
  ((text.toList.foldlM Lexer.next ⟨[], .nothing⟩).bind Lexer.ended?).map List.reverse

/-- The conditions that parts of a text stand for, after a word that joins them to what stands
before. -/
def joined? : String → List Lexeme → Option (List (String × Bool))
  | _, [] => some []
  | joint, .word w :: .name name :: .word "IS" :: .word "NULL" :: rest =>
      if w = joint then (joined? "AND" rest).map ((name, true) :: ·) else none
  | joint, .word w :: .name name :: .sign '=' :: .sign '?' :: rest =>
      if w = joint then (joined? "AND" rest).map ((name, false) :: ·) else none
  | _, _ => none

/-- The table that a text selects from, and the conditions that it has. -/
def asked? : List Lexeme → Option (String × List (String × Bool))
  | .word "SELECT" :: .sign '*' :: .word "FROM" :: .name source :: rest =>
      (joined? "WHERE" rest).map fun asked => (source, asked)
  | _ => none

/-- Conditions with the values that belong to them, in their order. Each place that is to hold
something takes one value. -/
def withValues? : List (String × Bool) → List Cell → Option (List Condition)
  | [], [] => some []
  | (name, true) :: asked, values => (withValues? asked values).map (⟨name, .null⟩ :: ·)
  | (name, false) :: asked, value :: values =>
      if value.isNull then none else (withValues? asked values).map (⟨name, value⟩ :: ·)
  | _, _ => none

/-- What a database is asked: a text, and the values that are handed over beside it. -/
structure Query where
  text : String
  values : List Cell
deriving Repr

/-- The selection that a query stands for. -/
def Query.selection? (q : Query) : Option Selection := do
  let parts ← lexemes? q.text
  let (source, asked) ← asked? parts
  let conditions ← withValues? asked q.values
  some ⟨source, conditions⟩

/-- The query for a selection. -/
def Selection.query (s : Selection) : Query := ⟨s.text, s.parameters⟩

namespace Lexer

variable {l : Lexer} {parts : List Lexeme} {chars cs rest : List Char}

theorem next_space (ended : l.ended? = some parts) : l.next ' ' = some ⟨parts, .nothing⟩ := by
  obtain ⟨before, inside⟩ := l
  cases inside with
  | nothing | word | quote =>
      cases ended
      rfl
  | name => cases ended

/-- A name is read up to the quote that ends it. -/
theorem foldlM_name (free : '"' ∉ cs) :
    (cs ++ '"' :: rest).foldlM next ⟨parts, .name chars⟩ =
      rest.foldlM next ⟨parts, .quote (cs.reverse ++ chars)⟩ := by
  induction cs generalizing chars with
  | nil => rfl
  | cons c cs ih =>
      rw [List.mem_cons, not_or] at free
      have step : next ⟨parts, .name chars⟩ c = some ⟨parts, .name (c :: chars)⟩ := by
        rw [next]
        dsimp only
        rw [if_neg (Ne.symm free.1)]
      rw [List.cons_append, List.foldlM_cons, step, List.reverse_cons, List.append_assoc]
      exact ih free.2

end Lexer

/-- The parts of the conditions of a query. -/
def joinedLexemes (joint : String) : List (String × Bool) → List Lexeme
  | [] => []
  | (name, isNull) :: asked =>
      .word joint :: .name name ::
        (if isNull then [.word "IS", .word "NULL"] else [.sign '=', .sign '?']) ++
        joinedLexemes "AND" asked

theorem joined?_joinedLexemes (joint : String) (asked : List (String × Bool)) :
    joined? joint (joinedLexemes joint asked) = some asked := by
  induction asked generalizing joint with
  | nil => rfl
  | cons a asked ih =>
      obtain ⟨name, isNull⟩ := a
      cases isNull <;> simp [joinedLexemes, joined?, ih]

/-- A word that joins conditions is read as one. -/
def Joins (joint word : String) : Prop :=
  ∀ (l : Lexer) parts, l.ended? = some parts →
    joint.toList.foldlM Lexer.next l = some ⟨.word word :: parts, .nothing⟩

theorem joins_where : Joins " WHERE " "WHERE" := by
  intro l parts ended
  show (' ' :: ['W', 'H', 'E', 'R', 'E', ' ']).foldlM Lexer.next l = _
  rw [List.foldlM_cons, Lexer.next_space ended]
  rfl

theorem joins_and : Joins " AND " "AND" := by
  intro l parts ended
  show (' ' :: ['A', 'N', 'D', ' ']).foldlM Lexer.next l = _
  rw [List.foldlM_cons, Lexer.next_space ended]
  rfl

/-- What a condition says of its place is read as it stands. -/
theorem foldlM_said (isNull : Bool) (parts : List Lexeme) (chars : List Char) :
    ∃ l, (if isNull then " IS NULL" else " = ?").toList.foldlM Lexer.next
        ⟨parts, .quote chars⟩ = some l ∧
      l.ended? = some ((if isNull then [.word "IS", .word "NULL"]
        else [Lexeme.sign '=', .sign '?']).reverse ++
          .name (String.ofList chars.reverse) :: parts) := by
  cases isNull <;> exact ⟨_, rfl, rfl⟩

/-- The conditions of a text are read one after another. -/
theorem foldlM_joinedText {joint word : String} {asked : List (String × Bool)} {l : Lexer}
    {parts : List Lexeme} (joins : Joins joint word) (free : ∀ a ∈ asked, '"' ∉ a.1.toList)
    (ended : l.ended? = some parts) :
    ∃ l', (joinedText joint asked).toList.foldlM Lexer.next l = some l' ∧
      l'.ended? = some ((joinedLexemes word asked).reverse ++ parts) := by
  induction asked generalizing joint word l parts with
  | nil => exact ⟨l, rfl, ended⟩
  | cons a asked ih =>
      obtain ⟨name, isNull⟩ := a
      obtain ⟨named, others⟩ := List.forall_mem_cons.mp free
      obtain ⟨l₁, said, ended₁⟩ := foldlM_said isNull (.word word :: parts) name.toList.reverse
      obtain ⟨l₂, later, ended₂⟩ := ih joins_and others ended₁
      refine ⟨l₂, ?_, ?_⟩
      · have chars : (joinedText joint ((name, isNull) :: asked)).toList =
            joint.toList ++ ('"' :: (name.toList ++ '"' ::
              ((if isNull then " IS NULL" else " = ?").toList ++
                (joinedText " AND " asked).toList))) := by
          simp [joinedText]
        have opened : Lexer.next ⟨.word word :: parts, .nothing⟩ '"' =
            some ⟨.word word :: parts, .name []⟩ := rfl
        rw [chars, List.foldlM_append, joins l parts ended, Option.bind_eq_bind, Option.bind_some,
          List.foldlM_cons, opened, Option.bind_eq_bind, Option.bind_some,
          Lexer.foldlM_name named, List.append_nil, List.foldlM_append, said,
          Option.bind_eq_bind, Option.bind_some, later]
      · rw [ended₂, joinedLexemes]
        simp

/-- The text of a query has the parts that it was put together from. -/
theorem lexemes?_askedText {source : String} {asked : List (String × Bool)}
    (plain : '"' ∉ source.toList) (free : ∀ a ∈ asked, '"' ∉ a.1.toList) :
    lexemes? (askedText source asked) = some (.word "SELECT" :: .sign '*' :: .word "FROM" ::
      .name source :: joinedLexemes "WHERE" asked) := by
  have begun : ("SELECT * FROM ").toList.foldlM Lexer.next ⟨[], .nothing⟩ =
      some ⟨[.word "FROM", .sign '*', .word "SELECT"], .nothing⟩ := rfl
  have opened : Lexer.next ⟨[.word "FROM", .sign '*', .word "SELECT"], .nothing⟩ '"' =
      some ⟨[.word "FROM", .sign '*', .word "SELECT"], .name []⟩ := rfl
  have named : Lexer.ended? ⟨[.word "FROM", .sign '*', .word "SELECT"],
      .quote (source.toList.reverse ++ [])⟩ =
        some [.name source, .word "FROM", .sign '*', .word "SELECT"] := by
    simp [Lexer.ended?]
  obtain ⟨l, later, ended⟩ := foldlM_joinedText joins_where free named
  have chars : (askedText source asked).toList = "SELECT * FROM ".toList ++
      ('"' :: (source.toList ++ '"' :: (joinedText " WHERE " asked).toList)) := by
    delta askedText
    simp
  rw [lexemes?, chars, List.foldlM_append, begun, Option.bind_eq_bind, Option.bind_some,
    List.foldlM_cons, opened, Option.bind_eq_bind, Option.bind_some, Lexer.foldlM_name plain, later,
    Option.bind_some, ended]
  simp

/-! ### What a query stands for -/

/-- The names between the quotes of a text, in their order. -/
def names? (text : String) : Option (List String) :=
  (lexemes? text).map (List.filterMap fun
    | .name name => some name
    | _ => none)

theorem filterMap_joinedLexemes (joint : String) (asked : List (String × Bool)) :
    ((joinedLexemes joint asked).filterMap fun
      | .name name => some name
      | _ => none) = asked.map Prod.fst := by
  induction asked generalizing joint with
  | nil => rfl
  | cons a asked ih =>
      obtain ⟨name, isNull⟩ := a
      cases isNull <;> simp [joinedLexemes, ih]

theorem names?_askedText {source : String} {asked : List (String × Bool)}
    (plain : '"' ∉ source.toList) (free : ∀ a ∈ asked, '"' ∉ a.1.toList) :
    names? (askedText source asked) = some (source :: asked.map Prod.fst) := by
  rw [names?, lexemes?_askedText plain free, Option.map_some]
  simp [filterMap_joinedLexemes]

theorem Cell.isNull_iff {c : Cell} : c.isNull = true ↔ c = .null := by
  cases c <;> simp [isNull]

/-- Values that were left out because they are null are known from the text. -/
theorem withValues?_asked (conditions : List Condition) :
    withValues? (conditions.map fun c => (c.name, c.wanted.isNull))
      ((conditions.map Condition.wanted).filter fun c => !c.isNull) = some conditions := by
  induction conditions with
  | nil => rfl
  | cons c conditions ih =>
      obtain ⟨name, wanted⟩ := c
      cases nothing : wanted.isNull with
      | false => simp [nothing, withValues?, ih]
      | true =>
          obtain rfl := Cell.isNull_iff.mp nothing
          simp [nothing, withValues?, ih]

namespace Selection

variable {s : Selection}

/-- The database finds in a query the selection that it was made for. -/
theorem selection?_query (source : '"' ∉ s.source.toList)
    (conditions : ∀ c ∈ s.conditions, '"' ∉ c.name.toList) : s.query.selection? = some s := by
  have free : ∀ a ∈ s.asked, '"' ∉ a.1.toList := by
    intro a member
    obtain ⟨c, kept, rfl⟩ := List.mem_map.mp member
    exact conditions c kept
  simp only [Query.selection?, query, s.text_eq, lexemes?_askedText source free, asked?,
    joined?_joinedLexemes, Option.bind_eq_bind, Option.bind_some, Option.map_some]
  rw [asked, parameters, withValues?_asked]
  rfl

end Selection

end JobQueue.Database
