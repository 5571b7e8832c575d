/-
Blank characters and trimming.

A character is blank when it has the Unicode property White_Space. `trim` drops the blank
characters at both ends of a text and nothing else.
-/

namespace JobQueue.Text

/-- The characters with the property White_Space. -/
def isBlank (c : Char) : Bool :=
  let n := c.toNat
  (9 ≤ n && n ≤ 13) || n == 0x20 || n == 0x85 || n == 0xA0 || n == 0x1680 ||
    (0x2000 ≤ n && n ≤ 0x200A) || n == 0x2028 || n == 0x2029 || n == 0x202F ||
    n == 0x205F || n == 0x3000

/-- A text without the blank characters it begins with. -/
def trimStart (cs : List Char) : List Char :=
  cs.dropWhile isBlank

/-- A text without the blank characters it ends with. -/
def trimEnd (cs : List Char) : List Char :=
  (cs.reverse.dropWhile isBlank).reverse

/-- A text without the blank characters at its two ends. -/
def trim (s : String) : String :=
  String.ofList (trimEnd (trimStart s.toList))

/-- Whether a text has no character but blank ones. -/
def isAllBlank (s : String) : Bool :=
  s.toList.all isBlank

/-- The text with the letters `A` to `Z` in lower case; other characters stay. -/
def lower (s : String) : String :=
  String.ofList (s.toList.map Char.toLower)

/-- The parts of a text between the places where `mark` stands, one at least. -/
def splitAtChar (mark : Char) : List Char → List (List Char)
  | [] => [[]]
  | c :: rest =>
      match splitAtChar mark rest with
      | [] => [[]]
      | part :: parts => if c = mark then [] :: part :: parts else (c :: part) :: parts

/-- What follows `start` in a text that begins with it. -/
def dropStart? (start cs : List Char) : Option (List Char) :=
  if start.isPrefixOf cs then some (cs.drop start.length) else none

/-- The texts of a list with `between` put between neighbours. -/
def joinWith (between : String) (parts : List String) : String :=
  between.intercalate parts

end JobQueue.Text
