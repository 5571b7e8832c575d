/-
Lines of cells between commas.

A cell that holds a comma, a quote or a line break is written between quotes, its own quotes
twice; any other cell is written as it is. Every line ends with a line feed.
-/

namespace JobQueue.Delimited

/-- Whether a character forces the cell that holds it between quotes. -/
def isSpecial (c : Char) : Bool := c == ',' || c == '"' || c == '\n' || c == '\r'

/-- The characters of a text with each quote written twice. -/
def doubleQuotes : List Char → List Char
  | [] => []
  | c :: rest => if c = '"' then '"' :: '"' :: doubleQuotes rest else c :: doubleQuotes rest

/-- A cell as it is written. -/
def cell (text : List Char) : List Char :=
  if text.any isSpecial then '"' :: doubleQuotes text ++ ['"'] else text

/-- The cells of a line, without its end. -/
def cells : List (List Char) → List Char
  | [] => []
  | [c] => cell c
  | c :: rest => cell c ++ ',' :: cells rest

/-- A line. -/
def line (texts : List (List Char)) : List Char := cells texts ++ ['\n']

/-- All lines of a table. -/
def lines (table : List (List (List Char))) : List Char := table.flatMap line

end JobQueue.Delimited
