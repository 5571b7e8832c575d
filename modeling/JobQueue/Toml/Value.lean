/-
Values of TOML documents.
-/

import JobQueue.Decimal.Floating

namespace JobQueue.Toml

/-- A value. Dates and times are kept as texts. -/
inductive Value where
  | text (s : String)
  | int (n : Int)
  | float (x : Floating)
  | switch (b : Bool)
  | moment (written : String)
  | list (items : List Value)
  | table (fields : List (String × Value))
deriving Repr, Inhabited

end JobQueue.Toml
