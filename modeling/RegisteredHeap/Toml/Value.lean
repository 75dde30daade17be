/-! # TOML values -/

namespace RegisteredHeap.Toml

inductive Value where
  | text (s : String)
  | integer (i : Int)
  | real (f : Float)
  | boolean (b : Bool)
  /-- A date, a time or both, in the standard form. -/
  | moment (s : String)
  | array (items : List Value)
  | table (entries : List (String × Value))

/-- Keys with their values, in the order they were written. -/
abbrev Entries := List (String × Value)

end RegisteredHeap.Toml
