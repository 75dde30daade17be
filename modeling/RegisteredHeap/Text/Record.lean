/-! # Records as text

A record is written as its name with named fields in braces, `Name { a: 1, b: 2 }`; two dots stand
for fields that are left out.
-/

namespace RegisteredHeap.Text

def listed (parts : List String) : String := ", ".intercalate parts

/-- The fields of a record with their texts. -/
def record (name : String) (fields : List (String × String)) : String :=
  name ++ " \x7b " ++ listed (fields.map fun (k, v) => k ++ ": " ++ v) ++ " \x7d"

/-- A record of which only some fields are told. -/
def openRecord (name : String) (fields : List (String × String)) : String :=
  name ++ " \x7b " ++ listed (fields.map (fun (k, v) => k ++ ": " ++ v) ++ [".."]) ++ " \x7d"

/-- A name around one value. -/
def wrapped (name value : String) : String := name ++ "(" ++ value ++ ")"

def optional : Option String → String
  | some v => wrapped "Some" v
  | none => "None"

def truth (b : Bool) : String := if b then "true" else "false"

end RegisteredHeap.Text
