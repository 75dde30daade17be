import RegisteredHeap.Word

/-! # Numerals

Words as decimal text: an optional plus sign, then one digit or more, and a value that fits a word.
-/

namespace RegisteredHeap.Text

/-- The value of digits in the given base, most significant first, continuing from `acc`. -/
def valueFrom (base : Nat) (digit : Char → Nat) (acc : Nat) (s : List Char) : Nat :=
  s.foldl (fun n c => base * n + digit c) acc

def decimalDigit (c : Char) : Nat := c.toNat - '0'.toNat

/-- A hexadecimal digit of either case. -/
def isHexDigit (c : Char) : Bool :=
  c.isDigit || ('a' ≤ c && c ≤ 'f') || ('A' ≤ c && c ≤ 'F')

def hexDigit (c : Char) : Nat :=
  if c.isDigit then decimalDigit c
  else if 'a' ≤ c then c.toNat - 'a'.toNat + 10
  else c.toNat - 'A'.toNat + 10

/-- A nonempty run of decimal digits. -/
def natural? (s : List Char) : Option Nat :=
  if s ≠ [] ∧ s.all Char.isDigit then some (valueFrom 10 decimalDigit 0 s) else none

/-- A natural number with an optional plus sign that fits a word. -/
def word? (s : List Char) : Option Nat :=
  let digits := match s with
    | '+' :: rest => rest
    | _ => s
  (natural? digits).filter (· < Word.limit)

end RegisteredHeap.Text
