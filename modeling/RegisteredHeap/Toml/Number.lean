import RegisteredHeap.Text.Numeral
import RegisteredHeap.Toml.Layout

/-! # Numbers

Integers of 64 bits with a sign, in base 10, 16, 8 or 2, and reals. An underscore may stand between
two digits and means nothing.
-/

namespace RegisteredHeap.Toml

open Reader

def isSign (c : Char) : Bool := c == '+' || c == '-'

/-- Digits, each with at most one underscore before it. -/
def moreDigits (digit : Char → Bool) : Reader (List Char) :=
  many (orElse (satisfy digit) (do let _ ← char '_'; commit (satisfy digit)))

def digits1 (digit : Char → Bool) : Reader (List Char) := do
  let c ← satisfy digit
  let cs ← moreDigits digit
  return c :: cs

/-- A sign and decimal digits without a leading zero. -/
def decimal : Reader (Bool × List Char) := do
  let sign ← optional (satisfy isSign)
  let first ← orElse (satisfy fun c => c.isDigit && c != '0') (char '0')
  let more ← if first == '0' then pure [] else moreDigits Char.isDigit
  return (sign == some '-', first :: more)

def signed (negative : Bool) (n : Nat) : Int := if negative then -(n : Int) else n

/-- Integers are held in 64 bits. -/
def fitsSigned (i : Int) : Option Int :=
  if -(1 <<< 63 : Nat) ≤ i ∧ i < (1 <<< 63 : Nat) then some i else none

def decimalInteger : Reader Int :=
  settle
    (fun (negative, ds) =>
      fitsSigned (signed negative (Text.valueFrom 10 Text.decimalDigit 0 ds)))
    decimal

def based (base : Nat) (digit : Char → Bool) : Reader Int :=
  settle (fun ds => fitsSigned (Text.valueFrom base Text.hexDigit 0 ds))
    do
      let _ ← char '0'
      let _ ← satisfy fun _ => true
      commit (digits1 digit)

def integer : Reader Int := fun s =>
  match s with
  | '0' :: 'x' :: _ => based 16 Text.isHexDigit s
  | '0' :: 'o' :: _ => based 8 (fun c => '0' ≤ c && c ≤ '7') s
  | '0' :: 'b' :: _ => based 2 (fun c => c == '0' || c == '1') s
  | _ => decimalInteger s

def fraction : Reader (List Char) := do
  let _ ← char '.'
  commit (digits1 Char.isDigit)

def exponent : Reader Int := do
  let _ ← satisfy fun c => c == 'e' || c == 'E'
  let sign ← optional (satisfy isSign)
  let ds ← commit (digits1 Char.isDigit)
  return signed (sign == some '-') (Text.valueFrom 10 Text.decimalDigit 0 ds)

/-- The real nearest to `digits` times ten to `power`. Beyond four hundred places there is nothing
between zero and infinity. -/
def scientific (negative : Bool) (digits : List Char) (power : Int) : Float :=
  let m := Text.valueFrom 10 Text.decimalDigit 0 digits
  let places : Int := (Nat.toDigits 10 m).length + power
  let x : Float :=
    if m = 0 ∨ places < -400 then 0
    else if 400 < places then 1 / 0
    else Float.ofScientific m (power < 0) power.natAbs
  if negative then -x else x

/-- A decimal point, an exponent or both make a number a real. A real too large upwards is an
error. -/
def plainReal : Reader Float :=
  settle (fun x => if x == 1 / 0 then none else some x)
    do
      let (negative, whole) ← decimal
      orElse
        (do let e ← exponent; return scientific negative whole e)
        (do
          let part ← fraction
          let e ← optional exponent
          return scientific negative (whole ++ part) (e.getD 0 - part.length))

def infinity : Reader Float := do
  literal "inf"
  return 1 / 0

def notANumber : Reader Float := do
  literal "nan"
  return 0 / 0

def specialReal : Reader Float := do
  let sign ← optional (satisfy isSign)
  let x ← orElse infinity notANumber
  return if sign == some '-' then -x else x

def real : Reader Float := orElse plainReal specialReal

end RegisteredHeap.Toml
