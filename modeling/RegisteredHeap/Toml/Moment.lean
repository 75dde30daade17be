import RegisteredHeap.Text.Numeral
import RegisteredHeap.Toml.Number

/-! # Dates and times

A date, a time of day, or both and possibly an offset. What is read is written back in one standard
form: a `T` between date and time, nanoseconds without trailing zeros.
-/

namespace RegisteredHeap.Toml

open Reader

def numberOf (n : Nat) (least most : Nat) : Reader Nat :=
  sift (fun ds =>
      let v := Text.valueFrom 10 Text.decimalDigit 0 ds
      if least ≤ v ∧ v ≤ most then some v else none)
    (exactly n Char.isDigit)

def padded (width n : Nat) : String :=
  let ds := Nat.toDigits 10 n
  String.ofList (List.replicate (width - ds.length) '0' ++ ds)

def daysIn (year month : Nat) : Nat :=
  if month = 2 then
    if year % 4 = 0 ∧ (year % 100 ≠ 0 ∨ year % 400 = 0) then 29 else 28
  else if month ∈ [4, 6, 9, 11] then 30
  else 31

/-- Four digits and a dash begin a date for good. -/
def date : Reader String := do
  let year ← numberOf 4 0 9999
  let _ ← char '-'
  let month ← commit (numberOf 2 1 12)
  let _ ← commit (char '-')
  let day ← commit (numberOf 2 1 (daysIn year month))
  return padded 4 year ++ "-" ++ padded 2 month ++ "-" ++ padded 2 day

/-- The first nine digits count. -/
def secondFraction : Reader Nat := do
  let _ ← char '.'
  let ds ← takeWhile1 Char.isDigit
  let ds := ds.take 9
  return Text.valueFrom 10 Text.decimalDigit 0 ds * Nat.pow 10 (9 - ds.length)

def fractionText (n : Nat) : String :=
  if n = 0 then ""
  else "." ++ String.ofList ((padded 9 n).toList.reverse.dropWhile (· == '0')).reverse

/-- Two digits and a colon begin a time for good. -/
def time (lastHour : Nat) : Reader String := do
  let hour ← numberOf 2 0 lastHour
  let _ ← char ':'
  commit do
    let minute ← numberOf 2 0 59
    let _ ← char ':'
    let second ← numberOf 2 0 60
    let part ← optional secondFraction
    return padded 2 hour ++ ":" ++ padded 2 minute ++ ":" ++ padded 2 second ++
      fractionText (part.getD 0)

/-- No offset at all is written with a plus. -/
def offsetText (sign : Char) (minutes : Nat) : String :=
  (if minutes = 0 then '+' else sign).toString ++ padded 2 (minutes / 60) ++ ":" ++
    padded 2 (minutes % 60)

/-- An offset is a day at most. -/
def offset (lastHour lastMinute : Nat) : Reader String :=
  orElse
    (do let _ ← satisfy (fun c => c == 'Z' || c == 'z'); return "Z")
    (do
      let sign ← satisfy isSign
      commit do
        let hour ← numberOf 2 0 lastHour
        let _ ← char ':'
        let minute ← numberOf 2 0 lastMinute
        let minutes := 60 * hour + minute
        if minutes ≤ 24 * 60 then return offsetText sign minutes else refuse)

def isDateEnd (c : Char) : Bool := c == 'T' || c == 't' || c == ' '

/-- A date with a time, if there is one, and an offset, if there is one. -/
def dated (time offset : Reader String) : Reader String := do
  let d ← date
  let t ← optional do
    let _ ← satisfy isDateEnd
    let t ← time
    let o ← optional offset
    return "T" ++ t ++ o.getD ""
  return d ++ t.getD ""

/-- A moment as a value of its own. -/
def moment : Reader String := orElse (dated (time 23) (offset 23 59)) (time 23)

/-- A moment that is the whole of a text. It may end its day with the hour 24, and its offset may
count more minutes than an hour has. -/
def momentText : Reader String := do
  let m ← orElse (dated (time 24) (offset 99 99)) (time 24)
  finish
  return m

end RegisteredHeap.Toml
