/-! # Addresses

A place in memory is an offset into an extent, or an address that a caller brought along. Extents of
the host and of the devices are numbered apart, each in the order they were obtained, and no number
is used twice, so an address names its extent for good.
-/

namespace RegisteredHeap

inductive Address where
  /-- `offset` bytes into a host extent. -/
  | host (extent offset : Nat)
  /-- `offset` bytes into a device extent. -/
  | device (extent offset : Nat)
  /-- Memory of the caller. -/
  | user (value : Nat)
  deriving DecidableEq, Repr

namespace Address

/-- The address `n` bytes further on. -/
def advance (n : Nat) : Address → Address
  | .host e o => .host e (o + n)
  | .device e o => .device e (o + n)
  | .user v => .user (v + n)

/-- Extents start at a boundary of every alignment in use, so only the offset matters. -/
def aligned (align : Nat) : Address → Bool
  | .host _ o | .device _ o => o % align == 0
  | .user v => v % align == 0

def hex (n : Nat) : String := "0x" ++ String.ofList (Nat.toDigits 16 n)

/-- A letter and the number of the extent, or the caller's address in hexadecimal. -/
def extentText : Address → String
  | .host e _ => "h" ++ toString e
  | .device e _ => "d" ++ toString e
  | .user v => hex v

/-- The extent with the offset, or the caller's address in hexadecimal. -/
def text : Address → String
  | .user v => hex v
  | a@(.host _ o) | a@(.device _ o) => a.extentText ++ "+" ++ toString o

/-- As a number in a description: an address of the caller is written in decimal. -/
def asNumber : Address → String
  | .user v => toString v
  | a => a.text

/-- As a pointer in a description: an address of the caller with eight hexadecimal digits or more
says nothing to a reader and is left out. -/
def asPointer : Address → String
  | .user v => if v < 1 <<< 28 then hex v else "0x?"
  | a => a.text

/-- Bytes from the start of the extent, none for memory of the caller. -/
def offset : Address → Nat
  | .host _ o | .device _ o => o
  | .user _ => 0

/-- The caller's own number of the address, zero inside an extent. -/
def number : Address → Nat
  | .user v => v
  | _ => 0

theorem advance_zero (a : Address) : a.advance 0 = a := by
  cases a <;> rfl

end Address

end RegisteredHeap
