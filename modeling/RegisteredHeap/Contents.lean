/-! # Contents of memory

What has been written to an extent. Memory is zero until it is written.
-/

namespace RegisteredHeap

structure Contents where
  /-- Start and bytes of each write, the last one first. -/
  writes : List (Nat × Array UInt8) := []

namespace Contents

def write (c : Contents) (start : Nat) (bytes : Array UInt8) : Contents :=
  ⟨(start, bytes) :: c.writes⟩

/-- The last byte written there. -/
def byteAt (c : Contents) (i : Nat) : UInt8 :=
  match c.writes.find? fun (start, bytes) => start ≤ i && i < start + bytes.size with
  | some (start, bytes) => bytes.getD (i - start) 0
  | none => 0

def read (c : Contents) (start len : Nat) : List UInt8 :=
  (List.range' start len).map c.byteAt

/-- Nothing but zeros was written. -/
def isZero (c : Contents) : Bool := c.writes.all fun (_, bytes) => bytes.all (· == 0)

theorem byteAt_write_of_mem (c : Contents) {start i : Nat} {bytes : Array UInt8}
    (h₁ : start ≤ i) (h₂ : i < start + bytes.size) :
    (c.write start bytes).byteAt i = bytes.getD (i - start) 0 := by
  simp [byteAt, write, h₁, h₂]

theorem byteAt_write_of_lt (c : Contents) {start i : Nat} {bytes : Array UInt8} (h : i < start) :
    (c.write start bytes).byteAt i = c.byteAt i := by
  simp [byteAt, write, Nat.not_le.mpr h]

theorem byteAt_write_of_le (c : Contents) {start i : Nat} {bytes : Array UInt8}
    (h : start + bytes.size ≤ i) : (c.write start bytes).byteAt i = c.byteAt i := by
  simp [byteAt, write, Nat.not_lt.mpr h]

end Contents

end RegisteredHeap
