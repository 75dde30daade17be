import RegisteredHeap.Error
import RegisteredHeap.Word

/-! # Layouts

What values need of their memory: so many bytes, from a multiple of an alignment on. A block of a
power of two starts at a multiple of its size, as long as that is no more than a page, so such a
block serves the alignments that other blocks do not have.
-/

namespace RegisteredHeap

structure Layout where
  size : Nat
  align : Nat
  deriving DecidableEq, Repr

namespace Layout

/-- Every block starts at a multiple of this. -/
def blockAlign : Nat := 8

/-- The layout of `count` values in a row. -/
def array (l : Layout) (count : Nat) : Except HeapError Layout :=
  if 1 <<< 63 - l.align < count * l.size then
    .error (.invalidSize (Word.saturate (count * l.size)))
  else .ok ⟨count * l.size, l.align⟩

/-- Bytes to ask for, so that the block fits the layout. -/
def request (l : Layout) (pageSize : Nat) : Except HeapError Nat :=
  let size := max l.size 1
  if l.align ≤ blockAlign then .ok size
  else if pageSize < l.align then .error (.invalidSize size)
  else
    match Word.roundUp? size with
    | some n => .ok (max n l.align)
    | none => .error (.invalidSize size)

end Layout

end RegisteredHeap
