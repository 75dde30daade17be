import RegisteredHeap.Config

/-! # Size classes

Tiny sizes have a class for each multiple of the increment, sizes up to the largest configured one a
class for each power of two, and every size beyond gets a class of its own power of two.
-/

namespace RegisteredHeap

structure SizeClass where
  blockSize : Nat
  segmentSize : Nat
  deriving DecidableEq, Repr

namespace Config

/-- Index of the tiny class of a size from 1 up to the tiny limit. -/
def tinyBucket (size : Nat) : Nat := (size - 1) >>> tinyIncrementShift

/-- Index of the exponential class of a size above the tiny limit. -/
def exponentialBucket (c : Config) (size : Nat) : Nat :=
  Word.bitLength ((size - 1) >>> c.bucketShift) - 1

def tinyClasses (c : Config) : List SizeClass :=
  (List.range c.numTiny).map fun i => ⟨(i + 1) <<< tinyIncrementShift, c.tinySegmentSize⟩

/-- Small classes, large classes, and one more whose segments hold a single block. -/
def exponentialClass (c : Config) (i : Nat) : SizeClass :=
  if i < c.numSmall then ⟨c.tinyLimit <<< (i + 1), c.smallSegmentSize⟩
  else if i < c.numSmall + c.numLarge then
    ⟨c.smallLimit <<< (i - c.numSmall + 1), c.largeSegmentSize⟩
  else
    let size := c.largeLimit <<< (i - c.numSmall - c.numLarge + 1)
    ⟨size, size⟩

def exponentialClasses (c : Config) : List SizeClass :=
  (List.range (c.exponentialBucket c.maxSize + 1)).map c.exponentialClass

/-- Size of the block that serves a request. -/
def sizeClass (c : Config) (size : Nat) : Except HeapError Nat :=
  let size := max size 1
  if size ≤ c.tinyLimit then .ok ((tinyBucket size + 1) <<< tinyIncrementShift)
  else if size ≤ c.maxSize then
    match c.exponentialClasses[c.exponentialBucket size]? with
    | some k => .ok k.blockSize
    | none => .error (.invalidSize size)
  else
    match Word.roundUp? size with
    | some n => .ok n
    | none => .error (.invalidSize size)

end Config

end RegisteredHeap
