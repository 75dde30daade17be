import RegisteredHeap.Error
import RegisteredHeap.Word

/-! # Configuration

Settings that have been checked, with every size rounded up to a power of two and the geometry of
the size classes derived from them.
-/

namespace RegisteredHeap

structure Config where
  neverFree : Bool
  reserveSegments : Nat
  tinyLimit : Nat
  smallLimit : Nat
  largeLimit : Nat
  tinySegmentSize : Nat
  smallSegmentSize : Nat
  largeSegmentSize : Nat
  /-- The tiny limit is two to this power. -/
  bucketShift : Nat
  tinyIncrement : Nat
  numTiny : Nat
  numSmall : Nat
  numLarge : Nat
  deriving DecidableEq, Repr

namespace Config

/-- Tiny sizes increase in steps of two to this power. -/
def tinyIncrementShift : Nat := 3

/-- Largest size that has a class from the start. -/
def maxSize (c : Config) : Nat := 2 * c.largeLimit

def rangeFault? (s : Settings) (k : Setting) : Option RangeFault :=
  if s.get k < k.least then some (.below k)
  else if Setting.most < s.get k then some (.above k)
  else none

def rangeFaults (s : Settings) : List RangeFault := Setting.byName.filterMap (rangeFault? s)

def rounded (s : Settings) (k : Setting) : Except ConfigError Nat :=
  match Word.roundUp? (s.get k) with
  | some n => .ok n
  | none => .error (.overflows k (s.get k))

def increasing (k : Setting) (m : Nat) (l : Setting) (n : Nat) : Except ConfigError Unit :=
  if n ≤ m then .error (.notBelow k m l n) else .ok ()

def contained (k : Setting) (m : Nat) (l : Setting) (n : Nat) : Except ConfigError Unit :=
  if n < m then .error (.exceedsSegment k m l n) else .ok ()

/-- Ranges are checked on the settings as given, order and segments on the rounded sizes. -/
def ofSettings (s : Settings) : Except ConfigError Config := do
  let faults := rangeFaults s
  if faults ≠ [] then throw (.outOfRange faults)
  let tiny ← rounded s .tinyLimit
  let small ← rounded s .smallLimit
  let large ← rounded s .largeLimit
  let tinySegment ← rounded s .tinySegmentSize
  let smallSegment ← rounded s .smallSegmentSize
  let largeSegment ← rounded s .largeSegmentSize
  increasing .tinyLimit tiny .smallLimit small
  increasing .smallLimit small .largeLimit large
  contained .tinyLimit tiny .tinySegmentSize tinySegment
  contained .smallLimit small .smallSegmentSize smallSegment
  contained .largeLimit large .largeSegmentSize largeSegment
  return {
    neverFree := s.neverFree
    reserveSegments := s.reserveSegments
    tinyLimit := tiny
    smallLimit := small
    largeLimit := large
    tinySegmentSize := tinySegment
    smallSegmentSize := smallSegment
    largeSegmentSize := largeSegment
    bucketShift := Word.bitLength tiny - 1
    tinyIncrement := 1 <<< tinyIncrementShift
    numTiny := tiny >>> tinyIncrementShift
    numSmall := Word.bitLength small - Word.bitLength tiny
    numLarge := Word.bitLength large - Word.bitLength small }

/-- The configuration's own eight values. -/
def settings (c : Config) : Settings where
  neverFree := c.neverFree
  reserveSegments := c.reserveSegments
  tinyLimit := c.tinyLimit
  smallLimit := c.smallLimit
  largeLimit := c.largeLimit
  tinySegmentSize := c.tinySegmentSize
  smallSegmentSize := c.smallSegmentSize
  largeSegmentSize := c.largeSegmentSize

end Config

end RegisteredHeap
