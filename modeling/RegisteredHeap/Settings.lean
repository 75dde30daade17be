/-! # Settings

The raw inputs of a heap: one switch and seven numbers, each with a name and a default.
-/

namespace RegisteredHeap

/-- The environment variable of a key. -/
def overrideOf (key : String) : String := "RMAHEAP_" ++ key

/-- The numeric settings. -/
inductive Setting where
  | reserveSegments
  | tinyLimit
  | smallLimit
  | largeLimit
  | tinySegmentSize
  | smallSegmentSize
  | largeSegmentSize
  deriving DecidableEq, Repr

namespace Setting

/-- The order in which settings are written. -/
def all : List Setting :=
  [reserveSegments, tinyLimit, smallLimit, largeLimit, tinySegmentSize, smallSegmentSize,
    largeSegmentSize]

/-- The order of the names, in which faults are reported. -/
def byName : List Setting :=
  [largeLimit, largeSegmentSize, reserveSegments, smallLimit, smallSegmentSize, tinyLimit,
    tinySegmentSize]

def name : Setting → String
  | reserveSegments => "num_reserve_segments"
  | tinyLimit => "tiny_limit"
  | smallLimit => "small_limit"
  | largeLimit => "large_limit"
  | tinySegmentSize => "tiny_segment_size"
  | smallSegmentSize => "small_segment_size"
  | largeSegmentSize => "large_segment_size"

/-- What the variable of the setting is called behind the name of the library. -/
def key : Setting → String
  | reserveSegments => "NUM_RESERVE_SEGMENTS"
  | tinyLimit => "TINY_LIMIT"
  | smallLimit => "SMALL_LIMIT"
  | largeLimit => "LARGE_LIMIT"
  | tinySegmentSize => "TINY_SEGMENT_SIZE"
  | smallSegmentSize => "SMALL_SEGMENT_SIZE"
  | largeSegmentSize => "LARGE_SEGMENT_SIZE"

/-- The environment variable that overrides the setting. -/
def overrideName (k : Setting) : String := overrideOf k.key

/-- Least accepted value. -/
def least : Setting → Nat
  | reserveSegments => 0
  | tinyLimit | tinySegmentSize => 8
  | smallLimit | smallSegmentSize => 16
  | largeLimit | largeSegmentSize => 32

/-- Largest accepted value: twice its power of two still fits a word. -/
def most : Nat := 1 <<< 61

end Setting

structure Settings where
  /-- Keep every segment once it is created. -/
  neverFree : Bool := false
  /-- Segments that a pool keeps even when they are empty. -/
  reserveSegments : Nat := 16
  /-- Largest size of the tiny classes. -/
  tinyLimit : Nat := 128
  smallLimit : Nat := 4096
  largeLimit : Nat := 2097152
  tinySegmentSize : Nat := 65536
  smallSegmentSize : Nat := 65536
  largeSegmentSize : Nat := 2097152
  deriving DecidableEq, Repr

namespace Settings

def switchName : String := "never_free"

def switchOverride : String := overrideOf "NEVER_FREE"

def get (s : Settings) : Setting → Nat
  | .reserveSegments => s.reserveSegments
  | .tinyLimit => s.tinyLimit
  | .smallLimit => s.smallLimit
  | .largeLimit => s.largeLimit
  | .tinySegmentSize => s.tinySegmentSize
  | .smallSegmentSize => s.smallSegmentSize
  | .largeSegmentSize => s.largeSegmentSize

/-- The settings with the switch `b` and the numbers `f`. -/
def of (b : Bool) (f : Setting → Nat) : Settings where
  neverFree := b
  reserveSegments := f .reserveSegments
  tinyLimit := f .tinyLimit
  smallLimit := f .smallLimit
  largeLimit := f .largeLimit
  tinySegmentSize := f .tinySegmentSize
  smallSegmentSize := f .smallSegmentSize
  largeSegmentSize := f .largeSegmentSize

@[simp] theorem get_of (b : Bool) (f : Setting → Nat) (k : Setting) : (of b f).get k = f k := by
  cases k <;> rfl

@[simp] theorem of_get (s : Settings) : of s.neverFree s.get = s := rfl

end Settings

end RegisteredHeap
