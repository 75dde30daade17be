import RegisteredHeap.Proofs.Sizing
import RegisteredHeap.Proofs.Slicing

/-! # Overflow

What is computed about size classes once more on words, where each step fails if its result does not
fit. None of them fails: the tables are built, a size finds its bucket, and an extent is cut into
blocks without leaving the words.
-/

namespace RegisteredHeap

namespace Word

variable {a b n : Nat}

/-- The number, if it is a word. -/
def fit? (n : Nat) : Option Nat := if n < limit then some n else none

def add? (a b : Nat) : Option Nat := fit? (a + b)

def mul? (a b : Nat) : Option Nat := fit? (a * b)

def sub? (a b : Nat) : Option Nat := if b ≤ a then some (a - b) else none

/-- A shift is shorter than a word, and loses no bit. -/
def shl? (a n : Nat) : Option Nat := if n < 64 then fit? (a <<< n) else none

def shr? (a n : Nat) : Option Nat := if n < 64 then some (a >>> n) else none

theorem two_pow_lt_limit (short : n < 64) : 2 ^ n < limit := by
  rw [limit, Nat.one_shiftLeft]
  exact Nat.pow_lt_pow_right Nat.one_lt_two short

theorem fit?_of_le (fits : a ≤ 2 ^ n) (short : n < 64) : fit? a = some a :=
  if_pos (fits.trans_lt (two_pow_lt_limit short))

theorem sub?_of_le (less : b ≤ a) : sub? a b = some (a - b) := if_pos less

theorem shl?_of_le {m : Nat} (short : n < 64) (fits : a <<< n ≤ 2 ^ m) (short' : m < 64) :
    shl? a n = some (a <<< n) := by
  rw [shl?, if_pos short, fit?_of_le fits short']

theorem shr?_of_lt (short : n < 64) : shr? a n = some (a >>> n) := if_pos short

theorem bitLength_pos (n : Nat) : 1 ≤ bitLength n := by
  unfold bitLength
  split <;> omega

end Word

/-- If each of several computations succeeds, so do all of them together. -/
theorem mapM_eq_some {α β : Type} {f : α → Option β} {g : α → β} {entries : List α}
    (each : ∀ x ∈ entries, f x = some (g x)) : entries.mapM f = some (entries.map g) := by
  induction entries with
  | nil => rfl
  | cons x rest ih =>
      rw [List.mapM_cons, each x List.mem_cons_self,
        ih fun y member => each y (List.mem_cons_of_mem x member)]
      rfl

namespace Config

open Word

def tinyBucket? (size : Nat) : Option Nat := do
  let rest ← sub? size 1
  shr? rest tinyIncrementShift

def exponentialBucket? (c : Config) (size : Nat) : Option Nat := do
  let rest ← sub? size 1
  let scaled ← shr? rest c.bucketShift
  sub? (bitLength scaled) 1

def tinyClass? (c : Config) (i : Nat) : Option SizeClass := do
  let n ← add? i 1
  let size ← shl? n tinyIncrementShift
  return ⟨size, c.tinySegmentSize⟩

def exponentialClass? (c : Config) (i : Nat) : Option SizeClass := do
  let both ← add? c.numSmall c.numLarge
  if i < c.numSmall then
    let size ← shl? c.tinyLimit (← add? i 1)
    return ⟨size, c.smallSegmentSize⟩
  else if i < both then
    let size ← shl? c.smallLimit (← add? (← sub? i c.numSmall) 1)
    return ⟨size, c.largeSegmentSize⟩
  else
    let size ← shl? c.largeLimit (← add? (← sub? (← sub? i c.numSmall) c.numLarge) 1)
    return ⟨size, size⟩

/-- The tiny and the exponential classes. -/
def tables? (c : Config) : Option (List SizeClass × List SizeClass) := do
  let tiny ← (List.range c.numTiny).mapM c.tinyClass?
  let last ← c.exponentialBucket? (← shl? c.largeLimit 1)
  let exponential ← (List.range (← add? last 1)).mapM c.exponentialClass?
  return (tiny, exponential)

variable {c : Config} {tiny small large size i : Nat}

theorem tinyBucket?_eq (positive : 0 < size) : tinyBucket? size = some (tinyBucket size) := by
  rw [tinyBucket?, sub?_of_le positive]
  rfl

namespace Geometry

theorem exponentialBucket?_eq (g : c.Geometry tiny small large) (positive : 0 < size) :
    c.exponentialBucket? size = some (c.exponentialBucket size) := by
  have short : c.bucketShift < 64 := by
    have first := g.tiny_lt_small
    have second := g.small_lt_large
    have most := g.most
    rw [g.bucketShift]
    omega
  rw [exponentialBucket?, sub?_of_le positive]
  change (do
    let scaled ← shr? (size - 1) c.bucketShift
    sub? (bitLength scaled) 1) = _
  rw [shr?_of_lt short]
  exact sub?_of_le (bitLength_pos _)

theorem tinyClass?_eq (g : c.Geometry tiny small large) (inside : i < c.numTiny) :
    c.tinyClass? i = some ⟨(i + 1) <<< tinyIncrementShift, c.tinySegmentSize⟩ := by
  have first := g.tiny_lt_small
  have second := g.small_lt_large
  have most := g.most
  have above : i + 1 ≤ 2 ^ (tiny - tinyIncrementShift) := g.numTiny ▸ inside
  have fits : (i + 1) <<< tinyIncrementShift ≤ 2 ^ tiny := by
    rw [Nat.shiftLeft_eq]
    calc
      (i + 1) * 2 ^ tinyIncrementShift ≤ 2 ^ (tiny - tinyIncrementShift) * 2 ^ tinyIncrementShift :=
        Nat.mul_le_mul_right _ above
      _ = 2 ^ tiny := Nat.pow_sub_mul_pow 2 g.least
  have next : add? i 1 = some (i + 1) := fit?_of_le above (by omega)
  have shifted : shl? (i + 1) tinyIncrementShift = some ((i + 1) <<< tinyIncrementShift) :=
    shl?_of_le (by decide) fits (by omega)
  simp only [tinyClass?, next, shifted, Option.bind_eq_bind, Option.bind_some]
  rfl

/-- A power of two shifted by a few places stays below the largest size. -/
theorem shl?_eq {m k n : Nat} (g : c.Geometry tiny small large) (power : m = 2 ^ k)
    (bound : k + n ≤ large + 1) : shl? m n = some (m <<< n) := by
  have most := g.most
  have size : m <<< n = 2 ^ (k + n) := by rw [power, Nat.shiftLeft_eq, Nat.pow_add]
  exact shl?_of_le (by omega) size.le (by omega)

theorem exponentialClass?_eq (g : c.Geometry tiny small large) (inside : i ≤ large - tiny) :
    c.exponentialClass? i = some (c.exponentialClass i) := by
  have first := g.tiny_lt_small
  have second := g.small_lt_large
  have most := g.most
  have small? (n : Nat) (less : n ≤ 64) : fit? n = some n :=
    fit?_of_le (n := 6) less (by decide)
  have both : add? c.numSmall c.numLarge = some (c.numSmall + c.numLarge) :=
    small? _ (by rw [g.numSmall, g.numLarge]; omega)
  simp only [exponentialClass?, both, Option.bind_eq_bind, Option.bind_some,
    Config.exponentialClass]
  split
  · rename_i low
    rw [g.numSmall] at low
    have next : add? i 1 = some (i + 1) := small? _ (by omega)
    have shifted := g.shl?_eq g.tinyLimit (n := i + 1) (by omega)
    simp only [next, shifted, Option.bind_some]
    rfl
  rename_i low
  rw [g.numSmall] at low
  have rest : sub? i c.numSmall = some (i - c.numSmall) := sub?_of_le (by rw [g.numSmall]; omega)
  split
  · rename_i middle
    rw [g.numSmall, g.numLarge] at middle
    have next : add? (i - c.numSmall) 1 = some (i - c.numSmall + 1) := small? _ (by omega)
    have shifted := g.shl?_eq g.smallLimit (n := i - c.numSmall + 1) (by rw [g.numSmall]; omega)
    simp only [rest, next, shifted, Option.bind_some]
    rfl
  · rename_i middle
    rw [g.numSmall, g.numLarge] at middle
    have rest' : sub? (i - c.numSmall) c.numLarge = some (i - c.numSmall - c.numLarge) :=
      sub?_of_le (by rw [g.numSmall, g.numLarge]; omega)
    have next : add? (i - c.numSmall - c.numLarge) 1 =
        some (i - c.numSmall - c.numLarge + 1) := small? _ (by omega)
    have shifted := g.shl?_eq g.largeLimit (n := i - c.numSmall - c.numLarge + 1)
      (by rw [g.numSmall, g.numLarge]; omega)
    simp only [rest, rest', next, shifted, Option.bind_some]
    rfl

theorem exponentialBucket_maxSize (g : c.Geometry tiny small large) :
    c.exponentialBucket c.maxSize = large - tiny := by
  have first := g.tiny_lt_small
  have second := g.small_lt_large
  have exponent : tiny + (large - tiny) = large := by omega
  rw [g.maxSize]
  apply g.exponentialBucket
  · rw [exponent]
    exact Nat.pow_lt_pow_succ Nat.one_lt_two
  · rw [exponent]

/-- Both tables are computed in full. -/
theorem tables?_eq (g : c.Geometry tiny small large) :
    c.tables? = some (c.tinyClasses, c.exponentialClasses) := by
  have most := g.most
  have tinies : (List.range c.numTiny).mapM c.tinyClass? = some c.tinyClasses :=
    mapM_eq_some fun i member => g.tinyClass?_eq (List.mem_range.mp member)
  have largest : shl? c.largeLimit 1 = some c.maxSize := by
    rw [g.shl?_eq g.largeLimit (Nat.le_refl _), Nat.shiftLeft_eq, Nat.pow_one, Nat.mul_comm,
      Config.maxSize]
  have positive : 0 < c.maxSize := by
    rw [g.maxSize]
    exact Nat.two_pow_pos _
  have last := g.exponentialBucket?_eq positive
  have next : add? (c.exponentialBucket c.maxSize) 1 = some (c.exponentialBucket c.maxSize + 1) :=
    fit?_of_le (n := 6) (by rw [g.exponentialBucket_maxSize]; omega) (by decide)
  have exponentials : (List.range (c.exponentialBucket c.maxSize + 1)).mapM c.exponentialClass? =
      some c.exponentialClasses := by
    apply mapM_eq_some
    intro i member
    rw [g.exponentialBucket_maxSize] at member
    exact g.exponentialClass?_eq (Nat.lt_succ_iff.mp (List.mem_range.mp member))
  simp only [tables?, tinies, largest, last, next, exponentials, Option.bind_eq_bind,
    Option.bind_some]
  rfl

end Geometry

end Config

namespace Segment

/-- Where the blocks start if the extent starts at `base`. -/
def addresses? (s : Segment) (base : Nat) : Option (List Nat) :=
  (List.range s.capacity).mapM fun i => do
    let offset ← Word.mul? i s.pool.blockSize
    Word.add? base offset

/-- As long as the extent lies within the words, so does the start of each block. -/
theorem addresses?_eq {s : Segment} {base : Nat} (size : 0 < s.pool.blockSize)
    (capacity : s.capacity = s.extent.size / s.pool.blockSize)
    (within : base + s.extent.size ≤ Word.limit) :
    s.addresses? base = some (s.blocks.map fun b => base + b.address.offset) := by
  rw [addresses?, blocks, List.map_map]
  apply mapM_eq_some
  intro i member
  have inside : i < s.extent.size / s.pool.blockSize := capacity ▸ List.mem_range.mp member
  have ends : i * s.pool.blockSize + s.pool.blockSize ≤ s.extent.size := by
    rw [← Nat.succ_mul]
    exact (Nat.mul_le_mul_right _ inside).trans (Nat.div_mul_le_self _ _)
  have offset : Word.mul? i s.pool.blockSize = some (i * s.pool.blockSize) := if_pos (by omega)
  have start : Word.add? base (i * s.pool.blockSize) = some (base + i * s.pool.blockSize) :=
    if_pos (by omega)
  simp only [offset, Option.bind_eq_bind, Option.bind_some, start]
  rfl

end Segment

end RegisteredHeap
