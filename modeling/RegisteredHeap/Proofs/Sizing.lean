import Mathlib.Order.Bounds.Basic
import RegisteredHeap.Proofs.Routing

/-! # Block sizes

The size of the block for a request is computed from the configuration, and again when a heap looks
for the class: in the table of tiny classes, in the table of powers of two, or among the classes
made on demand. Both give the least size of their kind that holds the request, and the tables are
never too short.
-/

namespace RegisteredHeap

namespace Word

variable {n : Nat}

/-- The least power of two from `n` on. -/
theorem isLeast_powerAbove (n : Nat) : IsLeast {m | (∃ k, m = 2 ^ k) ∧ n ≤ m} (powerAbove n) := by
  refine ⟨⟨exists_powerAbove n, le_powerAbove n⟩, ?_⟩
  rintro m ⟨⟨k, rfl⟩, above⟩
  exact powerAbove_le above

theorem roundUp?_of_le (fits : n ≤ 2 ^ 63) : roundUp? n = some (powerAbove n) := by
  have below : powerAbove n < limit := by
    calc
      powerAbove n ≤ 2 ^ 63 := powerAbove_le fits
      _ < limit := by decide
  simp only [roundUp?, below, if_true]

theorem roundUp?_of_lt (large : 2 ^ 63 < n) : roundUp? n = none := by
  obtain ⟨k, power⟩ := exists_powerAbove n
  have above : 2 ^ 63 < 2 ^ k := large.trans_le (power ▸ le_powerAbove n)
  have exponent : 63 < k := (Nat.pow_lt_pow_iff_right Nat.one_lt_two).mp above
  have limited : limit ≤ powerAbove n := by
    rw [power, limit, Nat.one_shiftLeft]
    exact Nat.pow_le_pow_right Nat.two_pos exponent
  simp only [roundUp?, Nat.not_lt.mpr limited, if_false]

end Word

namespace Config

variable {c : Config} {tiny small large size : Nat}

/-- Up to the tiny limit block sizes are multiples of the increment, above it powers of two, and the
least one that holds `size` bytes is `n`. -/
structure Suits (c : Config) (size n : Nat) : Prop where
  tiny : size ≤ c.tinyLimit → IsLeast {m | 8 ∣ m ∧ size ≤ m} n
  power : c.tinyLimit < size → IsLeast {m | (∃ k, m = 2 ^ k) ∧ size ≤ m} n

theorem Suits.le {n : Nat} (suits : c.Suits size n) : size ≤ n := by
  rcases Nat.lt_or_ge c.tinyLimit size with above | within
  · exact (suits.power above).1.2
  · exact (suits.tiny within).1.2

theorem isLeast_tiny (positive : 0 < size) :
    IsLeast {m | 8 ∣ m ∧ size ≤ m} ((tinyBucket size + 1) <<< tinyIncrementShift) := by
  have block : (tinyBucket size + 1) <<< tinyIncrementShift = ((size - 1) / 8 + 1) * 8 := by
    rw [Nat.shiftLeft_eq, tinyBucket, Nat.shiftRight_eq_div_pow, tinyIncrementShift]
  rw [block]
  constructor
  · exact ⟨Nat.dvd_mul_left _ _, by omega⟩
  · rintro m ⟨⟨q, rfl⟩, above⟩
    omega

namespace Geometry

/-- The tiny class of a size. -/
theorem tinyClass (g : c.Geometry tiny small large) (positive : 0 < size)
    (within : size ≤ c.tinyLimit) : ∃ k, c.tinyClasses[tinyBucket size]? = some k ∧
      k.blockSize = (tinyBucket size + 1) <<< tinyIncrementShift := by
  have inside : tinyBucket size < c.numTiny := by
    rw [tinyBucket, Nat.shiftRight_eq_div_pow, g.numTiny,
      Nat.div_lt_iff_lt_mul (Nat.two_pow_pos _), Nat.pow_sub_mul_pow 2 g.least, ← g.tinyLimit]
    omega
  refine ⟨⟨(tinyBucket size + 1) <<< tinyIncrementShift, c.tinySegmentSize⟩, ?_, rfl⟩
  simp [tinyClasses, inside]

/-- Between which powers of two a size lies that has an exponential class. -/
theorem exists_bucket (g : c.Geometry tiny small large) (above : c.tinyLimit < size)
    (within : size ≤ c.maxSize) :
    ∃ i ≤ large - tiny, 2 ^ (tiny + i) < size ∧ Word.powerAbove size = 2 ^ (tiny + i + 1) := by
  obtain ⟨k, power⟩ := Word.exists_powerAbove size
  have low : tiny < k := by
    rw [← Nat.pow_lt_pow_iff_right Nat.one_lt_two, ← power, ← g.tinyLimit]
    exact above.trans_le (Word.le_powerAbove size)
  have high : k ≤ large + 1 := by
    rw [← Nat.pow_le_pow_iff_right Nat.one_lt_two, ← power]
    exact Word.powerAbove_le (g.maxSize ▸ within)
  have exponent : tiny + (k - tiny - 1) + 1 = k := by omega
  refine ⟨k - tiny - 1, by omega, ?_, by rw [exponent, power]⟩
  by_contra small
  have less := Word.powerAbove_le (Nat.not_lt.mp small)
  rw [power, Nat.pow_le_pow_iff_right Nat.one_lt_two] at less
  omega

/-- The exponential class of a size. -/
theorem powerClass (g : c.Geometry tiny small large) (above : c.tinyLimit < size)
    (within : size ≤ c.maxSize) : ∃ k, c.exponentialClasses[c.exponentialBucket size]? = some k ∧
      k.blockSize = Word.powerAbove size := by
  obtain ⟨i, inside, least, power⟩ := g.exists_bucket above within
  have bucket : c.exponentialBucket size = i :=
    g.exponentialBucket least (power ▸ Word.le_powerAbove size)
  have length : c.exponentialClasses.length = large - tiny + 1 := by
    rw [← List.length_map SizeClass.blockSize, g.exponentialSizes, List.length_map,
      List.length_range]
  have listed : i < c.exponentialClasses.length := by omega
  refine ⟨c.exponentialClasses[i], ?_, ?_⟩
  · rw [bucket, List.getElem?_eq_getElem listed]
  · simp only [exponentialClasses, List.getElem_map, List.getElem_range, g.exponentialClass, power]

theorem tinyLimit_le (g : c.Geometry tiny small large) : c.tinyLimit ≤ c.maxSize := by
  have first := g.tiny_lt_small
  have second := g.small_lt_large
  rw [g.tinyLimit, g.maxSize]
  exact Nat.pow_le_pow_right Nat.two_pos (by omega)

theorem maxSize_le (g : c.Geometry tiny small large) : c.maxSize ≤ 2 ^ 63 := by
  have most := g.most
  rw [g.maxSize]
  exact Nat.pow_le_pow_right Nat.two_pos (by omega)

theorem sizeClass_of_lt (g : c.Geometry tiny small large) (tooLarge : 2 ^ 63 < max size 1) :
    c.sizeClass size = .error (.invalidSize (max size 1)) := by
  have beyond : c.maxSize < max size 1 := g.maxSize_le.trans_lt tooLarge
  have above : c.tinyLimit < max size 1 := g.tinyLimit_le.trans_lt beyond
  simp only [sizeClass, Nat.not_le.mpr above, Nat.not_le.mpr beyond, if_false,
    Word.roundUp?_of_lt tooLarge]

end Geometry

end Config

namespace Heap

variable {h h' wide : Heap} {i size : Nat} {k : SizeClass}

/-- The class that is made for a size beyond the tables. -/
def classBeyond (size : Nat) : SizeClass := ⟨Word.powerAbove size, Word.powerAbove size⟩

/-- The heap with one more class that was made on demand, and its pools. -/
def addClass (h : Heap) (k : SizeClass) : Heap :=
  { h with
    huge := h.huge ++ [k]
    pools := h.pools ++ poolsOf h.index (retention h.config) h.nodes h.devices k }

/-- Which class a size gets and where it comes from, and the heap once the class is there. -/
inductive Picks (h : Heap) (size : Nat) : SizeClass → Heap → Prop where
  | tiny {k : SizeClass} (within : size ≤ h.config.tinyLimit)
      (listed : h.tiny[Config.tinyBucket size]? = some k) : h.Picks size k h
  | power {k : SizeClass} (above : h.config.tinyLimit < size) (within : size ≤ h.config.maxSize)
      (listed : h.exponential[h.config.exponentialBucket size]? = some k) : h.Picks size k h
  | known (beyond : h.config.maxSize < size) (listed : classBeyond size ∈ h.huge) :
    h.Picks size (classBeyond size) h
  | made (beyond : h.config.maxSize < size) (fresh : classBeyond size ∉ h.huge) :
    h.Picks size (classBeyond size) (h.addClass (classBeyond size))

theorem Picks.mem_classes (picks : h.Picks size k wide) : k ∈ wide.classes := by
  unfold classes
  cases picks with
  | tiny _ listed =>
      exact List.mem_append_left _ (List.mem_append_left _ (List.mem_of_getElem? listed))
  | power _ _ listed =>
      exact List.mem_append_left _ (List.mem_append_right _ (List.mem_of_getElem? listed))
  | known _ listed => exact List.mem_append_right _ listed
  | made => exact List.mem_append_right _ (List.mem_append_right _ (List.mem_singleton_self _))

theorem Formed.exists_geometry (formed : h.Formed i) :
    ∃ tiny small large, h.config.Geometry tiny small large := by
  obtain ⟨s, accepted⟩ := formed.accepted
  exact Config.exists_geometry accepted

theorem Formed.classOf_of_lt (formed : h.Formed i) (tooLarge : 2 ^ 63 < max size 1) :
    h.classOf size = (.error (.invalidSize (max size 1)), h) := by
  obtain ⟨_, _, _, g⟩ := formed.exists_geometry
  have beyond : h.config.maxSize < max size 1 := g.maxSize_le.trans_lt tooLarge
  have above : h.config.tinyLimit < max size 1 := g.tinyLimit_le.trans_lt beyond
  simp only [Heap.classOf, Nat.not_le.mpr above, Nat.not_le.mpr beyond, if_false, Heap.hugeClass,
    Word.roundUp?_of_lt tooLarge]

/-- A size that has a power of two above it has a class, whose block size is that of the size. -/
theorem Formed.classOf_of_le (formed : h.Formed i) (fits : max size 1 ≤ 2 ^ 63) :
    ∃ k wide, h.classOf size = (.ok k, wide) ∧ h.Picks (max size 1) k wide ∧
      h.config.sizeClass size = .ok k.blockSize ∧ h.config.Suits (max size 1) k.blockSize := by
  obtain ⟨_, _, _, g⟩ := formed.exists_geometry
  have positive : 0 < max size 1 := Nat.lt_of_lt_of_le Nat.one_pos (Nat.le_max_right size 1)
  simp only [Heap.classOf, Config.sizeClass]
  generalize max size 1 = size at fits positive ⊢
  rcases Nat.lt_or_ge h.config.tinyLimit size with above | within
  · have suits : h.config.Suits size (Word.powerAbove size) :=
      ⟨fun within => absurd above (Nat.not_lt.mpr within), fun _ => Word.isLeast_powerAbove size⟩
    rcases Nat.lt_or_ge h.config.maxSize size with beyond | within
    · simp only [Nat.not_le.mpr above, Nat.not_le.mpr beyond, if_false, Heap.hugeClass,
        Word.roundUp?_of_le fits]
      split
      · rename_i listed
        exact ⟨_, h, rfl, .known beyond listed, rfl, suits⟩
      · rename_i fresh
        exact ⟨_, _, rfl, .made beyond fresh, rfl, suits⟩
    · obtain ⟨k, listed, block⟩ := g.powerClass above within
      simp only [Nat.not_le.mpr above, within, if_false, if_true, formed.exponential, listed]
      exact ⟨k, h, rfl, .power above within (formed.exponential ▸ listed), rfl, block ▸ suits⟩
  · obtain ⟨k, listed, block⟩ := g.tinyClass positive within
    simp only [within, if_true, formed.tiny, listed]
    refine ⟨k, h, rfl, .tiny within (formed.tiny ▸ listed), by rw [block], ?_, ?_⟩
    · intro _
      rw [block]
      exact Config.isLeast_tiny positive
    · exact fun above => absurd above (Nat.not_lt.mpr within)

/-- A heap changes with a request only if the size is the first of its class beyond the tables. -/
theorem Formed.widens_cases (formed : h.Formed i) (picks : h.Picks (max size 1) k wide) :
    (wide = h ∧ (h.config.maxSize < size → classBeyond size ∈ h.huge)) ∨
      h.config.maxSize < size ∧ classBeyond size ∉ h.huge ∧
        wide = h.addClass (classBeyond size) := by
  obtain ⟨_, _, _, g⟩ := formed.exists_geometry
  have tables := g.tinyLimit_le
  have positive : 1 ≤ h.config.maxSize := by
    rw [g.maxSize]
    exact Nat.one_le_two_pow
  cases picks with
  | tiny within => exact .inl ⟨rfl, fun beyond => by omega⟩
  | power _ within => exact .inl ⟨rfl, fun beyond => by omega⟩
  | known beyond listed =>
      rw [Nat.max_eq_left (by omega)] at listed
      exact .inl ⟨rfl, fun _ => listed⟩
  | made beyond fresh =>
      have large : 1 ≤ size := by omega
      rw [Nat.max_eq_left large] at beyond fresh
      exact .inr ⟨beyond, fresh, by rw [Nat.max_eq_left large]⟩

end Heap

end RegisteredHeap
