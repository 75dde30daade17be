import Mathlib.Algebra.Group.Nat.Defs
import Mathlib.Data.List.Basic
import Mathlib.Data.Nat.Log
import RegisteredHeap.SizeClass

/-! # Geometry of the size classes

The limits of an accepted configuration are powers of two, so all that is derived from them follows
from three exponents. The block sizes of its classes increase from the increment of the tiny classes
up to the largest size.
-/

namespace RegisteredHeap

namespace Word

theorem bitLength_eq {n k : Nat} (least : 2 ^ k ≤ n) (less : n < 2 ^ (k + 1)) :
    bitLength n = k + 1 := by
  unfold bitLength
  split
  · cases k with
    | zero => rfl
    | succ k =>
        have two : 2 ≤ 2 ^ (k + 1) := Nat.le_self_pow (Nat.succ_ne_zero k) 2
        omega
  · rw [(Nat.log2_eq_iff (by omega)).mpr ⟨least, less⟩]

theorem bitLength_two_pow (k : Nat) : bitLength (2 ^ k) = k + 1 :=
  bitLength_eq (Nat.le_refl _) (Nat.pow_lt_pow_succ Nat.one_lt_two)

theorem powerAbove_le {n k : Nat} (fits : n ≤ 2 ^ k) : powerAbove n ≤ 2 ^ k := by
  unfold powerAbove
  split
  · exact Nat.one_le_two_pow
  · rw [Nat.one_shiftLeft]
    apply Nat.pow_le_pow_right Nat.two_pos
    have short : (n - 1).log2 < k := (Nat.log2_lt (by omega)).mpr (by omega)
    exact short

theorem exists_powerAbove (n : Nat) : ∃ k, powerAbove n = 2 ^ k := by
  unfold powerAbove
  split
  · exact ⟨0, rfl⟩
  · exact ⟨_, Nat.one_shiftLeft _⟩

theorem exists_roundUp? {n p : Nat} (rounded : roundUp? n = some p) :
    ∃ k, p = 2 ^ k ∧ n ≤ 2 ^ k ∧ ∀ j, n ≤ 2 ^ j → k ≤ j := by
  obtain ⟨rfl, -⟩ := roundUp?_eq_some rounded
  obtain ⟨k, power⟩ := exists_powerAbove n
  refine ⟨k, power, power ▸ le_powerAbove n, ?_⟩
  intro j fits
  have least := powerAbove_le fits
  rw [power] at least
  exact (Nat.pow_le_pow_iff_right Nat.one_lt_two).mp least

end Word

namespace Config

/-- The limits are two to these powers, and the rest is derived from them. -/
structure Geometry (c : Config) (tiny small large : Nat) : Prop where
  least : tinyIncrementShift ≤ tiny
  tiny_lt_small : tiny < small
  small_lt_large : small < large
  most : large ≤ 61
  tinyLimit : c.tinyLimit = 2 ^ tiny
  smallLimit : c.smallLimit = 2 ^ small
  largeLimit : c.largeLimit = 2 ^ large
  bucketShift : c.bucketShift = tiny
  numTiny : c.numTiny = 2 ^ (tiny - tinyIncrementShift)
  numSmall : c.numSmall = small - tiny
  numLarge : c.numLarge = large - small

theorem of_bind {α β : Type} {x : Except ConfigError α} {f : α → Except ConfigError β} {r : β}
    (done : x.bind f = .ok r) : ∃ a, x = .ok a ∧ f a = .ok r := by
  cases x with
  | error e => cases done
  | ok a => exact ⟨a, rfl, done⟩

theorem inRange_of_rangeFaults {s : Settings} (none : rangeFaults s = []) (k : Setting) :
    k.least ≤ s.get k ∧ s.get k ≤ Setting.most := by
  have listed : k ∈ Setting.byName := by cases k <;> decide
  have quiet : rangeFault? s k = Option.none := List.filterMap_eq_nil_iff.mp none k listed
  unfold rangeFault? at quiet
  split at quiet
  · cases quiet
  split at quiet
  · cases quiet
  · omega

theorem exists_rounded {s : Settings} {k : Setting} {n : Nat} (none : rangeFaults s = [])
    (done : rounded s k = .ok n) : ∃ e, n = 2 ^ e ∧ k.least ≤ 2 ^ e ∧ e ≤ 61 := by
  obtain ⟨least, most⟩ := inRange_of_rangeFaults none k
  unfold rounded at done
  cases power : Word.roundUp? (s.get k) with
  | none => simp [power] at done
  | some p =>
      simp only [power, Except.ok.injEq] at done
      obtain ⟨e, same, above, below⟩ := Word.exists_roundUp? power
      exact ⟨e, done ▸ same, least.trans above, below 61 most⟩

theorem lt_of_increasing {k l : Setting} {m n : Nat} {u : Unit}
    (done : increasing k m l n = .ok u) : m < n := by
  unfold increasing at done
  split at done
  · cases done
  · omega

/-- Accepted settings have a geometry. -/
theorem exists_geometry {s : Settings} {c : Config} (accepted : ofSettings s = .ok c) :
    ∃ tiny small large, c.Geometry tiny small large := by
  simp only [ofSettings, bind] at accepted
  split at accepted
  · cases accepted
  rename_i quiet
  have none : rangeFaults s = [] := not_not.mp quiet
  obtain ⟨tiny, tinyPower, accepted⟩ := of_bind accepted
  obtain ⟨small, smallPower, accepted⟩ := of_bind accepted
  obtain ⟨large, largePower, accepted⟩ := of_bind accepted
  obtain ⟨_, -, accepted⟩ := of_bind accepted
  obtain ⟨_, -, accepted⟩ := of_bind accepted
  obtain ⟨_, -, accepted⟩ := of_bind accepted
  obtain ⟨_, tinyBelow, accepted⟩ := of_bind accepted
  obtain ⟨_, smallBelow, accepted⟩ := of_bind accepted
  obtain ⟨_, -, accepted⟩ := of_bind accepted
  obtain ⟨_, -, accepted⟩ := of_bind accepted
  obtain ⟨_, -, accepted⟩ := of_bind accepted
  cases accepted
  obtain ⟨a, rfl, least, -⟩ := exists_rounded none tinyPower
  obtain ⟨b, rfl, -⟩ := exists_rounded none smallPower
  obtain ⟨d, rfl, -, most⟩ := exists_rounded none largePower
  have eight : tinyIncrementShift ≤ a :=
    (Nat.pow_le_pow_iff_right Nat.one_lt_two).mp (show 2 ^ 3 ≤ 2 ^ a from least)
  refine ⟨a, b, d, eight, ?_, ?_, most, rfl, rfl, rfl, ?_, ?_, ?_, ?_⟩
  · exact (Nat.pow_lt_pow_iff_right Nat.one_lt_two).mp (lt_of_increasing tinyBelow)
  · exact (Nat.pow_lt_pow_iff_right Nat.one_lt_two).mp (lt_of_increasing smallBelow)
  · simp only [Word.bitLength_two_pow, Nat.add_sub_cancel]
  · exact (Nat.shiftRight_eq_div_pow _ _).trans (Nat.pow_div eight Nat.two_pos)
  · simp only [Word.bitLength_two_pow, Nat.add_sub_add_right]
  · simp only [Word.bitLength_two_pow, Nat.add_sub_add_right]

variable {c : Config} {tiny small large : Nat}

namespace Geometry

theorem maxSize (g : c.Geometry tiny small large) : c.maxSize = 2 ^ (large + 1) := by
  rw [Config.maxSize, g.largeLimit, Nat.pow_succ, Nat.mul_comm]

/-- The bucket of a size is found from the powers of two around it. -/
theorem exponentialBucket (g : c.Geometry tiny small large) {size i : Nat}
    (above : 2 ^ (tiny + i) < size) (within : size ≤ 2 ^ (tiny + i + 1)) :
    c.exponentialBucket size = i := by
  have length : Word.bitLength ((size - 1) >>> tiny) = i + 1 := by
    rw [Nat.shiftRight_eq_div_pow]
    apply Word.bitLength_eq
    · rw [Nat.le_div_iff_mul_le (Nat.two_pow_pos _), ← Nat.pow_add, Nat.add_comm]
      omega
    · rw [Nat.div_lt_iff_lt_mul (Nat.two_pow_pos _), ← Nat.pow_add,
        show i + 1 + tiny = tiny + i + 1 by omega]
      have positive := Nat.two_pow_pos (tiny + i)
      omega
  rw [Config.exponentialBucket, g.bucketShift, length, Nat.add_sub_cancel]

theorem exponentialClass (g : c.Geometry tiny small large) (i : Nat) :
    (c.exponentialClass i).blockSize = 2 ^ (tiny + i + 1) := by
  have order := g.tiny_lt_small
  have order' := g.small_lt_large
  simp only [Config.exponentialClass, g.numSmall, g.numLarge, g.tinyLimit, g.smallLimit,
    g.largeLimit, Nat.shiftLeft_eq, ← Nat.pow_add]
  split
  · exact congrArg (2 ^ ·) (by omega)
  split
  · exact congrArg (2 ^ ·) (by omega)
  · exact congrArg (2 ^ ·) (by omega)

theorem exponentialSizes (g : c.Geometry tiny small large) :
    c.exponentialClasses.map SizeClass.blockSize =
      (List.range (large - tiny + 1)).map fun i => 2 ^ (tiny + i + 1) := by
  have order := g.tiny_lt_small
  have order' := g.small_lt_large
  have last : c.exponentialBucket c.maxSize = large - tiny := by
    rw [g.maxSize]
    apply g.exponentialBucket
    · rw [show tiny + (large - tiny) = large by omega]
      exact Nat.pow_lt_pow_succ Nat.one_lt_two
    · rw [show tiny + (large - tiny) = large by omega]
  rw [exponentialClasses, last, List.map_map]
  apply List.map_congr_left
  intro i _
  exact g.exponentialClass i

theorem tinySizes (g : c.Geometry tiny small large) :
    c.tinyClasses.map SizeClass.blockSize =
      (List.range (2 ^ (tiny - tinyIncrementShift))).map fun i =>
        (i + 1) * 2 ^ tinyIncrementShift := by
  rw [tinyClasses, g.numTiny, List.map_map]
  apply List.map_congr_left
  intro i _
  exact Nat.shiftLeft_eq _ _

theorem tinySize_le (g : c.Geometry tiny small large) {n : Nat}
    (member : n ∈ c.tinyClasses.map SizeClass.blockSize) : n ≤ 2 ^ tiny := by
  rw [g.tinySizes] at member
  obtain ⟨i, inside, rfl⟩ := List.mem_map.mp member
  calc
    (i + 1) * 2 ^ tinyIncrementShift ≤ 2 ^ (tiny - tinyIncrementShift) * 2 ^ tinyIncrementShift :=
      Nat.mul_le_mul_right _ (List.mem_range.mp inside)
    _ = 2 ^ tiny := Nat.pow_sub_mul_pow 2 g.least

/-- The block sizes of a table increase. -/
theorem increasing (g : c.Geometry tiny small large) :
    ((c.tinyClasses ++ c.exponentialClasses).map SizeClass.blockSize).Pairwise (· < ·) := by
  rw [List.map_append, List.pairwise_append]
  refine ⟨?_, ?_, ?_⟩
  · rw [g.tinySizes, List.pairwise_map]
    refine List.pairwise_lt_range.imp ?_
    intro i j less
    exact Nat.mul_lt_mul_of_pos_right (Nat.succ_lt_succ less) (Nat.two_pow_pos _)
  · rw [g.exponentialSizes, List.pairwise_map]
    refine List.pairwise_lt_range.imp ?_
    intro i j less
    exact Nat.pow_lt_pow_right Nat.one_lt_two (by omega)
  · intro m tinySize n exponential
    rw [g.exponentialSizes] at exponential
    obtain ⟨i, -, rfl⟩ := List.mem_map.mp exponential
    calc
      m ≤ 2 ^ tiny := g.tinySize_le tinySize
      _ < 2 ^ (tiny + i + 1) := Nat.pow_lt_pow_right Nat.one_lt_two (by omega)

theorem size_le (g : c.Geometry tiny small large) {n : Nat}
    (member : n ∈ (c.tinyClasses ++ c.exponentialClasses).map SizeClass.blockSize) :
    n ≤ c.maxSize := by
  have order := g.tiny_lt_small
  have order' := g.small_lt_large
  rw [g.maxSize]
  rw [List.map_append, List.mem_append] at member
  rcases member with first | second
  · calc
      n ≤ 2 ^ tiny := g.tinySize_le first
      _ ≤ 2 ^ (large + 1) := Nat.pow_le_pow_right Nat.two_pos (by omega)
  · rw [g.exponentialSizes] at second
    obtain ⟨i, inside, rfl⟩ := List.mem_map.mp second
    have bound := List.mem_range.mp inside
    exact Nat.pow_le_pow_right Nat.two_pos (by omega)

theorem size_pos (g : c.Geometry tiny small large) {n : Nat}
    (member : n ∈ (c.tinyClasses ++ c.exponentialClasses).map SizeClass.blockSize) : 0 < n := by
  rw [List.map_append, g.tinySizes, g.exponentialSizes, List.mem_append, List.mem_map,
    List.mem_map] at member
  rcases member with ⟨i, -, rfl⟩ | ⟨i, -, rfl⟩
  · exact Nat.mul_pos (Nat.succ_pos i) (Nat.two_pow_pos _)
  · exact Nat.two_pow_pos _

end Geometry

end Config

end RegisteredHeap
