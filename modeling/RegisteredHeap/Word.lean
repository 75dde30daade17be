/-! # Words

Sizes, addresses and counters fit a word of 64 bits. Arithmetic is on `Nat`; a result that has to
fit is compared with `limit` where it is made.
-/

namespace RegisteredHeap.Word

def limit : Nat := 1 <<< 64

/-- Largest size of a layout. -/
def maxLayout : Nat := 1 <<< 63 - 1

/-- `n`, or the largest word if `n` does not fit. -/
def saturate (n : Nat) : Nat := min n (limit - 1)

/-- What a word keeps of `n`. -/
def wrap (n : Nat) : Nat := n % limit

/-- One for 0 and 1, otherwise the number of binary digits of `n`. -/
def bitLength (n : Nat) : Nat := if n < 2 then 1 else n.log2 + 1

/-- Least power of two that is not below `n`. -/
def powerAbove (n : Nat) : Nat := if n ≤ 1 then 1 else 1 <<< ((n - 1).log2 + 1)

/-- `powerAbove n`, if it fits a word. -/
def roundUp? (n : Nat) : Option Nat :=
  if powerAbove n < limit then some (powerAbove n) else none

/-- Least multiple of `unit` that is not below `n`. -/
def multipleAbove (n unit : Nat) : Nat := (n + unit - 1) / unit * unit

theorem le_powerAbove (n : Nat) : n ≤ powerAbove n := by
  unfold powerAbove
  split
  · assumption
  · rw [Nat.one_shiftLeft]
    have := Nat.lt_log2_self (n := n - 1)
    omega

theorem powerAbove_pos (n : Nat) : 0 < powerAbove n := by
  unfold powerAbove
  split
  · exact Nat.one_pos
  · rw [Nat.one_shiftLeft]
    exact Nat.two_pow_pos _

theorem roundUp?_eq_some {n p : Nat} (h : roundUp? n = some p) : p = powerAbove n ∧ p < limit := by
  unfold roundUp? at h
  split at h
  · simp only [Option.some.injEq] at h
    subst h
    exact ⟨rfl, by assumption⟩
  · simp at h

end RegisteredHeap.Word
