import RegisteredHeap.Proofs.Sizing

/-! # Accepted settings

Settings are accepted by their ranges, and by the order of their sizes once these are rounded up to
powers of two. What is derived from them follows from the rounded sizes alone, so a configuration is
the one that its own values give.
-/

namespace RegisteredHeap

namespace Settings

/-- The settings with every size rounded up. -/
def roundedUp (s : Settings) : Settings :=
  .of s.neverFree fun k => if k = .reserveSegments then s.get k else Word.powerAbove (s.get k)

theorem get_roundedUp (s : Settings) (k : Setting) :
    s.roundedUp.get k = if k = .reserveSegments then s.get k else Word.powerAbove (s.get k) :=
  get_of ..

/-- Each value lies in its range, and the rounded limits increase and stay within their segments. -/
structure Fit (s : Settings) : Prop where
  inRange : ∀ k : Setting, k.least ≤ s.get k ∧ s.get k ≤ Setting.most
  tiny_lt_small : Word.powerAbove s.tinyLimit < Word.powerAbove s.smallLimit
  small_lt_large : Word.powerAbove s.smallLimit < Word.powerAbove s.largeLimit
  tiny_le : Word.powerAbove s.tinyLimit ≤ Word.powerAbove s.tinySegmentSize
  small_le : Word.powerAbove s.smallLimit ≤ Word.powerAbove s.smallSegmentSize
  large_le : Word.powerAbove s.largeLimit ≤ Word.powerAbove s.largeSegmentSize

end Settings

namespace Word

theorem powerAbove_two_pow (k : Nat) : powerAbove (2 ^ k) = 2 ^ k :=
  Nat.le_antisymm (powerAbove_le (Nat.le_refl _)) (le_powerAbove _)

theorem powerAbove_powerAbove (n : Nat) : powerAbove (powerAbove n) = powerAbove n := by
  obtain ⟨k, power⟩ := exists_powerAbove n
  rw [power, powerAbove_two_pow]

end Word

namespace Settings

variable {s : Settings}

/-- To round twice is to round once. -/
theorem roundedUp_roundedUp (s : Settings) : s.roundedUp.roundedUp = s.roundedUp := by
  have same : ∀ k, s.roundedUp.roundedUp.get k = s.roundedUp.get k := by
    intro k
    simp only [get_roundedUp]
    split
    · rfl
    · exact Word.powerAbove_powerAbove _
  calc
    s.roundedUp.roundedUp = of s.neverFree s.roundedUp.roundedUp.get := rfl
    _ = of s.neverFree s.roundedUp.get := by rw [funext same]
    _ = s.roundedUp := rfl

theorem powerAbove_roundedUp (s : Settings) {k : Setting} (size : k ≠ .reserveSegments) :
    Word.powerAbove (s.roundedUp.get k) = Word.powerAbove (s.get k) := by
  rw [get_roundedUp, if_neg size, Word.powerAbove_powerAbove]

/-- Rounded values are in the ranges of the values they come from, and in the same order. -/
theorem Fit.roundedUp (fit : s.Fit) : s.roundedUp.Fit := by
  have tiny : Word.powerAbove s.roundedUp.tinyLimit = Word.powerAbove s.tinyLimit :=
    s.powerAbove_roundedUp (k := .tinyLimit) nofun
  have small : Word.powerAbove s.roundedUp.smallLimit = Word.powerAbove s.smallLimit :=
    s.powerAbove_roundedUp (k := .smallLimit) nofun
  have large : Word.powerAbove s.roundedUp.largeLimit = Word.powerAbove s.largeLimit :=
    s.powerAbove_roundedUp (k := .largeLimit) nofun
  have tinySegment : Word.powerAbove s.roundedUp.tinySegmentSize =
      Word.powerAbove s.tinySegmentSize := s.powerAbove_roundedUp (k := .tinySegmentSize) nofun
  have smallSegment : Word.powerAbove s.roundedUp.smallSegmentSize =
      Word.powerAbove s.smallSegmentSize := s.powerAbove_roundedUp (k := .smallSegmentSize) nofun
  have largeSegment : Word.powerAbove s.roundedUp.largeSegmentSize =
      Word.powerAbove s.largeSegmentSize := s.powerAbove_roundedUp (k := .largeSegmentSize) nofun
  refine ⟨?_, ?_, ?_, ?_, ?_, ?_⟩
  · intro k
    obtain ⟨least, most⟩ := fit.inRange k
    rw [get_roundedUp]
    split
    · exact ⟨least, most⟩
    · refine ⟨least.trans (Word.le_powerAbove _), ?_⟩
      rw [Setting.most, Nat.one_shiftLeft] at most ⊢
      exact Word.powerAbove_le most
  · rw [tiny, small]
    exact fit.tiny_lt_small
  · rw [small, large]
    exact fit.small_lt_large
  · rw [tiny, tinySegment]
    exact fit.tiny_le
  · rw [small, smallSegment]
    exact fit.small_le
  · rw [large, largeSegment]
    exact fit.large_le

end Settings

namespace Config

variable {s : Settings} {c : Config} {k : Setting}

theorem rangeFaults_eq_nil :
    rangeFaults s = [] ↔ ∀ k : Setting, k.least ≤ s.get k ∧ s.get k ≤ Setting.most := by
  constructor
  · exact inRange_of_rangeFaults
  · intro inRange
    rw [rangeFaults, List.filterMap_eq_nil_iff]
    intro k _
    obtain ⟨least, most⟩ := inRange k
    simp only [rangeFault?, Nat.not_lt.mpr least, Nat.not_lt.mpr most, if_false]

/-- A size in its range can be rounded up. -/
theorem roundUp?_of_inRange (inRange : s.get k ≤ Setting.most) :
    Word.roundUp? (s.get k) = some (Word.powerAbove (s.get k)) :=
  Word.roundUp?_of_le (inRange.trans (by decide))

theorem rounded_eq (inRange : s.get k ≤ Setting.most) :
    rounded s k = .ok (Word.powerAbove (s.get k)) := by
  simp only [rounded, roundUp?_of_inRange inRange]

theorem increasing_eq_ok {l : Setting} {m n : Nat} : increasing k m l n = .ok () ↔ m < n := by
  unfold increasing
  split <;> simp_all

theorem contained_eq_ok {l : Setting} {m n : Nat} : contained k m l n = .ok () ↔ m ≤ n := by
  unfold contained
  split <;> simp_all

/-- The configuration of settings whose sizes are powers of two. -/
def ofRounded (s : Settings) : Config where
  neverFree := s.neverFree
  reserveSegments := s.reserveSegments
  tinyLimit := s.tinyLimit
  smallLimit := s.smallLimit
  largeLimit := s.largeLimit
  tinySegmentSize := s.tinySegmentSize
  smallSegmentSize := s.smallSegmentSize
  largeSegmentSize := s.largeSegmentSize
  bucketShift := Word.bitLength s.tinyLimit - 1
  tinyIncrement := 1 <<< tinyIncrementShift
  numTiny := s.tinyLimit >>> tinyIncrementShift
  numSmall := Word.bitLength s.smallLimit - Word.bitLength s.tinyLimit
  numLarge := Word.bitLength s.largeLimit - Word.bitLength s.smallLimit

theorem settings_ofRounded (s : Settings) : (ofRounded s).settings = s := rfl

/-- Once the ranges are right only the order and the segments can be at fault. -/
theorem ofSettings_of_inRange
    (inRange : ∀ k : Setting, k.least ≤ s.get k ∧ s.get k ≤ Setting.most) :
    ofSettings s = (do
      increasing .tinyLimit s.roundedUp.tinyLimit .smallLimit s.roundedUp.smallLimit
      increasing .smallLimit s.roundedUp.smallLimit .largeLimit s.roundedUp.largeLimit
      contained .tinyLimit s.roundedUp.tinyLimit .tinySegmentSize s.roundedUp.tinySegmentSize
      contained .smallLimit s.roundedUp.smallLimit .smallSegmentSize s.roundedUp.smallSegmentSize
      contained .largeLimit s.roundedUp.largeLimit .largeSegmentSize s.roundedUp.largeSegmentSize
      return ofRounded s.roundedUp) := by
  have quiet := rangeFaults_eq_nil.mpr inRange
  have rounds (k : Setting) := rounded_eq (inRange k).2
  simp only [ofSettings, quiet, ne_eq, not_true_eq_false, if_false, rounds]
  rfl

/-- Settings that are not in their ranges are refused as such. -/
theorem ofSettings_of_faults (faulty : rangeFaults s ≠ []) :
    ofSettings s = .error (.outOfRange (rangeFaults s)) := by
  simp only [ofSettings, faulty, ne_eq, not_false_eq_true, if_true]
  rfl

theorem inRange_of_ofSettings (accepted : ofSettings s = .ok c) (k : Setting) :
    k.least ≤ s.get k ∧ s.get k ≤ Setting.most := by
  apply inRange_of_rangeFaults
  by_contra faulty
  rw [ofSettings_of_faults faulty] at accepted
  cases accepted

theorem ofSettings_eq_ok : ofSettings s = .ok c ↔ s.Fit ∧ c = ofRounded s.roundedUp := by
  constructor
  · intro accepted
    have inRange := inRange_of_ofSettings accepted
    rw [ofSettings_of_inRange inRange] at accepted
    obtain ⟨_, first, accepted⟩ := of_bind accepted
    obtain ⟨_, second, accepted⟩ := of_bind accepted
    obtain ⟨_, third, accepted⟩ := of_bind accepted
    obtain ⟨_, fourth, accepted⟩ := of_bind accepted
    obtain ⟨_, fifth, accepted⟩ := of_bind accepted
    cases accepted
    exact ⟨⟨inRange, increasing_eq_ok.mp first, increasing_eq_ok.mp second,
      contained_eq_ok.mp third, contained_eq_ok.mp fourth, contained_eq_ok.mp fifth⟩, rfl⟩
  · rintro ⟨fit, rfl⟩
    have first : increasing .tinyLimit s.roundedUp.tinyLimit .smallLimit s.roundedUp.smallLimit =
        .ok () := increasing_eq_ok.mpr fit.tiny_lt_small
    have second : increasing .smallLimit s.roundedUp.smallLimit .largeLimit
        s.roundedUp.largeLimit = .ok () := increasing_eq_ok.mpr fit.small_lt_large
    have third : contained .tinyLimit s.roundedUp.tinyLimit .tinySegmentSize
        s.roundedUp.tinySegmentSize = .ok () := contained_eq_ok.mpr fit.tiny_le
    have fourth : contained .smallLimit s.roundedUp.smallLimit .smallSegmentSize
        s.roundedUp.smallSegmentSize = .ok () := contained_eq_ok.mpr fit.small_le
    have fifth : contained .largeLimit s.roundedUp.largeLimit .largeSegmentSize
        s.roundedUp.largeSegmentSize = .ok () := contained_eq_ok.mpr fit.large_le
    rw [ofSettings_of_inRange fit.inRange, first, second, third, fourth, fifth]
    rfl

theorem ne_overflows_bind {α : Type} {n : Nat} {x : Except ConfigError Unit}
    {f : Unit → Except ConfigError α} (first : x ≠ .error (.overflows k n))
    (next : f () ≠ .error (.overflows k n)) : (x >>= f) ≠ .error (.overflows k n) := by
  cases x with
  | error e =>
      rintro ⟨⟩
      exact first rfl
  | ok u => exact next

theorem increasing_ne_overflows {l l' : Setting} {m n v : Nat} :
    increasing k m l n ≠ .error (.overflows l' v) := by
  unfold increasing
  split <;> simp

theorem contained_ne_overflows {l l' : Setting} {m n v : Nat} :
    contained k m l n ≠ .error (.overflows l' v) := by
  unfold contained
  split <;> simp

/-- The range check comes first, and what it lets through can be rounded. -/
theorem ofSettings_ne_overflows (s : Settings) (k : Setting) (n : Nat) :
    ofSettings s ≠ .error (.overflows k n) := by
  by_cases quiet : rangeFaults s = []
  · rw [ofSettings_of_inRange (rangeFaults_eq_nil.mp quiet)]
    apply ne_overflows_bind increasing_ne_overflows
    apply ne_overflows_bind increasing_ne_overflows
    apply ne_overflows_bind contained_ne_overflows
    apply ne_overflows_bind contained_ne_overflows
    apply ne_overflows_bind contained_ne_overflows
    rintro ⟨⟩
  · rw [ofSettings_of_faults quiet]
    rintro ⟨⟩

/-- The configuration has the rounded sizes of the settings, and the geometry that follows from them
by itself. No step towards it leaves the words. -/
structure Derives (c : Config) (s : Settings) : Prop where
  neverFree : c.neverFree = s.neverFree
  reserveSegments : c.reserveSegments = s.reserveSegments
  sizes : ∀ k ≠ Setting.reserveSegments,
    IsLeast {m | (∃ e, m = 2 ^ e) ∧ s.get k ≤ m} (c.settings.get k)
  tinyPower : c.tinyLimit = 2 ^ c.bucketShift
  tinyIncrement : c.tinyIncrement = 8
  tiny : c.tinyLimit = 8 * c.numTiny
  small : c.smallLimit = c.tinyLimit * 2 ^ c.numSmall
  large : c.largeLimit = c.smallLimit * 2 ^ c.numLarge
  counts : 1 ≤ c.numTiny ∧ 1 ≤ c.numSmall ∧ 1 ≤ c.numLarge
  maxSize : c.maxSize = 2 * c.largeLimit
  rounds : ∀ k, Word.roundUp? (s.get k) = some (Word.powerAbove (s.get k))
  /-- No difference of lengths falls below zero. -/
  lengths : Word.bitLength c.tinyLimit = c.bucketShift + 1 ∧
    Word.bitLength c.smallLimit = Word.bitLength c.tinyLimit + c.numSmall ∧
    Word.bitLength c.largeLimit = Word.bitLength c.smallLimit + c.numLarge
  /-- The largest size is the largest limit shifted by one place, and no bit is lost. -/
  shifts : c.maxSize = c.largeLimit <<< 1 ∧ c.maxSize < Word.limit

theorem Geometry.derives {tiny small large : Nat} (g : c.Geometry tiny small large)
    (accepted : ofSettings s = .ok c) : c.Derives s := by
  obtain ⟨fit, rfl⟩ := ofSettings_eq_ok.mp accepted
  obtain ⟨least, first, second, most, tinyLimit, smallLimit, largeLimit, bucketShift, numTiny,
    numSmall, numLarge⟩ := g
  have positive : 1 ≤ 2 ^ (tiny - tinyIncrementShift) := Nat.one_le_two_pow
  refine ⟨rfl, rfl, ?_, ?_, rfl, ?_, ?_, ?_, ?_, rfl, ?_, ?_, ?_⟩
  · intro k size
    rw [settings_ofRounded, Settings.get_roundedUp, if_neg size]
    exact Word.isLeast_powerAbove _
  · rw [tinyLimit, bucketShift]
  · rw [tinyLimit, numTiny]
    calc
      2 ^ tiny = 2 ^ (tiny - tinyIncrementShift) * 2 ^ tinyIncrementShift :=
        (Nat.pow_sub_mul_pow 2 least).symm
      _ = 8 * 2 ^ (tiny - tinyIncrementShift) := Nat.mul_comm _ _
  · rw [tinyLimit, smallLimit, numSmall, ← Nat.pow_add]
    exact congrArg (2 ^ ·) (by omega)
  · rw [smallLimit, largeLimit, numLarge, ← Nat.pow_add]
    exact congrArg (2 ^ ·) (by omega)
  · rw [numTiny, numSmall, numLarge]
    exact ⟨positive, by omega, by omega⟩
  · exact fun k => roundUp?_of_inRange (fit.inRange k).2
  · rw [tinyLimit, smallLimit, largeLimit, bucketShift, numSmall, numLarge,
      Word.bitLength_two_pow, Word.bitLength_two_pow, Word.bitLength_two_pow]
    exact ⟨rfl, by omega, by omega⟩
  · rw [Config.maxSize, largeLimit]
    refine ⟨by rw [Nat.shiftLeft_eq, Nat.mul_comm], ?_⟩
    calc
      2 * 2 ^ large = 2 ^ (large + 1) := by rw [Nat.pow_succ, Nat.mul_comm]
      _ < 2 ^ 64 := Nat.pow_lt_pow_right Nat.one_lt_two (by omega)
      _ = Word.limit := (Nat.one_shiftLeft 64).symm

/-- Which settings are accepted, and what becomes of them. -/
structure Judges (s : Settings) : Prop where
  accepts : (∃ c, ofSettings s = .ok c) ↔ s.Fit
  fits : ∀ k n, ofSettings s ≠ .error (.overflows k n)
  derives : ∀ c, ofSettings s = .ok c → c.Derives s
  again : ∀ c, ofSettings s = .ok c → ofSettings c.settings = .ok c

theorem judges (s : Settings) : Judges s where
  accepts := by
    constructor
    · rintro ⟨c, accepted⟩
      exact (ofSettings_eq_ok.mp accepted).1
    · exact fun fit => ⟨_, ofSettings_eq_ok.mpr ⟨fit, rfl⟩⟩
  fits := ofSettings_ne_overflows s
  derives := by
    intro c accepted
    obtain ⟨_, _, _, g⟩ := exists_geometry accepted
    exact g.derives accepted
  again := by
    intro c accepted
    obtain ⟨fit, rfl⟩ := ofSettings_eq_ok.mp accepted
    exact ofSettings_eq_ok.mpr ⟨fit.roundedUp, by rw [settings_ofRounded, s.roundedUp_roundedUp]⟩

/-- A limit may round up to its segment. -/
example : (ofSettings { tinyLimit := 100, tinySegmentSize := 120 }).toOption.map
    (fun c => (c.tinyLimit, c.tinySegmentSize, c.numTiny)) = some (128, 128, 16) := by
  decide

end Config

end RegisteredHeap
