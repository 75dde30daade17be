import RegisteredHeap.Proofs.Acceptance
import RegisteredHeap.Proofs.Overflow
import RegisteredHeap.Proofs.Tenancy

/-! # Tables of classes

The block sizes of the tables join without a gap, from the increment of the tiny classes up to the
largest size, and a size is served by the class between whose block size and that of the class
before it lies. A block always fits the segments of its class, those of a class made on demand
included.
-/

namespace RegisteredHeap

/-- The block size of the class before the one at a place, none before the first. -/
def sizeBefore (table : List SizeClass) : Nat → Nat
  | 0 => 0
  | j + 1 => (table[j]?.map SizeClass.blockSize).getD 0

section Table

variable {table : List SizeClass} {i j size : Nat} {k k' : SizeClass}

theorem le_sizeBefore (increasing : (table.map SizeClass.blockSize).Pairwise (· < ·))
    (first : table[i]? = some k) (less : i < j) (second : table[j]? = some k') :
    k.blockSize ≤ sizeBefore table j := by
  cases j with
  | zero => omega
  | succ n =>
      obtain ⟨inside, -⟩ := List.getElem?_eq_some_iff.mp second
      obtain ⟨inside', rfl⟩ := List.getElem?_eq_some_iff.mp first
      have place : table[n]? = some table[n] := List.getElem?_eq_getElem (by omega)
      simp only [sizeBefore, place, Option.map_some, Option.getD_some]
      rcases Nat.lt_or_ge i n with before | same
      · have sizes := List.pairwise_iff_getElem.mp increasing i n (by simpa using inside')
          (by simp; omega) before
        simp only [List.getElem_map] at sizes
        exact Nat.le_of_lt sizes
      · have equal : i = n := by omega
        simp only [equal, Nat.le_refl]

/-- No size lies before two classes at once. -/
theorem eq_of_between (increasing : (table.map SizeClass.blockSize).Pairwise (· < ·))
    (first : table[i]? = some k) (second : table[j]? = some k')
    (above : sizeBefore table i < size) (within : size ≤ k.blockSize)
    (above' : sizeBefore table j < size) (within' : size ≤ k'.blockSize) : i = j := by
  rcases Nat.lt_trichotomy i j with less | same | more
  · have behind := le_sizeBefore increasing first less second
    omega
  · exact same
  · have behind := le_sizeBefore increasing second more first
    omega

end Table

namespace Config

variable {s : Settings} {c : Config} {tiny small large i size : Nat} {k : SizeClass}

/-- The size of the segments from which blocks above the tiny limit are cut. -/
def segmentFor (c : Config) (n : Nat) : Nat :=
  if n ≤ c.smallLimit then c.smallSegmentSize
  else if n ≤ c.largeLimit then c.largeSegmentSize
  else n

/-- Segments are as large as the blocks of their classes may be. -/
theorem limits_le_segments (accepted : ofSettings s = .ok c) :
    c.tinyLimit ≤ c.tinySegmentSize ∧ c.smallLimit ≤ c.smallSegmentSize ∧
      c.largeLimit ≤ c.largeSegmentSize := by
  obtain ⟨fit, rfl⟩ := ofSettings_eq_ok.mp accepted
  exact ⟨fit.tiny_le, fit.small_le, fit.large_le⟩

theorem le_segmentFor (accepted : ofSettings s = .ok c) (n : Nat) : n ≤ c.segmentFor n := by
  obtain ⟨-, smallFits, largeFits⟩ := limits_le_segments accepted
  unfold segmentFor
  split
  · omega
  split
  · omega
  · exact Nat.le_refl n

theorem length_tinyClasses (c : Config) : c.tinyClasses.length = c.numTiny := by
  simp only [tinyClasses, List.length_map, List.length_range]

theorem getElem?_tinyClasses (inside : i < c.numTiny) :
    c.tinyClasses[i]? = some ⟨8 * (i + 1), c.tinySegmentSize⟩ := by
  rw [tinyClasses, List.getElem?_map, List.getElem?_range inside, Option.map_some,
    Nat.shiftLeft_eq, Nat.mul_comm]
  rfl

theorem segmentSize_exponentialClass (c : Config) (i : Nat) :
    (c.exponentialClass i).segmentSize =
      if i < c.numSmall then c.smallSegmentSize
      else if i < c.numSmall + c.numLarge then c.largeSegmentSize
      else (c.exponentialClass i).blockSize := by
  unfold exponentialClass
  split
  · rfl
  · split <;> rfl

namespace Geometry

theorem numExponential (g : c.Geometry tiny small large) :
    c.numSmall + c.numLarge = large - tiny := by
  have first := g.tiny_lt_small
  have second := g.small_lt_large
  rw [g.numSmall, g.numLarge]
  omega

theorem length_exponential (g : c.Geometry tiny small large) :
    c.exponentialClasses.length = c.numSmall + c.numLarge + 1 := by
  rw [exponentialClasses, List.length_map, List.length_range, g.exponentialBucket_maxSize,
    g.numExponential]

/-- The three ways to build a class are one: the limits meet where one way ends. -/
theorem exponentialClass_eq (g : c.Geometry tiny small large) (i : Nat) :
    c.exponentialClass i =
      ⟨c.tinyLimit * 2 ^ (i + 1), c.segmentFor (c.tinyLimit * 2 ^ (i + 1))⟩ := by
  have first := g.tiny_lt_small
  have second := g.small_lt_large
  have block : c.tinyLimit * 2 ^ (i + 1) = 2 ^ (tiny + i + 1) := by
    rw [g.tinyLimit, ← Nat.pow_add]
    rfl
  have power {m n : Nat} : 2 ^ m ≤ 2 ^ n ↔ m ≤ n := Nat.pow_le_pow_iff_right Nat.one_lt_two
  have low : tiny + i + 1 ≤ small ↔ i < c.numSmall := by
    rw [g.numSmall]
    omega
  have middle : tiny + i + 1 ≤ large ↔ i < c.numSmall + c.numLarge := by
    rw [g.numExponential]
    omega
  have segment : (c.exponentialClass i).segmentSize = c.segmentFor (2 ^ (tiny + i + 1)) := by
    simp only [segmentSize_exponentialClass, segmentFor, g.smallLimit, g.largeLimit, power, low,
      middle, g.exponentialClass]
  calc
    c.exponentialClass i = ⟨(c.exponentialClass i).blockSize, (c.exponentialClass i).segmentSize⟩ :=
      rfl
    _ = ⟨2 ^ (tiny + i + 1), c.segmentFor (2 ^ (tiny + i + 1))⟩ := by
      rw [segment, g.exponentialClass]
    _ = _ := by rw [block]

theorem getElem?_exponential (g : c.Geometry tiny small large)
    (inside : i ≤ c.numSmall + c.numLarge) :
    c.exponentialClasses[i]? =
      some ⟨c.tinyLimit * 2 ^ (i + 1), c.segmentFor (c.tinyLimit * 2 ^ (i + 1))⟩ := by
  have listed : i < c.exponentialBucket c.maxSize + 1 := by
    rw [g.exponentialBucket_maxSize, ← g.numExponential]
    omega
  rw [exponentialClasses, List.getElem?_map, List.getElem?_range listed, Option.map_some,
    g.exponentialClass_eq]

/-- The last class holds the largest size alone. -/
theorem last_exponential (g : c.Geometry tiny small large) :
    c.exponentialClasses[c.numSmall + c.numLarge]? = some ⟨c.maxSize, c.maxSize⟩ := by
  have first := g.tiny_lt_small
  have second := g.small_lt_large
  have block : c.tinyLimit * 2 ^ (c.numSmall + c.numLarge + 1) = c.maxSize := by
    rw [g.tinyLimit, g.maxSize, ← Nat.pow_add, g.numExponential]
    exact congrArg (2 ^ ·) (by omega)
  have beyond : ¬ c.maxSize ≤ c.largeLimit := by
    rw [g.maxSize, g.largeLimit, Nat.pow_le_pow_iff_right Nat.one_lt_two]
    omega
  have beyond' : ¬ c.maxSize ≤ c.smallLimit := by
    rw [g.maxSize, g.smallLimit, Nat.pow_le_pow_iff_right Nat.one_lt_two]
    omega
  rw [g.getElem?_exponential (Nat.le_refl _), block, segmentFor, if_neg beyond', if_neg beyond]

theorem roomy (g : c.Geometry tiny small large) (accepted : ofSettings s = .ok c)
    (member : k ∈ c.tinyClasses ++ c.exponentialClasses) : k.blockSize ≤ k.segmentSize := by
  rcases List.mem_append.mp member with first | second
  · have block := g.tinySize_le (List.mem_map_of_mem first)
    obtain ⟨i, -, rfl⟩ := List.mem_map.mp first
    rw [← g.tinyLimit] at block
    exact block.trans (limits_le_segments accepted).1
  · obtain ⟨i, listed⟩ := List.mem_iff_getElem?.mp second
    obtain ⟨inside, -⟩ := List.getElem?_eq_some_iff.mp listed
    rw [g.length_exponential] at inside
    rw [g.getElem?_exponential (Nat.lt_succ_iff.mp inside), Option.some.injEq] at listed
    subst listed
    exact le_segmentFor accepted _

theorem sizeBefore_tiny (inside : i < c.numTiny) :
    sizeBefore (c.tinyClasses ++ c.exponentialClasses) (i + 1) = 8 * (i + 1) := by
  have listed : i < c.tinyClasses.length := c.length_tinyClasses ▸ inside
  rw [sizeBefore, List.getElem?_append_left listed, getElem?_tinyClasses inside, Option.map_some,
    Option.getD_some]

theorem sizeBefore_exponential (g : c.Geometry tiny small large)
    (inside : i ≤ c.numSmall + c.numLarge) :
    sizeBefore (c.tinyClasses ++ c.exponentialClasses) (c.numTiny + i + 1) =
      2 ^ (tiny + (i + 1)) := by
  have behind : c.tinyClasses.length ≤ c.numTiny + i := by
    rw [c.length_tinyClasses]
    exact Nat.le_add_right _ _
  rw [sizeBefore, List.getElem?_append_right behind, c.length_tinyClasses, Nat.add_sub_cancel_left,
    g.getElem?_exponential inside, Option.map_some, Option.getD_some, g.tinyLimit, ← Nat.pow_add]

theorem tiny_above (g : c.Geometry tiny small large) (positive : 0 < size)
    (within : size ≤ c.tinyLimit) :
    sizeBefore (c.tinyClasses ++ c.exponentialClasses) (tinyBucket size) < size := by
  obtain ⟨k, listed, -⟩ := g.tinyClass positive within
  have inside := (List.getElem?_eq_some_iff.mp listed).1
  rw [c.length_tinyClasses] at inside
  have bucket : tinyBucket size = (size - 1) / 8 := Nat.shiftRight_eq_div_pow _ _
  cases before : tinyBucket size with
  | zero => exact positive
  | succ n =>
      rw [sizeBefore_tiny (by omega)]
      omega

/-- The class before the first power of two is the last tiny one. -/
theorem power_above (g : c.Geometry tiny small large) (above : c.tinyLimit < size)
    (within : size ≤ c.maxSize) :
    sizeBefore (c.tinyClasses ++ c.exponentialClasses)
      (c.numTiny + c.exponentialBucket size) < size := by
  obtain ⟨i, inside, least, power⟩ := g.exists_bucket above within
  rw [g.exponentialBucket least (power ▸ Word.le_powerAbove size)]
  cases i with
  | zero =>
      obtain ⟨n, count⟩ : ∃ n, c.numTiny = n + 1 :=
        Nat.exists_eq_add_one.mpr (g.numTiny ▸ Nat.two_pow_pos _)
      have limit : c.tinyLimit = 8 * (n + 1) := by
        rw [← count, g.numTiny, g.tinyLimit, Nat.mul_comm]
        exact (Nat.pow_sub_mul_pow 2 g.least).symm
      rw [Nat.add_zero, count, sizeBefore_tiny (by omega), ← limit]
      exact above
  | succ n =>
      rw [← Nat.add_assoc, g.sizeBefore_exponential (by rw [g.numExponential]; omega)]
      exact least

end Geometry

/-- By default the fifth class is the last with small segments. -/
example : ((ofSettings {}).toOption.map fun c => [c.exponentialClass 4, c.exponentialClass 5]) =
    some [⟨4096, 65536⟩, ⟨8192, 2097152⟩] := by
  decide

end Config

namespace Heap

variable {h wide : Heap} {i j size : Nat} {k : SizeClass} {p : Pool}

/-- The tables of a heap, and what is cut from the segments of its pools. -/
structure Tabulated (h : Heap) : Prop where
  accepted : ∃ s, Config.ofSettings s = .ok h.config
  tiny : h.tiny.length = h.config.numTiny ∧ ∀ i < h.config.numTiny,
    h.tiny[i]? = some ⟨8 * (i + 1), h.config.tinySegmentSize⟩
  exponential : h.exponential.length = h.config.numSmall + h.config.numLarge + 1 ∧
    ∀ i ≤ h.config.numSmall + h.config.numLarge, h.exponential[i]? =
      some ⟨h.config.tinyLimit * 2 ^ (i + 1),
        h.config.segmentFor (h.config.tinyLimit * 2 ^ (i + 1))⟩
  last : h.exponential[h.config.numSmall + h.config.numLarge]? =
    some ⟨h.config.maxSize, h.config.maxSize⟩
  /-- In all classes, those made on demand included, a segment holds a block. -/
  roomy : ∀ k ∈ h.classes, 0 < k.blockSize ∧ k.blockSize ≤ k.segmentSize
  /-- A class serves the sizes up to its blocks that are too large for the class before. -/
  selected : ∀ j k, (h.tiny ++ h.exponential)[j]? = some k → ∀ size,
    (h.classOf size = (.ok k, h) ↔
      sizeBefore (h.tiny ++ h.exponential) j < max size 1 ∧ max size 1 ≤ k.blockSize)
  /-- Neither the tables nor the buckets of sizes leave the words. -/
  computed : h.config.tables? = some (h.tiny, h.exponential)
  buckets : ∀ size, 0 < size →
    Config.tinyBucket? size = some (Config.tinyBucket size) ∧
      h.config.exponentialBucket? size = some (h.config.exponentialBucket size)
  /-- Nor does the cutting of an extent that is long enough for the pool. -/
  sliced : ∀ p ∈ h.pools, ∀ e r d, p.segmentSize ≤ e.size →
    1 ≤ (Segment.ofExtent p.key e r d).capacity ∧ ∀ base, base + e.size ≤ Word.limit →
      (Segment.ofExtent p.key e r d).addresses? base =
        some ((Segment.ofExtent p.key e r d).blocks.map fun b => base + b.address.offset)

theorem Formed.roomy (formed : h.Formed i) (member : k ∈ h.classes) :
    k.blockSize ≤ k.segmentSize := by
  obtain ⟨s, accepted⟩ := formed.accepted
  obtain ⟨_, _, _, g⟩ := Config.exists_geometry accepted
  rw [classes, formed.tiny, formed.exponential, List.mem_append] at member
  rcases member with table | huge
  · exact g.roomy accepted table
  · exact (formed.single k huge).ge

/-- A size up to the largest one lies right before the class that it gets. -/
theorem Formed.between (formed : h.Formed i) (within : max size 1 ≤ h.config.maxSize) :
    ∃ j k, (h.tiny ++ h.exponential)[j]? = some k ∧ h.classOf size = (.ok k, h) ∧
      sizeBefore (h.tiny ++ h.exponential) j < max size 1 ∧ max size 1 ≤ k.blockSize := by
  obtain ⟨_, _, _, g⟩ := formed.exists_geometry
  have positive : 0 < max size 1 := Nat.lt_of_lt_of_le Nat.one_pos (Nat.le_max_right size 1)
  have fits : max size 1 ≤ 2 ^ 63 := within.trans g.maxSize_le
  obtain ⟨k, wide, routed, picks, -, suits⟩ := formed.classOf_of_le fits
  cases picks with
  | tiny small listed =>
      have inside := (List.getElem?_eq_some_iff.mp listed).1
      refine ⟨_, k, (List.getElem?_append_left inside).trans listed, routed, ?_, suits.le⟩
      rw [formed.tiny, formed.exponential]
      exact g.tiny_above positive small
  | power above _ listed =>
      have length : h.tiny.length = h.config.numTiny := formed.tiny ▸ h.config.length_tinyClasses
      refine ⟨h.config.numTiny + h.config.exponentialBucket (max size 1), k, ?_, routed, ?_,
        suits.le⟩
      · rw [List.getElem?_append_right (length ▸ Nat.le_add_right _ _), length,
          Nat.add_sub_cancel_left]
        exact listed
      · rw [formed.tiny, formed.exponential]
        exact g.power_above above within
  | known beyond => omega
  | made beyond => omega

theorem Formed.selected (formed : h.Formed i) (listed : (h.tiny ++ h.exponential)[j]? = some k)
    (size : Nat) : h.classOf size = (.ok k, h) ↔
      sizeBefore (h.tiny ++ h.exponential) j < max size 1 ∧ max size 1 ≤ k.blockSize := by
  obtain ⟨_, _, _, g⟩ := formed.exists_geometry
  have increasing : ((h.tiny ++ h.exponential).map SizeClass.blockSize).Pairwise (· < ·) := by
    rw [formed.tiny, formed.exponential]
    exact g.increasing
  have largest : k.blockSize ≤ h.config.maxSize := by
    apply g.size_le
    rw [← formed.tiny, ← formed.exponential]
    exact List.mem_map_of_mem (List.mem_of_getElem? listed)
  constructor
  · intro routed
    have within : max size 1 ≤ k.blockSize := by
      rcases Nat.lt_or_ge (2 ^ 63) (max size 1) with large | fits
      · rw [formed.classOf_of_lt large] at routed
        cases routed
      · obtain ⟨k', wide, routed', -, -, suits⟩ := formed.classOf_of_le fits
        rw [routed] at routed'
        cases routed'
        exact suits.le
    obtain ⟨j', k', listed', routed', above, -⟩ := formed.between (within.trans largest)
    rw [routed] at routed'
    cases routed'
    have distinct : (h.tiny ++ h.exponential).Nodup :=
      .of_map SizeClass.blockSize (increasing.imp Nat.ne_of_lt)
    have same : j' = j :=
      (List.getElem?_inj (List.getElem?_eq_some_iff.mp listed').1 distinct).mp
        (listed'.trans listed.symm)
    exact ⟨same ▸ above, within⟩
  · rintro ⟨above, within⟩
    obtain ⟨j', k', listed', routed, above', within'⟩ := formed.between (within.trans largest)
    have same := eq_of_between increasing listed' listed above' within' above within
    rw [same, listed, Option.some.injEq] at listed'
    exact listed' ▸ routed

theorem Formed.sliced (formed : h.Formed i) (member : p ∈ h.pools) {e : Extent} (r : Region)
    (d : Option DeviceSide) (long : p.segmentSize ≤ e.size) :
    1 ≤ (Segment.ofExtent p.key e r d).capacity ∧ ∀ base, base + e.size ≤ Word.limit →
      (Segment.ofExtent p.key e r d).addresses? base =
        some ((Segment.ofExtent p.key e r d).blocks.map fun b => base + b.address.offset) := by
  obtain ⟨-, -, k, listed, block, segment⟩ := formed.of_mem member
  have positive := formed.blockSize_pos member
  have fits : p.key.blockSize ≤ e.size := by
    have room := formed.roomy listed
    omega
  exact ⟨Nat.div_pos fits positive, fun base within => Segment.addresses?_eq positive rfl within⟩

theorem Formed.tabulated (formed : h.Formed i) : h.Tabulated := by
  obtain ⟨_, _, _, g⟩ := formed.exists_geometry
  refine ⟨formed.accepted, ?_, ?_, ?_, ?_, fun _ _ => formed.selected, ?_, ?_, ?_⟩
  · rw [formed.tiny]
    exact ⟨h.config.length_tinyClasses, fun _ => Config.getElem?_tinyClasses⟩
  · rw [formed.exponential]
    exact ⟨g.length_exponential, fun _ => g.getElem?_exponential⟩
  · rw [formed.exponential]
    exact g.last_exponential
  · exact fun k member => ⟨formed.size_pos member, formed.roomy member⟩
  · rw [formed.tiny, formed.exponential]
    exact g.tables?_eq
  · exact fun size positive => ⟨Config.tinyBucket?_eq positive, g.exponentialBucket?_eq positive⟩
  · exact fun p member e r d => formed.sliced member r d

end Heap

namespace Tenancy

variable {w : Tenancy}

/-- Whatever settings a heap was opened with, it has its tables, and keeps them. -/
structure Tabulated (w : Tenancy) : Prop where
  opened : ∀ s c, Config.ofSettings s = .ok c → ∃ h,
    (w.step (.openHeap s)).memory.heaps = w.memory.heaps ++ [h] ∧ h.config = c ∧ h.Tabulated
  kept : ∀ h ∈ w.memory.heaps, h.Tabulated

theorem Sound.tabulated (sound : w.Sound) : w.Tabulated where
  opened := by
    intro s c accepted
    refine ⟨.ofConfig w.memory.heaps.length c w.memory.backing.numa.nodes
      (w.memory.backing.device.map Device.count), ?_, rfl, ?_⟩
    · simp only [Tenancy.step, accepted, Memory.addHeap]
    · exact (Heap.formed_ofConfig _ _ _ accepted).tabulated
  kept := by
    intro h member
    obtain ⟨i, place⟩ := List.mem_iff_getElem?.mp member
    exact (sound.memory.formed i h place).tabulated

/-- The tables of all accepted configurations, at any time. -/
theorem run_tabulated {b : Backing} (unused : b.Unused) (acts : List Act) :
    ((start b).run acts).Tabulated :=
  (sound_run unused acts).tabulated

/-- The heap has a class that was made on demand beside those of its tables. -/
theorem beyond_tabulated : shelf.Unused ∧
    ((start shelf).run [opening, .allocate 0 65 0 none]).memory.heaps.map Heap.numHuge = [1] ∧
    ((start shelf).run [opening, .allocate 0 65 0 none]).Tabulated :=
  ⟨unused_shelf, rfl, run_tabulated unused_shelf _⟩

end Tenancy

end RegisteredHeap
