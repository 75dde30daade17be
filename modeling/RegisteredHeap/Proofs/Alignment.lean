import RegisteredHeap.Proofs.Conservation
import RegisteredHeap.Proofs.Turns

/-! # Alignment

Nobody looks how a block is aligned. That storage for values is aligned follows from the size that is
asked for it. Block sizes are multiples of eight, so up to that every block is aligned. For more the
size is a power of two, and a power of two gets a block of just that size, in whatever table its
class is; such a block lies at a multiple of its size from a page boundary on.
-/

namespace RegisteredHeap

namespace Layout

variable {l whole : Layout} {count pageSize n : Nat}

/-- So many values are larger than a layout may be. -/
def Overflows (l : Layout) (count : Nat) : Prop := 2 ^ 63 - 1 - (l.align - 1) < count * l.size

/-- Neither every block nor every page is aligned for the layout. -/
def Exceeds (l : Layout) (pageSize : Nat) : Prop := blockAlign < l.align ∧ pageSize < l.align

/-- The size is enough, and a power of two if not every block is aligned for the layout. -/
structure Suffices (l : Layout) (count pageSize n : Nat) : Prop where
  enough : max (count * l.size) 1 ≤ n
  power : blockAlign < l.align → l.align ≤ pageSize ∧ ∃ j, n = 2 ^ j ∧ l.align ≤ n

theorem array_of_not_overflows (power : ∃ a, l.align = 2 ^ a) (fits : ¬ l.Overflows count) :
    l.array count = .ok ⟨count * l.size, l.align⟩ := by
  obtain ⟨a, same⟩ := power
  have positive := Nat.two_pow_pos a
  rw [Overflows, Nat.not_lt] at fits
  rw [array, Nat.one_shiftLeft, if_neg (by omega)]

theorem array_of_overflows (power : ∃ a, l.align = 2 ^ a) (large : l.Overflows count) :
    l.array count = .error (.invalidSize (Word.saturate (count * l.size))) := by
  obtain ⟨a, same⟩ := power
  have positive := Nat.two_pow_pos a
  rw [Overflows] at large
  rw [array, Nat.one_shiftLeft, if_pos (by omega)]

/-- A layout that there is can be rounded up to a power of two. -/
theorem roundUp?_of_array (done : l.array count = .ok whole) :
    Word.roundUp? (max whole.size 1) = some (Word.powerAbove (max whole.size 1)) := by
  apply Word.roundUp?_of_le
  rw [array, Nat.one_shiftLeft] at done
  split at done
  · cases done
  · rename_i fits
    cases done
    exact Nat.max_le.mpr ⟨by simp only; omega, Nat.one_le_two_pow⟩

/-- When there is a size for a layout, and what it is. -/
theorem sizeFor_cases (power : ∃ a, l.align = 2 ^ a) (count pageSize : Nat) :
    (l.Overflows count ∨ l.Exceeds pageSize) ∧
      (∃ n, l.sizeFor count pageSize = .error (.invalidSize n)) ∨
    ¬ (l.Overflows count ∨ l.Exceeds pageSize) ∧
      ∃ n, l.sizeFor count pageSize = .ok n ∧ l.Suffices count pageSize n := by
  by_cases large : l.Overflows count
  · refine .inl ⟨.inl large, Word.saturate (count * l.size), ?_⟩
    simp only [sizeFor, array_of_overflows power large]
  have whole := array_of_not_overflows power large
  by_cases exceeds : l.Exceeds pageSize
  · obtain ⟨beyond, above⟩ := exceeds
    refine .inl ⟨.inr ⟨beyond, above⟩, max (count * l.size) 1, ?_⟩
    simp only [sizeFor, whole, request, Nat.not_le.mpr beyond, above, if_false, if_true]
  refine .inr ⟨not_or.mpr ⟨large, exceeds⟩, ?_⟩
  by_cases plain : l.align ≤ blockAlign
  · refine ⟨max (count * l.size) 1, ?_, Nat.le_refl _, fun beyond => by omega⟩
    simp only [sizeFor, whole, request, plain, if_true]
  · have within : l.align ≤ pageSize := by
      rw [Exceeds] at exceeds
      omega
    refine ⟨max (Word.powerAbove (max (count * l.size) 1)) l.align, ?_, ?_, ?_⟩
    · simp only [sizeFor, whole, request, plain, Nat.not_lt.mpr within, if_false,
        roundUp?_of_array whole]
    · exact (Word.le_powerAbove _).trans (Nat.le_max_left _ _)
    · intro _
      refine ⟨within, ?_⟩
      obtain ⟨a, same⟩ := power
      obtain ⟨k, rounded⟩ := Word.exists_powerAbove (max (count * l.size) 1)
      rcases Nat.le_total (Word.powerAbove (max (count * l.size) 1)) l.align with less | more
      · exact ⟨a, by rw [Nat.max_eq_right less, same], Nat.le_max_right _ _⟩
      · exact ⟨k, by rw [Nat.max_eq_left more, rounded], Nat.le_max_right _ _⟩

/-- The alignment divides a page, and any block size that is a multiple of eight and keeps powers of
two as they are. -/
theorem Suffices.dvd {k size : Nat} (enough : l.Suffices count (2 ^ k) n)
    (power : ∃ a, l.align = 2 ^ a) (page : 3 ≤ k) (eight : 8 ∣ size)
    (whole : ∀ j, 3 ≤ j → n = 2 ^ j → size = 2 ^ j) : l.align ∣ size ∧ l.align ∣ 2 ^ k := by
  obtain ⟨a, align⟩ := power
  rw [align]
  rcases Nat.lt_or_ge blockAlign l.align with beyond | plain
  · obtain ⟨within, j, rfl, below⟩ := enough.power beyond
    rw [align] at beyond within below
    have three : 2 ^ 3 < 2 ^ a := beyond
    rw [Nat.pow_lt_pow_iff_right Nat.one_lt_two] at three
    rw [Nat.pow_le_pow_iff_right Nat.one_lt_two] at within below
    rw [whole j (by omega) rfl]
    exact ⟨Nat.pow_dvd_pow 2 below, Nat.pow_dvd_pow 2 within⟩
  · have few : 2 ^ a ≤ 2 ^ 3 := align ▸ plain
    rw [Nat.pow_le_pow_iff_right Nat.one_lt_two] at few
    exact ⟨(Nat.pow_dvd_pow 2 few).trans eight, Nat.pow_dvd_pow 2 (few.trans page)⟩

end Layout

namespace Config.Suits

variable {c : Config} {tiny small large size n j : Nat}

/-- Every block size is a multiple of the increment of the tiny classes. -/
theorem eight_dvd (suits : c.Suits size n) (g : c.Geometry tiny small large) : 8 ∣ n := by
  rcases Nat.lt_or_ge c.tinyLimit size with above | within
  · obtain ⟨⟨k, rfl⟩, enough⟩ := (suits.power above).1
    have more : tiny < k := by
      rw [← Nat.pow_lt_pow_iff_right Nat.one_lt_two, ← g.tinyLimit]
      exact above.trans_le enough
    have three : 3 ≤ k := g.least.trans more.le
    exact Nat.pow_dvd_pow 2 three
  · exact (suits.tiny within).1.1

/-- A power of two from eight on is its own block size. -/
theorem eq_of_power (suits : c.Suits (2 ^ j) n) (three : 3 ≤ j) : n = 2 ^ j := by
  apply Nat.le_antisymm _ suits.le
  rcases Nat.lt_or_ge c.tinyLimit (2 ^ j) with above | within
  · exact (suits.power above).2 ⟨⟨j, rfl⟩, Nat.le_refl _⟩
  · exact (suits.tiny within).2 ⟨Nat.pow_dvd_pow 2 three, Nat.le_refl _⟩

end Config.Suits

theorem Heap.Formed.suits_of_sizeClass {h : Heap} {i size n : Nat} (formed : h.Formed i)
    (got : h.config.sizeClass size = .ok n) : h.config.Suits (max size 1) n := by
  rcases Nat.lt_or_ge (2 ^ 63) (max size 1) with large | fits
  · obtain ⟨_, _, _, g⟩ := formed.exists_geometry
    rw [g.sizeClass_of_lt large] at got
    cases got
  · obtain ⟨k, wide, -, -, size', suits⟩ := formed.classOf_of_le fits
    rw [size', Except.ok.injEq] at got
    exact got ▸ suits

/-- The block holds `count` values of the layout, from a multiple of its alignment on. -/
structure Placement.Aligns (place : Placement) (l : Layout) (count : Nat) (x : Block) : Prop where
  aligned : l.align ∣ place.address x.address
  enough : max (count * l.size) 1 ≤ x.size

namespace Memory

variable {m m' : Memory} {closed : List Nat} {out : Multiset Block} {heap size node count : Nat}
  {device : Option Nat} {x : Block} {l : Layout} {place : Placement}

/-- A block that is handed out lies at a multiple of its size from the start of an extent on, and its
size suits the request. -/
theorem Sound.stride (sound : m.Sound closed out) (isOpen : heap ∉ closed)
    (got : m.allocate heap size node device = (.ok x, m')) :
    (∃ e i, x.address = .host e (i * x.size)) ∧ 8 ∣ x.size ∧ size ≤ x.size ∧
      ∀ j, 3 ≤ j → size = 2 ^ j → x.size = 2 ^ j := by
  obtain ⟨h, p, there, reaches, size', le⟩ := sound.formed.reaches_of_ok got
  have whole := sound.size_of_reaches reaches got
  obtain ⟨_, _, _, g⟩ := (sound.formed heap h there).exists_geometry
  have suits := (sound.formed heap h there).suits_of_sizeClass size'
  rw [← whole] at suits le
  refine ⟨?_, suits.eight_dvd g, le, ?_⟩
  · obtain ⟨sound', -⟩ := sound.allocate_ok isOpen got
    obtain ⟨_, _, _, -, own⟩ := sound.granted isOpen got
    obtain ⟨q, -, -, -, s, -, slice⟩ :=
      sound'.ledger.segment_of_out (Multiset.mem_cons_self x.bare out) own
    obtain ⟨i, -, same⟩ := Segment.mem_slices.mp slice
    have stride : x.size = s.pool.blockSize := congrArg Block.size same
    refine ⟨s.extent.number, i, ?_⟩
    rw [stride]
    exact congrArg Block.address same
  · rintro j three rfl
    rw [Nat.max_eq_left Nat.one_le_two_pow] at suits
    exact suits.eq_of_power three

/-- Storage is large enough and aligned, wherever extents begin at page boundaries. -/
theorem Sound.aligns {k : Nat} (sound : m.Sound closed out) (isOpen : heap ∉ closed)
    (page : m.backing.numa.pageSize = 2 ^ k) (eight : 3 ≤ k)
    (pages : ∀ n, m.backing.numa.pageSize ∣ place.host n) (power : ∃ a, l.align = 2 ^ a)
    (got : m.allocateArray heap l count node = (.ok x, m')) : place.Aligns l count x := by
  rcases m.allocateArray_cases heap l count node with ⟨cause, -, failed⟩ | ⟨size, asked, same⟩
  · rw [failed] at got
    cases got
  rw [same] at got
  rcases Layout.sizeFor_cases power count m.backing.numa.pageSize with
    ⟨-, n, refused⟩ | ⟨-, n, found, enough⟩
  · rw [refused] at asked
    cases asked
  rw [asked, Except.ok.injEq] at found
  subst found
  obtain ⟨⟨e, i, address⟩, eights, le, whole⟩ := sound.stride isOpen got
  rw [page] at enough pages
  obtain ⟨stride, base⟩ := enough.dvd power eight eights whole
  refine ⟨?_, enough.enough.trans le⟩
  rw [address]
  exact Nat.dvd_add (base.trans (pages e)) (stride.mul_left i)

end Memory

theorem Element.power (element : Element) : ∃ a, element.layout.align = 2 ^ a := by
  cases element with
  | tracked => exact ⟨3, rfl⟩
  | word => exact ⟨2, rfl⟩
  | @wide units shift => exact ⟨shift, Nat.one_shiftLeft shift⟩

namespace Tenancy

variable {w : Tenancy} {place : Placement} {k : Nat}

/-- Storage that callers get is large enough and aligned, and refused for want of a size only if there
is none. -/
structure Aligned (w : Tenancy) (place : Placement) : Prop where
  array : ∀ heap, heap ∉ w.closed → ∀ l count node x m, (∃ a, l.align = 2 ^ a) →
    w.memory.allocateArray heap l count node = (.ok x, m) → place.Aligns l count x
  owner : ∀ heap, heap ∉ w.closed → ∀ element node value o m,
    w.memory.makeOwner heap element node value = (.ok o, m) → place.Aligns element.layout 1 o.block
  row : ∀ heap, heap ∉ w.closed → ∀ element node len init o m,
    w.memory.makeRow heap element node len init = (.ok (some o), m) →
      place.Aligns element.layout len o.block
  /-- Whatever else goes wrong does so after the size was computed. -/
  asks : ∀ heap l count node,
    (∃ cause, l.sizeFor count w.memory.backing.numa.pageSize = .error cause ∧
      w.memory.allocateArray heap l count node = (.error cause, w.memory)) ∨
    ∃ size, l.sizeFor count w.memory.backing.numa.pageSize = .ok size ∧
      w.memory.allocateArray heap l count node = w.memory.allocate heap size node none
  refused : ∀ (l : Layout) count, (∃ a, l.align = 2 ^ a) →
    ((∃ cause, l.sizeFor count w.memory.backing.numa.pageSize = .error cause) ↔
      l.Overflows count ∨ l.Exceeds w.memory.backing.numa.pageSize) ∧
    ∀ cause, l.sizeFor count w.memory.backing.numa.pageSize = .error cause →
      ∃ n, cause = .invalidSize n
  /-- A layout that there is can always be rounded. -/
  rounds : ∀ (l whole : Layout) count, l.array count = .ok whole →
    ∃ n, Word.roundUp? (max whole.size 1) = some n

theorem Sound.aligned (sound : w.Sound) (page : w.memory.backing.numa.pageSize = 2 ^ k)
    (eight : 3 ≤ k) (pages : ∀ n, w.memory.backing.numa.pageSize ∣ place.host n) :
    w.Aligned place where
  array _ isOpen _ _ _ _ _ power got :=
    sound.memory.aligns isOpen page eight pages power got
  owner := by
    intro heap isOpen element node value o m got
    unfold Memory.makeOwner at got
    split at got
    · cases got
    · rename_i done
      cases got
      exact sound.memory.aligns isOpen page eight pages element.power done
  row := by
    intro heap isOpen element node len init o m got
    unfold Memory.makeRow at got
    split at got
    · cases got
    · rename_i done
      simp only at got
      split at got
      · cases got
        exact sound.memory.aligns isOpen page eight pages element.power done
      · cases got
  asks heap l count node := w.memory.allocateArray_cases heap l count node
  refused := by
    intro l count power
    rcases Layout.sizeFor_cases power count w.memory.backing.numa.pageSize with
      ⟨none, n, failed⟩ | ⟨some, n, found, -⟩
    · refine ⟨⟨fun _ => none, fun _ => ⟨_, failed⟩⟩, ?_⟩
      intro cause same
      rw [failed, Except.error.injEq] at same
      exact ⟨n, same.symm⟩
    · rw [found]
      exact ⟨⟨nofun, fun refuses => absurd refuses some⟩, nofun⟩
  rounds _ _ _ done := ⟨_, Layout.roundUp?_of_array done⟩

/-- However callers use a memory whose extents begin at page boundaries, and whatever was given back
to it before, storage for values is aligned. -/
theorem run_aligned {b : Backing} (unused : b.Unused) (page : b.numa.pageSize = 2 ^ k)
    (eight : 3 ≤ k) (pages : ∀ n, b.numa.pageSize ∣ place.host n) (acts : List Act) :
    ((start b).run acts).Aligned place := by
  have same : ((start b).run acts).memory.backing.numa.pageSize = b.numa.pageSize :=
    ((start b).backing_lasts_run acts).pageSize
  exact (sound_run unused acts).aligned (same.trans page) eight fun n => same ▸ pages n

/-- Each extent begins at a page of 4096 bytes. -/
def spread : Placement := ⟨(4096 * ·), (4096 * ·)⟩

/-- Twenty-four bytes at a multiple of sixteen get a block of thirty-two, in pages of sixteen. -/
theorem sixteen_aligned : shelf.Unused ∧ shelf.numa.pageSize = 2 ^ 4 ∧ 3 ≤ 4 ∧
    (∀ n, shelf.numa.pageSize ∣ spread.host n) ∧
    ((start shelf).run [opening, .allocate 0 8 0 none,
      .allocateArray 0 ⟨24, 16⟩ 1 0]).leases.map (·.grip.block.size) = [32, 8] ∧
    ((start shelf).run [opening, .allocate 0 8 0 none,
      .allocateArray 0 ⟨24, 16⟩ 1 0]).Aligned spread := by
  have pages (n : Nat) : shelf.numa.pageSize ∣ spread.host n := Nat.dvd_mul_right_of_dvd ⟨256, rfl⟩ n
  exact ⟨unused_shelf, rfl, by decide, pages, rfl,
    run_aligned (k := 4) unused_shelf rfl (by decide) pages _⟩

end Tenancy

end RegisteredHeap
