import RegisteredHeap.Proofs.Coverage
import RegisteredHeap.Proofs.Turns

/-! # Isolation of pools

A request goes down from the size, the node and the device to a pool; a block that comes back goes up
from its segment. Both ways meet at the same pool, so a block keeps to the node and the device that
it was made for, and no act disturbs a pool that it is not about.
-/

namespace RegisteredHeap

/-- The block is the range from `offset` on of an extent in use, and its copy that of an extent on the
device, if there is a device. -/
structure Block.Lies (x : Block) (b : Backing) (e : Extent) (offset : Nat) (device : Option Nat) :
    Prop where
  live : e ∈ b.numa.extents
  address : x.address = .host e.number offset
  inside : offset + x.size ≤ e.size
  single : device = none → x.copy = none
  copied : ∀ d, device = some d → ∃ f, f.device = d ∧ f.size = e.size ∧
    .deviceObtained f ∈ b.journal ∧ (f.number, f.size) ∈ b.mirrors ∧
    ∃ c, x.copy = some c ∧ c.address = .device f.number offset

/-- The block lies on the node, with a copy on the device if there is one. -/
def Block.Placed (x : Block) (b : Backing) (node : Nat) (device : Option Nat) : Prop :=
  ∃ e offset, e.node = node ∧ x.Lies b e offset device

namespace Segment

/-- The segment without what waits on it. -/
def vacant (s : Segment) : Segment := { s with deferred := [], numFreed := 0 }

/-- The device extent of the segment was obtained for it. -/
def Copied (s : Segment) (journal : List Event) : Prop :=
  ∀ side, s.device = some side → .deviceObtained side.extent ∈ journal

theorem Copied.of_vacant {s t : Segment} {journal : List Event} (same : s.vacant = t.vacant)
    (copied : s.Copied journal) : t.Copied journal := by
  have device : s.vacant.device = t.vacant.device := congrArg Segment.device same
  intro side there
  exact copied side (device.trans there)

theorem Copied.mono {s : Segment} {earlier journal : List Event} (copied : s.Copied earlier)
    (more : earlier <:+ journal) : s.Copied journal :=
  fun side there => more.subset (copied side there)

theorem slices_of_vacant {s t : Segment} (same : s.vacant = t.vacant) : s.slices = t.slices := by
  have slices : s.vacant.slices = t.vacant.slices := congrArg Segment.slices same
  exact slices

theorem number_of_vacant {s t : Segment} (same : s.vacant = t.vacant) :
    s.extent.number = t.extent.number :=
  congrArg (fun s => s.extent.number) same

end Segment

namespace Backing

variable {b b' : Backing} {size node device : Nat}

theorem number_of_obtain {e : Extent} (got : b.obtain size node = (.ok e, b')) :
    e.number = b.numa.issued := by
  unfold obtain at got
  rcases b.numa.allocate_cases size node with ⟨cause, failed⟩ | ⟨bytes, place, contents, done⟩
  · simp [failed] at got
  · simp only [done, Prod.mk.injEq, Except.ok.injEq] at got
    exact got.1 ▸ rfl

theorem logged_of_obtainDevice {e : DeviceExtent} (got : b.obtainDevice size device = (.ok e, b')) :
    .deviceObtained e ∈ b'.journal := by
  unfold obtainDevice at got
  split at got
  · simp at got
  split at got
  · simp at got
  · simp only [Prod.mk.injEq, Except.ok.injEq] at got
    obtain ⟨rfl, rfl⟩ := got
    exact List.mem_cons_self

end Backing

namespace Pool

open Backing (Lasts)

variable {p p' : Pool} {b b' : Backing} {s t : Segment} {out : Multiset Block} {rest : Inventory}
  {block : Block}

/-- A new segment is on an extent that was not given out before. -/
theorem obtainSegment_new (got : p.obtainSegment b = (.ok s, b')) :
    s.extent.number = b.numa.issued ∧ s.Copied b'.journal := by
  cases attempt got with
  | made first _ _ _ third =>
      refine ⟨Backing.number_of_obtain first, ?_⟩
      intro side there
      cases there
      cases copying third with
      | made _ obtained registered =>
          exact (Lasts.register registered).journal.subset (Backing.logged_of_obtainDevice obtained)

/-- An allocation keeps all segments, and may add one on a new extent. -/
theorem Allocation.vacant {r : Except HeapError Block} (allocation : p.Allocation b rest r p' b')
    (there : t ∈ p'.segments) :
    (∃ s ∈ p.segments, s.vacant = t.vacant) ∨
      b.numa.issued ≤ t.extent.number ∧ t.Copied b'.journal := by
  have swept (inside : t ∈ p.swept.segments) : ∃ s ∈ p.segments, s.vacant = t.vacant := by
    rw [Pool.swept, collect_segments] at inside
    obtain ⟨s, listed, rfl⟩ := List.mem_map.mp inside
    exact ⟨s, listed, rfl⟩
  cases allocation with
  | ready => exact .inl ⟨t, there, rfl⟩
  | collected => exact .inl (swept there)
  | failed => exact .inl (swept there)
  | grown _ _ obtained =>
      rcases List.mem_append.mp there with old | new
      · exact .inl (swept old)
      · rw [List.mem_singleton.mp new]
        obtain ⟨number, copied⟩ := obtainSegment_new obtained
        exact .inr ⟨number.ge, copied⟩

/-- A return keeps segments as they are, or takes one away. -/
theorem Return.vacant (returned : p.Return block b p' b') (there : t ∈ p'.segments) :
    ∃ s ∈ p.segments, s.vacant = t.vacant := by
  cases returned with
  | @parked _ _ s split =>
      rcases Keyed.mem_split.mp there with rfl | other
      · exact ⟨s, split ▸ List.mem_append_cons_self, rfl⟩
      · exact ⟨t, split ▸ Keyed.mem_split.mpr (.inr other), rfl⟩
  | released split => exact ⟨t, split ▸ Keyed.mem_split.mpr (.inr there), rfl⟩

end Pool

namespace Tenancy

variable {w : Tenancy} {act : Act} {p p' : Pool} {s t : Segment} {l : Lease} {x y : Block}
  {key : PoolKey} {m : Memory}

theorem Offers.listed (offers : w.Offers p) (there : s ∈ p.segments) :
    p ∈ w.memory.pools := by
  rcases offers with listed | ⟨blank, -⟩
  · exact listed
  · rw [← blank] at there
    cases there

theorem Supplies.vacant (supplies : w.Supplies act p p') (there : t ∈ p'.segments) :
    (∃ s ∈ p.segments, s.vacant = t.vacant) ∨
      w.memory.backing.numa.issued ≤ t.extent.number ∧
        t.Copied (w.crest act).memory.backing.journal := by
  cases supplies with
  | idle _ same => exact .inl ⟨t, same ▸ there, rfl⟩
  | arranged _ same =>
      rw [same] at there
      exact .inl ⟨t, (List.mergeSort_perm p.segments _).mem_iff.mp there, rfl⟩
  | asked _ _ kept went lasts =>
      rcases (kept.allocation went).vacant there with old | ⟨new, copied⟩
      · exact .inl old
      · exact .inr ⟨new, copied.mono lasts.journal⟩

theorem Receives.vacant (receives : w.Receives act p p') (there : t ∈ p'.segments) :
    ∃ s ∈ p.segments, s.vacant = t.vacant := by
  cases receives with
  | idle _ same => exact ⟨t, same ▸ there, rfl⟩
  | back _ origin kept went => exact (kept.returned origin went).vacant there

/-- Every segment that an act leaves was there at its crest. -/
theorem Sound.vacant_crest (sound : w.Sound) (there : t ∈ segmentsOf (w.step act).memory.pools) :
    ∃ s ∈ segmentsOf (w.crest act).memory.pools, s.vacant = t.vacant := by
  obtain ⟨p', listed, inside⟩ := mem_segmentsOf.mp there
  have isOpen : p'.key.heap ∉ (w.step act).closed := by
    intro isClosed
    rw [((sound.step act).memory.ledger.closed p' listed isClosed).1] at inside
    cases inside
  obtain ⟨q, listed', receives⟩ := sound.receives listed fun gone => absurd gone isOpen
  obtain ⟨s, inside', same⟩ := receives.vacant inside
  exact ⟨s, mem_segmentsOf.mpr ⟨q, listed', inside'⟩, same⟩

/-- Every segment after an act was there before, or is on an extent that is new. -/
theorem Sound.vacant_step (sound : w.Sound) (there : t ∈ segmentsOf (w.step act).memory.pools) :
    (∃ s ∈ segmentsOf w.memory.pools, s.vacant = t.vacant) ∨
      w.memory.backing.numa.issued ≤ t.extent.number ∧
        t.Copied (w.step act).memory.backing.journal := by
  obtain ⟨t', there', same⟩ := sound.vacant_crest there
  obtain ⟨q, listed, inside⟩ := mem_segmentsOf.mp there'
  obtain ⟨p, offers, supplies⟩ := sound.supplies listed
  rcases supplies.vacant inside with ⟨s, first, same'⟩ | ⟨new, copied⟩
  · exact .inl ⟨s, mem_segmentsOf.mpr ⟨p, offers.listed first, first⟩, same'.trans same⟩
  · rw [Segment.number_of_vacant same] at new
    exact .inr ⟨new, (copied.mono (w.crest_lasts act).journal).of_vacant same⟩

/-- Segments of a later state are those of an earlier one, or on extents that came in between. -/
structure Descends (w w' : Tenancy) : Prop where
  issued : w.memory.backing.numa.issued ≤ w'.memory.backing.numa.issued
  segments : ∀ t ∈ segmentsOf w'.memory.pools,
    (∃ s ∈ segmentsOf w.memory.pools, s.vacant = t.vacant) ∨
      w.memory.backing.numa.issued ≤ t.extent.number

theorem Descends.refl (w : Tenancy) : w.Descends w :=
  ⟨Nat.le_refl _, fun t there => .inl ⟨t, there, rfl⟩⟩

theorem Descends.trans {w₁ w₂ w₃ : Tenancy} (first : w₁.Descends w₂) (second : w₂.Descends w₃) :
    w₁.Descends w₃ := by
  refine ⟨first.issued.trans second.issued, ?_⟩
  intro t there
  rcases second.segments t there with ⟨s, there', same⟩ | new
  · rcases first.segments s there' with ⟨s', there'', same'⟩ | new
    · exact .inl ⟨s', there'', same'.trans same⟩
    · exact .inr (Segment.number_of_vacant same ▸ new)
  · exact .inr (first.issued.trans new)

theorem Sound.descends_step (sound : w.Sound) (act : Act) : w.Descends (w.step act) where
  issued := (w.backing_lasts_step act).issued
  segments _ there := (sound.vacant_step there).imp_right And.left

theorem Sound.descends_crest (sound : w.Sound) (act : Act) : (w.crest act).Descends (w.step act) where
  issued := (w.crest_lasts act).issued
  segments _ there := .inl (sound.vacant_crest there)

theorem Sound.descends_run (sound : w.Sound) (acts : List Act) : w.Descends (w.run acts) := by
  unfold Tenancy.run
  induction acts generalizing w with
  | nil => exact .refl w
  | cons act acts ih => exact (sound.descends_step act).trans (ih (sound.step act))

/-- A segment of a later state on an extent that was in use is the segment that was there. -/
theorem Descends.vacant_eq {w' : Tenancy} (descends : w.Descends w') (sound : w.Sound)
    (first : s ∈ segmentsOf w.memory.pools) (second : t ∈ segmentsOf w'.memory.pools)
    (same : s.extent.number = t.extent.number) : s.vacant = t.vacant := by
  have ledger := sound.memory.ledger
  rcases descends.segments t second with ⟨s', there, equal⟩ | new
  · have number := (Segment.number_of_vacant equal).trans same.symm
    rw [← ledger.segment_eq there first number]
    exact equal
  · have old := ledger.number_lt_issued first
    omega

/-- The device extents of all segments were obtained for them. -/
def Copied (w : Tenancy) : Prop :=
  ∀ s ∈ segmentsOf w.memory.pools, s.Copied w.memory.backing.journal

theorem Sound.copied_step (sound : w.Sound) (copied : w.Copied) (act : Act) :
    (w.step act).Copied := by
  intro t there
  rcases sound.vacant_step there with ⟨s, first, same⟩ | ⟨-, own⟩
  · exact ((copied s first).mono (w.backing_lasts_step act).journal).of_vacant same
  · exact own

theorem Sound.copied_run (sound : w.Sound) (copied : w.Copied) (acts : List Act) :
    (w.run acts).Copied := by
  unfold Tenancy.run
  induction acts generalizing w with
  | nil => exact copied
  | cons act acts ih => exact ih (sound.step act) (sound.copied_step copied act)

theorem Sound.placed (sound : w.Sound) (copied : w.Copied) (member : l ∈ w.leases)
    (own : l.grip.block.pool? = some key) :
    l.grip.block.Placed w.memory.backing key.node key.device := by
  have ledger := sound.memory.ledger
  obtain ⟨s, there, formed, i, inside, block⟩ := sound.slice_of_lease member own
  obtain ⟨-, address, size, copy, -⟩ := Block.of_bare block
  refine ⟨s.extent, i * key.blockSize, formed.node, ledger.mem_extents there, address, ?_, ?_, ?_⟩
  · rw [size, Segment.size_blockAt formed]
    exact Segment.end_le_of_lt_capacity formed inside
  · intro alone
    rw [copy, Segment.blockAt, formed.single alone, Option.map_none]
  · intro d wanted
    obtain ⟨side, known, fits⟩ := formed.copied d wanted
    refine ⟨side.extent, fits.device, fits.size, copied s there side known,
      ledger.mem_mirrors there known, ⟨.device side.extent.number (i * key.blockSize),
        side.region.handle (i * key.blockSize) s.pool.blockSize⟩, ?_, rfl⟩
    rw [copy, Segment.blockAt, known, Option.map_some]

/-- What is held of an extent now and what is held of it later is of one pool, and at one place it is
the same block. -/
theorem Descends.reissued {w' : Tenancy} {key' : PoolKey} {n o o' : Nat} (descends : w.Descends w')
    (sound : w.Sound) (sound' : w'.Sound) (first : x ∈ w.blocks) (second : y ∈ w'.blocks)
    (own : x.pool? = some key) (own' : y.pool? = some key') (place : x.address = .host n o)
    (place' : y.address = .host n o') : key' = key ∧ (o' = o → y = x) := by
  obtain ⟨p, listed, rfl, -, s, there, slice⟩ := sound.memory.ledger.segment_of_out first own
  obtain ⟨q, listed', rfl, -, t, there', slice'⟩ := sound'.memory.ledger.segment_of_out second own'
  have pool := ((sound.memory.ledger.sound p listed).formed s there).pool
  have pool' := ((sound'.memory.ledger.sound q listed').formed t there').pool
  obtain ⟨i, -, block⟩ := Segment.mem_slices.mp slice
  obtain ⟨j, -, block'⟩ := Segment.mem_slices.mp slice'
  have number : s.extent.number = n := by
    rw [block] at place
    cases place
    rfl
  have number' : t.extent.number = n := by
    rw [block'] at place'
    cases place'
    rfl
  have same := descends.vacant_eq sound (mem_segmentsOf.mpr ⟨p, listed, there⟩)
    (mem_segmentsOf.mpr ⟨q, listed', there'⟩) (number.trans number'.symm)
  have keys : s.vacant.pool = t.vacant.pool := congrArg Segment.pool same
  refine ⟨(pool'.symm.trans keys.symm).trans pool, ?_⟩
  rintro rfl
  rw [← Segment.slices_of_vacant same] at slice'
  have size := (sound.memory.ledger.formed (mem_segmentsOf.mpr ⟨p, listed, there⟩)).1
  exact Multiset.inj_on_of_nodup_map (Segment.nodup_addresses size) y slice' x slice
    (place'.trans place.symm)

/-- A pool that an act does not touch is the same afterwards, or new. -/
theorem Sound.offers_of_untouched (sound : w.Sound) (listed : p ∈ (w.step act).memory.pools)
    (stays : p.key.heap ∈ (w.step act).closed → p.key.heap ∈ w.closed)
    (ordered : ∀ order, act ≠ .arrange p.key order) (other : w.touched? act ≠ some p.key) :
    w.Offers p := by
  obtain ⟨q, listed', receives⟩ := sound.receives listed stays
  have key := receives.alike.key
  cases receives with
  | back back origin _ _ =>
      refine absurd ?_ other
      rw [sound.touched_of_returned back, key]
      exact Block.pool?_eq_some.mpr ⟨_, origin⟩
  | idle _ same =>
      subst same
      obtain ⟨q, offers, supplies⟩ := sound.supplies listed'
      have key := supplies.alike.key
      cases supplies with
      | idle _ same => exact same ▸ offers
      | arranged act => exact absurd (key ▸ act) (ordered _)
      | asked asked =>
          refine absurd ?_ other
          rw [touched?, asked, key]

theorem Sound.mem_of_untouched (sound : w.Sound) (listed : p ∈ w.memory.pools)
    (stays : p.key.heap ∈ (w.step act).closed → p.key.heap ∈ w.closed)
    (ordered : ∀ order, act ≠ .arrange p.key order) (other : w.touched? act ≠ some p.key) :
    p ∈ (w.step act).memory.pools := by
  obtain ⟨p', listed', alike⟩ := sound.alike_step act listed
  rw [← alike.key] at stays ordered other
  rcases sound.offers_of_untouched listed' stays ordered other with known | ⟨-, unknown⟩
  · exact sound.memory.ledger.pool_eq known listed alike.key ▸ listed'
  · exact absurd alike.key.symm (unknown p listed)

/-- Blocks keep to the node and the device that they were made for, and an act leaves alone all pools
but the one that its block is of. -/
structure Isolated (w : Tenancy) : Prop where
  placed : ∀ l ∈ w.leases, ∀ key, l.grip.block.pool? = some key →
    l.grip.block.Placed w.memory.backing key.node key.device
  issued : ∀ heap, heap ∉ w.closed → ∀ size node device x m,
    w.memory.allocate heap size node device = (.ok x, m) → x.Placed m.backing node device ∧
      ∃ h n, w.memory.heaps[heap]? = some h ∧ h.config.sizeClass size = .ok n ∧
        x.pool? = some ⟨heap, n, node, device⟩
  /-- From where a block was given back, however long ago, only blocks of its pool are handed out. -/
  recycled : ∀ act m x key, w.Frees act m x → x.pool? = some key →
    ∀ acts heap size node device y m', heap ∉ ((w.step act).run acts).closed →
      ((w.step act).run acts).memory.allocate heap size node device = (.ok y, m') →
      ∀ n o o', x.address = .host n o → y.address = .host n o' →
        key = ⟨heap, y.size, node, device⟩ ∧ (o' = o → y.bare = x.bare)
  gets : ∀ act x, w.issued? act = some x →
    (∃ l, (w.crest act).leases = l :: w.leases ∧ l.grip.block = x) ∧
      ∃ key, w.touched? act = some key ∧ x.pool? = some key
  returns : ∀ act m x, w.Frees act m x → w.touched? act = x.pool?
  spares : ∀ act, (∀ heap, act ≠ .closeHeap heap) → (∀ key order, act ≠ .arrange key order) →
    (∀ p ∈ w.memory.pools, w.touched? act ≠ some p.key → p ∈ (w.step act).memory.pools) ∧
      ∀ p ∈ (w.step act).memory.pools, w.touched? act ≠ some p.key →
        p ∈ w.memory.pools ∨ p.blank = p

/-- What a request gets is held after the act of asking for it. -/
theorem step_allocate {heap size node : Nat} {device : Option Nat} (isOpen : heap ∉ w.closed)
    (got : w.memory.allocate heap size node device = (.ok x, m)) :
    w.step (.allocate heap size node device) =
      { w with memory := m, leases := ⟨heap, .pointer x⟩ :: w.leases } := by
  simp only [Tenancy.step, got, Tenancy.on, isOpen, if_false]
  rfl

theorem Sound.issued (sound : w.Sound) (copied : w.Copied) {heap size node : Nat}
    {device : Option Nat} (isOpen : heap ∉ w.closed)
    (got : w.memory.allocate heap size node device = (.ok x, m)) :
    x.Placed m.backing node device ∧ ∃ h n, w.memory.heaps[heap]? = some h ∧
      h.config.sizeClass size = .ok n ∧ x.pool? = some ⟨heap, n, node, device⟩ := by
  obtain ⟨h, n, there, size', own⟩ := sound.memory.granted isOpen got
  refine ⟨?_, h, n, there, size', own⟩
  have after := step_allocate isOpen got
  have copied' := sound.copied_step copied (.allocate heap size node device)
  have sound' := sound.step (.allocate heap size node device)
  rw [after] at copied' sound'
  exact sound'.placed copied' (l := ⟨heap, .pointer x⟩) List.mem_cons_self own

theorem Sound.isolated (sound : w.Sound) (copied : w.Copied) : w.Isolated where
  placed _ member _ own := sound.placed copied member own
  issued _ isOpen _ _ _ _ _ got := sound.issued copied isOpen got
  recycled := by
    intro act m x key frees own acts heap size node device y m' isOpen got n o o' place place'
    -- What was held when it was given back is compared with what is held after the request.
    have later := (sound.step act).run acts
    have descends := ((sound.descends_crest act).trans
      ((sound.step act).descends_run acts)).trans
        (later.descends_step (.allocate heap size node device))
    have sound' := later.step (.allocate heap size node device)
    rw [step_allocate isOpen got] at descends sound'
    obtain ⟨h, k, there, size', own'⟩ := later.memory.granted isOpen got
    have held := held_of_returned (returned?_of_frees frees)
    obtain ⟨s, -, formed, i, -, slice⟩ :=
      sound'.slice_of_lease (l := ⟨heap, .pointer y⟩) List.mem_cons_self own'
    have size : y.size = k := (Block.of_bare slice).2.2.1.trans (Segment.size_blockAt formed)
    obtain ⟨same, block⟩ := descends.reissued (sound.crest act) sound' held
      (Multiset.mem_coe.mpr (List.mem_cons_self)) own own' place place'
    exact ⟨by rw [size, same], block⟩
  gets _ _ gets := ⟨lease_of_issued gets, sound.touched_of_issued gets⟩
  returns _ _ _ frees := sound.touched_of_returned (returned?_of_frees frees)
  spares := by
    intro act closes orders
    have stays {p : Pool} : p.key.heap ∈ (w.step act).closed → p.key.heap ∈ w.closed := by
      rw [closed_step closes]
      exact id
    refine ⟨fun p listed other => sound.mem_of_untouched listed stays (orders _) other, ?_⟩
    intro p listed other
    exact (sound.offers_of_untouched listed stays (orders _) other).imp_right And.left

/-- Whatever callers do who keep to the contract, pools are isolated from each other. -/
theorem run_isolated {b : Backing} (unused : b.Unused) (acts : List Act) :
    ((start b).run acts).Isolated :=
  (sound_run unused acts).isolated ((sound_start unused).copied_run nofun acts)

/-- The second block is given back and handed out again at its place, which no other node or device
gets. -/
theorem reissued_isolated : shelf.Unused ∧
    ((start shelf).run [opening, .allocate 0 8 0 (some 0), .allocate 0 8 0 (some 0), .free 0,
      .allocate 0 8 0 none, .allocate 0 8 0 (some 0)]).leases.map (·.grip.block.address) =
        [.host 0 8, .host 1 0, .host 0 0] ∧
    ((start shelf).run [opening, .allocate 0 8 0 (some 0), .allocate 0 8 0 (some 0),
      .free 0]).Isolated :=
  ⟨unused_shelf, rfl, run_isolated unused_shelf _⟩

end Tenancy

end RegisteredHeap
