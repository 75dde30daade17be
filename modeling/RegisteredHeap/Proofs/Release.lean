import RegisteredHeap.Proofs.Survey
import RegisteredHeap.Proofs.Tenancy

/-! # Release of segments

As long as its heap is there, a pool gives up a segment for one reason only and never misses it: the
last block of the segment came back, and the pool has more segments than it keeps in any case.
-/

namespace RegisteredHeap

namespace Pool

variable {p p' p'' : Pool}

theorem Alike.refl (p : Pool) : p.Alike p := ⟨rfl, rfl, rfl⟩

theorem Alike.trans (first : p.Alike p') (second : p'.Alike p'') : p.Alike p'' :=
  ⟨second.key.trans first.key, second.segmentSize.trans first.segmentSize,
    second.retention.trans first.retention⟩

def extents (p : Pool) : List Extent := p.segments.map Segment.extent

theorem swept_extents (p : Pool) : p.swept.extents = p.extents := by
  rw [extents, swept, collect_segments, List.map_map]
  rfl

theorem extents_of_allocate {b b' : Backing} {r : Except HeapError Block}
    (got : p.allocate b = (r, p', b')) : p.extents ⊆ p'.extents := by
  have more : p.extents ⊆ (p.allocate b).2.1.extents := by
    unfold allocate
    split
    · exact List.Subset.refl _
    rw [← swept_extents]
    simp only [allocateSlow]
    split
    · exact List.Subset.refl _
    simp only [grow]
    split
    · exact List.Subset.refl _
    · have grown (s : Segment) : p.swept.extents ⊆ (p.swept.addSegment s).extents := by
        simp only [extents, addSegment, record, List.map_append]
        exact List.subset_append_left _ _
      split
      · exact grown _
      · exact grown _
  rwa [got] at more

/-- A return takes a segment away only if it was the last one out, and enough others stay. -/
theorem Return.lost {block : Block} {b b' : Backing} {e : Extent}
    (returned : p.Return block b p' b') (inside : e ∈ p.extents) (missing : e ∉ p'.extents) :
    p.letsGo = true ∧ p'.segments.length + 1 = p.segments.length ∧ ∃ s ∈ p.segments,
      s.extent = e ∧ block.bare ∈ s.slices ∧ s.deferred.length + 1 = s.capacity := by
  cases returned with
  | parked parts =>
      refine absurd ?_ missing
      simpa [extents, parts, Segment.park] using inside
  | @released left right s parts own last go =>
      have number : s.extent = e := by
        by_contra other
        refine absurd ?_ missing
        rw [extents, parts] at inside
        obtain ⟨t, known, on⟩ := List.mem_map.mp inside
        rcases Keyed.mem_split.mp known with rfl | known
        · exact absurd on other
        · exact List.mem_map.mpr ⟨t, known, on⟩
      have one : (left ++ right).length + 1 = p.segments.length := by
        simp only [parts, List.length_append, List.length_cons]
        omega
      exact ⟨go, one, s, parts ▸ List.mem_append_cons_self, number, own, last⟩

/-- In a pool without a reserve and with nothing outstanding, a block of each segment is ready. -/
theorem Sound.exists_ready {out : Multiset Block} {s : Segment} (sound : p.Sound out)
    (distinct : p.Distinct) (frees : p.retention.neverFree = false)
    (reserve : p.retention.reserve = 0) (nobody : out = 0) (there : s ∈ p.segments) :
    ∃ x ∈ p.free, x.bare ∈ s.slices := by
  have share := sound.share distinct there
  rw [nobody, Multiset.filter_zero, add_zero] at share
  have waiting : s.deferred.length ≠ s.capacity := by
    intro whole
    have few := sound.kept frees ⟨s, there, whole⟩
    rw [reserve, Nat.le_zero, List.length_eq_zero_iff] at few
    rw [few] at there
    cases there
  have counts := congrArg Multiset.card share
  rw [Multiset.card_add, Segment.card_slices, Segment.parked, Multiset.coe_card,
    List.length_map] at counts
  have some : 0 < (Multiset.filter (fun b : Block => b.origin = s.origin)
      ↑(p.free.map Block.bare)).card := by omega
  obtain ⟨y, member⟩ := Multiset.card_pos_iff_exists_mem.mp some
  obtain ⟨x, ready, rfl⟩ := List.mem_map.mp (Multiset.mem_coe.mp (Multiset.mem_filter.mp member).1)
  refine ⟨x, ready, ?_⟩
  rw [← share]
  exact Multiset.mem_add.mpr (.inl member)

/-- All pools stay, with their segments and possibly more. -/
def Stay (pools pools' : List Pool) : Prop :=
  ∀ p ∈ pools, ∃ p' ∈ pools', p.Alike p' ∧ p.extents ⊆ p'.extents

variable {pools pools' pools'' before after : List Pool}

theorem Stay.of_subset (inside : pools ⊆ pools') : Stay pools pools' :=
  fun p listed => ⟨p, inside listed, .refl p, List.Subset.refl _⟩

theorem Stay.refl (pools : List Pool) : Stay pools pools := .of_subset (List.Subset.refl _)

theorem Stay.trans (first : Stay pools pools') (second : Stay pools' pools'') :
    Stay pools pools'' := by
  intro p listed
  obtain ⟨p', listed', alike, extents⟩ := first p listed
  obtain ⟨p'', listed'', alike', extents'⟩ := second p' listed'
  exact ⟨p'', listed'', alike.trans alike', List.Subset.trans extents extents'⟩

theorem Stay.put (alike : p.Alike p') (extents : p.extents ⊆ p'.extents) :
    Stay (before ++ p :: after) (before ++ p' :: after) := by
  intro q listed
  rcases Keyed.mem_split.mp listed with rfl | other
  · exact ⟨p', List.mem_append_cons_self, alike, extents⟩
  · exact ⟨q, Keyed.mem_split.mpr (.inr other), .refl q, List.Subset.refl _⟩

end Pool

namespace Memory

open Pool (Stay)

variable {m m' : Memory} {closed : List Nat} {out : Multiset Block} {block : Block} {e : Extent}
  {heap : Nat}

/-- The pool of a key has a segment on the extent. -/
def Has (m : Memory) (key : PoolKey) (e : Extent) : Prop :=
  ∃ p ∈ m.pools, p.key = key ∧ e ∈ p.extents

/-- The block is the last one of a segment to come back, and the pool `p`, as it is by then, lets the
segment go. -/
inductive Releases (m : Memory) (block : Block) (p : Pool) (e : Extent) : Prop where
  | intro {q q' : Pool} {s : Segment} (listed : q ∈ m.pools) (alike : p.Alike q)
      (there : s ∈ q.segments) (on : s.extent = e) (slice : block.bare ∈ s.blocks)
      (last : s.deferred.length + 1 = s.capacity) (frees : p.retention.neverFree = false)
      (more : p.retention.reserve < q.segments.length) (after : q' ∈ (m.free block).pools)
      (same : p.Alike q') (one : q'.segments.length + 1 = q.segments.length)
      (enough : p.retention.reserve ≤ q'.segments.length)

theorem Releases.congr {p q : Pool} (releases : m.Releases block q e) (alike : p.Alike q) :
    m.Releases block p e := by
  obtain ⟨listed, alike', there, on, slice, last, frees, more, after, same, one, enough⟩ := releases
  rw [alike.retention] at frees more enough
  exact .intro listed (alike.trans alike') there on slice last frees more after (alike.trans same)
    one enough

theorem has_of_stay {p : Pool} (listed : p ∈ m.pools) (inside : e ∈ p.extents)
    (stay : Stay m.pools m'.pools) : m'.Has p.key e := by
  obtain ⟨q, listed', alike, extents⟩ := stay p listed
  exact ⟨q, listed', alike.key, extents inside⟩

theorem Formed.stay_allocate (formed : m.Formed) (heap size node : Nat) (device : Option Nat) :
    Stay m.pools (m.allocate heap size node device).2.pools := by
  rcases got : m.allocate heap size node device with ⟨r, m'⟩
  cases (formed.request got).2 with
  | refused _ _ pools _ =>
      exact .of_subset fun p listed => pools.mem_iff.mpr (List.mem_append_right _ listed)
  | @served p p' before after fresh wide _ _ _ went pools =>
      have known : Stay m.pools (before ++ p :: after) :=
        .of_subset fun q listed => wide.mem_iff.mpr (List.mem_append_right _ listed)
      rw [pools]
      exact known.trans (.put (.of_allocate went) (Pool.extents_of_allocate went))

theorem Formed.stay_allocateArray (formed : m.Formed) (heap : Nat) (l : Layout) (count node : Nat) :
    Stay m.pools (m.allocateArray heap l count node).2.pools := by
  unfold allocateArray
  split
  · exact .refl _
  split
  · exact .refl _
  · exact formed.stay_allocate heap _ node none

theorem heaps_endValues (m : Memory) (element : Element) (values : List Nat) :
    (m.endValues element values).heaps = m.heaps :=
  endValues_induction (P := fun m' => m'.heaps = m.heaps) element values rfl fun _ _ => id

theorem pools_endValues (m : Memory) (element : Element) (values : List Nat) :
    (m.endValues element values).pools = m.pools := by
  rw [pools, heaps_endValues, pools]

theorem Formed.stay_makeOwner (formed : m.Formed) (heap : Nat) (element : Element)
    (node value : Nat) : Stay m.pools (m.makeOwner heap element node value).2.pools := by
  have stay := formed.stay_allocateArray heap element.layout 1 node
  unfold makeOwner
  split
  · rename_i failed
    rw [failed] at stay
    rw [pools_endValues]
    exact stay
  · rename_i done
    rw [done] at stay
    exact stay

theorem stay_registerUser (m : Memory) (heap address size : Nat) (device : Option Nat) :
    Stay m.pools (m.registerUser heap address size device).2.pools := by
  unfold registerUser
  split <;> exact .refl _

theorem stay_addHeap (m : Memory) (c : Config) : Stay m.pools (m.addHeap c).pools := by
  apply Stay.of_subset
  simp only [addHeap, pools, List.flatMap_append]
  exact List.subset_append_left _ _

theorem Formed.stay_arrange (formed : m.Formed) (key : PoolKey) (order : List Nat) :
    Stay m.pools (m.arrange key order).pools := by
  rcases formed.arrange_split key order with same | ⟨p, before, after, -, split, -, -, pools⟩
  · rw [same]
    exact .refl _
  · have extents : p.extents ⊆ (p.arrange order).extents :=
      ((List.mergeSort_perm p.segments _).map Segment.extent).symm.subset
    rw [split, pools]
    exact .put ⟨rfl, rfl, rfl⟩ extents

/-- To close a heap takes no segments from the others. -/
theorem Formed.has_closeHeap {p : Pool} (formed : m.Formed) (other : p.key.heap ≠ heap)
    (listed : p ∈ m.pools) (inside : e ∈ p.extents) : (m.closeHeap heap).Has p.key e := by
  cases there : m.heaps[heap]? with
  | none =>
      simp only [closeHeap, there]
      exact ⟨p, listed, rfl, inside⟩
  | some h =>
      obtain ⟨before, after, split, pools⟩ := pools_closeHeap there
      have elsewhere : p ∉ h.pools := fun member => other ((formed heap h there).of_mem member).1
      refine ⟨p, ?_, rfl, inside⟩
      rw [split] at listed
      rw [pools]
      grind

/-- A free takes a segment away only if it brings its last block. -/
theorem Sound.releases {p : Pool} (sound : m.Sound closed (block.bare ::ₘ out))
    (listed : p ∈ m.pools) (inside : e ∈ p.extents) (gone : ¬ (m.free block).Has p.key e) :
    m.Releases block p e := by
  cases sound.freed with
  | @pooled q q' n _ _ split origin _ went pools =>
      have there : q ∈ m.pools := split ▸ List.mem_append_cons_self
      have after : q' ∈ (m.free block).pools := pools ▸ List.mem_append_cons_self
      have alike := Pool.Alike.of_giveBack went
      have mine : p = q := by
        by_contra other
        refine absurd ⟨p, ?_, rfl, inside⟩ gone
        rw [split] at listed
        exact pools ▸ Keyed.mem_split.mpr (.inr ((Keyed.mem_split.mp listed).resolve_left other))
      subst mine
      have missing : e ∉ q'.extents := fun remains => gone ⟨q', after, alike.key, remains⟩
      obtain ⟨_, kept⟩ := (sound.logged block.address).exists_kept_cons there
        (Block.pool?_eq_some.mpr ⟨n, origin⟩)
      obtain ⟨go, one, s, here, number, own, last⟩ :=
        (kept.returned origin went).lost inside missing
      simp only [Pool.letsGo, Bool.and_eq_true, Bool.not_eq_true', decide_eq_true_eq] at go
      exact .intro there (.refl p) here number (Multiset.mem_coe.mp own) last go.1 go.2 after
        alike one (Nat.le_of_lt_succ (go.2.trans_eq one.symm))
  | ended _ freed =>
      have pools : (m.free block).pools = m.pools := by rw [freed]; rfl
      exact absurd (has_of_stay listed inside (pools ▸ .refl _)) gone

end Memory

namespace Tenancy

open Pool (Stay)

variable {w : Tenancy} {heap : Nat} {act : Act} {e : Extent}

theorem stay_on {next : Tenancy} (after : Stay w.memory.pools next.memory.pools) :
    Stay w.memory.pools (w.on heap next).memory.pools :=
  on_cases (P := fun v => Stay w.memory.pools v.memory.pools) (fun _ => .refl _) fun _ => after

theorem stay_call {m : Memory} {g : Option Grip} (after : Stay w.memory.pools m.pools) :
    Stay w.memory.pools (w.on heap (w.keep heap m g)).memory.pools := by
  apply stay_on
  rw [memory_keep]
  exact after

/-- The act keeps all segments, closes a heap, or comes to a free. -/
inductive Course (w : Tenancy) (act : Act) : Prop where
  | stays (stay : Stay w.memory.pools (w.step act).memory.pools)
  | closes (heap : Nat) (same : act = .closeHeap heap)
  | frees {m : Memory} {x : Block} (frees : w.Frees act m x) (stay : Stay w.memory.pools m.pools)

/-- To give a lease back comes to a free, unless there is nothing to give back. -/
theorem free_cases (w : Tenancy) (lease : Nat) : w.step (.free lease) = w ∨
    ∃ m x, w.Frees (.free lease) m x ∧ m.pools = w.memory.pools := by
  cases there : w.leases[lease]? with
  | none => exact .inl (by simp only [Tenancy.step, Tenancy.giveBack, there])
  | some l =>
      by_cases isClosed : l.heap ∈ w.closed
      · left
        simp only [Tenancy.step, Tenancy.giveBack, there, Tenancy.on, isClosed, if_true]
      · cases grip : l.grip with
        | pointer b => exact .inr ⟨_, b, .pointer there isClosed grip, rfl⟩
        | erased b => exact .inr ⟨_, b.bare, .erased there isClosed grip, rfl⟩
        | owner o =>
            exact .inr ⟨_, o.block, .owner there isClosed grip, Memory.pools_endValues _ _ _⟩

theorem course_free (w : Tenancy) (lease : Nat) : w.Course (.free lease) := by
  rcases w.free_cases lease with idle | ⟨m, x, frees, pools⟩
  · exact .stays (idle.symm ▸ .refl w.memory.pools)
  · exact .frees frees (pools ▸ .refl _)

theorem Sound.course_makeRow (sound : w.Sound) (heap : Nat) (element : Element) (node len : Nat)
    (init : Nat → Option Nat) : w.Course (.makeRow heap element node len init) := by
  have stay := sound.memory.formed.stay_allocateArray heap element.layout len node
  rcases got : w.memory.allocateArray heap element.layout len node with ⟨cause | b, m⟩
  · rw [got] at stay
    apply Course.stays
    simp only [Tenancy.step, Memory.makeRow, got]
    exact stay_call stay
  rw [got] at stay
  rcases filled : yields init 0 len with ⟨values, _ | _⟩
  · by_cases isClosed : heap ∈ w.closed
    · apply Course.stays
      simp only [Tenancy.step, Tenancy.on, isClosed, if_true]
      exact .refl _
    · refine .frees (.row isClosed got filled) ?_
      rw [Memory.pools_endValues]
      exact stay
  · apply Course.stays
    simp only [Tenancy.step, Memory.makeRow, got, filled, if_true]
    exact stay_call stay

theorem Sound.course (sound : w.Sound) (act : Act) : w.Course act := by
  have formed := sound.memory.formed
  cases act with
  | openHeap settings =>
      apply Course.stays
      simp only [Tenancy.step]
      split
      · exact .refl _
      · exact Memory.stay_addHeap _ _
  | closeHeap heap => exact .closes heap rfl
  | allocate heap size node device =>
      exact .stays (stay_call (formed.stay_allocate heap size node device))
  | allocateErased heap size node =>
      exact .stays (stay_call (formed.stay_allocate heap size node none))
  | allocateArray heap layout count node =>
      exact .stays (stay_call (formed.stay_allocateArray heap layout count node))
  | makeOwner heap element node value =>
      exact .stays (stay_call (formed.stay_makeOwner heap element node value))
  | makeRow heap element node len init => exact sound.course_makeRow heap element node len init
  | registerUser heap address size device =>
      exact .stays (stay_call (w.memory.stay_registerUser heap address size device))
  | setMessageLength lease len =>
      apply Course.stays
      simp only [Tenancy.step, Tenancy.note]
      split <;> exact .refl _
  | free lease => exact w.course_free lease
  | write place bytes => exact .stays (.refl _)
  | arrange pool order => exact .stays (stay_on (formed.stay_arrange pool order))
  | change conditions => exact .stays (.refl _)

/-- Segments are given back when the policy of their heap says so, and only then. -/
structure Retained (w : Tenancy) : Prop where
  policy : ∀ h ∈ w.memory.heaps, ∀ p ∈ h.pools, p.retention = Heap.retention h.config
  /-- Before its heap is closed a segment goes only with the free that brings its last block. -/
  released : ∀ act, ∀ p ∈ w.memory.pools, ∀ e ∈ p.extents, ¬ (w.step act).memory.Has p.key e →
    act = .closeHeap p.key.heap ∨ ∃ m x, w.Frees act m x ∧ (w.step act).memory = m.free x ∧
      m.Releases x p e
  kept : ∀ p ∈ w.memory.pools, p.retention.neverFree = false →
    (∃ s ∈ p.segments, s.deferred.length = s.capacity) → p.segments.length ≤ p.retention.reserve
  /-- Without a reserve, a pool with nothing outstanding has blocks of all its segments ready. -/
  idle : ∀ p ∈ w.memory.pools, p.retention.neverFree = false → p.retention.reserve = 0 →
    (∀ l ∈ w.leases, l.grip.block.pool? ≠ some p.key) →
    ∀ s ∈ p.segments, ∃ x ∈ p.free, x.bare ∈ s.blocks

theorem Sound.released {p : Pool} (sound : w.Sound) (listed : p ∈ w.memory.pools)
    (inside : e ∈ p.extents) (gone : ¬ (w.step act).memory.Has p.key e) :
    act = .closeHeap p.key.heap ∨ ∃ m x, w.Frees act m x ∧ (w.step act).memory = m.free x ∧
      m.Releases x p e := by
  have here : w.memory.Has p.key e := ⟨p, listed, rfl, inside⟩
  cases sound.course act with
  | stays stay => exact absurd (Memory.has_of_stay listed inside stay) gone
  | closes heap same =>
      subst same
      by_cases own : p.key.heap = heap
      · exact .inl (own ▸ rfl)
      · refine absurd ?_ gone
        have others := sound.memory.formed.has_closeHeap own listed inside
        simp only [Tenancy.step, Tenancy.on, Tenancy.close]
        split
        · exact here
        · split
          · exact here
          · exact others
  | frees frees stay =>
      obtain ⟨out, memory⟩ := sound.frees frees
      obtain ⟨q, listed', alike, extents⟩ := stay p listed
      have after := sound.step_frees frees
      rw [after, ← alike.key] at gone
      have releases := memory.releases listed' (extents inside) gone
      exact .inr ⟨_, _, frees, after, releases.congr alike⟩

theorem Sound.retained (sound : w.Sound) : w.Retained where
  policy := by
    intro h there p member
    obtain ⟨i, place⟩ := List.mem_iff_getElem?.mp there
    exact ((sound.memory.formed i h place).of_mem member).2.1
  released _ _ listed _ inside gone := sound.released listed inside gone
  kept p listed := (sound.memory.ledger.sound p listed).kept
  idle := by
    intro p listed frees reserve nobody s there
    have ledger := sound.memory.ledger
    obtain ⟨_, kept⟩ := ledger.exists_kept listed
    have none : blocksOf w.blocks p.key = 0 := by
      rw [blocksOf, Multiset.filter_eq_nil]
      intro x member own
      obtain ⟨l, held, rfl⟩ := List.mem_map.mp (Multiset.mem_coe.mp member)
      exact nobody l held own
    exact kept.sound.exists_ready kept.distinct frees reserve none there

/-- Whatever callers do who keep to the contract, segments are kept and given back as configured. -/
theorem run_retained {b : Backing} (unused : b.Unused) (acts : List Act) :
    ((start b).run acts).Retained :=
  (sound_run unused acts).retained

/-- The second of two frees takes the only segment away. -/
theorem emptied_retained : shelf.Unused ∧
    (segmentsOf ((start shelf).run [opening, .allocate 0 8 0 none, .allocate 0 8 0 none,
      .free 0]).memory.pools).length = 1 ∧
    (segmentsOf ((start shelf).run [opening, .allocate 0 8 0 none, .allocate 0 8 0 none,
      .free 0, .free 0]).memory.pools).length = 0 ∧
    ((start shelf).run [opening, .allocate 0 8 0 none, .allocate 0 8 0 none,
      .free 0]).Retained :=
  ⟨unused_shelf, rfl, rfl, run_retained unused_shelf _⟩

end Tenancy

end RegisteredHeap
