import RegisteredHeap.Proofs.Release

/-! # Saturation

A pool asks for a new segment only when it has nothing left: no block is ready and none waits, so
all of its blocks are outstanding. With each call the segments of a pool stay as they are, or one
more comes to a pool that was drained, or one goes with its last block.
-/

namespace RegisteredHeap

/-- How many blocks of a pool there are on extents. -/
def PoolKey.room (key : PoolKey) (extents : Multiset Extent) : Nat :=
  (extents.map fun e => e.size / key.blockSize).sum

/-- The extents of the segments of one pool. -/
def extentsOf (pools : List Pool) (key : PoolKey) : Multiset Extent :=
  (pools.map fun p => if p.key = key then (↑p.extents : Multiset Extent) else 0).sum

namespace Pool

variable {p p' : Pool} {b b' : Backing} {out : Multiset Block} {rest : Inventory} {block : Block}

/-- No block is ready, and none waits. -/
structure Drained (p : Pool) : Prop where
  ready : p.free = []
  waiting : ∀ s ∈ p.segments, s.deferred = []

theorem drained_of_swept (empty : p.free = []) (collected : p.swept.free = []) : p.Drained where
  ready := empty
  waiting := by
    have parts : p.swept.free = p.free ++ p.segments.flatMap fun s => s.deferred.reverse :=
      collect_free _
    rw [parts, empty, List.nil_append, List.flatMap_eq_nil_iff] at collected
    intro s there
    exact List.reverse_eq_nil_iff.mp (collected s there)

/-- A pool that has a block left answers with it, whatever the backing could give. -/
theorem reuses_or_drained (p : Pool) :
    (∃ x p', p'.extents = p.extents ∧ ∀ b, p.allocate b = (.ok x, p', b)) ∨ p.Drained := by
  cases empty : p.free with
  | cons x others =>
      exact .inl ⟨x, { p with free := others }, rfl, allocate_of_free empty⟩
  | nil =>
      cases collected : p.swept.free with
      | cons x others =>
          exact .inl ⟨x, { p.swept with free := others }, swept_extents p,
            allocate_of_swept empty collected⟩
      | nil => exact .inr (drained_of_swept empty collected)

theorem Sound.card_slices (sound : p.Sound out) : p.slices.card = p.key.room ↑p.extents := by
  have formed := sound.formed
  rw [slices, PoolKey.room, extents, Multiset.map_coe, Multiset.sum_coe, List.map_map]
  generalize p.segments = segments at formed
  induction segments with
  | nil => rfl
  | cons s segments ih =>
      have others := ih fun t member => formed t (List.mem_cons_of_mem _ member)
      have mine := (formed s List.mem_cons_self).capacity
      simp only [List.map_cons, List.sum_cons, Multiset.card_add, Segment.card_slices, others,
        Function.comp_apply, mine]

theorem Sound.card_le (sound : p.Sound out) : out.card ≤ p.key.room ↑p.extents := by
  rw [← sound.card_slices, ← sound.balance, Multiset.card_add]
  exact Nat.le_add_left _ _

/-- All blocks of a drained pool are outstanding. -/
theorem Sound.out_eq (sound : p.Sound out) (drained : p.Drained) : out = p.slices := by
  have waiting : (p.segments.map Segment.parked).sum = 0 := by
    apply List.sum_eq_zero
    intro parked member
    obtain ⟨s, there, rfl⟩ := List.mem_map.mp member
    simp [Segment.parked, drained.waiting s there]
  have stock : p.stock = 0 := by simp [Pool.stock, drained.ready, waiting]
  rw [← sound.balance, stock, zero_add]

/-- A segment that comes after a pass adds its extent to those that were there. -/
theorem swept_addSegment_extents (p : Pool) (s : Segment) :
    (↑(p.swept.addSegment s).extents : Multiset Extent) = s.extent ::ₘ ↑p.extents := by
  rw [← swept_extents p]
  exact Multiset.coe_eq_coe.mpr (by
    simpa only [extents, addSegment, record, List.map_append, List.map_singleton] using
      List.perm_append_singleton s.extent p.swept.extents)

theorem Kept.extents_allocate {r : Except HeapError Block} (kept : p.Kept b out rest)
    (got : p.allocate b = (r, p', b')) : p'.extents = p.extents ∨
      p.Drained ∧ ∃ x e, r = .ok x ∧ x.pool? = some p.key ∧
        (↑p'.extents : Multiset Extent) = e ::ₘ ↑p.extents := by
  cases kept.allocation got with
  | ready => exact .inl rfl
  | collected => exact .inl (swept_extents p)
  | failed => exact .inl (swept_extents p)
  | @grown s others _ empty collected _ _ formed =>
      refine .inr ⟨drained_of_swept empty collected, s.blockAt 0, s.extent, rfl, ?_,
        swept_addSegment_extents p s⟩
      rw [← formed.pool]
      rfl

theorem Return.extents_le (returned : p.Return block b p' b') : p'.extents = p.extents ∨
    p.retention.neverFree = false ∧ (↑p'.extents : Multiset Extent) ≤ ↑p.extents := by
  cases returned with
  | parked split => exact .inl (by simp [extents, split, Segment.park])
  | @released before after s split _ _ go =>
      simp only [letsGo, Bool.and_eq_true, Bool.not_eq_true'] at go
      refine .inr ⟨go.1, Multiset.coe_le.mpr (List.Sublist.subperm ?_)⟩
      simp only [extents, split, record]
      exact ((List.sublist_cons_self s after).append_left before).map _

end Pool

variable {pools pools' before after fresh : List Pool} {closed : List Nat} {b : Backing}
  {out : Multiset Block} {p p' : Pool} {key : PoolKey} {e : Extent}

theorem mem_extentsOf : e ∈ extentsOf pools key ↔ ∃ p ∈ pools, p.key = key ∧ e ∈ p.extents := by
  have share (p : Pool) : e ∈ (if p.key = key then (↑p.extents : Multiset Extent) else 0) ↔
      p.key = key ∧ e ∈ p.extents := by
    split <;> simp_all
  simp only [extentsOf, mem_sum_map, share]

theorem extentsOf_of_empty (none : ∀ p ∈ pools, p.key = key → p.segments = []) :
    extentsOf pools key = 0 := by
  apply Multiset.eq_zero_of_forall_notMem
  intro e member
  obtain ⟨p, listed, same, inside⟩ := mem_extentsOf.mp member
  rw [Pool.extents, none p listed same] at inside
  cases inside

theorem extentsOf_append (first second : List Pool) :
    extentsOf (first ++ second) key = extentsOf first key + extentsOf second key := by
  simp only [extentsOf, List.map_append, List.sum_append]

theorem extentsOf_perm (same : pools.Perm pools') : extentsOf pools key = extentsOf pools' key :=
  (same.map _).sum_eq

theorem extentsOf_split : extentsOf (before ++ p :: after) key =
    (if p.key = key then (↑p.extents : Multiset Extent) else 0) + extentsOf (before ++ after) key :=
  sum_map_split _ before p after

/-- New pools have no segments yet. -/
theorem extentsOf_widen (wide : pools'.Perm (fresh ++ pools)) (blank : ∀ p ∈ fresh, p.blank = p) :
    extentsOf pools' key = extentsOf pools key := by
  have none : extentsOf fresh key = 0 := extentsOf_of_empty fun p new _ => blank p new ▸ rfl
  rw [extentsOf_perm wide, extentsOf_append, none, zero_add]

/-- A pool whose segments stay may be replaced. -/
theorem extentsOf_put (alike : p.Alike p')
    (same : (↑p'.extents : Multiset Extent) = ↑p.extents) :
    extentsOf (before ++ p' :: after) key = extentsOf (before ++ p :: after) key := by
  rw [extentsOf_split, extentsOf_split, alike.key, same]

namespace Ledger

theorem extentsOf_eq (ledger : Ledger pools closed b out) (listed : p ∈ pools) :
    extentsOf pools p.key = ↑p.extents := by
  obtain ⟨before, after, rfl, apart⟩ := Keyed.exists_split ledger.keys listed
  have others : extentsOf (before ++ after) p.key = 0 :=
    extentsOf_of_empty fun q member same => absurd same (apart q member)
  rw [extentsOf_split, if_pos rfl, others, add_zero]

/-- No more blocks are outstanding than there are. -/
theorem card_le (ledger : Ledger pools closed b out) (key : PoolKey) :
    (blocksOf out key).card ≤ key.room (extentsOf pools key) := by
  by_cases known : ∃ p ∈ pools, p.key = key
  · obtain ⟨p, listed, rfl⟩ := known
    rw [ledger.extentsOf_eq listed]
    exact (ledger.sound p listed).card_le
  · have none : blocksOf out key = 0 := by
      rw [blocksOf, Multiset.filter_eq_nil]
      intro x member own
      obtain ⟨p, listed, same, -⟩ := ledger.pool_of_out member own
      exact known ⟨p, listed, same⟩
    rw [none]
    exact Nat.zero_le _

theorem card_eq (ledger : Ledger pools closed b out) (listed : p ∈ pools) (drained : p.Drained) :
    (blocksOf out p.key).card = p.key.room (extentsOf pools p.key) := by
  have sound := ledger.sound p listed
  rw [ledger.extentsOf_eq listed, sound.out_eq drained, sound.card_slices]

end Ledger

namespace Memory

variable {m m' : Memory} {heap size node count value : Nat} {device : Option Nat} {block : Block}

/-- What a call that may hand out a block of the pool `home` does to the segments of the pool `key`:
they stay, or one more is there, because all blocks were outstanding. -/
inductive Growth (m : Memory) (out : Multiset Block) (key : PoolKey) (home : Option PoolKey)
    (m' : Memory) : Prop where
  | level (same : extentsOf m'.pools key = extentsOf m.pools key)
  | grown {e : Extent} (own : home = some key) (drained : ∀ p ∈ m.pools, p.key = key → p.Drained)
      (full : (blocksOf out key).card = key.room (extentsOf m.pools key))
      (more : extentsOf m'.pools key = e ::ₘ extentsOf m.pools key)

theorem Growth.congr {home : Option PoolKey} {m'' : Memory} (growth : m.Growth out key home m')
    (same : m''.pools = m'.pools) : m.Growth out key home m'' := by
  cases growth with
  | level stays => exact .level (same ▸ stays)
  | grown own drained full more => exact .grown own drained full (same ▸ more)

theorem Sound.growth_allocate {r : Except HeapError Block} (sound : m.Sound closed out)
    (key : PoolKey) (got : m.allocate heap size node device = (r, m')) :
    m.Growth out key (r.toOption.bind Block.pool?) m' := by
  obtain ⟨formed, request⟩ := sound.formed.request got
  cases request with
  | refused _ _ wide blank => exact .level (extentsOf_widen wide blank)
  | @served p p' before after fresh wide blank _ _ went pools =>
      have alike := Pool.Alike.of_allocate went
      have ledger := sound.widen formed (pools ▸ keys_put alike) wide blank
      have widened : extentsOf (before ++ p :: after) key = extentsOf m.pools key :=
        extentsOf_widen wide blank
      rcases ledger.kept.extents_allocate went with same | ⟨drained, x, e, rfl, own, more⟩
      · apply Growth.level
        rw [pools, extentsOf_put alike (congrArg _ same), widened]
      by_cases mine : p.key = key
      · subst mine
        have one : extentsOf m'.pools p.key = e ::ₘ extentsOf m.pools p.key := by
          rw [pools, ← widened, extentsOf_split, extentsOf_split, alike.key, if_pos rfl,
            if_pos rfl, more, Multiset.cons_add]
        refine .grown own ?_ ?_ one
        · intro q listed same
          have inside : q ∈ before ++ p :: after :=
            wide.mem_iff.mpr (List.mem_append_right _ listed)
          have equal : q = p :=
            List.inj_on_of_nodup_map ledger.keys inside List.mem_append_cons_self same
          exact equal ▸ drained
        · rw [← widened]
          exact ledger.card_eq List.mem_append_cons_self drained
      · apply Growth.level
        rw [← widened, pools, extentsOf_split, extentsOf_split, alike.key, if_neg mine, if_neg mine]

theorem Sound.growth_allocateArray {r : Except HeapError Block} {l : Layout}
    (sound : m.Sound closed out) (key : PoolKey)
    (got : m.allocateArray heap l count node = (r, m')) :
    m.Growth out key (r.toOption.bind Block.pool?) m' := by
  unfold allocateArray at got
  split at got
  · cases got
    exact .level rfl
  split at got
  · cases got
    exact .level rfl
  · exact sound.growth_allocate key got

theorem Sound.growth_makeOwner {r : Except HeapError Owner} {element : Element}
    (sound : m.Sound closed out) (key : PoolKey)
    (got : m.makeOwner heap element node value = (r, m')) :
    m.Growth out key (r.toOption.bind fun o => o.block.pool?) m' := by
  unfold makeOwner at got
  rcases asked : m.allocateArray heap element.layout 1 node with ⟨cause | x, m₁⟩
  · simp only [asked, Prod.mk.injEq] at got
    obtain ⟨rfl, rfl⟩ := got
    exact (sound.growth_allocateArray key asked).congr (pools_endValues m₁ element [value])
  · simp only [asked, Prod.mk.injEq] at got
    obtain ⟨rfl, rfl⟩ := got
    exact (sound.growth_allocateArray key asked).congr rfl

/-- A free leaves the segments of a pool as they are, unless the pool lets segments go. -/
theorem Sound.extentsOf_free (sound : m.Sound closed (block.bare ::ₘ out)) (key : PoolKey) :
    extentsOf (m.free block).pools key = extentsOf m.pools key ∨
      extentsOf (m.free block).pools key ≤ extentsOf m.pools key ∧
        ∃ p ∈ (m.free block).pools, p.key = key ∧ p.retention.neverFree = false := by
  cases sound.freed with
  | @pooled p p' n before after split origin _ went pools =>
      have alike := Pool.Alike.of_giveBack went
      have listed : p ∈ m.pools := split ▸ List.mem_append_cons_self
      obtain ⟨_, kept⟩ := (sound.logged block.address).exists_kept_cons listed
        (Block.pool?_eq_some.mpr ⟨n, origin⟩)
      rw [split, pools]
      rcases (kept.returned origin went).extents_le with same | ⟨frees, fewer⟩
      · exact .inl (extentsOf_put alike (congrArg _ same))
      by_cases mine : p.key = key
      · refine .inr ⟨?_, p', List.mem_append_cons_self, alike.key.trans mine, ?_⟩
        · rw [extentsOf_split, extentsOf_split, alike.key, if_pos mine, if_pos mine]
          exact add_le_add_left fewer _
        · rw [alike.retention]
          exact frees
      · left
        rw [extentsOf_split, extentsOf_split, alike.key, if_neg mine, if_neg mine]
  | ended _ freed =>
      rw [freed]
      exact .inl rfl

end Memory

end RegisteredHeap
