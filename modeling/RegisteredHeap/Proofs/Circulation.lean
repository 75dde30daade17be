import RegisteredHeap.Proofs.Balance

/-! # Circulation of blocks

What allocation and freeing can do to a pool, case by case, and that each case keeps the pool sound
and its inventory on the backing. Everything else about a pool is derived from these cases.
-/

namespace RegisteredHeap.Pool

variable {p p' : Pool} {b b' : Backing} {out : Multiset Block} {rest : Inventory} {s : Segment}
  {block : Block}

/-- The pool is sound, and what it has is on the backing beside `rest`. -/
structure Kept (p : Pool) (b : Backing) (out : Multiset Block) (rest : Inventory) : Prop where
  sound : p.Sound out
  holds : b.Holds (p.inventory + rest)

/-- What no call on a pool changes. -/
structure Alike (p p' : Pool) : Prop where
  key : p'.key = p.key
  segmentSize : p'.segmentSize = p.segmentSize
  retention : p'.retention = p.retention

/-- Every segment that was created is there or was released. -/
def Counted (p : Pool) : Prop := p.counters.created = p.segments.length + p.counters.released

theorem Kept.distinct (kept : p.Kept b out rest) : p.Distinct := distinct_of_holds kept.holds

theorem Sound.pop {ready : List Block} (sound : p.Sound out) (there : p.free = block :: ready) :
    { p with free := ready }.Sound (block.bare ::ₘ out) where
  size := sound.size
  formed := sound.formed
  parked := sound.parked
  balance := by
    rw [show slices { p with free := ready } = p.slices from rfl, ← sound.balance]
    simp only [stock, there, List.map_cons, ← Multiset.cons_coe, Multiset.cons_add,
      Multiset.add_cons]
  kept := sound.kept

theorem collect_free (p : Pool) :
    p.collect.free = p.free ++ p.segments.flatMap fun s => s.deferred.reverse := by
  simp only [collect, record, List.flatMap_map]
  rfl

theorem collect_segments (p : Pool) :
    p.collect.segments = p.segments.map fun s => s.collect.2 := by
  simp only [collect, record, List.map_map]
  rfl

theorem deferred_of_mem_collect (member : s ∈ p.collect.segments) : s.deferred = [] := by
  rw [collect_segments] at member
  obtain ⟨t, -, rfl⟩ := List.mem_map.mp member
  rfl

theorem collect_inventory (p : Pool) : p.collect.inventory = p.inventory := by
  rw [inventory, collect_segments, List.map_map]
  rfl

theorem collect_slices (p : Pool) : p.collect.slices = p.slices := by
  rw [slices, collect_segments, List.map_map]
  rfl

theorem sum_parked_eq (segments : List Segment) :
    (segments.map Segment.parked).sum =
      ↑((segments.flatMap fun s => s.deferred.reverse).map Block.bare) := by
  induction segments with
  | nil => rfl
  | cons s segments ih =>
      rw [List.map_cons, List.sum_cons, ih, List.flatMap_cons, List.map_append, List.map_reverse,
        ← Multiset.coe_add, Multiset.coe_reverse]
      rfl

theorem collect_stock (p : Pool) : p.collect.stock = p.stock := by
  have none : (p.collect.segments.map Segment.parked).sum = 0 := by
    apply List.sum_eq_zero
    intro parked member
    obtain ⟨s, there, rfl⟩ := List.mem_map.mp member
    simp [Segment.parked, deferred_of_mem_collect there]
  rw [stock, none, stock, collect_free, sum_parked_eq, List.map_append, ← Multiset.coe_add,
    add_zero]

theorem not_full_of_mem_collect (sound : p.Sound out) (member : s ∈ p.collect.segments) :
    s.deferred.length ≠ s.capacity := by
  have empty := deferred_of_mem_collect member
  rw [collect_segments] at member
  obtain ⟨t, there, rfl⟩ := List.mem_map.mp member
  have positive := (sound.formed t there).capacity_pos sound.size
  rw [empty]
  exact Nat.ne_of_lt positive

theorem Sound.collect (sound : p.Sound out) : p.collect.Sound out where
  size := sound.size
  formed := by
    intro s member
    rw [collect_segments] at member
    obtain ⟨t, there, rfl⟩ := List.mem_map.mp member
    exact (sound.formed t there).congr _ _
  parked := by
    intro s member
    rw [collect_segments] at member
    obtain ⟨t, there, rfl⟩ := List.mem_map.mp member
    exact (sound.parked t there).collect
  balance := by
    rw [collect_stock, collect_slices]
    exact sound.balance
  kept := by
    intro _ full
    obtain ⟨s, member, whole⟩ := full
    exact absurd whole (not_full_of_mem_collect sound member)

/-- The pool of an allocation that found no ready block, after it has collected. -/
def swept (p : Pool) : Pool := (p.record .slowPath).collect

theorem Sound.record (sound : p.Sound out) (e : PoolEvent) : (p.record e).Sound out :=
  ⟨sound.size, sound.formed, sound.parked, sound.balance, sound.kept⟩

theorem swept_inventory (p : Pool) : p.swept.inventory = p.inventory := collect_inventory _

theorem Kept.swept (kept : p.Kept b out rest) : p.swept.Kept b out rest where
  sound := (kept.sound.record .slowPath).collect
  holds := by
    rw [swept_inventory]
    exact kept.holds

/-- A new segment comes with its blocks, once all others were collected. -/
theorem Sound.addSegment (sound : p.Sound out) (formed : s.Formed p.key) (fresh : s.deferred = [])
    (counted : s.numFreed = 0) (open_ : ∀ t ∈ p.segments, t.deferred.length ≠ t.capacity) :
    (p.addSegment s).Sound out where
  size := sound.size
  formed := by
    intro t member
    rcases List.mem_append.mp member with old | new
    · exact sound.formed t old
    · exact List.mem_singleton.mp new ▸ formed
  parked := by
    intro t member
    rcases List.mem_append.mp member with old | new
    · exact sound.parked t old
    · rw [List.mem_singleton.mp new]
      exact ⟨by simp [fresh, counted], by simp [fresh]⟩
  balance := by
    have parked : s.parked = 0 := by simp [Segment.parked, fresh]
    have stock : (p.addSegment s).stock = p.stock + s.slices := by
      simp only [Pool.addSegment, Pool.record, Pool.stock, List.map_append, List.map_cons,
        List.map_nil, List.sum_append, List.sum_singleton, parked, add_zero, Segment.bare_blocks,
        ← Multiset.coe_add, Segment.slices]
      abel
    have slices : (p.addSegment s).slices = p.slices + s.slices := by
      simp only [Pool.addSegment, Pool.record, Pool.slices, List.map_append, List.map_cons,
        List.map_nil, List.sum_append, List.sum_singleton]
    rw [stock, slices, ← sound.balance]
    abel
  kept := by
    intro _ full
    obtain ⟨t, member, whole⟩ := full
    rcases List.mem_append.mp member with old | new
    · exact absurd whole (open_ t old)
    · have positive := formed.capacity_pos sound.size
      rw [List.mem_singleton.mp new, fresh] at whole
      exact absurd whole (Nat.ne_of_lt positive)

theorem addSegment_inventory (p : Pool) (s : Segment) :
    (p.addSegment s).inventory = s.inventory + p.inventory := by
  simp only [addSegment, record, inventory, List.map_append, List.map_cons, List.map_nil,
    List.sum_append, List.sum_singleton]
  abel

/-- The ways in which an allocation can go: a ready block is handed out; failing that one that was
collected; and only if there is none either does the pool grow. -/
inductive Allocation (p : Pool) (b : Backing) (rest : Inventory) :
    Except HeapError Block → Pool → Backing → Prop where
  | ready {block : Block} {others : List Block} (there : p.free = block :: others) :
    p.Allocation b rest (.ok block) { p with free := others } b
  | collected {block : Block} {others : List Block} (empty : p.free = [])
      (there : p.swept.free = block :: others) :
    p.Allocation b rest (.ok block) { p.swept with free := others } b
  | grown {s : Segment} {others : List Block} {b' : Backing} (empty : p.free = [])
      (collected : p.swept.free = []) (obtained : p.swept.obtainSegment b = (.ok s, b'))
      (holds : b'.Holds (s.inventory + (p.inventory + rest))) (formed : s.Formed p.key)
      (fresh : s.deferred = []) (counted : s.numFreed = 0)
      (blocks : s.blocks = s.blockAt 0 :: others) :
    p.Allocation b rest (.ok (s.blockAt 0)) { p.swept.addSegment s with free := others } b'
  | failed {cause : HeapError} {b' : Backing} (empty : p.free = []) (collected : p.swept.free = [])
      (refused : p.swept.obtainSegment b = (.error cause, b'))
      (holds : b'.Holds (p.inventory + rest)) :
    p.Allocation b rest (.error cause) p.swept b'

theorem allocate_of_free {others : List Block} (there : p.free = block :: others) (b : Backing) :
    p.allocate b = (.ok block, { p with free := others }, b) := by
  simp only [allocate, there]

theorem allocate_of_swept {others : List Block} (empty : p.free = [])
    (there : p.swept.free = block :: others) (b : Backing) :
    p.allocate b = (.ok block, { p.swept with free := others }, b) := by
  simp only [swept] at there
  simp only [allocate, empty, allocateSlow, there]
  rfl

theorem allocate_of_grow (empty : p.free = []) (collected : p.swept.free = []) (b : Backing) :
    p.allocate b = p.swept.grow b := by
  simp only [swept] at collected
  simp only [allocate, empty, allocateSlow, collected]
  rfl

theorem Kept.allocation {r : Except HeapError Block} (kept : p.Kept b out rest)
    (got : p.allocate b = (r, p', b')) : p.Allocation b rest r p' b' := by
  cases there : p.free with
  | cons block others =>
      rw [allocate_of_free there] at got
      cases got
      exact .ready there
  | nil =>
      cases collected : p.swept.free with
      | cons block others =>
          rw [allocate_of_swept there collected] at got
          cases got
          exact .collected there collected
      | nil =>
          have holds := kept.swept.holds
          rw [allocate_of_grow there collected] at got
          rcases obtained : p.swept.obtainSegment b with ⟨cause | s, b₁⟩
          · simp only [grow, obtained, Prod.mk.injEq] at got
            obtain ⟨rfl, rfl, rfl⟩ := got
            exact .failed there collected obtained
              (swept_inventory p ▸ obtainSegment_failed holds obtained)
          · obtain ⟨all, formed, fresh, counted⟩ := obtainSegment_ok holds obtained
            obtain ⟨others, blocks⟩ :=
              Segment.blocks_eq_cons (formed.capacity_pos kept.sound.size)
            have free : (p.swept.addSegment s).free = s.blockAt 0 :: others := by
              simp only [addSegment, record, collected, List.nil_append, blocks]
            simp only [grow, obtained, free, Prod.mk.injEq] at got
            obtain ⟨rfl, rfl, rfl⟩ := got
            exact .grown there collected obtained (swept_inventory p ▸ all) formed fresh counted
              blocks

theorem Kept.pop {others : List Block} (kept : p.Kept b out rest)
    (there : p.free = block :: others) :
    { p with free := others }.Kept b (block.bare ::ₘ out) rest :=
  ⟨kept.sound.pop there, kept.holds⟩

theorem Kept.allocate_failed {cause : HeapError} (kept : p.Kept b out rest)
    (got : p.allocate b = (.error cause, p', b')) : p'.Kept b' out rest := by
  cases kept.allocation got with
  | failed _ _ _ holds => exact ⟨kept.swept.sound, by rwa [swept_inventory]⟩

theorem Kept.allocate_ok (kept : p.Kept b out rest)
    (got : p.allocate b = (.ok block, p', b')) : p'.Kept b' (block.bare ::ₘ out) rest := by
  cases kept.allocation got with
  | ready there => exact kept.pop there
  | collected _ there => exact kept.swept.pop there
  | @grown s others _ _ collected _ holds formed fresh counted blocks =>
      have larger : (p.swept.addSegment s).Kept b' out rest := by
        refine ⟨kept.swept.sound.addSegment formed fresh counted ?_, ?_⟩
        · intro t member
          exact not_full_of_mem_collect (kept.sound.record .slowPath) member
        · rw [addSegment_inventory, swept_inventory, add_assoc]
          exact holds
      apply larger.pop
      simp only [addSegment, record, collected, List.nil_append, blocks]

theorem Alike.of_allocate {r : Except HeapError Block} (got : p.allocate b = (r, p', b')) :
    p.Alike p' := by
  have same : p.Alike (p.allocate b).2.1 := by
    unfold allocate
    split
    · exact ⟨rfl, rfl, rfl⟩
    simp only [allocateSlow]
    split
    · exact ⟨rfl, rfl, rfl⟩
    simp only [grow]
    split
    · exact ⟨rfl, rfl, rfl⟩
    · split <;> exact ⟨rfl, rfl, rfl⟩
  rwa [got] at same

theorem Counted.swept (counted : p.Counted) : p.swept.Counted := by
  have same : p.swept.segments.length = p.segments.length := by
    simp only [Pool.swept, collect_segments, List.length_map, record]
  rw [Counted, same]
  exact counted

theorem Counted.allocate {r : Except HeapError Block} (counted : p.Counted)
    (kept : p.Kept b out rest) (got : p.allocate b = (r, p', b')) : p'.Counted := by
  cases kept.allocation got with
  | ready => exact counted
  | collected => exact counted.swept
  | failed => exact counted.swept
  | grown =>
      have before := counted.swept
      simp only [Counted, addSegment, record, PoolCounters.record, List.length_append,
        List.length_singleton] at before ⊢
      omega

/-- The ways in which the return of a block can go: it waits on its segment, or it was the last one
out and the pool can do without the segment. -/
inductive Return (p : Pool) (block : Block) (b : Backing) : Pool → Backing → Prop where
  | parked {before after : List Segment} {s : Segment} (split : p.segments = before ++ s :: after)
      (own : block.bare ∈ s.slices) (room : s.deferred.length < s.capacity)
      (stays : s.deferred.length + 1 = s.capacity → p.letsGo = false) :
    p.Return block b { p with segments := before ++ s.park block :: after } b
  | released {before after : List Segment} {s : Segment}
      (split : p.segments = before ++ s :: after) (own : block.bare ∈ s.slices)
      (last : s.deferred.length + 1 = s.capacity) (go : p.letsGo = true) :
    p.Return block b ({ p with segments := before ++ after }.record .segmentReleased)
      ((s.park block).release b)

/-- An outstanding block finds its segment, which has room for it. -/
theorem Sound.segment?_eq {n : Nat} (sound : p.Sound (block.bare ::ₘ out)) (distinct : p.Distinct)
    (origin : block.origin = .segment p.key n) :
    ∃ before s after, p.segments = before ++ s :: after ∧
      Keyed.Apart (fun s => s.extent.number) before s after ∧ p.segment? n = some s ∧
      s.extent.number = n ∧ block.bare ∈ s.slices ∧ s.deferred.length < s.capacity := by
  have out : block.bare ∈ block.bare ::ₘ out := Multiset.mem_cons_self _ _
  obtain ⟨s, there, slice, same⟩ := sound.segment_of_out out
  have number : s.extent.number = n := by
    rw [Block.bare_origin, origin, Segment.origin, Origin.segment.injEq] at same
    exact same.2.symm
  have room := sound.room distinct there out same
  obtain ⟨before, after, split, apart⟩ := Keyed.exists_split distinct there
  refine ⟨before, s, after, split, apart, ?_, number, slice, room⟩
  rw [segment?, split, ← number]
  exact Keyed.find?_split apart

theorem Kept.returned {n : Nat} (kept : p.Kept b (block.bare ::ₘ out) rest)
    (origin : block.origin = .segment p.key n) (got : p.giveBack n block b = (p', b')) :
    p.Return block b p' b' := by
  obtain ⟨before, s, after, split, apart, found, number, own, room⟩ :=
    kept.sound.segment?_eq kept.distinct origin
  have there : s ∈ p.segments := split ▸ List.mem_append_cons_self
  have freed := Segment.free_eq (kept.sound.parked s there) room block
  have replaced : p.setSegment (s.park block) =
      { p with segments := before ++ s.park block :: after } := by
    simp only [setSegment, split]
    congr 1
    exact Keyed.map_split apart (s.park block)
  simp only [giveBack, found, freed, replaced] at got
  split at got
  · rename_i gone
    simp only [Bool.and_eq_true, beq_iff_eq] at gone
    have removed : (before ++ s.park block :: after).filter
        (fun t => t.extent.number != (s.park block).extent.number) = before ++ after :=
      Keyed.filter_split (a := s.park block) apart
    simp only [removeSegment, removed, Prod.mk.injEq] at got
    obtain ⟨rfl, rfl⟩ := got
    refine .released split own gone.1 ?_
    simpa only [letsGo, split, List.length_append, List.length_cons] using gone.2
  · rename_i stays
    simp only [Prod.mk.injEq] at got
    obtain ⟨rfl, rfl⟩ := got
    refine .parked split own room ?_
    intro last
    simpa [letsGo, split, last] using stays

/-- Once its last block comes back, all blocks of a segment wait on it. -/
theorem Sound.parked_eq_slices (sound : p.Sound (block.bare ::ₘ out)) (distinct : p.Distinct)
    (there : s ∈ p.segments) (own : block.bare ∈ s.slices)
    (last : s.deferred.length + 1 = s.capacity) : (s.park block).parked = s.slices := by
  have share := sound.share distinct there
  have same : block.bare.origin = s.origin := Segment.origin_of_mem_slices own
  have counted : (block.bare ::ₘ out).filter (fun b : Block => b.origin = s.origin) =
      block.bare ::ₘ out.filter (fun b : Block => b.origin = s.origin) :=
    Multiset.filter_cons_of_pos out same
  rw [counted] at share
  have counts := congrArg Multiset.card share
  simp only [Multiset.card_add, Multiset.card_cons, Segment.card_slices, Segment.parked,
    Multiset.coe_card, List.length_map] at counts
  have ready :
      Multiset.filter (fun b : Block => b.origin = s.origin) ↑(p.free.map Block.bare) = 0 :=
    Multiset.card_eq_zero.mp (by omega)
  have others : out.filter (fun b => b.origin = s.origin) = 0 :=
    Multiset.card_eq_zero.mp (by omega)
  rw [ready, others, zero_add] at share
  rw [← share, Segment.parked_park, ← Multiset.singleton_add, add_comm]
  rfl

/-- A block that comes back waits on its segment. -/
theorem Sound.park {before after : List Segment} (sound : p.Sound (block.bare ::ₘ out))
    (split : p.segments = before ++ s :: after) (own : block.bare ∈ s.slices)
    (stays : s.deferred.length + 1 = s.capacity → p.letsGo = false) :
    { p with segments := before ++ s.park block :: after }.Sound out := by
  have there : s ∈ p.segments := split ▸ List.mem_append_cons_self
  have old : ∀ t ∈ before ++ s.park block :: after, t = s.park block ∨ t ∈ p.segments := by
    intro t member
    rw [split]
    grind
  refine ⟨sound.size, ?_, ?_, ?_, ?_⟩
  · intro t member
    rcases old t member with rfl | member
    · exact (sound.formed s there).congr _ _
    · exact sound.formed t member
  · intro t member
    rcases old t member with rfl | member
    · have same : block.bare.origin = s.origin := Segment.origin_of_mem_slices own
      exact (sound.parked s there).park same
    · exact sound.parked t member
  · have balance := sound.balance
    simp only [stock, Pool.slices, split, sum_map_split] at balance ⊢
    rw [Segment.parked_park, show (s.park block).slices = s.slices from rfl, ← balance]
    simp only [Multiset.cons_add, Multiset.add_cons]
  · intro frees full
    obtain ⟨t, member, whole⟩ := full
    have length : (before ++ s.park block :: after).length = p.segments.length := by
      simp [split]
    rw [length]
    rcases old t member with rfl | member
    · have refused := stays whole
      simp only [letsGo, show p.retention.neverFree = false from frees, Bool.not_false,
        Bool.true_and, decide_eq_false_iff_not, Nat.not_lt] at refused
      exact refused
    · exact sound.kept frees ⟨t, member, whole⟩

/-- A segment goes with all of its blocks, since all of them wait on it. -/
theorem Sound.release {before after : List Segment} (sound : p.Sound (block.bare ::ₘ out))
    (distinct : p.Distinct) (split : p.segments = before ++ s :: after)
    (own : block.bare ∈ s.slices) (last : s.deferred.length + 1 = s.capacity)
    (go : p.letsGo = true) :
    ({ p with segments := before ++ after }.record .segmentReleased).Sound out := by
  have there : s ∈ p.segments := split ▸ List.mem_append_cons_self
  have old : ∀ t ∈ before ++ after, t ∈ p.segments := by
    intro t member
    rw [split]
    grind
  have whole := sound.parked_eq_slices distinct there own last
  refine ⟨sound.size, fun t member => sound.formed t (old t member),
    fun t member => sound.parked t (old t member), ?_, ?_⟩
  · have total : ↑(p.free.map Block.bare) + (s.parked + ((before ++ after).map
        Segment.parked).sum) + block.bare ::ₘ out =
        s.slices + ((before ++ after).map Segment.slices).sum := by
      have balance := sound.balance
      simpa only [stock, Pool.slices, split, sum_map_split] using balance
    rw [← whole, Segment.parked_park] at total
    apply add_left_cancel (a := block.bare ::ₘ s.parked)
    change _ = block.bare ::ₘ s.parked + ((before ++ after).map Segment.slices).sum
    rw [← total, Multiset.cons_add, Multiset.add_cons]
    congr 1
    simp only [stock, Pool.record]
    abel
  · intro frees full
    obtain ⟨t, member, waits⟩ := full
    have few := sound.kept frees ⟨t, old t member, waits⟩
    simp only [letsGo, Bool.and_eq_true, decide_eq_true_eq] at go
    exact absurd few (Nat.not_le.mpr go.2)

theorem Kept.giveBack {n : Nat} (kept : p.Kept b (block.bare ::ₘ out) rest)
    (origin : block.origin = .segment p.key n) (got : p.giveBack n block b = (p', b')) :
    p'.Kept b' out rest := by
  have holds := kept.holds
  cases kept.returned origin got with
  | parked split own _ stays =>
      refine ⟨kept.sound.park split own stays, ?_⟩
      simp only [Pool.inventory, split, sum_map_split] at holds ⊢
      exact holds
  | released split own last go =>
      refine ⟨kept.sound.release kept.distinct split own last go, ?_⟩
      simp only [Pool.inventory, record, split, sum_map_split, add_assoc] at holds ⊢
      exact Segment.release_holds holds

theorem Alike.of_giveBack {n : Nat} (got : p.giveBack n block b = (p', b')) : p.Alike p' := by
  have same : p.Alike (p.giveBack n block b).1 := by
    simp only [Pool.giveBack]
    split
    · exact ⟨rfl, rfl, rfl⟩
    · split <;> exact ⟨rfl, rfl, rfl⟩
  rwa [got] at same

theorem Counted.giveBack {n : Nat} (counted : p.Counted)
    (kept : p.Kept b (block.bare ::ₘ out) rest) (origin : block.origin = .segment p.key n)
    (got : p.giveBack n block b = (p', b')) : p'.Counted := by
  cases kept.returned origin got with
  | parked split => simpa [Counted, split] using counted
  | released split =>
      simp only [Counted, split, record, PoolCounters.record, List.length_append,
        List.length_cons] at counted ⊢
      omega

end RegisteredHeap.Pool
