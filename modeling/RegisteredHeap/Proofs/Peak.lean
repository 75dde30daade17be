import Mathlib.Algebra.Order.Floor.Div
import RegisteredHeap.Proofs.Reach
import RegisteredHeap.Proofs.Saturation

/-! # Peak demand

As long as a pool keeps its segments, it has as many as the most blocks need that were outstanding
at once: it got the last one when all blocks of the others were out, and one more was asked for.
-/

namespace RegisteredHeap

namespace PoolKey

variable {key : PoolKey} {extents : Multiset Extent} {n k c : Nat} {e : Extent}

/-- The extents have room for `n` blocks, and without some one of them they would not. -/
structure Needed (key : PoolKey) (extents : Multiset Extent) (n : Nat) : Prop where
  enough : n ≤ key.room extents
  last : extents = 0 ∨ ∃ e ∈ extents, key.room extents < n + e.size / key.blockSize

theorem room_cons : key.room (e ::ₘ extents) = e.size / key.blockSize + key.room extents := by
  simp [room]

theorem needed_zero (key : PoolKey) : key.Needed 0 0 := ⟨Nat.zero_le _, .inl rfl⟩

theorem Needed.max (needed : key.Needed extents n) (enough : k ≤ key.room extents) :
    key.Needed extents (max n k) where
  enough := Nat.max_le.mpr ⟨needed.enough, enough⟩
  last := by
    rcases needed.last with none | ⟨e, there, less⟩
    · exact .inl none
    · exact .inr ⟨e, there, less.trans_le (Nat.add_le_add_right (Nat.le_max_left n k) _)⟩

/-- A new extent is needed by a block that the others have no room for. -/
theorem needed_cons (more : key.room extents < n) (enough : n ≤ key.room (e ::ₘ extents)) :
    key.Needed (e ::ₘ extents) n where
  enough := enough
  last := by
    refine .inr ⟨e, Multiset.mem_cons_self e extents, ?_⟩
    rw [room_cons]
    omega

/-- Extents that hold `c` blocks each are as many as `n` blocks need. -/
theorem Needed.card_eq (needed : key.Needed extents n)
    (each : ∀ e ∈ extents, e.size / key.blockSize = c) : extents.card = n ⌈/⌉ c := by
  have room : key.room extents = extents.card * c := by
    rw [PoolKey.room, Multiset.map_congr rfl each, Multiset.map_const', Multiset.sum_replicate,
      smul_eq_mul]
  have enough := needed.enough
  rw [room] at enough
  rcases needed.last with rfl | ⟨e, there, less⟩
  · rw [Multiset.card_zero, Nat.zero_mul, Nat.le_zero] at enough
    rw [enough, zero_ceilDiv, Multiset.card_zero]
  · rw [room, each e there] at less
    have positive : 0 < c := by omega
    rw [Nat.ceilDiv_eq_add_pred_div]
    symm
    rw [Nat.div_eq_iff positive]
    omega

end PoolKey

namespace Tenancy

variable {w w' : Tenancy} {key : PoolKey} {heap n : Nat} {act : Act} {acts : List Act} {p : Pool}
  {m : Memory}

/-- How many blocks of a pool callers hold. -/
def held (w : Tenancy) (key : PoolKey) : Nat :=
  w.leases.countP fun l => l.grip.block.pool? = some key

def extents (w : Tenancy) (key : PoolKey) : Multiset Extent := extentsOf w.memory.pools key

/-- Callers hold all blocks of the pool, and it has none. -/
structure Saturated (w : Tenancy) (p : Pool) : Prop where
  drained : p.Drained
  held : ∀ s ∈ p.segments, ∀ x ∈ s.blocks, ∃ l ∈ w.leases, l.grip.block.bare = x

/-- The heap of the pool is there, and the pool does not let its segments go. -/
structure Keeps (w : Tenancy) (key : PoolKey) : Prop where
  isOpen : key.heap ∉ w.closed
  neverFree : ∀ p ∈ w.memory.pools, p.key = key → p.retention.neverFree = true

/-- The state in the course of an act in which the most is held. A row has its block before it is
filled, and loses it again if the initializer gives up. -/
def crest (w : Tenancy) : Act → Tenancy
  | .makeRow heap element node len _ => w.step (.allocateArray heap element.layout len node)
  | .free _ | .closeHeap _ => w
  | act => w.step act

/-- The most blocks of a pool that are held at once from here on. -/
def peak (w : Tenancy) (key : PoolKey) : List Act → Nat
  | [] => w.held key
  | act :: acts => max (max (w.held key) ((w.crest act).held key)) ((w.step act).peak key acts)

theorem held_eq (w : Tenancy) (key : PoolKey) : w.held key = (blocksOf w.blocks key).card := by
  rw [blocksOf, Tenancy.blocks, Multiset.filter_coe, Multiset.coe_card,
    ← List.countP_eq_length_filter, List.countP_map]
  rfl

theorem Sound.held_le (sound : w.Sound) (key : PoolKey) :
    w.held key ≤ key.room (w.extents key) := by
  rw [held_eq]
  exact sound.memory.ledger.card_le key

theorem Sound.crest (sound : w.Sound) (act : Act) : (w.crest act).Sound := by
  unfold Tenancy.crest
  split
  · exact sound.step _
  · exact sound
  · exact sound
  · exact sound.step _

/-- What can happen to the segments of a pool until an act has all that it takes. -/
inductive Rise (w : Tenancy) (key : PoolKey) (w' : Tenancy) : Prop where
  | level (same : w'.extents key = w.extents key)
  | grown {e : Extent} (drained : ∀ p ∈ w.memory.pools, p.key = key → p.Drained)
      (full : w.held key = key.room (w.extents key)) (one : w'.held key = w.held key + 1)
      (more : w'.extents key = e ::ₘ w.extents key)

theorem rise_call {g : Option Grip}
    (growth : w.memory.Growth w.blocks key (g.bind fun g => g.block.pool?) m) :
    w.Rise key (w.on heap (w.keep heap m g)) := by
  unfold Tenancy.on
  split
  · exact .level rfl
  have memory := w.memory_keep heap m g
  cases growth with
  | level same => exact .level (by rw [extents, memory, same, extents])
  | grown own drained full more =>
      cases g with
      | none => cases own
      | some g =>
          refine .grown drained (w.held_eq key ▸ full) ?_ more
          exact List.countP_cons_of_pos (by simpa using own)

theorem rise_issue {α : Type} {r : Except HeapError α} {f : α → Grip}
    (growth : w.memory.Growth w.blocks key (r.toOption.bind fun a => (f a).block.pool?) m) :
    w.Rise key (w.on heap (w.keep heap m (r.toOption.map f))) := by
  apply rise_call
  cases r with
  | error cause => exact growth
  | ok a => exact growth

theorem Sound.rise (sound : w.Sound) (act : Act) (key : PoolKey) : w.Rise key (w.crest act) := by
  have memory := sound.memory
  cases act with
  | openHeap settings =>
      apply Rise.level
      simp only [Tenancy.crest, Tenancy.step]
      split
      · rfl
      · simp only [extents, Memory.addHeap, Memory.pools, List.flatMap_append,
          List.flatMap_singleton]
        refine extentsOf_widen List.perm_append_comm ?_
        intro p member
        obtain ⟨k, -, inside⟩ := List.mem_flatMap.mp member
        exact Heap.blank_of_mem_poolsOf inside
  | closeHeap | free => exact .level rfl
  | allocate heap size node device =>
      exact rise_issue (memory.growth_allocate key (Prod.ext rfl rfl))
  | allocateErased heap size node =>
      exact rise_issue (memory.growth_allocate key (Prod.ext rfl rfl))
  | allocateArray heap layout count node =>
      exact rise_issue (memory.growth_allocateArray key (Prod.ext rfl rfl))
  | makeOwner heap element node value =>
      exact rise_issue (memory.growth_makeOwner key (Prod.ext rfl rfl))
  | makeRow heap element node len init =>
      exact rise_issue (memory.growth_allocateArray key (Prod.ext rfl rfl))
  | registerUser heap address size device =>
      have pools : (w.memory.registerUser heap address size device).2.pools = w.memory.pools := by
        unfold Memory.registerUser
        split <;> rfl
      exact rise_call (.level (congrArg (extentsOf · key) pools))
  | setMessageLength lease len =>
      apply Rise.level
      simp only [Tenancy.crest, Tenancy.step, Tenancy.note]
      split <;> rfl
  | write => exact .level rfl
  | arrange pool order =>
      apply Rise.level
      simp only [Tenancy.crest, Tenancy.step, Tenancy.on]
      split
      · rfl
      rcases memory.formed.arrange_split pool order with same | ⟨p, _, _, -, split, -, -, pools⟩
      · rw [same]
      · rw [extents, pools, extents, split]
        refine extentsOf_put ⟨rfl, rfl, rfl⟩ (Multiset.coe_eq_coe.mpr ?_)
        exact (List.mergeSort_perm p.segments _).map Segment.extent
  | change => exact .level rfl

/-- The segments of a pool stay, unless the pool may let them go. -/
def Falls (w : Tenancy) (key : PoolKey) (w' : Tenancy) : Prop :=
  w'.extents key = w.extents key ∨ w'.extents key ≤ w.extents key ∧ ¬ w'.Keeps key

theorem Sound.falls_free {x : Block} (sound : w.Sound) (frees : w.Frees act m x)
    (same : extentsOf m.pools key = w'.extents key) : w'.Falls key (w.step act) := by
  obtain ⟨out, memory⟩ := sound.frees frees
  have after := sound.step_frees frees
  rw [Falls, ← same, extents, after]
  rcases memory.extentsOf_free key with level | ⟨fewer, p, listed, own, frees⟩
  · exact .inl level
  · refine .inr ⟨fewer, fun keeps => ?_⟩
    rw [keeps.neverFree p (after ▸ listed) own] at frees
    cases frees

theorem Sound.falls_makeRow {element : Element} {node len : Nat} {init : Nat → Option Nat}
    (sound : w.Sound) : (w.crest (.makeRow heap element node len init)).Falls key
      (w.step (.makeRow heap element node len init)) := by
  by_cases isClosed : heap ∈ w.closed
  · simp only [Tenancy.crest, Tenancy.step, Tenancy.on, isClosed, if_true]
    exact .inl rfl
  rcases got : w.memory.allocateArray heap element.layout len node with ⟨cause | x, m⟩
  · simp only [Tenancy.crest, Tenancy.step, Memory.makeRow, Tenancy.on, isClosed, if_false, got]
    exact .inl rfl
  rcases filled : yields init 0 len with ⟨values, _ | _⟩
  · apply sound.falls_free (.row isClosed got filled)
    simp only [Tenancy.crest, Tenancy.step, Tenancy.on, isClosed, if_false, got]
    exact congrArg (extentsOf · key) (Memory.pools_endValues _ _ _)
  · simp only [Tenancy.crest, Tenancy.step, Memory.makeRow, Tenancy.on, isClosed, if_false, got,
      filled, if_true]
    exact .inl rfl

theorem Sound.falls_close (sound : w.Sound) (heap : Nat) :
    w.Falls key (w.step (.closeHeap heap)) := by
  simp only [Tenancy.step, Tenancy.on]
  split
  · exact .inl rfl
  unfold Tenancy.close
  split
  · exact .inl rfl
  rename_i h there
  obtain ⟨before, after, split, pools⟩ := Memory.pools_closeHeap there
  have gone : extentsOf (h.pools.map Pool.emptied) key = 0 := by
    apply extentsOf_of_empty
    intro p member _
    obtain ⟨q, -, rfl⟩ := List.mem_map.mp member
    rfl
  simp only [Falls, extents, pools, split, extentsOf_append, gone]
  by_cases own : key.heap = heap
  · refine .inr ⟨?_, fun keeps => keeps.isOpen ?_⟩
    · exact add_le_add_right (add_le_add_left (Multiset.zero_le _) _) _
    · exact own ▸ List.mem_cons_self
  · have none : extentsOf h.pools key = 0 := by
      apply extentsOf_of_empty
      intro p member same
      exact absurd (same ▸ ((sound.memory.formed heap h there).of_mem member).1) own
    exact .inl (by rw [none])

theorem Sound.falls (sound : w.Sound) (act : Act) (key : PoolKey) :
    (w.crest act).Falls key (w.step act) := by
  cases act with
  | closeHeap heap => exact sound.falls_close heap
  | free lease =>
      rcases w.free_cases lease with idle | ⟨m, x, frees, pools⟩
      · rw [idle]
        exact .inl rfl
      · exact sound.falls_free frees (congrArg (extentsOf · key) pools)
  | makeRow => exact sound.falls_makeRow
  | _ => exact .inl rfl

theorem closed_subset (w : Tenancy) (act : Act) : w.closed ⊆ (w.step act).closed := by
  by_cases closes : ∃ heap, act = .closeHeap heap
  · obtain ⟨heap, rfl⟩ := closes
    apply on_cases (P := fun v => w.closed ⊆ v.closed)
    · exact fun _ => List.Subset.refl _
    · intro _
      unfold Tenancy.close
      split
      · exact List.Subset.refl _
      · exact List.subset_cons_self _ _
  · rw [closed_step fun heap same => closes ⟨heap, same⟩]
    exact List.Subset.refl _

theorem alike_closeHeap (m : Memory) (heap : Nat) (listed : p ∈ m.pools) :
    ∃ p' ∈ (m.closeHeap heap).pools, p.Alike p' ∧ p'.counters = p.counters := by
  cases there : m.heaps[heap]? with
  | none =>
      simp only [Memory.closeHeap, there]
      exact ⟨p, listed, .refl p, rfl⟩
  | some h =>
      obtain ⟨before, after, split, pools⟩ := Memory.pools_closeHeap there
      rw [split] at listed
      rw [pools]
      by_cases own : p ∈ h.pools
      · refine ⟨p.emptied, ?_, ⟨rfl, rfl, rfl⟩, rfl⟩
        exact List.mem_append_right _ (List.mem_append_left _ (List.mem_map_of_mem own))
      · exact ⟨p, by grind, .refl p, rfl⟩

theorem alike_free {closed : List Nat} {out : Multiset Block} {x : Block}
    (sound : m.Sound closed (x.bare ::ₘ out)) (listed : p ∈ m.pools) :
    ∃ p' ∈ (m.free x).pools, p.Alike p' := by
  cases sound.freed with
  | @pooled q q' _ before after split _ _ went pools =>
      rw [split] at listed
      rw [pools]
      rcases Keyed.mem_split.mp listed with rfl | other
      · exact ⟨q', List.mem_append_cons_self, .of_giveBack went⟩
      · exact ⟨p, Keyed.mem_split.mpr (.inr other), .refl p⟩
  | ended _ freed =>
      rw [freed]
      exact ⟨p, listed, .refl p⟩

/-- No act takes a pool away, or changes when it lets segments go. -/
theorem Sound.alike_step (sound : w.Sound) (act : Act) (listed : p ∈ w.memory.pools) :
    ∃ p' ∈ (w.step act).memory.pools, p.Alike p' := by
  cases sound.course act with
  | stays stay =>
      obtain ⟨p', listed', alike, -⟩ := stay p listed
      exact ⟨p', listed', alike⟩
  | closes heap same =>
      subst same
      simp only [Tenancy.step, Tenancy.on, Tenancy.close]
      split
      · exact ⟨p, listed, .refl p⟩
      split
      · exact ⟨p, listed, .refl p⟩
      · obtain ⟨p', listed', alike, -⟩ := alike_closeHeap w.memory heap listed
        exact ⟨p', listed', alike⟩
  | frees frees stay =>
      obtain ⟨out, memory⟩ := sound.frees frees
      obtain ⟨q, listed', alike, -⟩ := stay p listed
      obtain ⟨p', listed'', alike'⟩ := alike_free memory listed'
      exact ⟨p', sound.step_frees frees ▸ listed'', alike.trans alike'⟩

theorem Sound.keeps_of_step (sound : w.Sound) (keeps : (w.step act).Keeps key) : w.Keeps key where
  isOpen := fun gone => keeps.isOpen (w.closed_subset act gone)
  neverFree := by
    intro p listed own
    obtain ⟨p', listed', alike⟩ := sound.alike_step act listed
    rw [← alike.retention]
    exact keeps.neverFree p' listed' (alike.key.trans own)

theorem Sound.keeps_of_run (sound : w.Sound) (keeps : (w.run acts).Keeps key) : w.Keeps key := by
  induction acts generalizing w with
  | nil => exact keeps
  | cons act acts ih => exact sound.keeps_of_step (ih (sound.step act) keeps)

theorem Rise.needed (rise : w.Rise key w') (sound : w'.Sound)
    (needed : key.Needed (w.extents key) n) :
    key.Needed (w'.extents key) (max n (w'.held key)) := by
  have enough := sound.held_le key
  cases rise with
  | level same =>
      rw [same] at enough ⊢
      exact needed.max enough
  | grown _ full one more =>
      rw [more] at enough ⊢
      have before := needed.enough
      exact PoolKey.needed_cons (by omega) (Nat.max_le.mpr (by omega))

/-- One act keeps the segments as many as needed. -/
theorem Sound.needed_step (sound : w.Sound) (needed : key.Needed (w.extents key) n)
    (keeps : (w.step act).Keeps key) :
    key.Needed ((w.step act).extents key) (max n (max (w.held key) ((w.crest act).held key))) := by
  have here := needed.max (sound.held_le key)
  have most := (sound.rise act key).needed (sound.crest act) here
  rw [Nat.max_assoc] at most
  rcases sound.falls act key with same | ⟨-, lost⟩
  · rw [same]
    exact most
  · exact absurd keeps lost

theorem Sound.needed_run (sound : w.Sound) (needed : key.Needed (w.extents key) n)
    (keeps : (w.run acts).Keeps key) :
    key.Needed ((w.run acts).extents key) (max n (w.peak key acts)) := by
  induction acts generalizing w n with
  | nil => exact needed.max (sound.held_le key)
  | cons act acts ih =>
      have after := (sound.step act).keeps_of_run keeps
      have next := ih (sound.step act) (sound.needed_step needed after) keeps
      rwa [Nat.max_assoc] at next

/-- Pools take new segments only when they have to, and `peak` blocks were held of each at most. -/
structure Frugal (w : Tenancy) (peak : PoolKey → Nat) : Prop where
  /-- Unless all of its blocks are held, a pool answers with one that it has, and asks the backing
  for nothing. -/
  reuses : ∀ heap size node device p, w.memory.Reaches heap size node device p →
    w.Saturated p ∨ ∃ x p', p'.extents = p.extents ∧ ∀ b, p.allocate b = (.ok x, p', b)
  fails : ∀ heap size node device p cause m, w.memory.Reaches heap size node device p →
    w.memory.allocate heap size node device = (.error cause, m) → w.Saturated p
  grows : ∀ act, ∀ p ∈ (w.step act).memory.pools, ∀ e ∈ p.extents, ¬ w.memory.Has p.key e →
    ∀ q ∈ w.memory.pools, q.key = p.key → w.Saturated q
  /-- Segments that are kept are as many as the peak needs. -/
  needed : ∀ p ∈ w.memory.pools, p.key.heap ∉ w.closed → p.retention.neverFree = true →
    ∀ c, (∀ s ∈ p.segments, s.capacity = c) → p.segments.length = peak p.key ⌈/⌉ c

theorem saturated_of_drained {pools : List Pool} {closed : List Nat} {b : Backing}
    (ledger : Ledger pools closed b w.blocks) (listed : p ∈ pools) (drained : p.Drained) :
    w.Saturated p where
  drained := drained
  held := by
    intro s there x slice
    have member : x ∈ blocksOf w.blocks p.key := by
      rw [(ledger.sound p listed).out_eq drained]
      exact Pool.mem_slices_iff.mpr ⟨s, there, Multiset.mem_coe.mpr slice⟩
    exact List.mem_map.mp (Multiset.mem_coe.mp (Multiset.mem_filter.mp member).1)

theorem Sound.reuses {size node : Nat} {device : Option Nat} (sound : w.Sound)
    (reaches : w.memory.Reaches heap size node device p) :
    w.Saturated p ∨ ∃ x p', p'.extents = p.extents ∧ ∀ b, p.allocate b = (.ok x, p', b) := by
  obtain ⟨wide, blank, ledger, own, went, result, pools⟩ := sound.memory.answers reaches
  rcases p.reuses_or_drained with reuses | drained
  · exact .inr reuses
  · exact .inl (saturated_of_drained ledger List.mem_append_cons_self drained)

theorem Sound.fails {size node : Nat} {device : Option Nat} {cause : HeapError} (sound : w.Sound)
    (reaches : w.memory.Reaches heap size node device p)
    (failed : w.memory.allocate heap size node device = (.error cause, m)) : w.Saturated p := by
  rcases sound.reuses reaches with saturated | ⟨x, p', -, answers⟩
  · exact saturated
  · obtain ⟨h, wide, there, reaches⟩ := reaches
    simp [Memory.allocate, there, reaches.allocate, answers] at failed

theorem Sound.grows {q : Pool} {e : Extent} (sound : w.Sound)
    (listed : p ∈ (w.step act).memory.pools) (inside : e ∈ p.extents)
    (fresh : ¬ w.memory.Has p.key e) (there : q ∈ w.memory.pools) (own : q.key = p.key) :
    w.Saturated q := by
  have after : e ∈ (w.step act).extents p.key := mem_extentsOf.mpr ⟨p, listed, rfl, inside⟩
  have most : e ∈ (w.crest act).extents p.key := by
    rcases sound.falls act p.key with same | ⟨fewer, -⟩
    · exact same ▸ after
    · exact Multiset.mem_of_le fewer after
  cases sound.rise act p.key with
  | level same =>
      have before : e ∈ w.extents p.key := same ▸ most
      exact absurd (mem_extentsOf.mp before) fresh
  | grown drained => exact saturated_of_drained sound.memory.ledger there (drained q there own)

theorem Sound.length_segments {c : Nat} (sound : w.Sound) (listed : p ∈ w.memory.pools)
    (needed : p.key.Needed (w.extents p.key) n) (each : ∀ s ∈ p.segments, s.capacity = c) :
    p.segments.length = n ⌈/⌉ c := by
  rw [extents, sound.memory.ledger.extentsOf_eq listed] at needed
  rw [← needed.card_eq (c := c), Multiset.coe_card, Pool.extents, List.length_map]
  intro e member
  obtain ⟨s, there, rfl⟩ := List.mem_map.mp (Multiset.mem_coe.mp member)
  rw [← each s there, ((sound.memory.ledger.sound p listed).formed s there).capacity]

/-- However callers use a memory who keep to the contract, no pool grows while it has a block, and
none that keeps its segments has more of them than were needed at some time. -/
theorem run_frugal {b : Backing} (unused : b.Unused) (acts : List Act) :
    ((start b).run acts).Frugal fun key => (start b).peak key acts where
  reuses _ _ _ _ _ reaches := (sound_run unused acts).reuses reaches
  fails _ _ _ _ _ _ _ reaches failed := (sound_run unused acts).fails reaches failed
  grows _ _ listed _ inside fresh _ there own :=
    (sound_run unused acts).grows listed inside fresh there own
  needed := by
    intro p listed isOpen neverFree c each
    have sound := sound_run unused acts
    have keeps : ((start b).run acts).Keeps p.key := by
      refine ⟨isOpen, fun q listed' own => ?_⟩
      rw [sound.memory.ledger.pool_eq listed' listed own]
      exact neverFree
    have needed := (sound_start unused).needed_run (PoolKey.needed_zero p.key) keeps
    rw [Nat.zero_max] at needed
    exact sound.length_segments listed needed each

/-- The smallest classes, in pools that keep their segments. -/
def keeping : Act :=
  .openHeap
    { neverFree := true, tinyLimit := 8, smallLimit := 16, largeLimit := 32,
      tinySegmentSize := 16, smallSegmentSize := 16, largeSegmentSize := 32 }

/-- Three blocks at once need two segments of two; what is asked for later is less. -/
theorem three_frugal : shelf.Unused ∧
    (start shelf).peak ⟨0, 8, 0, none⟩ [keeping, .allocate 0 8 0 none, .allocate 0 8 0 none,
      .allocate 0 8 0 none, .free 0, .free 0, .allocate 0 8 0 none] = 3 ∧
    (segmentsOf ((start shelf).run [keeping, .allocate 0 8 0 none, .allocate 0 8 0 none,
      .allocate 0 8 0 none, .free 0, .free 0, .allocate 0 8 0 none]).memory.pools).length = 2 ∧
    ((start shelf).run [keeping, .allocate 0 8 0 none, .allocate 0 8 0 none,
      .allocate 0 8 0 none, .free 0, .free 0, .allocate 0 8 0 none]).Frugal fun key =>
        (start shelf).peak key [keeping, .allocate 0 8 0 none, .allocate 0 8 0 none,
          .allocate 0 8 0 none, .free 0, .free 0, .allocate 0 8 0 none] :=
  ⟨unused_shelf, rfl, rfl, run_frugal unused_shelf _⟩

end Tenancy

end RegisteredHeap
