import RegisteredHeap.Proofs.Requests

/-! # The ledger

All pools over one backing, with the blocks that are outstanding. A ledger is in order when each
pool is sound for its own outstanding blocks, and the pools together with what users registered hold
exactly what the backing has given out. One call replaces one pool, so the others only have to keep
their share.
-/

namespace RegisteredHeap

/-- The outstanding blocks of one pool. -/
def blocksOf (out : Multiset Block) (key : PoolKey) : Multiset Block :=
  out.filter fun b => b.pool? = some key

/-- What users registered. -/
def regionsOf (out : Multiset Block) : Multiset Region := out.filterMap Block.region?

structure Ledger (pools : List Pool) (closed : List Nat) (b : Backing) (out : Multiset Block) :
    Prop where
  keys : (pools.map Pool.key).Nodup
  sound : ∀ p ∈ pools, p.Sound (blocksOf out p.key)
  holds : b.Holds ((pools.map Pool.inventory).sum + (0, 0, regionsOf out))
  homes : ∀ x ∈ out, (∃ p ∈ pools, x.pool? = some p.key) ∨
    ∃ r, x = Block.ofUser r ∧ r.flags = .user ∧ ∃ v, r.base = .user v
  counted : ∀ p ∈ pools, p.key.heap ∉ closed → p.Counted
  /-- The heaps of these numbers are gone, and their pools with them. -/
  closed : ∀ p ∈ pools, p.key.heap ∈ closed → p.segments = [] ∧ p.free = []

variable {pools pools' before after mine : List Pool} {closed : List Nat} {b b' : Backing}
  {out out' : Multiset Block} {p p' : Pool} {block : Block} {key : PoolKey} {r : Region}

theorem blocksOf_cons_self (own : block.pool? = some key) :
    blocksOf (block ::ₘ out) key = block ::ₘ blocksOf out key :=
  Multiset.filter_cons_of_pos _ own

theorem blocksOf_cons_of_ne (other : block.pool? ≠ some key) :
    blocksOf (block ::ₘ out) key = blocksOf out key :=
  Multiset.filter_cons_of_neg _ other

theorem regionsOf_cons_pool (own : block.pool? = some key) :
    regionsOf (block ::ₘ out) = regionsOf out := by
  apply Multiset.filterMap_cons_none
  unfold Block.pool? at own
  unfold Block.region?
  split at own
  · simp_all
  · cases own

theorem regionsOf_cons_user (r : Region) :
    regionsOf (Block.ofUser r ::ₘ out) = r ::ₘ regionsOf out :=
  Multiset.filterMap_cons_some _ _ _ rfl

theorem pool?_ofUser (r : Region) : (Block.ofUser r).pool? = none := rfl

/-- A pool without anything misses nothing. -/
theorem Pool.sound_of_empty (size : 0 < p.key.blockSize) (segments : p.segments = [])
    (free : p.free = []) : p.Sound 0 where
  size := size
  formed := by simp [segments]
  parked := by simp [segments]
  balance := by simp [Pool.stock, Pool.slices, segments, free]
  kept := by simp [segments]

theorem sum_inventory_of_empty (segments : ∀ p ∈ pools, p.segments = []) :
    (pools.map Pool.inventory).sum = 0 := by
  apply List.sum_eq_zero
  intro i member
  obtain ⟨p, there, rfl⟩ := List.mem_map.mp member
  simp [Pool.inventory, segments p there]

namespace Ledger

theorem perm (ledger : Ledger pools closed b out) (same : pools.Perm pools') :
    Ledger pools' closed b out where
  keys := (same.map Pool.key).nodup_iff.mp ledger.keys
  sound p member := ledger.sound p (same.mem_iff.mpr member)
  holds := by
    rw [← (same.map Pool.inventory).sum_eq]
    exact ledger.holds
  homes x member := by
    rcases ledger.homes x member with ⟨p, there, home⟩ | user
    · exact .inl ⟨p, same.mem_iff.mp there, home⟩
    · exact .inr user
  counted p member := ledger.counted p (same.mem_iff.mpr member)
  closed p member := ledger.closed p (same.mem_iff.mpr member)

theorem rebase (ledger : Ledger pools closed b out) (same : ∀ i, b.Holds i → b'.Holds i) :
    Ledger pools closed b' out :=
  ⟨ledger.keys, ledger.sound, same _ ledger.holds, ledger.homes, ledger.counted, ledger.closed⟩

/-- Pools that were just made may be added. -/
theorem widen {fresh : List Pool} (ledger : Ledger pools closed b out)
    (keys : ((fresh ++ pools).map Pool.key).Nodup) (blank : ∀ p ∈ fresh, p.blank = p)
    (sizes : ∀ p ∈ fresh, 0 < p.key.blockSize) : Ledger (fresh ++ pools) closed b out where
  keys := keys
  sound := by
    intro p member
    rcases List.mem_append.mp member with new | old
    · have none : blocksOf out p.key = 0 := by
        rw [blocksOf, Multiset.filter_eq_nil]
        intro x inside home
        rcases ledger.homes x inside with ⟨q, there, own⟩ | ⟨r, rfl, -⟩
        · rw [List.map_append, List.nodup_append] at keys
          have same : p.key = q.key := Option.some.inj (home.symm.trans own)
          exact keys.2.2 _ (List.mem_map_of_mem new) _ (List.mem_map_of_mem there) same
        · cases home
      rw [none]
      exact Pool.sound_of_empty (sizes p new) (blank p new ▸ rfl) (blank p new ▸ rfl)
    · exact ledger.sound p old
  holds := by
    have nothing : (fresh.map Pool.inventory).sum = 0 :=
      sum_inventory_of_empty fun p new => blank p new ▸ rfl
    rw [List.map_append, List.sum_append, nothing, zero_add]
    exact ledger.holds
  homes := by
    intro x member
    rcases ledger.homes x member with ⟨p, there, home⟩ | user
    · exact .inl ⟨p, List.mem_append_right _ there, home⟩
    · exact .inr user
  counted := by
    intro p member isOpen
    rcases List.mem_append.mp member with new | old
    · rw [← blank p new]
      rfl
    · exact ledger.counted p old isOpen
  closed := by
    intro p member isClosed
    rcases List.mem_append.mp member with new | old
    · rw [← blank p new]
      exact ⟨rfl, rfl⟩
    · exact ledger.closed p old isClosed

/-- One pool, beside all others and what users registered. -/
theorem kept (ledger : Ledger (before ++ p :: after) closed b out) :
    p.Kept b (blocksOf out p.key)
      (((before ++ after).map Pool.inventory).sum + (0, 0, regionsOf out)) where
  sound := ledger.sound p List.mem_append_cons_self
  holds := by
    have holds := ledger.holds
    rwa [sum_map_split, add_assoc] at holds

theorem exists_kept (ledger : Ledger pools closed b out) (listed : p ∈ pools) :
    ∃ rest, p.Kept b (blocksOf out p.key) rest := by
  obtain ⟨before, after, rfl⟩ := List.append_of_mem listed
  exact ⟨_, ledger.kept⟩

/-- The pool of an outstanding block. -/
theorem exists_kept_cons (ledger : Ledger pools closed b (block ::ₘ out)) (listed : p ∈ pools)
    (own : block.pool? = some p.key) : ∃ rest, p.Kept b (block ::ₘ blocksOf out p.key) rest := by
  obtain ⟨rest, kept⟩ := ledger.exists_kept listed
  rw [blocksOf_cons_self own] at kept
  exact ⟨rest, kept⟩

theorem apart (ledger : Ledger (before ++ p :: after) closed b out) :
    Keyed.Apart Pool.key before p after := Keyed.apart_of_nodup ledger.keys

/-- The pool in the middle is replaced by one that is sound for its new share. -/
theorem put (ledger : Ledger (before ++ p :: after) closed b out) (alike : p.Alike p')
    (kept : p'.Kept b' (blocksOf out' p.key)
      (((before ++ after).map Pool.inventory).sum + (0, 0, regionsOf out')))
    (others : ∀ q ∈ before ++ after, blocksOf out' q.key = blocksOf out q.key)
    (homes : ∀ x ∈ out', x ∈ out ∨ x.pool? = some p.key) (isOpen : p.key.heap ∉ closed)
    (counted : p'.Counted) : Ledger (before ++ p' :: after) closed b' out' := by
  have known : ∀ q ∈ before ++ after, q ∈ before ++ p :: after :=
    fun q member => Keyed.mem_split.mpr (.inr member)
  have there : p' ∈ before ++ p' :: after := List.mem_append_cons_self
  refine ⟨?_, ?_, ?_, ?_, ?_, ?_⟩
  · have keys := ledger.keys
    simp only [List.map_append, List.map_cons, alike.key] at keys ⊢
    exact keys
  · intro q member
    rcases Keyed.mem_split.mp member with rfl | member
    · rw [alike.key]
      exact kept.sound
    · rw [others q member]
      exact ledger.sound q (known q member)
  · rw [sum_map_split, add_assoc]
    exact kept.holds
  · intro x member
    rcases homes x member with held | new
    · rcases ledger.homes x held with ⟨q, listed, home⟩ | user
      · left
        rcases Keyed.mem_split.mp listed with rfl | other
        · exact ⟨p', there, alike.key ▸ home⟩
        · exact ⟨q, Keyed.mem_split.mpr (.inr other), home⟩
      · exact .inr user
    · exact .inl ⟨p', there, alike.key ▸ new⟩
  · intro q member
    rcases Keyed.mem_split.mp member with rfl | member
    · exact fun _ => counted
    · exact ledger.counted q (known q member)
  · intro q member gone
    rcases Keyed.mem_split.mp member with rfl | member
    · rw [alike.key] at gone
      exact absurd gone isOpen
    · exact ledger.closed q (known q member) gone

theorem allocate_failed {cause : HeapError} (ledger : Ledger (before ++ p :: after) closed b out)
    (isOpen : p.key.heap ∉ closed) (got : p.allocate b = (.error cause, p', b')) :
    Ledger (before ++ p' :: after) closed b' out := by
  have alike := Pool.Alike.of_allocate got
  have counted := ledger.counted p List.mem_append_cons_self isOpen
  exact ledger.put alike (ledger.kept.allocate_failed got) (fun _ _ => rfl) (fun _ => .inl) isOpen
    (counted.allocate ledger.kept got)

/-- The block that a pool hands out is one more of its own. -/
theorem allocate_ok (ledger : Ledger (before ++ p :: after) closed b out)
    (isOpen : p.key.heap ∉ closed) (got : p.allocate b = (.ok block, p', b')) :
    Ledger (before ++ p' :: after) closed b' (block.bare ::ₘ out) ∧
      block.pool? = some p.key := by
  have alike := Pool.Alike.of_allocate got
  have kept := ledger.kept.allocate_ok got
  have own : block.bare.pool? = some p.key := by
    obtain ⟨s, there, slice, origin⟩ :=
      kept.sound.segment_of_out (Multiset.mem_cons_self block.bare _)
    rw [Block.pool?, origin, ← alike.key, ← (kept.sound.formed s there).pool]
    rfl
  have counted := ledger.counted p List.mem_append_cons_self isOpen
  refine ⟨ledger.put alike ?_ ?_ ?_ isOpen (counted.allocate ledger.kept got), own⟩
  · rw [blocksOf_cons_self own, regionsOf_cons_pool own]
    exact kept
  · intro q member
    apply blocksOf_cons_of_ne
    rw [own]
    intro same
    exact ledger.apart q member (Option.some.inj same).symm
  · intro x member
    rcases Multiset.mem_cons.mp member with rfl | member
    · exact .inr own
    · exact .inl member

/-- An outstanding block finds its pool, whose heap is there. -/
theorem pool_of_out (ledger : Ledger pools closed b out) (member : block ∈ out)
    (own : block.pool? = some key) : ∃ p ∈ pools, p.key = key ∧ key.heap ∉ closed := by
  rcases ledger.homes block member with ⟨p, there, home⟩ | ⟨r, rfl, -⟩
  · have same : p.key = key := Option.some.inj (home.symm.trans own)
    refine ⟨p, there, same, ?_⟩
    intro gone
    have mine : block ∈ blocksOf out p.key := Multiset.mem_filter.mpr ⟨member, home⟩
    obtain ⟨s, inside, -⟩ := (ledger.sound p there).segment_of_out mine
    rw [(ledger.closed p there (same ▸ gone)).1] at inside
    cases inside
  · cases own

theorem giveBack {n : Nat} (ledger : Ledger (before ++ p :: after) closed b (block.bare ::ₘ out))
    (origin : block.origin = .segment p.key n) (got : p.giveBack n block b = (p', b')) :
    Ledger (before ++ p' :: after) closed b' out := by
  have alike := Pool.Alike.of_giveBack got
  have own : block.bare.pool? = some p.key := by
    rw [Block.bare_pool?, Block.pool?, origin]
  obtain ⟨-, -, -, isOpen⟩ := ledger.pool_of_out (Multiset.mem_cons_self block.bare out) own
  have kept := ledger.kept
  rw [blocksOf_cons_self own, regionsOf_cons_pool own] at kept
  have counted := ledger.counted p List.mem_append_cons_self isOpen
  refine ledger.put alike (kept.giveBack origin got) ?_ ?_ isOpen
    (counted.giveBack kept origin got)
  · intro q member
    symm
    apply blocksOf_cons_of_ne
    rw [own]
    intro same
    exact ledger.apart q member (Option.some.inj same).symm
  · intro x member
    exact .inl (Multiset.mem_cons_of_mem member)

theorem add_region (i : Inventory) (r : Region) (regions : Multiset Region) :
    i + ((0, 0, r ::ₘ regions) : Inventory) =
      Inventory.ofRegion r + (i + ((0, 0, regions) : Inventory)) := by
  have one : ((0, 0, r ::ₘ regions) : Inventory) = Inventory.ofRegion r + (0, 0, regions) := by
    simp [Inventory.ofRegion]
  rw [one]
  abel

theorem blocksOf_user (r : Region) (key : PoolKey) :
    blocksOf (Block.ofUser r ::ₘ out) key = blocksOf out key := by
  apply blocksOf_cons_of_ne
  rw [pool?_ofUser]
  exact nofun

theorem enroll {address size : Nat} {device : Option Nat} (ledger : Ledger pools closed b out)
    (got : b.register (.user address) size .user device = (.ok r, b')) :
    Ledger pools closed b' (Block.ofUser r ::ₘ out) where
  keys := ledger.keys
  sound p member := by
    rw [blocksOf_user]
    exact ledger.sound p member
  holds := by
    rw [regionsOf_cons_user, add_region]
    exact ledger.holds.register got
  homes x member := by
    rcases Multiset.mem_cons.mp member with rfl | member
    · obtain ⟨base, -, flags, -⟩ := Backing.register_region got
      exact .inr ⟨r, rfl, flags, address, base⟩
    · exact ledger.homes x member
  counted := ledger.counted
  closed := ledger.closed

theorem enroll_failed {base : Address} {size : Nat} {flags : Flags} {device : Option Nat}
    {cause : HeapError} (ledger : Ledger pools closed b out)
    (got : b.register base size flags device = (.error cause, b')) : Ledger pools closed b' out :=
  ledger.rebase fun _ holds => holds.register_failed got

theorem withdraw (ledger : Ledger pools closed b (Block.ofUser r ::ₘ out)) :
    Ledger pools closed (b.deregister r) out where
  keys := ledger.keys
  sound p member := by
    have sound := ledger.sound p member
    rwa [blocksOf_user] at sound
  holds := by
    apply Backing.Holds.deregister
    have holds := ledger.holds
    rwa [regionsOf_cons_user, add_region] at holds
  homes x member := ledger.homes x (Multiset.mem_cons_of_mem member)
  counted := ledger.counted
  closed := ledger.closed

/-- What stays outstanding when a heap is closed. -/
def outside (heap : Nat) (out : Multiset Block) : Multiset Block :=
  out.filter fun x => x.pool?.map PoolKey.heap ≠ some heap

theorem blocksOf_outside {heap : Nat} (other : key.heap ≠ heap) :
    blocksOf (outside heap out) key = blocksOf out key := by
  rw [blocksOf, outside, Multiset.filter_filter]
  apply Multiset.filter_congr
  intro x _
  constructor
  · exact And.left
  · intro own
    refine ⟨own, ?_⟩
    rw [own]
    simpa using other

theorem blocksOf_outside_self (key : PoolKey) : blocksOf (outside key.heap out) key = 0 := by
  rw [blocksOf, outside, Multiset.filter_filter, Multiset.filter_eq_nil]
  rintro x - ⟨own, other⟩
  rw [own] at other
  exact other rfl

theorem regionsOf_outside (heap : Nat) : regionsOf (outside heap out) = regionsOf out := by
  rw [regionsOf, outside, Multiset.filterMap_filter, regionsOf]
  congr 1
  funext x
  split
  · rfl
  · rename_i mine
    cases origin : x.origin with
    | user region => simp [Block.pool?, origin] at mine
    | segment key n => rw [Block.region?, origin]

theorem holds_releaseAll {rest : Inventory} (holds : b.Holds (p.inventory + rest)) :
    (p.releaseAll b).Holds rest := by
  rw [Pool.inventory] at holds
  rw [Pool.releaseAll]
  generalize p.segments = segments at holds ⊢
  induction segments generalizing b with
  | nil => simpa using holds
  | cons s segments ih =>
      rw [List.map_cons, List.sum_cons, add_assoc] at holds
      exact ih (Segment.release_holds holds)

theorem holds_closeAll {rest : Inventory}
    (holds : b.Holds ((mine.map Pool.inventory).sum + rest)) :
    (mine.foldl Pool.releaseAll b).Holds rest := by
  induction mine generalizing b with
  | nil => simpa using holds
  | cons p mine ih =>
      rw [List.map_cons, List.sum_cons, add_assoc] at holds
      exact ih (holds_releaseAll holds)

/-- All pools of one heap give back what they have, and their blocks are not outstanding any more. -/
theorem close {heap : Nat} {others : List Pool} (ledger : Ledger (mine ++ others) closed b out)
    (own : ∀ p ∈ mine, p.key.heap = heap) (other : ∀ p ∈ others, p.key.heap ≠ heap) :
    Ledger (mine.map Pool.emptied ++ others) (heap :: closed) (mine.foldl Pool.releaseAll b)
      (outside heap out) where
  keys := by
    have keys := ledger.keys
    rw [List.map_append] at keys
    rw [List.map_append, List.map_map]
    exact keys
  sound := by
    intro p member
    rcases List.mem_append.mp member with gone | stays
    · obtain ⟨q, there, rfl⟩ := List.mem_map.mp gone
      have size := (ledger.sound q (List.mem_append_left _ there)).size
      have none : blocksOf (outside heap out) q.key = 0 := by
        rw [← own q there]
        exact blocksOf_outside_self q.key
      rw [show q.emptied.key = q.key from rfl, none]
      exact Pool.sound_of_empty size rfl rfl
    · rw [blocksOf_outside (other p stays)]
      exact ledger.sound p (List.mem_append_right _ stays)
  holds := by
    have holds := ledger.holds
    rw [List.map_append, List.sum_append, add_assoc] at holds
    have nothing : ((mine.map Pool.emptied).map Pool.inventory).sum = 0 := by
      apply sum_inventory_of_empty
      intro p gone
      obtain ⟨q, -, rfl⟩ := List.mem_map.mp gone
      rfl
    rw [List.map_append, List.sum_append, nothing, zero_add, regionsOf_outside]
    exact holds_closeAll holds
  homes := by
    intro x member
    obtain ⟨held, stays⟩ := Multiset.mem_filter.mp member
    rcases ledger.homes x held with ⟨p, there, home⟩ | user
    · rcases List.mem_append.mp there with gone | there
      · rw [home] at stays
        exact absurd (congrArg some (own p gone)) stays
      · exact .inl ⟨p, List.mem_append_right _ there, home⟩
    · exact .inr user
  counted := by
    intro p member isOpen
    rw [List.mem_cons, not_or] at isOpen
    rcases List.mem_append.mp member with gone | stays
    · obtain ⟨q, there, rfl⟩ := List.mem_map.mp gone
      exact absurd (own q there) isOpen.1
    · exact ledger.counted p (List.mem_append_right _ stays) isOpen.2
  closed := by
    intro p member isClosed
    rcases List.mem_append.mp member with gone | stays
    · obtain ⟨q, -, rfl⟩ := List.mem_map.mp gone
      exact ⟨rfl, rfl⟩
    · rcases List.mem_cons.mp isClosed with same | old
      · exact absurd same (other p stays)
      · exact ledger.closed p (List.mem_append_right _ stays) old

/-- It does not matter in which order a pool keeps its segments. -/
theorem shuffle {segments : List Segment} (ledger : Ledger (before ++ p :: after) closed b out)
    (isOpen : p.key.heap ∉ closed) (same : segments.Perm p.segments) :
    Ledger (before ++ { p with segments } :: after) closed b out := by
  have kept := ledger.kept
  have sound := kept.sound
  have counted := ledger.counted p List.mem_append_cons_self isOpen
  refine ledger.put ⟨rfl, rfl, rfl⟩ ⟨⟨sound.size, ?_, ?_, ?_, ?_⟩, ?_⟩ (fun _ _ => rfl)
    (fun _ => .inl) isOpen ?_
  · exact fun s member => sound.formed s (same.mem_iff.mp member)
  · exact fun s member => sound.parked s (same.mem_iff.mp member)
  · have balance := sound.balance
    simp only [Pool.stock, Pool.slices] at balance ⊢
    rw [(same.map Segment.parked).sum_eq, (same.map Segment.slices).sum_eq]
    exact balance
  · rintro frees ⟨s, member, full⟩
    rw [same.length_eq]
    exact sound.kept frees ⟨s, same.mem_iff.mp member, full⟩
  · have holds := kept.holds
    simp only [Pool.inventory] at holds ⊢
    rwa [(same.map Segment.inventory).sum_eq]
  · rw [Pool.Counted] at counted ⊢
    rw [same.length_eq]
    exact counted

end Ledger

end RegisteredHeap
