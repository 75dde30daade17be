import RegisteredHeap.Owner
import RegisteredHeap.Proofs.Ledger

/-! # Calls on a memory

What each call does to the ledger. A call that fails leaves it in order with the same blocks
outstanding, one that hands out a block adds it, and one that takes a block back takes it away.
-/

namespace RegisteredHeap

/-- What may change around the callers of a memory: the node and the selected device of the running
thread, and what the collaborators grant. -/
structure Conditions where
  limit : Option Nat
  allowed : List Nat
  localNode : Nat
  supply : Supply
  capacity : Nat
  hostLimit : Nat
  selected : Nat

def Backing.under (b : Backing) (c : Conditions) : Backing :=
  { b with
    registrar.limit := c.limit
    numa := { b.numa with allowed := c.allowed, localNode := c.localNode, supply := c.supply }
    device := b.device.map fun d =>
      { d with capacity := c.capacity, hostLimit := c.hostLimit, selected := c.selected } }

theorem Backing.Holds.under {b : Backing} {i : Inventory} (holds : b.Holds i) (c : Conditions) :
    (b.under c).Holds i := by
  refine holds.congr rfl rfl ?_ ?_ rfl rfl rfl rfl
  · intro d same
    obtain ⟨d', there, rfl⟩ := Option.mem_map.mp same
    have orderly := holds.orderly.device d' there
    exact ⟨orderly.distinct, orderly.fresh, orderly.bytes⟩
  · cases there : b.device with
    | none => simp only [Backing.mirrors, Backing.under, there, Option.map_none]
    | some d => simp only [Backing.mirrors, Backing.under, there, Option.map_some]; rfl

/-- The pool with its segments in the order in which their extents are listed. -/
def Pool.arrange (p : Pool) (order : List Nat) : Pool :=
  { p with
    segments := p.segments.mergeSort fun s t =>
      decide (order.idxOf s.extent.number ≤ order.idxOf t.extent.number) }

namespace Memory

/-- Adds a heap to the memory, numbered by its place. -/
def addHeap (m : Memory) (c : Config) : Memory :=
  { m with
    heaps := m.heaps ++
      [.ofConfig m.heaps.length c m.backing.numa.nodes (m.backing.device.map Device.count)] }

/-- Closes one heap. -/
def closeHeap (m : Memory) (heap : Nat) : Memory :=
  match m.heaps[heap]? with
  | none => m
  | some h =>
    let (h, backing) := h.close m.backing
    { backing, heaps := m.heaps.set heap h }

/-- Another order for the segments of a pool. -/
def arrange (m : Memory) (key : PoolKey) (order : List Nat) : Memory :=
  match m.heaps[key.heap]? with
  | none => m
  | some h =>
    match h.pool? key with
    | none => m
    | some p => { m with heaps := m.heaps.set key.heap (h.setPool (p.arrange order)) }

/-- The heaps are formed, and with the blocks `out` outstanding the ledger is in order. -/
structure Sound (m : Memory) (closed : List Nat) (out : Multiset Block) : Prop where
  formed : m.Formed
  ledger : Ledger m.pools closed m.backing out

variable {m m' : Memory} {closed : List Nat} {out : Multiset Block} {block : Block}
  {heap size node address count value len : Nat} {device : Option Nat} {cause : HeapError}
  {b' : Backing}

theorem Sound.rebase (sound : m.Sound closed out)
    (same : ∀ i, m.backing.Holds i → b'.Holds i) : Sound { m with backing := b' } closed out :=
  ⟨sound.formed.congr b', sound.ledger.rebase same⟩

theorem Sound.write (sound : m.Sound closed out) (a : Address) (bytes : Array UInt8) :
    Sound { m with backing := m.backing.write a bytes } closed out :=
  sound.rebase fun _ holds => holds.write a bytes

theorem Sound.store (sound : m.Sound closed out) (a : Address) (element : Element)
    (values : List Nat) : (m.store a element values).Sound closed out :=
  sound.write a _

/-- What the end of one value preserves, the end of several does. -/
theorem endValues_induction {P : Memory → Prop} (element : Element) (values : List Nat)
    (here : P m) (next : ∀ m v, P m → P (m.log (.valueDropped element v))) :
    P (m.endValues element values) := by
  unfold endValues
  induction values generalizing m with
  | nil => exact here
  | cons v values ih => exact ih (next m v here)

theorem Sound.endValues (sound : m.Sound closed out) (element : Element) (values : List Nat) :
    (m.endValues element values).Sound closed out :=
  endValues_induction (P := fun m => m.Sound closed out) element values sound
    fun _ v sound => sound.rebase fun _ holds => holds.valueDropped element v

theorem Sound.under (sound : m.Sound closed out) (c : Conditions) :
    Sound { m with backing := m.backing.under c } closed out :=
  sound.rebase fun _ holds => holds.under c

/-- New pools leave the ledger in order. -/
theorem Sound.widen {wide fresh : List Pool} (sound : m.Sound closed out) (formed : m'.Formed)
    (keys : wide.map Pool.key = m'.pools.map Pool.key) (perm : wide.Perm (fresh ++ m.pools))
    (blank : ∀ p ∈ fresh, p.blank = p) : Ledger wide closed m.backing out := by
  have distinct : (wide.map Pool.key).Nodup := keys ▸ formed.keys
  refine (sound.ledger.widen ?_ blank ?_).perm perm.symm
  · exact (perm.map Pool.key).nodup_iff.mp distinct
  · intro p member
    have listed : p.key ∈ m'.pools.map Pool.key := by
      rw [← keys]
      exact List.mem_map_of_mem (perm.mem_iff.mpr (List.mem_append_left _ member))
    obtain ⟨q, there, same⟩ := List.mem_map.mp listed
    exact same ▸ formed.blockSize_pos there

theorem keys_put {before after : List Pool} {p p' : Pool} (alike : p.Alike p') :
    (before ++ p :: after).map Pool.key = (before ++ p' :: after).map Pool.key := by
  simp only [List.map_append, List.map_cons, alike.key]

theorem Sound.allocate_failed (sound : m.Sound closed out) (isOpen : heap ∉ closed)
    (got : m.allocate heap size node device = (.error cause, m')) : m'.Sound closed out := by
  obtain ⟨formed, request⟩ := sound.formed.request got
  refine ⟨formed, ?_⟩
  cases request with
  | refused _ backing pools blank =>
      rw [backing]
      exact sound.widen formed rfl pools blank
  | @served p p' _ _ _ wide blank own _ went pools =>
      have alike := Pool.Alike.of_allocate went
      have ledger := sound.widen formed (pools ▸ keys_put alike) wide blank
      rw [pools]
      exact ledger.allocate_failed (own ▸ isOpen) went

/-- The block that is handed out comes from a pool of the heap. -/
theorem Sound.allocate_ok (sound : m.Sound closed out) (isOpen : heap ∉ closed)
    (got : m.allocate heap size node device = (.ok block, m')) :
    m'.Sound closed (block.bare ::ₘ out) ∧
      ∀ key, block.pool? = some key → key.heap = heap := by
  obtain ⟨formed, request⟩ := sound.formed.request got
  cases request with
  | refused failed => cases failed
  | @served p p' _ _ _ wide blank own _ went pools =>
      have alike := Pool.Alike.of_allocate went
      have ledger := sound.widen formed (pools ▸ keys_put alike) wide blank
      obtain ⟨ledger', home⟩ := ledger.allocate_ok (own ▸ isOpen) went
      refine ⟨⟨formed, pools ▸ ledger'⟩, ?_⟩
      intro key same
      rw [home, Option.some.injEq] at same
      exact same ▸ own

theorem Sound.allocateArray_failed {l : Layout} (sound : m.Sound closed out)
    (isOpen : heap ∉ closed) (got : m.allocateArray heap l count node = (.error cause, m')) :
    m'.Sound closed out := by
  unfold allocateArray at got
  split at got
  · simp only [Prod.mk.injEq] at got
    exact got.2 ▸ sound
  split at got
  · simp only [Prod.mk.injEq] at got
    exact got.2 ▸ sound
  · exact sound.allocate_failed isOpen got

theorem Sound.allocateArray_ok {l : Layout} (sound : m.Sound closed out) (isOpen : heap ∉ closed)
    (got : m.allocateArray heap l count node = (.ok block, m')) :
    m'.Sound closed (block.bare ::ₘ out) ∧
      ∀ key, block.pool? = some key → key.heap = heap := by
  unfold allocateArray at got
  split at got
  · simp at got
  split at got
  · simp at got
  · exact sound.allocate_ok isOpen got

/-- The ways in which a free can go: the pool of the block takes it back, or the registration of the
caller ends. -/
inductive Freed (m : Memory) (block : Block) : Prop where
  | pooled {p p' : Pool} {n : Nat} {before after : List Pool}
      (split : m.pools = before ++ p :: after) (origin : block.origin = .segment p.key n)
      (formed : (m.free block).Formed)
      (went : p.giveBack n block (m.backing.log (.blockFreed block.address)) =
        (p', (m.free block).backing))
      (pools : (m.free block).pools = before ++ p' :: after)
  | ended {r : Region} (same : block.bare = .ofUser r)
      (freed : m.free block =
        { m with backing := (m.backing.log (.blockFreed block.address)).deregister r })

theorem Sound.freed (sound : m.Sound closed (block.bare ::ₘ out)) : m.Freed block := by
  rcases sound.ledger.homes block.bare (Multiset.mem_cons_self _ _) with
    ⟨p, there, home⟩ | ⟨r, same, -⟩
  · obtain ⟨n, origin⟩ := Block.pool?_eq_some.mp home
    rw [Block.bare_origin] at origin
    obtain ⟨p', before, after, split, formed, went, pools⟩ :=
      sound.formed.free_segment there origin
    exact .pooled split origin formed went pools
  · have origin : block.origin = .user r := congrArg Block.origin same
    refine .ended same ?_
    simp only [Memory.free, origin, log]

theorem Sound.logged (sound : m.Sound closed out) (a : Address) :
    Ledger m.pools closed (m.backing.log (.blockFreed a)) out :=
  sound.ledger.rebase fun _ holds => holds.blockFreed _

theorem Sound.free (sound : m.Sound closed (block.bare ::ₘ out)) :
    (m.free block).Sound closed out := by
  have logged := sound.logged block.address
  cases sound.freed with
  | pooled split origin formed went pools =>
      rw [split] at logged
      refine ⟨formed, ?_⟩
      rw [pools]
      exact logged.giveBack origin went
  | ended same freed =>
      rw [freed]
      rw [same] at logged
      exact ⟨sound.formed, logged.withdraw⟩

/-- An erased handle stands for the block that it was made from. -/
theorem Sound.restore (sound : m.Sound closed (block.bare ::ₘ out)) :
    m.restore? block.erase = some block.bare := by
  rcases sound.ledger.homes block.bare (Multiset.mem_cons_self _ _) with
    ⟨p, there, home⟩ | ⟨r, same, -⟩
  · obtain ⟨h, -, -, place, found, -⟩ := sound.formed.pool_split there
    obtain ⟨_, kept⟩ := sound.ledger.exists_kept_cons there home
    obtain ⟨s, inside, slice, origin⟩ :=
      kept.sound.segment_of_out (Multiset.mem_cons_self block.bare _)
    have key : s.pool = p.key := (kept.sound.formed s inside).pool
    have origin' : block.origin = .segment p.key s.extent.number := by
      rw [← key]
      exact origin
    obtain ⟨-, s', -, -, -, listed, number, slice', -⟩ :=
      kept.sound.segment?_eq kept.distinct origin'
    obtain ⟨i, -, same⟩ := Segment.mem_slices.mp slice'
    have address : block.address = .host s'.extent.number (i * s'.pool.blockSize) :=
      congrArg Block.address same
    have rebuilt : s'.blockFrom block.address = block.bare := by
      rw [Segment.blockFrom, address, same]
      rfl
    simp only [restore?, Block.erase, origin', place, Heap.segment?, found, Option.bind_some,
      listed, Option.map_some, rebuilt]
  · have origin : block.origin = .user r := congrArg Block.origin same
    have address : block.address = r.base := congrArg Block.address same
    have size : block.size = r.len := congrArg Block.size same
    simp only [restore?, Block.erase, origin, address, size, same, Block.ofUser]

theorem Sound.freeErased (sound : m.Sound closed (block.bare ::ₘ out)) :
    (m.freeErased block.erase).Sound closed out := by
  rw [Memory.freeErased, sound.restore]
  exact Sound.free sound

theorem Sound.makeOwner_failed {element : Element} (sound : m.Sound closed out)
    (isOpen : heap ∉ closed) (got : m.makeOwner heap element node value = (.error cause, m')) :
    m'.Sound closed out := by
  unfold makeOwner at got
  split at got
  · rename_i failed
    simp only [Prod.mk.injEq] at got
    exact got.2 ▸ (sound.allocateArray_failed isOpen failed).endValues element _
  · simp at got

theorem Sound.makeOwner_ok {element : Element} {o : Owner} (sound : m.Sound closed out)
    (isOpen : heap ∉ closed) (got : m.makeOwner heap element node value = (.ok o, m')) :
    m'.Sound closed (o.block.bare ::ₘ out) ∧
      ∀ key, o.block.pool? = some key → key.heap = heap := by
  unfold makeOwner at got
  split at got
  · simp at got
  · rename_i done
    simp only [Prod.mk.injEq, Except.ok.injEq] at got
    obtain ⟨rfl, rfl⟩ := got
    obtain ⟨sound', home⟩ := sound.allocateArray_ok isOpen done
    exact ⟨sound'.store _ element _, home⟩

/-- A row without an owner leaves nothing outstanding, whether there was no block or the initializer
gave up. -/
theorem Sound.makeRow_none {element : Element} {init : Nat → Option Nat}
    {r : Except HeapError (Option Owner)} (sound : m.Sound closed out) (isOpen : heap ∉ closed)
    (got : m.makeRow heap element node len init = (r, m')) (nobody : ∀ o, r ≠ .ok (some o)) :
    m'.Sound closed out := by
  simp only [makeRow] at got
  split at got
  · rename_i failed
    simp only [Prod.mk.injEq] at got
    exact got.2 ▸ sound.allocateArray_failed isOpen failed
  · rename_i done
    obtain ⟨sound', -⟩ := sound.allocateArray_ok isOpen done
    split at got
    · simp only [Prod.mk.injEq] at got
      exact absurd got.1.symm (nobody _)
    · simp only [Prod.mk.injEq] at got
      exact got.2 ▸ ((sound'.store _ element _).endValues element _).free

theorem Sound.makeRow_some {element : Element} {init : Nat → Option Nat} {o : Owner}
    (sound : m.Sound closed out) (isOpen : heap ∉ closed)
    (got : m.makeRow heap element node len init = (.ok (some o), m')) :
    m'.Sound closed (o.block.bare ::ₘ out) ∧
      ∀ key, o.block.pool? = some key → key.heap = heap := by
  simp only [makeRow] at got
  split at got
  · simp at got
  · rename_i done
    obtain ⟨sound', home⟩ := sound.allocateArray_ok isOpen done
    split at got
    · simp only [Prod.mk.injEq, Except.ok.injEq, Option.some.injEq] at got
      obtain ⟨rfl, rfl⟩ := got
      exact ⟨sound'.store _ element _, home⟩
    · simp at got

theorem Sound.dropOwner {o : Owner} (sound : m.Sound closed (o.block.bare ::ₘ out)) :
    (m.dropOwner o).Sound closed out :=
  (sound.endValues o.element o.values).free

/-- A registration for a caller is refused by the heap, or asked of the registrar. -/
theorem registerUser_cases {r : Except HeapError Block}
    (got : m.registerUser heap address size device = (r, m')) :
    (∃ cause, r = .error cause ∧ m' = m) ∨
      (∃ cause b', r = .error cause ∧ m' = { m with backing := b' } ∧
        m.backing.register (.user address) size .user device = (.error cause, b')) ∨
      ∃ region b', r = .ok (.ofUser region) ∧ m' = { m with backing := b' } ∧
        m.backing.register (.user address) size .user device = (.ok region, b') := by
  have enrolled {h : Heap} (asked : (h.registerUser address size m.backing.numa.localNode device
      m.backing) = Heap.registerUser.enroll address size m.backing device)
      (there : m.heaps[heap]? = some h) :
      (∃ cause b', r = .error cause ∧ m' = { m with backing := b' } ∧
        m.backing.register (.user address) size .user device = (.error cause, b')) ∨
      ∃ region b', r = .ok (.ofUser region) ∧ m' = { m with backing := b' } ∧
        m.backing.register (.user address) size .user device = (.ok region, b') := by
    simp only [Memory.registerUser, there, asked, Heap.registerUser.enroll] at got
    rcases answer : m.backing.register (.user address) size .user device with ⟨cause | region, b'⟩
    · simp only [answer, Prod.mk.injEq] at got
      exact .inl ⟨cause, b', got.1.symm, got.2.symm, rfl⟩
    · simp only [answer, Prod.mk.injEq] at got
      exact .inr ⟨region, b', got.1.symm, got.2.symm, rfl⟩
  cases there : m.heaps[heap]? with
  | none =>
      simp only [Memory.registerUser, there, Prod.mk.injEq] at got
      exact .inl ⟨_, got.1.symm, got.2.symm⟩
  | some h =>
      cases device with
      | none => exact .inr (enrolled rfl there)
      | some d =>
          cases support : h.devices with
          | none =>
              simp only [Memory.registerUser, there, Heap.registerUser, support,
                Prod.mk.injEq] at got
              exact .inl ⟨_, got.1.symm, got.2.symm⟩
          | some count =>
              by_cases unknown : count ≤ d
              · simp only [Memory.registerUser, there, Heap.registerUser, support, unknown,
                  if_true, Prod.mk.injEq] at got
                exact .inl ⟨_, got.1.symm, got.2.symm⟩
              · refine .inr (enrolled ?_ there)
                simp only [Heap.registerUser, support, unknown, if_false]

theorem Sound.registerUser_failed (sound : m.Sound closed out)
    (got : m.registerUser heap address size device = (.error cause, m')) : m'.Sound closed out := by
  rcases registerUser_cases got with ⟨_, -, rfl⟩ | ⟨_, b', -, rfl, asked⟩ | ⟨_, _, done, -⟩
  · exact sound
  · exact ⟨sound.formed, sound.ledger.enroll_failed asked⟩
  · cases done

theorem Sound.registerUser_ok (sound : m.Sound closed out)
    (got : m.registerUser heap address size device = (.ok block, m')) :
    m'.Sound closed (block.bare ::ₘ out) ∧
      ∀ key, block.pool? = some key → key.heap = heap := by
  rcases registerUser_cases got with
    ⟨_, failed, -⟩ | ⟨_, _, failed, -⟩ | ⟨region, b', done, rfl, asked⟩
  · cases failed
  · cases failed
  · cases done
    exact ⟨⟨sound.formed, sound.ledger.enroll asked⟩, nofun⟩

theorem Sound.addHeap {s : Settings} {c : Config} (sound : m.Sound closed out)
    (accepted : Config.ofSettings s = .ok c) : (m.addHeap c).Sound closed out := by
  have new := Heap.formed_ofConfig m.heaps.length m.backing.numa.nodes
    (m.backing.device.map Device.count) accepted
  have formed : (m.addHeap c).Formed := sound.formed.add new m.backing
  have pools : (m.addHeap c).pools = m.pools ++ (Heap.ofConfig m.heaps.length c
      m.backing.numa.nodes (m.backing.device.map Device.count)).pools := by
    simp only [Memory.addHeap, Memory.pools, List.flatMap_append, List.flatMap_singleton]
  refine ⟨formed, sound.widen formed rfl (pools ▸ List.perm_append_comm) ?_⟩
  intro p member
  obtain ⟨k, -, inside⟩ := List.mem_flatMap.mp member
  exact Heap.blank_of_mem_poolsOf inside

/-- The pools of a heap lie together among those of the memory. -/
theorem Formed.heap_ne {h : Heap} {before after : List Pool} (formed : m.Formed)
    (there : m.heaps[heap]? = some h) (split : m.pools = before ++ (h.pools ++ after)) :
    ∀ p ∈ before ++ after, p.key.heap ≠ heap := by
  intro p member same
  have moved : m.pools.Perm (h.pools ++ (before ++ after)) := by
    rw [split]
    exact List.perm_append_comm_assoc _ _ _
  have listed : p ∈ m.pools := moved.mem_iff.mpr (List.mem_append_right _ member)
  obtain ⟨h', there', inside, -⟩ := formed.heap_of_mem listed
  rw [same, there, Option.some.injEq] at there'
  have distinct := (moved.map Pool.key).nodup_iff.mp formed.keys
  rw [List.map_append, List.nodup_append] at distinct
  exact distinct.2.2 _ (List.mem_map_of_mem (there' ▸ inside)) _ (List.mem_map_of_mem member) rfl

/-- To close a heap empties its pools where they are. -/
theorem pools_closeHeap {h : Heap} (there : m.heaps[heap]? = some h) :
    ∃ before after, m.pools = before ++ (h.pools ++ after) ∧
      (m.closeHeap heap).pools = before ++ (h.pools.map Pool.emptied ++ after) := by
  obtain ⟨before, after, split, replaced⟩ := pools_split there
  refine ⟨before, after, split, ?_⟩
  simp only [Memory.closeHeap, there, Memory.pools, replaced, Heap.close]

theorem Sound.closeHeap {h : Heap} (sound : m.Sound closed out)
    (there : m.heaps[heap]? = some h) :
    (m.closeHeap heap).Sound (heap :: closed) (Ledger.outside heap out) := by
  obtain ⟨before, after, split, pools⟩ := pools_closeHeap there
  have formed := sound.formed heap h there
  have moved : m.pools.Perm (h.pools ++ (before ++ after)) := by
    rw [split]
    exact List.perm_append_comm_assoc _ _ _
  have ledger := (sound.ledger.perm moved).close
    (fun p member => (formed.of_mem member).1) (sound.formed.heap_ne there split)
  refine ⟨?_, ?_⟩
  · have emptied : (h.close m.backing).1.Formed heap := by
      refine ⟨formed.index, formed.accepted, formed.tiny, formed.exponential, formed.beyond,
        formed.single, formed.apart, formed.nodes, ?_⟩
      have pools := formed.pools
      simp only [Heap.close, List.map_map]
      exact pools
    have set := sound.formed.set emptied (h.close m.backing).2
    simpa only [Memory.closeHeap, there] using set
  · rw [pools]
    have back := ledger.perm (List.perm_append_comm_assoc _ _ _)
    simpa only [Memory.closeHeap, there, Heap.close] using back

/-- To put the segments of a pool in order replaces the pool, if there is one. -/
theorem Formed.arrange_split (formed : m.Formed) (key : PoolKey) (order : List Nat) :
    m.arrange key order = m ∨ ∃ p before after, p.key = key ∧ m.pools = before ++ p :: after ∧
      (m.arrange key order).Formed ∧ (m.arrange key order).backing = m.backing ∧
      (m.arrange key order).pools = before ++ p.arrange order :: after := by
  unfold Memory.arrange
  split
  · exact .inl rfl
  rename_i h there
  split
  · exact .inl rfl
  rename_i p found
  have member : p ∈ h.pools := List.mem_of_find?_eq_some found
  have same : p.key = key := by simpa using List.find?_some found
  subst same
  have listed : p ∈ m.pools := List.mem_flatMap.mpr ⟨h, List.mem_of_getElem? there, member⟩
  obtain ⟨h', before, after, place, -, split, put⟩ := formed.pool_split listed
  rw [there, Option.some.injEq] at place
  subst place
  obtain ⟨formed', pools⟩ := put (p.arrange order) m.backing ⟨rfl, rfl, rfl⟩
  exact .inr ⟨p, before, after, rfl, split, formed', rfl, pools⟩

theorem Sound.arrange {key : PoolKey} (sound : m.Sound closed out) (isOpen : key.heap ∉ closed)
    (order : List Nat) : (m.arrange key order).Sound closed out := by
  rcases sound.formed.arrange_split key order with
    same | ⟨p, before, after, rfl, split, formed, backing, pools⟩
  · rw [same]
    exact sound
  · refine ⟨formed, ?_⟩
    rw [backing, pools]
    exact (split ▸ sound.ledger).shuffle isOpen (List.mergeSort_perm _ _)

end Memory

end RegisteredHeap
