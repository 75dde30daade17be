import RegisteredHeap.Proofs.Sizing
import RegisteredHeap.Proofs.Tenancy

/-! # Where a request goes

The size of a request picks a class, and the node and the device a pool of that class. A request
that finds its pool is answered by it; any other is refused on the way, before a pool or the backing
was asked. Blocks are as large as their class, so requests of a size get blocks of one size always.
-/

namespace RegisteredHeap

namespace Heap

variable {h wide : Heap} {i size node : Nat} {device : Option Nat} {k : SizeClass} {key : PoolKey}
  {p : Pool}

/-- The request is routed to the pool `p` of `wide`, the heap once it has the class of the size. -/
structure Reaches (h : Heap) (size node : Nat) (device : Option Nat) (wide : Heap) (p : Pool) :
    Prop where
  routed : ∃ k, h.classOf size = (.ok k, wide) ∧ wide.keyOf k node device = .ok p.key
  found : wide.pool? p.key = some p

/-- The ways in which routing can end. -/
inductive Route (h : Heap) (size node : Nat) (device : Option Nat) : Prop where
  | tooLarge (large : 2 ^ 63 < max size 1)
      (refused : ∀ b, h.allocate size node device b =
        (.error (.invalidSize (max size 1)), h, b))
  | nowhere {k : SizeClass} {wide : Heap} {cause : HeapError} (fits : max size 1 ≤ 2 ^ 63)
      (picks : h.Picks (max size 1) k wide) (unknown : wide.keyOf k node device = .error cause)
      (refused : ∀ b, h.allocate size node device b = (.error cause, wide, b))
  | reaches {wide : Heap} {p : Pool} (reaches : h.Reaches size node device wide p)

/-- A table has an entry for just the nodes with a slot. -/
theorem getElem?_nodeTable {α : Type} (nodes : List Nat) (entry : Nat → α) (node : Nat) :
    (nodeTable nodes entry)[node]?.join =
      if node ∈ served nodes then some (entry node) else none := by
  rw [nodeTable, List.getElem?_map]
  by_cases inside : node < slots nodes
  · simp only [List.getElem?_range inside, Option.map_some, Option.join_some, mem_served, inside,
      true_and]
  · have out : node ∉ served nodes := fun there => inside (mem_served.mp there).1
    rw [List.getElem?_eq_none (by simpa using inside), if_neg out]
    rfl

theorem nodeTable_eq_nil {α : Type} {nodes : List Nat} {entry : Nat → α} :
    nodeTable nodes entry = [] ↔ slots nodes = 0 := by
  rw [nodeTable, List.map_eq_nil_iff, List.range_eq_nil]

theorem keyOf_host (h : Heap) (k : SizeClass) (node : Nat) :
    h.keyOf k node none =
      if node ∈ served h.nodes then .ok ⟨h.index, k.blockSize, node, none⟩
      else .error (.unknownNode node) := by
  simp only [keyOf, hostTable, getElem?_nodeTable]
  by_cases there : node ∈ served h.nodes <;> simp [there]

theorem keyOf_device (h : Heap) (k : SizeClass) (node d : Nat) :
    h.keyOf k node (some d) =
      match h.devices with
      | none => .error .deviceSupportDisabled
      | some count =>
        if slots h.nodes = 0 then .error .deviceSupportDisabled
        else if node ∉ served h.nodes then .error (.unknownNode node)
        else if count ≤ d then .error (.unknownDevice node d)
        else .ok ⟨h.index, k.blockSize, node, some d⟩ := by
  cases support : h.devices with
  | none => simp [keyOf, deviceTable, support]
  | some count =>
      simp only [keyOf, deviceTable, support, List.isEmpty_iff, nodeTable_eq_nil,
        getElem?_nodeTable]
      by_cases empty : slots h.nodes = 0
      · simp [empty]
      by_cases there : node ∈ served h.nodes
      · rcases Nat.lt_or_ge d count with inside | beyond
        · simp [empty, there, List.getElem?_range inside, Nat.not_le.mpr inside]
        · simp [empty, there, beyond]
      · simp [empty, there]

theorem keyOf_ok (got : h.keyOf k node device = .ok key) :
    key = ⟨h.index, k.blockSize, node, device⟩ ∧ node ∈ served h.nodes ∧
      device ∈ none :: (List.range (h.devices.getD 0)).map some := by
  cases device with
  | none =>
      rw [keyOf_host] at got
      split at got
      · rename_i there
        cases got
        exact ⟨rfl, there, List.mem_cons_self⟩
      · cases got
  | some d =>
      rw [keyOf_device] at got
      cases support : h.devices with
      | none => simp [support] at got
      | some count =>
          simp only [support] at got
          split at got
          · cases got
          split at got
          · cases got
          rename_i there
          split at got
          · cases got
          rename_i inside
          cases got
          refine ⟨rfl, not_not.mp there, List.mem_cons_of_mem _ (List.mem_map_of_mem ?_)⟩
          exact List.mem_range.mpr (Nat.not_le.mp inside)

/-- A key that a request is routed to has its pool. -/
theorem Formed.exists_pool (formed : h.Formed i) (member : k ∈ h.classes)
    (got : h.keyOf k node device = .ok key) : ∃ p, p.key = key ∧ h.pool? p.key = some p := by
  obtain ⟨rfl, there, offered⟩ := keyOf_ok got
  let made : Pool :=
    { key := ⟨h.index, k.blockSize, node, device⟩, segmentSize := k.segmentSize,
      retention := retention h.config }
  have listed : made ∈ h.pools.map Pool.blank := by
    rw [formed.pools]
    exact List.mem_flatMap.mpr ⟨k, member, mem_poolsOf.mpr ⟨node, there, device, offered, rfl⟩⟩
  obtain ⟨p, inside, same⟩ := List.mem_map.mp listed
  exact ⟨p, congrArg Pool.key same, (formed.pool_split inside).1⟩

theorem Reaches.mem (reaches : h.Reaches size node device wide p) : p ∈ wide.pools :=
  List.mem_of_find?_eq_some reaches.found

theorem Reaches.allocate (reaches : h.Reaches size node device wide p) (b : Backing) :
    h.allocate size node device b =
      ((p.allocate b).1, wide.setPool (p.allocate b).2.1, (p.allocate b).2.2) := by
  obtain ⟨k, routed, key⟩ := reaches.routed
  simp only [Heap.allocate, routed, key, allocateFrom, reaches.found]

theorem Formed.route (formed : h.Formed i) (size node : Nat) (device : Option Nat) :
    h.Route size node device := by
  rcases Nat.lt_or_ge (2 ^ 63) (max size 1) with large | fits
  · refine .tooLarge large fun b => ?_
    simp only [Heap.allocate, formed.classOf_of_lt large]
  · obtain ⟨k, wide, routed, picks, -⟩ := formed.classOf_of_le fits
    cases key : wide.keyOf k node device with
    | error cause =>
        refine .nowhere fits picks key fun b => ?_
        simp only [Heap.allocate, routed, key]
    | ok found =>
        obtain ⟨p, rfl, listed⟩ := (formed.classOf routed).1.exists_pool picks.mem_classes key
        exact .reaches ⟨⟨k, routed, key⟩, listed⟩

/-- The pool that a request reaches has blocks of the size for it. -/
theorem Formed.blockSize_of_reaches (formed : h.Formed i)
    (reaches : h.Reaches size node device wide p) :
    h.config.sizeClass size = .ok p.key.blockSize ∧ size ≤ p.key.blockSize := by
  obtain ⟨k, routed, key⟩ := reaches.routed
  rw [congrArg PoolKey.blockSize (keyOf_ok key).1]
  rcases Nat.lt_or_ge (2 ^ 63) (max size 1) with large | fits
  · rw [formed.classOf_of_lt large] at routed
    cases routed
  · obtain ⟨k', wide', routed', -, size', suits⟩ := formed.classOf_of_le fits
    rw [routed] at routed'
    cases routed'
    exact ⟨size', (Nat.le_max_left size 1).trans suits.le⟩

end Heap

namespace Memory

variable {m m' : Memory} {heap size node : Nat} {device : Option Nat} {p : Pool}
  {closed : List Nat} {out : Multiset Block} {x : Block}

/-- The request is routed to the pool `p`, which may just have been made for it. -/
def Reaches (m : Memory) (heap size node : Nat) (device : Option Nat) (p : Pool) : Prop :=
  ∃ h wide, m.heaps[heap]? = some h ∧ h.Reaches size node device wide p

/-- The pool `p` answers the request, among the pools that were there and those just made. -/
inductive Answers (m : Memory) (closed : List Nat) (out : Multiset Block) (heap size node : Nat)
    (device : Option Nat) (p : Pool) : Prop where
  | intro {before after fresh : List Pool} {p' : Pool} {r : Except HeapError Block} {m' : Memory}
      (wide : (before ++ p :: after).Perm (fresh ++ m.pools)) (blank : ∀ q ∈ fresh, q.blank = q)
      (ledger : Ledger (before ++ p :: after) closed m.backing out) (own : p.key.heap = heap)
      (got : p.allocate m.backing = (r, p', m'.backing))
      (result : m.allocate heap size node device = (r, m'))
      (pools : m'.pools = before ++ p' :: after)

theorem Sound.answers (sound : m.Sound closed out) (reaches : m.Reaches heap size node device p) :
    m.Answers closed out heap size node device p := by
  obtain ⟨h, wide, there, reaches⟩ := reaches
  obtain ⟨k, routed, -⟩ := reaches.routed
  obtain ⟨wideFormed, wider⟩ := (sound.formed heap h there).classOf routed
  obtain ⟨fresh, perm, blank⟩ := widens_perm there wider
  have formed : Formed ⟨m.backing, m.heaps.set heap wide⟩ := sound.formed.set wideFormed _
  have ledger := sound.widen formed rfl perm blank
  have own : p.key.heap = heap := (wideFormed.of_mem reaches.mem).1
  have place : (m.heaps.set heap wide)[heap]? = some wide :=
    List.getElem?_set_self (List.getElem?_eq_some_iff.mp there).1
  have inside : p ∈ Memory.pools ⟨m.backing, m.heaps.set heap wide⟩ :=
    List.mem_flatMap.mpr ⟨wide, List.mem_of_getElem? place, reaches.mem⟩
  obtain ⟨h', before, after, place', -, split, put⟩ := formed.pool_split inside
  simp only [own, place, Option.some.injEq] at place'
  subst place'
  rcases got : p.allocate m.backing with ⟨r, p', b'⟩
  have pools := (put p' b' (.of_allocate got)).2
  simp only [own, List.set_set] at pools
  change (m.heaps.set heap wide).flatMap Heap.pools = before ++ p :: after at split
  have result : m.allocate heap size node device =
      (r, ⟨b', m.heaps.set heap (wide.setPool p')⟩) := by
    simp only [Memory.allocate, there, reaches.allocate, got]
  exact .intro (split ▸ perm) blank (split ▸ ledger) own got result pools

/-- A block that is handed out is as large as the pool says that answered. -/
theorem Sound.size_of_reaches (sound : m.Sound closed out)
    (reaches : m.Reaches heap size node device p)
    (got : m.allocate heap size node device = (.ok x, m')) : x.size = p.key.blockSize := by
  obtain ⟨wide, blank, ledger, own, went, result, pools⟩ := sound.answers reaches
  rw [result, Prod.mk.injEq] at got
  obtain ⟨rfl, rfl⟩ := got
  have kept := ledger.kept.allocate_ok went
  obtain ⟨s, there, slice, -⟩ := kept.sound.segment_of_out (Multiset.mem_cons_self x.bare _)
  obtain ⟨i, -, same⟩ := Segment.mem_slices.mp slice
  have whole : x.size = s.pool.blockSize := congrArg Block.size same
  rw [whole, (kept.sound.formed s there).pool, (Pool.Alike.of_allocate went).key]

/-- A block that is handed out came from a pool that the request reached. -/
theorem Formed.reaches_of_ok (formed : m.Formed)
    (got : m.allocate heap size node device = (.ok x, m')) :
    ∃ h p, m.heaps[heap]? = some h ∧ m.Reaches heap size node device p ∧
      h.config.sizeClass size = .ok p.key.blockSize ∧ size ≤ p.key.blockSize := by
  cases there : m.heaps[heap]? with
  | none => simp [Memory.allocate, there] at got
  | some h =>
      cases (formed heap h there).route size node device with
      | tooLarge _ refused => simp [Memory.allocate, there, refused] at got
      | nowhere _ _ _ refused => simp [Memory.allocate, there, refused] at got
      | @reaches wide p reaches =>
          obtain ⟨same, le⟩ := (formed heap h there).blockSize_of_reaches reaches
          exact ⟨h, p, rfl, ⟨h, wide, there, reaches⟩, same, le⟩

end Memory

namespace Tenancy

variable {w : Tenancy}

/-- Every size has one block size, which is computed and found alike. -/
structure Sized (w : Tenancy) : Prop where
  /-- A size with no power of two above it among the words is refused by both. -/
  tooLarge : ∀ h ∈ w.memory.heaps, ∀ size, 2 ^ 63 < max size 1 →
    h.config.sizeClass size = .error (.invalidSize (max size 1)) ∧
      ∀ node device b, h.allocate size node device b = (.error (.invalidSize (max size 1)), h, b)
  /-- Any other size has the least block size that suits it, and a class of that block size. -/
  exact : ∀ h ∈ w.memory.heaps, ∀ size, max size 1 ≤ 2 ^ 63 →
    ∃ n, h.config.sizeClass size = .ok n ∧ h.config.Suits (max size 1) n ∧ size ≤ n ∧
      ∃ k wide, h.classOf size = (.ok k, wide) ∧ h.Picks (max size 1) k wide ∧ k.blockSize = n ∧
        ∀ node device p, h.Reaches size node device wide p → p.key.blockSize = n
  inTables : ∀ h ∈ w.memory.heaps, ∀ size, 0 < size →
    (size ≤ h.config.tinyLimit → Config.tinyBucket size < h.tiny.length) ∧
      (h.config.tinyLimit < size → size ≤ h.config.maxSize →
        h.config.exponentialBucket size < h.exponential.length ∧
          h.config.exponentialBucket size < h.config.exponentialClasses.length)
  served : ∀ heap size node device x m,
    w.memory.allocate heap size node device = (.ok x, m) →
      ∃ h, w.memory.heaps[heap]? = some h ∧ h.config.sizeClass size = .ok x.size ∧ size ≤ x.size

theorem Sound.formed_of_mem (sound : w.Sound) {h : Heap} (member : h ∈ w.memory.heaps) :
    ∃ i, h.Formed i := by
  obtain ⟨i, place⟩ := List.mem_iff_getElem?.mp member
  exact ⟨i, sound.memory.formed i h place⟩

theorem Sound.sized (sound : w.Sound) : w.Sized where
  tooLarge := by
    intro h member size large
    obtain ⟨i, formed⟩ := sound.formed_of_mem member
    obtain ⟨_, _, _, g⟩ := formed.exists_geometry
    refine ⟨g.sizeClass_of_lt large, fun node device b => ?_⟩
    simp only [Heap.allocate, formed.classOf_of_lt large]
  exact := by
    intro h member size fits
    obtain ⟨i, formed⟩ := sound.formed_of_mem member
    obtain ⟨k, wide, routed, picks, same, suits⟩ := formed.classOf_of_le fits
    refine ⟨k.blockSize, same, suits, (Nat.le_max_left size 1).trans suits.le, k, wide, routed,
      picks, rfl, fun node device p reaches => ?_⟩
    have own := (formed.blockSize_of_reaches reaches).1
    rw [same, Except.ok.injEq] at own
    exact own.symm
  inTables := by
    intro h member size positive
    obtain ⟨i, formed⟩ := sound.formed_of_mem member
    obtain ⟨_, _, _, g⟩ := formed.exists_geometry
    rw [formed.tiny, formed.exponential]
    constructor
    · intro within
      obtain ⟨k, listed, -⟩ := g.tinyClass positive within
      exact (List.getElem?_eq_some_iff.mp listed).1
    · intro above within
      obtain ⟨k, listed, -⟩ := g.powerClass above within
      have inside := (List.getElem?_eq_some_iff.mp listed).1
      exact ⟨inside, inside⟩
  served := by
    intro heap size node device x m got
    obtain ⟨h, p, there, reaches, same, le⟩ := sound.memory.formed.reaches_of_ok got
    rw [sound.memory.size_of_reaches reaches got]
    exact ⟨h, there, same, le⟩

/-- Whatever callers did before, a request gets a block of the size that is computed for it. -/
theorem run_sized {b : Backing} (unused : b.Unused) (acts : List Act) :
    ((start b).run acts).Sized :=
  (sound_run unused acts).sized

/-- Nine bytes are too many for the tiny class of eight, and get sixteen. -/
theorem nine_sized : shelf.Unused ∧
    ((start shelf).run [opening, .allocate 0 9 0 none]).leases.map (·.grip.block.size) = [16] ∧
    ((start shelf).run [opening, .allocate 0 9 0 none]).Sized :=
  ⟨unused_shelf, rfl, run_sized unused_shelf _⟩

end Tenancy

end RegisteredHeap
