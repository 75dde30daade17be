import RegisteredHeap.Proofs.Rollback

/-! # Refused requests

A size is routed before the node and the device are looked at. So a request that is refused for its
node or its device may have been the first of its size, and the class that was made for it stays. It
has pools without blocks, and nothing else tells that the request was made.
-/

namespace RegisteredHeap

/-- A pool that was just made counts as a pool, and has counted nothing itself. -/
theorem Pool.stats_of_blank {p : Pool} (blank : p.blank = p) : p.stats = { pools := 1 } := by
  rw [← blank]
  rfl

theorem Stats.foldl_add_pools {all : List Stats} (each : ∀ s ∈ all, s = { pools := 1 })
    (total : Stats) :
    all.foldl Stats.add total = { total with pools := total.pools + all.length } := by
  induction all generalizing total with
  | nil => rfl
  | cons s all ih =>
      have first := each s List.mem_cons_self
      subst first
      rw [List.foldl_cons, ih fun t member => each t (List.mem_cons_of_mem _ member)]
      simp only [Stats.add, List.length_cons, Stats.mk.injEq]
      omega

namespace Heap

variable {h : Heap} {k : SizeClass} {i size node : Nat} {device : Option Nat}

theorem length_poolsOf (index : Nat) (keep : Retention) (nodes : List Nat) (devices : Option Nat)
    (k : SizeClass) :
    (poolsOf index keep nodes devices k).length =
      (served nodes).length * (1 + devices.getD 0) := by
  rw [← List.length_map Pool.key, map_key_poolsOf, List.length_append, List.length_map,
    List.length_flatMap]
  simp [Nat.mul_add]

/-- A class that is added has a pool for each node with a slot and each of its devices, and changes
no other count. -/
theorem stats_addClass (h : Heap) (k : SizeClass) : (h.addClass k).stats =
    { h.stats with pools := h.stats.pools + (served h.nodes).length * (1 + h.devices.getD 0) } := by
  have fresh : ∀ s ∈ (poolsOf h.index (retention h.config) h.nodes h.devices k).map Pool.stats,
      s = { pools := 1 } := by
    intro s member
    obtain ⟨p, there, rfl⟩ := List.mem_map.mp member
    exact Pool.stats_of_blank (blank_of_mem_poolsOf there)
  simp only [stats, addClass, Stats.total, List.map_append, List.foldl_append]
  rw [Stats.foldl_add_pools fresh, List.length_map, length_poolsOf]

theorem numHuge_addClass (h : Heap) (k : SizeClass) : (h.addClass k).numHuge = h.numHuge + 1 :=
  List.length_append

end Heap

/-- The answers of routing to a request of `size` bytes that finds no pool. -/
inductive HeapError.Misrouted (size : Nat) : HeapError → Prop where
  | tooLarge (large : 2 ^ 63 < size) : Misrouted size (.invalidSize size)
  | node (node : Nat) : Misrouted size (.unknownNode node)
  | device (node device : Nat) : Misrouted size (.unknownDevice node device)
  | unsupported : Misrouted size .deviceSupportDisabled

/-- Growth fails in other ways, unless a block would not fit into an extent. -/
theorem PoolKey.Obstacle.lt_of_misrouted {key : PoolKey} {cause : HeapError} {size : Nat}
    (obstacle : key.Obstacle cause) (misrouted : cause.Misrouted size) : 2 ^ 63 < size := by
  cases obstacle with
  | short => cases misrouted with | tooLarge large => exact large
  | _ => cases misrouted

theorem Memory.set_heap {m : Memory} {heap : Nat} {h : Heap} (there : m.heaps[heap]? = some h) :
    m.heaps.set heap h = m.heaps := by
  obtain ⟨inside, rfl⟩ := List.getElem?_eq_some_iff.mp there
  exact List.set_getElem_self inside

namespace Tenancy

variable {w : Tenancy} {heap size node : Nat} {device : Option Nat} {cause : HeapError}
  {m : Memory}

/-- What is left of a request of `size` bytes that was refused. -/
inductive Refusal (w : Tenancy) (heap size : Nat) : Tenancy → Prop where
  /-- Nothing, if the size cannot be rounded or has its class already. -/
  | nothing (known : ∀ h, w.memory.heaps[heap]? = some h → h.config.maxSize < size →
      size ≤ 2 ^ 63 → Heap.classBeyond size ∈ h.huge) : w.Refusal heap size w
  /-- The class of the size, if the size was the first of its class. -/
  | widened {h : Heap} (there : w.memory.heaps[heap]? = some h)
      (beyond : h.config.maxSize < size) (fits : size ≤ 2 ^ 63)
      (fresh : Heap.classBeyond size ∉ h.huge)
      (huge : (h.addClass (Heap.classBeyond size)).numHuge = h.numHuge + 1)
      (stats : (h.addClass (Heap.classBeyond size)).stats =
        { h.stats with pools := (h.addClass (Heap.classBeyond size)).stats.pools })
      (pools : Heap.Slotted h.nodes → (h.addClass (Heap.classBeyond size)).stats.pools =
        h.stats.pools + h.nodes.length * (1 + h.devices.getD 0)) :
    w.Refusal heap size
      { w with memory.heaps := w.memory.heaps.set heap (h.addClass (Heap.classBeyond size)) }

/-- The routing of a request ends before a pool is asked. -/
theorem Sound.misrouted {h : Heap} (sound : w.Sound) (furnished : w.memory.Furnished)
    (isOpen : heap ∉ w.closed) (there : w.memory.heaps[heap]? = some h)
    (failed : w.memory.allocate heap size node device = (.error cause, m))
    (misrouted : cause.Misrouted size) {wide : Heap} {p : Pool} :
    ¬ h.Reaches size node device wide p := by
  intro reaches
  have found : w.memory.Reaches heap size node device p := ⟨h, wide, there, reaches⟩
  have obstacle := (sound.rolledBack isOpen found failed).2 fun d wanted =>
    furnished.device_of_reaches found wanted
  have large := obstacle.lt_of_misrouted misrouted
  obtain ⟨k, routed, -⟩ := reaches.routed
  rw [(sound.memory.formed heap h there).classOf_of_lt (large.trans_le (Nat.le_max_left _ _))]
    at routed
  cases routed

theorem Sound.refusal (sound : w.Sound) (furnished : w.memory.Furnished) (isOpen : heap ∉ w.closed)
    (failed : w.memory.allocate heap size node device = (.error cause, m))
    (misrouted : cause.Misrouted size) :
    w.Refusal heap size (w.step (.allocate heap size node device)) := by
  rw [step_allocate_failed isOpen failed]
  cases there : w.memory.heaps[heap]? with
  | none =>
      simp only [Memory.allocate, there, Prod.mk.injEq] at failed
      obtain ⟨-, rfl⟩ := failed
      exact .nothing (by simp [there])
  | some h =>
      have formed := sound.memory.formed heap h there
      cases formed.route size node device with
      | tooLarge large refused =>
          simp only [Memory.allocate, there, refused, Memory.set_heap there, Prod.mk.injEq]
            at failed
          obtain ⟨-, rfl⟩ := failed
          refine .nothing fun _ _ _ fits => ?_
          omega
      | @nowhere k wide _ fits picks _ refused =>
          simp only [Memory.allocate, there, refused, Prod.mk.injEq] at failed
          obtain ⟨-, rfl⟩ := failed
          rcases formed.widens_cases picks with ⟨rfl, known⟩ | ⟨beyond, fresh, rfl⟩
          · rw [Memory.set_heap there]
            refine .nothing fun h' same beyond _ => ?_
            rw [there, Option.some.injEq] at same
            subst same
            exact known beyond
          · refine .widened there beyond ((Nat.le_max_left _ _).trans fits) fresh
              (h.numHuge_addClass _) ?_ fun slotted => ?_
            · simp only [h.stats_addClass]
            · rw [h.stats_addClass, slotted.length_served formed.nodes]
      | reaches reaches =>
          exact absurd reaches (sound.misrouted furnished isOpen there failed misrouted)

/-- Whatever callers did before, a request that routing refuses leaves no more than a class behind,
whose pools have no blocks. -/
theorem run_refusal {b : Backing} (unused : b.Unused) (acts : List Act)
    (isOpen : heap ∉ ((start b).run acts).closed)
    (failed : ((start b).run acts).memory.allocate heap size node device = (.error cause, m))
    (misrouted : cause.Misrouted size) :
    ((start b).run acts).Refusal heap size
      (((start b).run acts).step (.allocate heap size node device)) :=
  (sound_run unused acts).refusal (furnished_run b acts) isOpen failed misrouted

/-- The first size beyond the tables makes its class, though there is no such node. -/
theorem unknownNode_refusal : shelf.Unused ∧ 0 ∉ ((start shelf).run [opening]).closed ∧
    (((start shelf).run [opening]).memory.allocate 0 65 9 none).1 = .error (.unknownNode 9) ∧
    (HeapError.unknownNode 9).Misrouted 65 ∧
    ((start shelf).run [opening]).Refusal 0 65
      (((start shelf).run [opening]).step (.allocate 0 65 9 none)) :=
  ⟨unused_shelf, List.not_mem_nil, rfl, .node 9,
    run_refusal unused_shelf _ List.not_mem_nil (Prod.ext rfl rfl) (.node 9)⟩

/-- So a refused request does not always leave all counts of its heap as they were. -/
theorem unknownNode_counted : shelf.Unused ∧ 0 ∉ ((start shelf).run [opening]).closed ∧
    (((start shelf).run [opening]).memory.allocate 0 65 9 none).1 = .error (.unknownNode 9) ∧
    ((start shelf).run [opening]).memory.heaps.map Heap.numHuge = [0] ∧
    (((start shelf).run [opening]).step (.allocate 0 65 9 none)).memory.heaps.map
      Heap.numHuge = [1] ∧
    ((start shelf).run [opening]).memory.heaps.map (fun h => h.stats.pools) = [8] ∧
    (((start shelf).run [opening]).step (.allocate 0 65 9 none)).memory.heaps.map
      (fun h => h.stats.pools) = [10] :=
  ⟨unused_shelf, List.not_mem_nil, rfl, rfl, rfl, rfl, rfl⟩

end Tenancy

end RegisteredHeap
