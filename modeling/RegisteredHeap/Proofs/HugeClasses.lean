import RegisteredHeap.Proofs.ClassTables
import RegisteredHeap.Proofs.Isolation
import RegisteredHeap.Proofs.Refusal
import RegisteredHeap.Proofs.Tally

/-! # Classes made on demand

A size beyond the tables makes a class of its own power of two, unless a request before it did. The
class stays with its pools as long as the heap does, so the classes of a heap are told by what it
was asked for, whether there was a block for it or not.
-/

namespace RegisteredHeap

/-- Nothing that was counted is forgotten. -/
structure PoolCounters.Within (c c' : PoolCounters) : Prop where
  created : c.created ≤ c'.created
  released : c.released ≤ c'.released
  collections : c.collections ≤ c'.collections
  collected : c.collected ≤ c'.collected
  slowPaths : c.slowPaths ≤ c'.slowPaths

namespace PoolCounters

theorem Within.refl (c : PoolCounters) : c.Within c :=
  ⟨Nat.le_refl _, Nat.le_refl _, Nat.le_refl _, Nat.le_refl _, Nat.le_refl _⟩

theorem Within.trans {c c' c'' : PoolCounters} (first : c.Within c') (second : c'.Within c'') :
    c.Within c'' :=
  ⟨first.created.trans second.created, first.released.trans second.released,
    first.collections.trans second.collections, first.collected.trans second.collected,
    first.slowPaths.trans second.slowPaths⟩

theorem within_record (c : PoolCounters) (e : PoolEvent) : c.Within (c.record e) := by
  cases e <;> constructor <;> simp only [record, Nat.le_refl, Nat.le_add_right]

end PoolCounters

namespace Pool

variable {p p' : Pool} {b b' : Backing}

theorem within_swept (p : Pool) : p.counters.Within p.swept.counters :=
  (p.counters.within_record .slowPath).trans
    (PoolCounters.within_record (p.record .slowPath).counters (.collection _))

theorem within_grow (p : Pool) (b : Backing) : p.counters.Within (p.grow b).2.1.counters := by
  unfold grow
  rcases p.obtainSegment b with ⟨_ | s, b'⟩
  · exact .refl _
  · simp only
    split <;> exact p.counters.within_record .segmentCreated

theorem within_allocate {r : Except HeapError Block} (got : p.allocate b = (r, p', b')) :
    p.counters.Within p'.counters := by
  have same : p.counters.Within (p.allocate b).2.1.counters := by
    unfold allocate
    split
    · exact .refl _
    simp only [allocateSlow]
    split
    · exact p.within_swept
    · exact p.within_swept.trans (within_grow _ b)
  rwa [got] at same

theorem within_giveBack {n : Nat} {x : Block} (got : p.giveBack n x b = (p', b')) :
    p.counters.Within p'.counters := by
  have same : p.counters.Within (p.giveBack n x b).1.counters := by
    simp only [giveBack]
    split
    · exact .refl _
    · split
      · exact p.counters.within_record .segmentReleased
      · exact .refl _
  rwa [got] at same

end Pool

namespace Tenancy

variable {w : Tenancy} {act : Act} {p p' : Pool}

theorem Supplies.within (supplies : w.Supplies act p p') : p.counters.Within p'.counters := by
  cases supplies with
  | idle _ same => exact same ▸ .refl _
  | arranged _ same => exact same ▸ .refl _
  | asked _ _ _ went => exact Pool.within_allocate went

theorem Receives.within (receives : w.Receives act p p') : p.counters.Within p'.counters := by
  cases receives with
  | idle _ same => exact same ▸ .refl _
  | back _ _ _ went => exact Pool.within_giveBack went

/-- A pool is never replaced by another one of its key. -/
theorem Sound.within_step (sound : w.Sound) (act : Act) (listed : p ∈ w.memory.pools) :
    ∃ p' ∈ (w.step act).memory.pools, p.Alike p' ∧ p.counters.Within p'.counters := by
  by_cases closes : ∃ heap, act = .closeHeap heap
  · obtain ⟨heap, rfl⟩ := closes
    apply on_cases (P := fun v =>
      ∃ p' ∈ v.memory.pools, p.Alike p' ∧ p.counters.Within p'.counters)
    · exact fun _ => ⟨p, listed, .refl p, .refl _⟩
    · intro _
      unfold Tenancy.close
      split
      · exact ⟨p, listed, .refl p, .refl _⟩
      · obtain ⟨p', listed', alike, same⟩ := alike_closeHeap w.memory heap listed
        exact ⟨p', listed', alike, same ▸ .refl _⟩
  · -- What the pools receive and supply leads from a pool after the act to one before it, which is
    -- the same pool as it has the same key.
    obtain ⟨p', listed', alike⟩ := sound.alike_step act listed
    have closed := closed_step (w := w) fun heap same => closes ⟨heap, same⟩
    obtain ⟨q, there, receives⟩ := sound.receives listed' fun gone => closed ▸ gone
    obtain ⟨p₀, offers, supplies⟩ := sound.supplies there
    have key : p₀.key = p.key := by
      rw [← alike.key, receives.alike.key, supplies.alike.key]
    have same : p₀ = p := by
      rcases offers with known | ⟨-, unknown⟩
      · exact sound.memory.ledger.pool_eq known listed key
      · exact absurd key.symm (unknown p listed)
    exact ⟨p', listed', alike, same ▸ supplies.within.trans receives.within⟩

theorem Sound.within_run (sound : w.Sound) (acts : List Act) (listed : p ∈ w.memory.pools) :
    ∃ p' ∈ (w.run acts).memory.pools, p.Alike p' ∧ p.counters.Within p'.counters := by
  unfold Tenancy.run
  induction acts generalizing w p with
  | nil => exact ⟨p, listed, .refl p, .refl _⟩
  | cons act acts ih =>
      obtain ⟨p₁, listed₁, alike₁, within₁⟩ := sound.within_step act listed
      obtain ⟨p₂, listed₂, alike₂, within₂⟩ := ih (sound.step act) listed₁
      exact ⟨p₂, listed₂, alike₁.trans alike₂, within₁.trans within₂⟩

end Tenancy

namespace Heap

variable {h h' h'' : Heap} {i size size' node node' : Nat} {device device' : Option Nat}
  {k : SizeClass}

/-- The heap without its pools. -/
def frame (h : Heap) : Heap := { h with pools := [] }

theorem frame_allocate (h : Heap) (size node : Nat) (device : Option Nat) (b : Backing) :
    (h.allocate size node device b).2.1.frame = (h.classOf size).2.frame := by
  unfold allocate
  rcases h.classOf size with ⟨_ | k, wide⟩
  · rfl
  simp only
  split
  · rfl
  simp only [allocateFrom]
  split <;> rfl

theorem frame_giveBack (h : Heap) (key : PoolKey) (extent : Nat) (block : Block) (b : Backing) :
    (h.giveBack key extent block b).1.frame = h.frame := by
  unfold giveBack
  split <;> rfl

/-- The heap keeps what it is made of, and the classes that it made. -/
structure Extends (h h' : Heap) : Prop where
  config : h'.config = h.config
  nodes : h'.nodes = h.nodes
  devices : h'.devices = h.devices
  huge : h.huge <+: h'.huge

theorem Extends.refl (h : Heap) : h.Extends h := ⟨rfl, rfl, rfl, List.prefix_rfl⟩

theorem Extends.trans (first : h.Extends h') (second : h'.Extends h'') : h.Extends h'' :=
  ⟨second.config.trans first.config, second.nodes.trans first.nodes,
    second.devices.trans first.devices, first.huge.trans second.huge⟩

theorem of_frame_eq (same : h'.frame = h.frame) : h'.config = h.config ∧ h'.nodes = h.nodes ∧
    h'.devices = h.devices ∧ h'.huge = h.huge := by
  simp only [frame, Heap.mk.injEq, and_true] at same
  obtain ⟨-, config, -, -, huge, nodes, devices⟩ := same
  exact ⟨config, nodes, devices, huge⟩

theorem Extends.of_frame (same : h'.frame = h.frame) : h.Extends h' := by
  obtain ⟨config, nodes, devices, huge⟩ := of_frame_eq same
  exact ⟨config, nodes, devices, huge ▸ List.prefix_rfl⟩

theorem extends_classOf (h : Heap) (size : Nat) : h.Extends (h.classOf size).2 := by
  simp only [classOf, hugeClass]
  split
  · split <;> exact .refl h
  split
  · split <;> exact .refl h
  split
  · exact .refl h
  · split
    · exact .refl h
    · exact ⟨rfl, rfl, rfl, List.prefix_append _ _⟩

theorem Formed.mem_huge_classOf (formed : h.Formed i) (size : Nat) :
    k ∈ (h.classOf size).2.huge ↔
      k ∈ h.huge ∨ h.config.maxSize < size ∧ size ≤ 2 ^ 63 ∧ k = classBeyond size := by
  rcases Nat.lt_or_ge (2 ^ 63) (max size 1) with large | fits
  · rw [formed.classOf_of_lt large]
    refine ⟨.inl, ?_⟩
    rintro (old | ⟨-, fits, -⟩)
    · exact old
    · omega
  · obtain ⟨k', wide, routed, picks, -⟩ := formed.classOf_of_le fits
    have small : size ≤ 2 ^ 63 := by omega
    rw [routed]
    rcases formed.widens_cases picks with ⟨rfl, known⟩ | ⟨beyond, -, rfl⟩
    · refine ⟨.inl, ?_⟩
      rintro (old | ⟨beyond, -, rfl⟩)
      · exact old
      · exact known beyond
    · rw [addClass, List.mem_append, List.mem_singleton]
      exact or_congr_right ⟨fun made => ⟨beyond, small, made⟩, fun made => made.2.2⟩

end Heap

namespace Memory

variable {m m' : Memory} {heap i : Nat}

/-- A heap of the memory, without its pools. -/
def frame? (m : Memory) (i : Nat) : Option Heap := (m.heaps[i]?).map Heap.frame

theorem frame?_set {h h' : Heap} (there : m.heaps[heap]? = some h) (same : h'.frame = h.frame)
    (b : Backing) (i : Nat) : frame? ⟨b, m.heaps.set heap h'⟩ i = m.frame? i := by
  unfold frame?
  by_cases this : heap = i
  · subst this
    have inside := (List.getElem?_eq_some_iff.mp there).1
    rw [List.getElem?_set_self inside, there, Option.map_some, Option.map_some, same]
  · rw [List.getElem?_set_ne this]

/-- A request leaves the class of its size, and no other trace in what a heap is made of. -/
theorem frame?_answer (m : Memory) (d : Demand) (i : Nat) : (m.answer d).2.frame? i =
    (m.heaps[i]?).map fun h => if d.heap = i then (h.classOf d.size).2.frame else h.frame := by
  obtain ⟨heap, size, node, device⟩ := d
  simp only [answer, allocate]
  cases there : m.heaps[heap]? with
  | none =>
      by_cases this : heap = i
      · subst this
        simp [frame?, there]
      · simp only [frame?, this, if_false]
  | some h =>
      by_cases this : heap = i
      · subst this
        have inside := (List.getElem?_eq_some_iff.mp there).1
        simp only [frame?, List.getElem?_set_self inside, there, Option.map_some, if_true,
          Heap.frame_allocate]
      · simp only [frame?, List.getElem?_set_ne this, this, if_false]

theorem frame?_free (m : Memory) (x : Block) (i : Nat) : (m.free x).frame? i = m.frame? i := by
  simp only [free]
  split
  · rfl
  split
  · rfl
  · rename_i h there
    exact frame?_set (m := m.log _) there (h.frame_giveBack _ _ x _) _ i

theorem frame?_freeErased (m : Memory) (e : ErasedBlock) (i : Nat) :
    (m.freeErased e).frame? i = m.frame? i := by
  unfold freeErased
  split
  · exact m.frame?_free _ i
  · rfl

theorem frame?_endValues (m : Memory) (element : Element) (values : List Nat) (i : Nat) :
    (m.endValues element values).frame? i = m.frame? i :=
  endValues_induction (P := fun m' => m'.frame? i = m.frame? i) element values rfl
    fun _ _ same => same

theorem frame?_closeHeap (m : Memory) (heap i : Nat) :
    (m.closeHeap heap).frame? i = m.frame? i := by
  unfold closeHeap
  split
  · rfl
  · rename_i h there
    have same : (h.close m.backing).1.frame = h.frame := rfl
    exact frame?_set there same _ i

theorem frame?_arrange (m : Memory) (key : PoolKey) (order : List Nat) (i : Nat) :
    (m.arrange key order).frame? i = m.frame? i := by
  unfold arrange
  split
  · rfl
  rename_i h there
  split
  · rfl
  · rename_i p _
    have same : (h.setPool (p.arrange order)).frame = h.frame := rfl
    exact frame?_set there same _ i

theorem frame?_giveBack (m : Memory) (g : Grip) (i : Nat) :
    (g.giveBack m).frame? i = m.frame? i := by
  cases g with
  | pointer b => exact m.frame?_free b i
  | erased b => exact m.frame?_freeErased b.erase i
  | owner o => exact (frame?_free _ o.block i).trans (m.frame?_endValues _ _ i)

theorem frame?_makeOwner (m : Memory) (heap : Nat) (element : Element) (node value i : Nat) :
    (m.makeOwner heap element node value).2.frame? i =
      (m.allocateArray heap element.layout 1 node).2.frame? i := by
  unfold makeOwner
  rcases m.allocateArray heap element.layout 1 node with ⟨_ | x, m'⟩
  · exact m'.frame?_endValues element [value] i
  · rfl

theorem frame?_makeRow (m : Memory) (heap : Nat) (element : Element) (node len : Nat)
    (init : Nat → Option Nat) (i : Nat) :
    (m.makeRow heap element node len init).2.frame? i =
      (m.allocateArray heap element.layout len node).2.frame? i := by
  simp only [makeRow]
  rcases m.allocateArray heap element.layout len node with ⟨_ | x, m'⟩
  · rfl
  simp only
  split
  · rfl
  · exact (frame?_free _ x i).trans (frame?_endValues _ _ _ i)

end Memory

namespace Tenancy

variable {w : Tenancy} {act : Act} {acts : List Act} {heap i : Nat} {m : Memory} {d : Demand}
  {h h' : Heap} {k : SizeClass}

/-- The size that the act asks of a heap that is there. -/
def size? (w : Tenancy) (i : Nat) (act : Act) : Option Nat :=
  ((w.demand? act).filter fun d => d.heap = i ∧ i < w.memory.heaps.length).map Demand.size

/-- The classes of a heap are what a request of the act leaves, if there is one. -/
def Traces (w : Tenancy) (act : Act) (i : Nat) : Prop :=
  (w.step act).memory.frame? i = (w.memory.heaps[i]?).map fun h =>
    ((w.size? i act).elim h fun n => (h.classOf n).2).frame

theorem traces_of_nothing (nothing : w.demand? act = none)
    (same : (w.step act).memory.frame? i = w.memory.frame? i) : w.Traces act i := by
  rw [Traces, size?, nothing, same]
  rfl

/-- An act on a heap leaves nothing once the heap is closed, or what its call leaves. -/
theorem traces_on {next : Tenancy} (step : w.step act = w.on heap next)
    (nothing : heap ∈ w.closed → w.demand? act = none)
    (call : heap ∉ w.closed → next.memory.frame? i = (w.memory.heaps[i]?).map fun h =>
      ((w.size? i act).elim h fun n => (h.classOf n).2).frame) : w.Traces act i := by
  by_cases isClosed : heap ∈ w.closed
  · apply traces_of_nothing (nothing isClosed)
    rw [step, Tenancy.on, if_pos isClosed]
  · rw [Traces, step, Tenancy.on, if_neg isClosed]
    exact call isClosed

theorem traces_demand {g : Option Grip} (step : w.step act = w.on d.heap (w.keep d.heap m g))
    (wanted : act.demand? w.memory.backing.numa.pageSize = some d)
    (same : m.frame? i = (w.memory.answer d).2.frame? i) : w.Traces act i := by
  refine traces_on step (demand?_of_closed wanted) fun isOpen => ?_
  rw [memory_keep, same, Memory.frame?_answer, size?, demand?_of_some wanted isOpen,
    Option.filter_some]
  cases there : w.memory.heaps[i]? with
  | none => rfl
  | some h =>
      have inside : i < w.memory.heaps.length := (List.getElem?_eq_some_iff.mp there).1
      by_cases this : d.heap = i <;> simp [this, inside]

theorem traces_call {g : Option Grip} (step : w.step act = w.on heap (w.keep heap m g))
    (nothing : w.demand? act = none) (same : m.frame? i = w.memory.frame? i) :
    w.Traces act i := by
  refine traces_on step (fun _ => nothing) fun _ => ?_
  rw [memory_keep, same, size?, nothing]
  rfl

theorem traces_storage {l : Layout} {count node : Nat} {g : Option Grip}
    (step : w.step act = w.on heap (w.keep heap m g))
    (wanted : act.demand? w.memory.backing.numa.pageSize =
      Act.storage? w.memory.backing.numa.pageSize heap l count node)
    (same : m.frame? i = (w.memory.allocateArray heap l count node).2.frame? i) :
    w.Traces act i := by
  rcases w.memory.allocateArray_cases heap l count node with ⟨cause, none, whole⟩ | ⟨n, some, whole⟩
  · rw [Act.storage?, none] at wanted
    rw [whole] at same
    exact traces_call step (demand?_of_none wanted) same
  · rw [Act.storage?, some] at wanted
    rw [whole] at same
    exact traces_demand (d := ⟨heap, n, node, Option.none⟩) step wanted same

theorem traces (w : Tenancy) {act : Act} (other : ∀ settings, act ≠ .openHeap settings) (i : Nat) :
    w.Traces act i := by
  cases act with
  | openHeap settings => exact absurd rfl (other settings)
  | closeHeap heap =>
      refine traces_on rfl (fun _ => demand?_of_none rfl) fun _ => ?_
      rw [size?, demand?_of_none rfl]
      unfold Tenancy.close
      split
      · rfl
      · exact w.memory.frame?_closeHeap heap i
  | allocate heap size node device =>
      exact traces_demand (d := ⟨heap, size, node, device⟩) rfl rfl rfl
  | allocateErased heap size node =>
      exact traces_demand (d := ⟨heap, size, node, none⟩) rfl rfl rfl
  | allocateArray heap layout count node => exact traces_storage rfl rfl rfl
  | makeOwner heap element node value =>
      exact traces_storage rfl rfl (w.memory.frame?_makeOwner heap element node value i)
  | makeRow heap element node len init =>
      exact traces_storage rfl rfl (w.memory.frame?_makeRow heap element node len init i)
  | registerUser heap address size device =>
      have same : (w.memory.registerUser heap address size device).2.frame? i =
          w.memory.frame? i := by
        unfold Memory.registerUser
        split <;> rfl
      exact traces_call rfl (demand?_of_none rfl) same
  | setMessageLength lease len =>
      refine traces_of_nothing (demand?_of_none rfl) ?_
      simp only [Tenancy.step, Tenancy.note]
      split <;> rfl
  | free lease =>
      refine traces_of_nothing (demand?_of_none rfl) ?_
      simp only [Tenancy.step, Tenancy.giveBack]
      split
      · rfl
      · rename_i l _
        exact on_cases (P := fun v => v.memory.frame? i = w.memory.frame? i) (fun _ => rfl)
          fun _ => w.memory.frame?_giveBack l.grip i
  | write place bytes => exact traces_of_nothing (demand?_of_none rfl) rfl
  | arrange pool order =>
      refine traces_on rfl (fun _ => demand?_of_none rfl) fun _ => ?_
      rw [size?, demand?_of_none rfl]
      exact w.memory.frame?_arrange pool order i
  | change conditions => exact traces_of_nothing (demand?_of_none rfl) rfl

theorem size?_of_absent (absent : w.memory.heaps[i]? = none) (act : Act) :
    w.size? i act = none := by
  have outside := List.getElem?_eq_none_iff.mp absent
  rw [size?, Option.map_eq_none_iff, Option.filter_eq_none_iff]
  intro d _
  simp only [decide_eq_true_eq]
  omega

/-- A heap that is there is still there after an act, with the class of what the act asks it for. -/
theorem exists_heap_step (w : Tenancy) (act : Act) (there : w.memory.heaps[i]? = some h) :
    ∃ h', (w.step act).memory.heaps[i]? = some h' ∧
      h'.frame = ((w.size? i act).elim h fun n => (h.classOf n).2).frame := by
  by_cases opens : ∃ settings, act = .openHeap settings
  · obtain ⟨settings, rfl⟩ := opens
    refine ⟨h, ?_, rfl⟩
    have inside := (List.getElem?_eq_some_iff.mp there).1
    simp only [Tenancy.step]
    split
    · exact there
    · rw [Memory.addHeap, List.getElem?_append_left inside, there]
  · have traces := w.traces (fun settings same => opens ⟨settings, same⟩) i
    rw [Traces, there, Option.map_some, Memory.frame?, Option.map_eq_some_iff] at traces
    exact traces

/-- Only to open a heap adds to those that are there. -/
theorem absent_step (other : ∀ settings, act ≠ .openHeap settings)
    (absent : w.memory.heaps[i]? = none) : (w.step act).memory.heaps[i]? = none := by
  have traces := w.traces other i
  rwa [Traces, absent, Option.map_none, Memory.frame?, Option.map_eq_none_iff] at traces

/-- A heap that was not there before an act was opened by it and has no class beyond its tables. -/
theorem huge_of_new (absent : w.memory.heaps[i]? = none)
    (there : (w.step act).memory.heaps[i]? = some h) : h.huge = [] := by
  by_cases opens : ∃ settings, act = .openHeap settings
  · obtain ⟨settings, rfl⟩ := opens
    simp only [Tenancy.step] at there
    split at there
    · rw [absent] at there
      cases there
    · rw [Memory.addHeap, List.getElem?_append_right (List.getElem?_eq_none_iff.mp absent)] at there
      rw [List.mem_singleton.mp (List.mem_of_getElem? there)]
      rfl
  · rw [absent_step (fun settings same => opens ⟨settings, same⟩) absent] at there
    cases there

theorem absent_of_step (absent : (w.step act).memory.heaps[i]? = none) :
    w.memory.heaps[i]? = none := by
  cases before : w.memory.heaps[i]? with
  | none => rfl
  | some h =>
      obtain ⟨h', there', -⟩ := w.exists_heap_step act before
      rw [absent] at there'
      cases there'

theorem extends_step (w : Tenancy) (act : Act) (there : w.memory.heaps[i]? = some h) :
    ∃ h', (w.step act).memory.heaps[i]? = some h' ∧ h.Extends h' := by
  obtain ⟨h', there', same⟩ := w.exists_heap_step act there
  refine ⟨h', there', ?_⟩
  have larger : h.Extends ((w.size? i act).elim h fun n => (h.classOf n).2) := by
    cases w.size? i act with
    | none => exact .refl h
    | some n => exact h.extends_classOf n
  exact larger.trans (.of_frame same)

theorem extends_run (w : Tenancy) (acts : List Act) (there : w.memory.heaps[i]? = some h) :
    ∃ h', (w.run acts).memory.heaps[i]? = some h' ∧ h.Extends h' := by
  unfold Tenancy.run
  induction acts generalizing w h with
  | nil => exact ⟨h, there, .refl h⟩
  | cons act acts ih =>
      obtain ⟨h₁, there₁, first⟩ := w.extends_step act there
      obtain ⟨h₂, there₂, second⟩ := ih (w.step act) there₁
      exact ⟨h₂, there₂, first.trans second⟩

/-- The classes that a heap has made on demand. -/
def huge (w : Tenancy) (i : Nat) : List SizeClass := (w.memory.heaps[i]?).elim [] Heap.huge

/-- The sizes that a heap is asked for in the course of the acts, whatever comes of it. -/
def sizes (w : Tenancy) (i : Nat) : List Act → List Nat
  | [] => []
  | act :: acts => (w.size? i act).toList ++ (w.step act).sizes i acts

theorem Sound.mem_huge_step (sound : w.Sound) (act : Act)
    (there : (w.step act).memory.heaps[i]? = some h) :
    k ∈ h.huge ↔ k ∈ w.huge i ∨ ∃ n ∈ (w.size? i act).toList,
      h.config.maxSize < n ∧ n ≤ 2 ^ 63 ∧ k = Heap.classBeyond n := by
  cases before : w.memory.heaps[i]? with
  | none =>
      simp [huge_of_new before there, Tenancy.huge, before, size?_of_absent before]
  | some h₀ =>
      obtain ⟨h', there', same⟩ := w.exists_heap_step act before
      rw [there, Option.some.injEq] at there'
      subst there'
      obtain ⟨config, -, -, huge⟩ := Heap.of_frame_eq same
      rw [huge, config, Tenancy.huge, before, Option.elim_some]
      cases w.size? i act with
      | none => simp
      | some n =>
          have classes := (sound.memory.formed i h₀ before).mem_huge_classOf (k := k) n
          simp only [Option.elim_some, Option.toList_some, List.mem_singleton, exists_eq_left,
            (h₀.extends_classOf n).config]
          exact classes

/-- There is a class for each power of two that a request rounded to, and for no other. -/
theorem Sound.mem_huge_run (sound : w.Sound) (acts : List Act)
    (there : (w.run acts).memory.heaps[i]? = some h) :
    k ∈ h.huge ↔ k ∈ w.huge i ∨ ∃ n ∈ w.sizes i acts,
      h.config.maxSize < n ∧ n ≤ 2 ^ 63 ∧ k = Heap.classBeyond n := by
  induction acts generalizing w with
  | nil =>
      have now : w.memory.heaps[i]? = some h := there
      simp [Tenancy.huge, now, sizes]
  | cons act acts ih =>
      rw [ih (sound.step act) there]
      have step : k ∈ (w.step act).huge i ↔ k ∈ w.huge i ∨ ∃ n ∈ (w.size? i act).toList,
          h.config.maxSize < n ∧ n ≤ 2 ^ 63 ∧ k = Heap.classBeyond n := by
        cases after : (w.step act).memory.heaps[i]? with
        | none =>
            -- The heap is opened by one of the acts to come.
            have before := absent_of_step after
            simp [Tenancy.huge, after, before, size?_of_absent before]
        | some h₁ =>
            obtain ⟨h', there', extends'⟩ := (w.step act).extends_run acts after
            have last : (w.step act).run acts = w.run (act :: acts) := rfl
            rw [last, there, Option.some.injEq] at there'
            subst there'
            rw [Tenancy.huge, after, Option.elim_some, extends'.config]
            exact sound.mem_huge_step act after
      rw [step, sizes, or_assoc]
      apply or_congr_right
      simp only [List.mem_append, or_and_right, exists_or]

end Tenancy

/-- Pools count themselves. -/
theorem Stats.pools_foldl_add {all : List Stats} (each : ∀ s ∈ all, s.pools = 1) (total : Stats) :
    (all.foldl Stats.add total).pools = total.pools + all.length := by
  induction all generalizing total with
  | nil => rfl
  | cons s all ih =>
      have first := each s List.mem_cons_self
      rw [List.foldl_cons, ih fun t member => each t (List.mem_cons_of_mem _ member)]
      simp only [Stats.add, List.length_cons, first]
      omega

namespace Heap

variable {h : Heap} {i : Nat}

theorem pools_stats (h : Heap) : h.stats.pools = h.pools.length := by
  rw [stats, Stats.total, Stats.pools_foldl_add]
  · simp
  · intro s member
    obtain ⟨p, -, rfl⟩ := List.mem_map.mp member
    rfl

theorem Formed.length_pools (formed : h.Formed i) :
    h.pools.length = h.classes.length * ((served h.nodes).length * (1 + h.devices.getD 0)) := by
  have same := congrArg List.length formed.pools
  rw [List.length_map, List.length_flatMap] at same
  simpa only [length_poolsOf, List.map_const', List.sum_replicate, smul_eq_mul] using same

theorem Formed.length_classes (formed : h.Formed i) : h.classes.length =
    h.config.numTiny + h.config.numSmall + h.config.numLarge + 1 + h.numHuge := by
  obtain ⟨_, _, _, g⟩ := formed.exists_geometry
  rw [classes, List.length_append, List.length_append, formed.tiny, formed.exponential,
    Config.length_tinyClasses, g.length_exponential, numHuge]
  omega

/-- There are no more classes beyond the largest size than powers of two among the words. -/
theorem Formed.numHuge_le (formed : h.Formed i)
    (powers : ∀ k ∈ h.huge, ∃ n, n ≤ 2 ^ 63 ∧ k = classBeyond n) :
    h.numHuge + h.config.maxSize.log2 ≤ 63 := by
  obtain ⟨_, _, large, g⟩ := formed.exists_geometry
  have most : h.config.maxSize.log2 = large + 1 := by
    rw [g.maxSize, Nat.log2_two_pow]
  -- The block sizes are different powers of two between the largest size and `2 ^ 63`.
  have inside : h.huge.map SizeClass.blockSize ⊆
      (List.range' (large + 2) (62 - large)).map (2 ^ ·) := by
    intro n listed
    obtain ⟨k, member, rfl⟩ := List.mem_map.mp listed
    obtain ⟨size, fits, rfl⟩ := powers k member
    have beyond := formed.beyond _ member
    obtain ⟨e, power⟩ := Word.exists_powerAbove size
    have below := Word.powerAbove_le fits
    rw [g.maxSize] at beyond
    simp only [classBeyond, power] at beyond below ⊢
    have least := (Nat.pow_lt_pow_iff_right Nat.one_lt_two).mp beyond
    have largest := (Nat.pow_le_pow_iff_right Nat.one_lt_two).mp below
    exact List.mem_map_of_mem (List.mem_range'_1.mpr ⟨least, by omega⟩)
  have few := (List.subperm_of_subset formed.apart inside).length_le
  have limit := g.most
  rw [List.length_map, List.length_map, List.length_range'] at few
  rw [numHuge, most]
  omega

/-- A size beyond the tables is served by the pools of its power of two. -/
theorem Formed.key_of_reaches {wide : Heap} {size node : Nat} {device : Option Nat} {p : Pool}
    (formed : h.Formed i) (beyond : h.config.maxSize < size) (fits : size ≤ 2 ^ 63)
    (reaches : h.Reaches size node device wide p) :
    p.key = ⟨i, Word.powerAbove size, node, device⟩ := by
  obtain ⟨_, _, _, g⟩ := formed.exists_geometry
  have large : max size 1 = size := by omega
  have tables := g.tinyLimit_le
  obtain ⟨k, routed, key⟩ := reaches.routed
  obtain ⟨k', wide', routed', picks, -⟩ := formed.classOf_of_le (large.symm ▸ fits)
  rw [routed, Prod.mk.injEq, Except.ok.injEq] at routed'
  obtain ⟨rfl, rfl⟩ := routed'
  have index := (formed.classOf routed).1.index
  rw [large] at picks
  rw [(keyOf_ok key).1, index]
  cases picks with
  | tiny within => omega
  | power _ within => omega
  | known => rfl
  | made => rfl

/-- The classes beyond the tables of a heap that was asked for `sizes`, where there are so many
nodes and devices. -/
structure Assorted (h : Heap) (nodes devices : Nat) (sizes : List Nat) : Prop where
  keys : ∀ n, n ∈ h.huge.map SizeClass.blockSize ↔
    ∃ size ∈ sizes, h.config.maxSize < size ∧ size ≤ 2 ^ 63 ∧ Word.roundUp? size = some n
  single : ∀ k ∈ h.huge, k.segmentSize = k.blockSize
  distinct : (h.huge.map SizeClass.blockSize).Nodup
  bounded : h.numHuge + h.config.maxSize.log2 ≤ 63
  pools : Slotted h.nodes → h.stats.pools =
    (h.config.numTiny + h.config.numSmall + h.config.numLarge + 1 + h.numHuge) *
      (nodes * (1 + devices))

/-- What a heap has beyond its tables is still there when it is `h'`. -/
structure Outlasts (h h' : Heap) : Prop where
  huge : h.huge <+: h'.huge
  numHuge : h.numHuge ≤ h'.numHuge
  pools : ∀ p ∈ h.pools, ∃ p' ∈ h'.pools, p.Alike p' ∧ p.counters.Within p'.counters
  /-- Requests then and now are for the same pool if their sizes round alike, on one node and
  device. -/
  shared : ∀ size size' node node' device device' wide wide' p p',
    h.config.maxSize < size → size ≤ 2 ^ 63 → h.config.maxSize < size' → size' ≤ 2 ^ 63 →
      h.Reaches size node device wide p → h'.Reaches size' node' device' wide' p' →
        (p.key = p'.key ↔
          Word.roundUp? size = Word.roundUp? size' ∧ node = node' ∧ device = device')

end Heap

namespace Tenancy

variable {w : Tenancy} {i : Nat} {h : Heap}

theorem Sound.outlasts (sound : w.Sound) (acts : List Act) (there : w.memory.heaps[i]? = some h) :
    ∃ h', (w.run acts).memory.heaps[i]? = some h' ∧ h.Outlasts h' := by
  obtain ⟨h', there', extends'⟩ := w.extends_run acts there
  have formed := sound.memory.formed i h there
  have formed' := (sound.run acts).memory.formed i h' there'
  refine ⟨h', there', extends'.huge, extends'.huge.length_le, ?_, ?_⟩
  · intro p inside
    have listed : p ∈ w.memory.pools :=
      List.mem_flatMap.mpr ⟨h, List.mem_of_getElem? there, inside⟩
    obtain ⟨p', listed', alike, within⟩ := sound.within_run acts listed
    obtain ⟨g, place, inside', -⟩ := (sound.run acts).memory.formed.heap_of_mem listed'
    rw [alike.key, (formed.of_mem inside).1, there', Option.some.injEq] at place
    exact ⟨p', place ▸ inside', alike, within⟩
  · intro size size' node node' device device' wide wide' p p' beyond fits beyond' fits' reaches
      reaches'
    rw [formed.key_of_reaches beyond fits reaches,
      formed'.key_of_reaches (extends'.config ▸ beyond') fits' reaches', Word.roundUp?_of_le fits,
      Word.roundUp?_of_le fits', PoolKey.mk.injEq, Option.some.injEq]
    simp only [true_and]

theorem Sound.assorted (sound : w.Sound) (acts : List Act)
    (there : (w.run acts).memory.heaps[i]? = some h) (fresh : w.memory.heaps[i]? = none) :
    h.Assorted h.nodes.length (h.devices.getD 0) (w.sizes i acts) := by
  have formed := (sound.run acts).memory.formed i h there
  have mem_huge (k : SizeClass) : k ∈ h.huge ↔ ∃ n ∈ w.sizes i acts,
      h.config.maxSize < n ∧ n ≤ 2 ^ 63 ∧ k = Heap.classBeyond n := by
    rw [sound.mem_huge_run acts there, Tenancy.huge, fresh]
    simp
  refine ⟨?_, formed.single, formed.apart, ?_, ?_⟩
  · intro n
    rw [List.mem_map]
    constructor
    · rintro ⟨k, member, rfl⟩
      obtain ⟨size, asked, beyond, fits, rfl⟩ := (mem_huge k).mp member
      exact ⟨size, asked, beyond, fits, Word.roundUp?_of_le fits⟩
    · rintro ⟨size, asked, beyond, fits, rounds⟩
      rw [Word.roundUp?_of_le fits, Option.some.injEq] at rounds
      exact ⟨_, (mem_huge _).mpr ⟨size, asked, beyond, fits, rfl⟩, rounds⟩
  · apply formed.numHuge_le
    intro k member
    obtain ⟨size, -, -, fits, same⟩ := (mem_huge k).mp member
    exact ⟨size, fits, same⟩
  · intro slotted
    rw [h.pools_stats, formed.length_pools, formed.length_classes,
      slotted.length_served formed.nodes]

/-- After every run the classes beyond the tables of a heap are those of the requests so far, and
they stay whatever is done later. -/
theorem run_assorted {b : Backing} (unused : b.Unused) (acts later : List Act)
    (there : ((start b).run acts).memory.heaps[i]? = some h) :
    h.Assorted b.numa.nodes.eraseDups.length ((b.device.map Device.count).getD 0)
        ((start b).sizes i acts) ∧
      ∃ h', ((start b).run (acts ++ later)).memory.heaps[i]? = some h' ∧ h.Outlasts h' := by
  have sound := sound_start unused
  have assorted := sound.assorted acts there rfl
  obtain ⟨nodes, devices⟩ := furnished_run b acts h (List.mem_of_getElem? there)
  have lasts := (start b).backing_lasts_run acts
  rw [nodes, devices, lasts.nodes, lasts.devices] at assorted
  refine ⟨assorted, ?_⟩
  rw [Tenancy.run, List.foldl_append]
  exact (sound.run acts).outlasts later there

/-- Of two requests beyond the largest size the first finds no node, and both are of one class; a
third one is of another. -/
theorem twice_assorted : shelf.Unused ∧
    ∃ h, ((start shelf).run
        [opening, .allocate 0 65 9 none, .allocate 0 100 0 none]).memory.heaps[0]?
        = some h ∧
      (start shelf).sizes 0 [opening, .allocate 0 65 9 none, .allocate 0 100 0 none] = [65, 100] ∧
      h.huge = [⟨128, 128⟩] ∧ h.Assorted 1 1 [65, 100] ∧
      ∃ h', ((start shelf).run ([opening, .allocate 0 65 9 none, .allocate 0 100 0 none] ++
          [.allocate 0 129 0 none])).memory.heaps[0]? = some h' ∧ h.Outlasts h' :=
  have assorted := run_assorted (i := 0) unused_shelf
    [opening, .allocate 0 65 9 none, .allocate 0 100 0 none] [.allocate 0 129 0 none] rfl
  ⟨unused_shelf, _, rfl, rfl, rfl, assorted.1, assorted.2⟩

end Tenancy

end RegisteredHeap
