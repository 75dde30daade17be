import RegisteredHeap.Memory
import RegisteredHeap.Proofs.Circulation
import RegisteredHeap.Proofs.Geometry

/-! # Routing

A call on a memory reaches at most one pool. The pools of a heap are those of its classes, nodes and
devices; their keys are distinct over all heaps, so the pool that a size or a block names is found.
-/

namespace RegisteredHeap

namespace Pool

/-- The pool as it was made. -/
def blank (p : Pool) : Pool :=
  { key := p.key, segmentSize := p.segmentSize, retention := p.retention }

theorem Alike.blank {p p' : Pool} (alike : p.Alike p') : p'.blank = p.blank := by
  simp only [Pool.blank, alike.key, alike.segmentSize, alike.retention]

end Pool

namespace Heap

def classes (h : Heap) : List SizeClass := h.tiny ++ h.exponential ++ h.huge

/-- The heap has an accepted configuration, and the pools that go with it. -/
structure Formed (h : Heap) (index : Nat) : Prop where
  index : h.index = index
  accepted : ∃ s, Config.ofSettings s = .ok h.config
  tiny : h.tiny = h.config.tinyClasses
  exponential : h.exponential = h.config.exponentialClasses
  beyond : ∀ k ∈ h.huge, h.config.maxSize < k.blockSize
  single : ∀ k ∈ h.huge, k.segmentSize = k.blockSize
  apart : (h.huge.map SizeClass.blockSize).Nodup
  nodes : h.nodes.Nodup
  pools : h.pools.map Pool.blank =
    h.classes.flatMap (poolsOf h.index (retention h.config) h.nodes h.devices)

variable {h h' : Heap} {i : Nat} {p p' : Pool} {b b' : Backing}

/-- The nodes with a slot, in increasing order. -/
def served (nodes : List Nat) : List Nat := (List.range (slots nodes)).filter (· ∈ nodes)

/-- Every node has a slot: the sum for them is a word. -/
def Slotted (nodes : List Nat) : Prop := ∀ node ∈ nodes, node + 1 < Word.limit

theorem mem_served {nodes : List Nat} {node : Nat} :
    node ∈ served nodes ↔ node < slots nodes ∧ node ∈ nodes := by
  simp [served]

theorem nodup_served (nodes : List Nat) : (served nodes).Nodup := List.nodup_range.filter _

theorem Slotted.lt_slots {nodes : List Nat} {node : Nat} (slotted : Slotted nodes)
    (known : node ∈ nodes) : node < slots nodes := by
  obtain ⟨last, found⟩ := Option.isSome_iff_exists.mp (List.isSome_max?_of_mem known)
  obtain ⟨there, largest⟩ := List.max?_eq_some_iff.mp found
  rw [slots, found, Option.elim_some, Word.wrap, Nat.mod_eq_of_lt (slotted last there)]
  exact Nat.lt_succ_of_le (largest node known)

theorem Slotted.mem_served {nodes : List Nat} {node : Nat} (slotted : Slotted nodes) :
    node ∈ served nodes ↔ node ∈ nodes := by
  rw [Heap.mem_served, and_iff_right_iff_imp]
  exact slotted.lt_slots

theorem Slotted.length_served {nodes : List Nat} (slotted : Slotted nodes)
    (distinct : nodes.Nodup) : (served nodes).length = nodes.length :=
  ((List.perm_ext_iff_of_nodup (nodup_served nodes) distinct).mpr fun _ =>
    slotted.mem_served).length_eq

theorem filterMap_nodeTable {α : Type} (nodes : List Nat) (entry : Nat → α) :
    (nodeTable nodes entry).filterMap id = (served nodes).map entry := by
  rw [nodeTable, served, List.filterMap_map, Function.id_comp]
  induction List.range (slots nodes) with
  | nil => rfl
  | cons node numbers ih =>
      by_cases known : node ∈ nodes <;> simp [known, ih]

section PoolsOf

variable {index node : Nat} {keep : Retention} {nodes : List Nat} {devices device : Option Nat}
  {k : SizeClass}

theorem filterMap_deviceTable (index : Nat) (nodes : List Nat) (devices : Option Nat)
    (k : SizeClass) :
    ((deviceTable index nodes devices k).filterMap id).flatten =
      (served nodes).flatMap fun node => (List.range (devices.getD 0)).map fun device =>
        ⟨index, k.blockSize, node, some device⟩ := by
  cases devices with
  | none => simp [deviceTable]
  | some count =>
      rw [deviceTable, filterMap_nodeTable, List.flatMap_def]
      rfl

theorem mem_poolsOf : p ∈ poolsOf index keep nodes devices k ↔
    ∃ node ∈ served nodes, ∃ device ∈ none :: (List.range (devices.getD 0)).map some,
      p = { key := ⟨index, k.blockSize, node, device⟩, segmentSize := k.segmentSize,
            retention := keep } := by
  simp only [poolsOf, hostTable, filterMap_nodeTable, filterMap_deviceTable, List.mem_map,
    List.mem_append, List.mem_flatMap, List.mem_cons]
  constructor
  · rintro ⟨_, ⟨node, there, rfl⟩ | ⟨node, there, device, within, rfl⟩, rfl⟩
    · exact ⟨node, there, none, .inl rfl, rfl⟩
    · exact ⟨node, there, some device, .inr ⟨device, within, rfl⟩, rfl⟩
  · rintro ⟨node, there, _, rfl | ⟨device, within, rfl⟩, rfl⟩
    · exact ⟨_, .inl ⟨node, there, rfl⟩, rfl⟩
    · exact ⟨_, .inr ⟨node, there, device, within, rfl⟩, rfl⟩

theorem blank_of_mem_poolsOf (member : p ∈ poolsOf index keep nodes devices k) : p.blank = p := by
  obtain ⟨node, -, device, -, rfl⟩ := mem_poolsOf.mp member
  rfl

theorem map_key_poolsOf : (poolsOf index keep nodes devices k).map Pool.key =
    (served nodes).map (fun node => ⟨index, k.blockSize, node, none⟩) ++
      (served nodes).flatMap fun node => (List.range (devices.getD 0)).map fun device =>
        ⟨index, k.blockSize, node, some device⟩ := by
  rw [poolsOf, hostTable, filterMap_nodeTable, filterMap_deviceTable, List.map_map]
  exact List.map_id _

theorem keys_poolsOf : ((poolsOf index keep nodes devices k).map Pool.key).Nodup := by
  rw [map_key_poolsOf, List.nodup_append]
  refine ⟨?_, ?_, ?_⟩
  · refine (nodup_served nodes).map fun node node' same => ?_
    simpa using same
  · refine Keyed.nodup_flatMap id PoolKey.node (by simpa using nodup_served nodes) ?_ ?_
    · intro node _
      refine List.nodup_range.map fun device device' same => ?_
      simpa using same
    · intro node _ key member
      obtain ⟨device, -, rfl⟩ := List.mem_map.mp member
      rfl
  · intro key host key' onDevice same
    obtain ⟨node, -, rfl⟩ := List.mem_map.mp host
    obtain ⟨node', -, inside⟩ := List.mem_flatMap.mp onDevice
    obtain ⟨device, -, rfl⟩ := List.mem_map.mp inside
    simp at same

end PoolsOf

theorem Formed.sizes (formed : h.Formed i) : (h.classes.map SizeClass.blockSize).Nodup := by
  obtain ⟨s, accepted⟩ := formed.accepted
  obtain ⟨tiny, small, large, geometry⟩ := Config.exists_geometry accepted
  rw [classes, formed.tiny, formed.exponential, List.map_append, List.nodup_append]
  refine ⟨geometry.increasing.imp Nat.ne_of_lt, formed.apart, ?_⟩
  intro m table n huge same
  obtain ⟨k, member, rfl⟩ := List.mem_map.mp huge
  have within := geometry.size_le table
  have beyond := formed.beyond k member
  omega

theorem Formed.size_pos (formed : h.Formed i) {k : SizeClass} (member : k ∈ h.classes) :
    0 < k.blockSize := by
  obtain ⟨s, accepted⟩ := formed.accepted
  obtain ⟨tiny, small, large, geometry⟩ := Config.exists_geometry accepted
  rw [classes, formed.tiny, formed.exponential, List.mem_append] at member
  rcases member with table | huge
  · exact geometry.size_pos (List.mem_map_of_mem table)
  · exact Nat.zero_lt_of_lt (formed.beyond k huge)

/-- What the key of a pool says about it. -/
theorem Formed.of_mem (formed : h.Formed i) (member : p ∈ h.pools) :
    p.key.heap = i ∧ p.retention = retention h.config ∧
      ∃ k ∈ h.classes, p.key.blockSize = k.blockSize ∧ p.segmentSize = k.segmentSize := by
  have blank : p.blank ∈ h.pools.map Pool.blank := List.mem_map_of_mem member
  rw [formed.pools] at blank
  obtain ⟨k, there, inside⟩ := List.mem_flatMap.mp blank
  obtain ⟨node, -, device, -, same⟩ := mem_poolsOf.mp inside
  simp only [Pool.blank, Pool.mk.injEq] at same
  obtain ⟨key, segment, keep, -⟩ := same
  exact ⟨key ▸ formed.index, keep, k, there, key ▸ rfl, segment⟩

theorem Formed.blockSize_pos (formed : h.Formed i) (member : p ∈ h.pools) :
    0 < p.key.blockSize := by
  obtain ⟨-, -, k, there, same, -⟩ := formed.of_mem member
  rw [same]
  exact formed.size_pos there

theorem Formed.keys (formed : h.Formed i) : (h.pools.map Pool.key).Nodup := by
  have same : h.pools.map Pool.key = (h.pools.map Pool.blank).map Pool.key := by
    rw [List.map_map]
    rfl
  rw [same, formed.pools, List.map_flatMap]
  refine Keyed.nodup_flatMap SizeClass.blockSize PoolKey.blockSize formed.sizes ?_ ?_
  · intro k _
    exact keys_poolsOf
  · intro k _ key member
    obtain ⟨q, inside, rfl⟩ := List.mem_map.mp member
    obtain ⟨node, -, device, -, rfl⟩ := mem_poolsOf.mp inside
    rfl

theorem formed_ofConfig {s : Settings} {c : Config} (index : Nat) (nodes : List Nat)
    (devices : Option Nat) (accepted : Config.ofSettings s = .ok c) :
    (Heap.ofConfig index c nodes devices).Formed index where
  index := rfl
  accepted := ⟨s, accepted⟩
  tiny := rfl
  exponential := rfl
  beyond := by simp [ofConfig]
  single := by simp [ofConfig]
  apart := by simp [ofConfig]
  nodes := Keyed.nodup_eraseDups nodes
  pools := by
    simp only [ofConfig, classes, List.append_nil]
    conv_rhs => rw [← List.map_id (List.flatMap _ _)]
    apply List.map_congr_left
    intro p member
    obtain ⟨k, -, inside⟩ := List.mem_flatMap.mp member
    exact blank_of_mem_poolsOf inside

/-- The heap, possibly with more classes whose pools are empty. -/
def Widens (h h' : Heap) : Prop := ∃ fresh, h'.pools = h.pools ++ fresh ∧ ∀ p ∈ fresh, p.blank = p

theorem Widens.refl (h : Heap) : h.Widens h := ⟨[], by simp, by simp⟩

theorem Formed.hugeClass {size : Nat} {r : Except HeapError SizeClass} (formed : h.Formed i)
    (beyond : h.config.maxSize < size) (got : h.hugeClass size = (r, h')) :
    h'.Formed i ∧ h.Widens h' := by
  unfold Heap.hugeClass at got
  cases rounded : Word.roundUp? size with
  | none =>
      simp only [rounded, Prod.mk.injEq] at got
      exact got.2 ▸ ⟨formed, .refl h⟩
  | some n =>
      obtain ⟨same, -⟩ := Word.roundUp?_eq_some rounded
      have above : h.config.maxSize < n := same ▸ beyond.trans_le (Word.le_powerAbove size)
      simp only [rounded] at got
      split at got
      · simp only [Prod.mk.injEq] at got
        exact got.2 ▸ ⟨formed, .refl h⟩
      rename_i unknown
      have fresh : n ∉ h.huge.map SizeClass.blockSize := by
        intro known
        obtain ⟨k, member, size⟩ := List.mem_map.mp known
        have same : k = ⟨n, n⟩ := by
          rw [← size]
          nth_rewrite 2 [← formed.single k member]
          rfl
        exact unknown (same ▸ member)
      simp only [Prod.mk.injEq] at got
      obtain ⟨-, rfl⟩ := got
      refine ⟨⟨formed.index, formed.accepted, formed.tiny, formed.exponential, ?_, ?_, ?_,
        formed.nodes, ?_⟩, _, rfl, fun p => blank_of_mem_poolsOf⟩
      · intro k member
        rcases List.mem_append.mp member with old | new
        · exact formed.beyond k old
        · rw [List.mem_singleton.mp new]
          exact above
      · intro k member
        rcases List.mem_append.mp member with old | new
        · exact formed.single k old
        · rw [List.mem_singleton.mp new]
      · rw [List.map_append, List.nodup_append]
        refine ⟨formed.apart, by simp, ?_⟩
        intro m old n' new same
        have last : n' = n := by simpa using new
        exact fresh (last ▸ same ▸ old)
      · have made : (poolsOf h.index (retention h.config) h.nodes h.devices ⟨n, n⟩).map Pool.blank =
            poolsOf h.index (retention h.config) h.nodes h.devices ⟨n, n⟩ := by
          conv_rhs => rw [← List.map_id (poolsOf ..)]
          exact List.map_congr_left fun p => blank_of_mem_poolsOf
        rw [List.map_append, formed.pools, made]
        simp only [classes, List.flatMap_append, List.flatMap_cons, List.flatMap_nil,
          List.append_nil, List.append_assoc]

theorem Formed.classOf {size : Nat} {r : Except HeapError SizeClass} (formed : h.Formed i)
    (got : h.classOf size = (r, h')) : h'.Formed i ∧ h.Widens h' := by
  simp only [Heap.classOf] at got
  split at got
  · split at got
    all_goals
      simp only [Prod.mk.injEq] at got
      exact got.2 ▸ ⟨formed, .refl h⟩
  split at got
  · split at got
    all_goals
      simp only [Prod.mk.injEq] at got
      exact got.2 ▸ ⟨formed, .refl h⟩
  · rename_i large
    exact formed.hugeClass (Nat.not_le.mp large) got

/-- A pool of the heap is found by its key, and put back in its place. -/
theorem Formed.pool_split (formed : h.Formed i) (member : p ∈ h.pools) :
    h.pool? p.key = some p ∧ ∃ before after, h.pools = before ++ p :: after ∧
      ∀ p', p.Alike p' → (h.setPool p').pools = before ++ p' :: after := by
  obtain ⟨before, after, split, apart⟩ := Keyed.exists_split formed.keys member
  refine ⟨?_, before, after, split, ?_⟩
  · rw [pool?, split]
    exact Keyed.find?_split apart
  · intro p' alike
    simp only [setPool, split, alike.key]
    exact Keyed.map_split apart p'

theorem Formed.setPool (formed : h.Formed i) (member : p ∈ h.pools) (alike : p.Alike p') :
    (h.setPool p').Formed i := by
  obtain ⟨-, before, after, split, replaced⟩ := formed.pool_split member
  have pools : (h.setPool p').pools.map Pool.blank = h.pools.map Pool.blank := by
    rw [replaced p' alike, split]
    simp only [List.map_append, List.map_cons, alike.blank]
  exact ⟨formed.index, formed.accepted, formed.tiny, formed.exponential, formed.beyond,
    formed.single, formed.apart, formed.nodes, pools ▸ formed.pools⟩

/-- The ways in which a request to a heap can go: it is refused before it reaches a pool, or one
pool, possibly a new one, allocates. -/
inductive Request (h : Heap) (b : Backing) : Except HeapError Block → Heap → Backing → Prop where
  | refused {cause : HeapError} {h' : Heap} (wider : h.Widens h') : h.Request b (.error cause) h' b
  | served {wide : Heap} {p p' : Pool} {r : Except HeapError Block} {b' : Backing}
      (wider : h.Widens wide) (formed : wide.Formed h.index) (member : p ∈ wide.pools)
      (got : p.allocate b = (r, p', b')) : h.Request b r (wide.setPool p') b'

theorem Formed.request {size node : Nat} {device : Option Nat} {r : Except HeapError Block}
    (formed : h.Formed i) (got : h.allocate size node device b = (r, h', b')) :
    h'.Formed i ∧ h.Request b r h' b' := by
  unfold Heap.allocate at got
  rcases routed : h.classOf size with ⟨cause | k, wide⟩
  · obtain ⟨formed', wider⟩ := formed.classOf routed
    simp only [routed, Prod.mk.injEq] at got
    obtain ⟨rfl, rfl, rfl⟩ := got
    exact ⟨formed', .refused wider⟩
  obtain ⟨formed', wider⟩ := formed.classOf routed
  simp only [routed] at got
  cases key : wide.keyOf k node device with
  | error cause =>
      simp only [key, Prod.mk.injEq] at got
      obtain ⟨rfl, rfl, rfl⟩ := got
      exact ⟨formed', .refused wider⟩
  | ok key' =>
      simp only [key, allocateFrom] at got
      cases found : wide.pool? key' with
      | none =>
          simp only [found, Prod.mk.injEq] at got
          obtain ⟨rfl, rfl, rfl⟩ := got
          exact ⟨formed', .refused wider⟩
      | some p =>
          simp only [found, Prod.mk.injEq] at got
          obtain ⟨rfl, rfl, rfl⟩ := got
          have member : p ∈ wide.pools := List.mem_of_find?_eq_some found
          exact ⟨formed'.setPool member (.of_allocate rfl),
            .served wider (formed.index ▸ formed') member rfl⟩

end Heap

end RegisteredHeap
