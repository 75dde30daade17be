import RegisteredHeap.Proofs.Routing

/-! # Requests to a memory

The pools of all heaps as one list, in which a request or a free replaces one pool.
-/

namespace RegisteredHeap.Memory

def pools (m : Memory) : List Pool := m.heaps.flatMap Heap.pools

/-- Heaps are numbered by their places. -/
def Formed (m : Memory) : Prop := ∀ (i : Nat) (h : Heap), m.heaps[i]? = some h → h.Formed i

variable {m m' : Memory} {i : Nat} {h h' : Heap} {p p' : Pool} {b b' : Backing}

theorem Formed.congr (formed : m.Formed) (b : Backing) : { m with backing := b }.Formed := formed

theorem Formed.set (formed : m.Formed) (new : h'.Formed i) (b : Backing) :
    Formed ⟨b, m.heaps.set i h'⟩ := by
  intro j h there
  simp only [List.getElem?_set] at there
  split at there
  · rename_i same
    split at there
    · cases there
      exact same ▸ new
    · cases there
  · exact formed j h there

theorem Formed.add (formed : m.Formed) (new : h'.Formed m.heaps.length) (b : Backing) :
    Formed ⟨b, m.heaps ++ [h']⟩ := by
  intro j h there
  simp only [List.getElem?_append] at there
  split at there
  · exact formed j h there
  · rename_i outside
    obtain ⟨last, same⟩ := List.getElem?_eq_some_iff.mp there
    simp only [List.length_singleton] at last
    have place : j = m.heaps.length := by omega
    simp only [List.getElem_singleton] at same
    exact same ▸ place ▸ new

theorem pools_split (there : m.heaps[i]? = some h) :
    ∃ before after, m.pools = before ++ (h.pools ++ after) ∧
      ∀ h', (m.heaps.set i h').flatMap Heap.pools = before ++ (h'.pools ++ after) := by
  obtain ⟨inside, same⟩ := List.getElem?_eq_some_iff.mp there
  refine ⟨(m.heaps.take i).flatMap Heap.pools, (m.heaps.drop (i + 1)).flatMap Heap.pools, ?_, ?_⟩
  · have parts : m.heaps = m.heaps.take i ++ h :: m.heaps.drop (i + 1) := by
      rw [← same, List.getElem_cons_drop, List.take_append_drop]
    conv_lhs => rw [pools, parts]
    rw [List.flatMap_append, List.flatMap_cons]
  · intro h'
    rw [List.set_eq_take_append_cons_drop, if_pos inside, List.flatMap_append, List.flatMap_cons]

theorem Formed.heap_of_mem (formed : m.Formed) (member : p ∈ m.pools) :
    ∃ h, m.heaps[p.key.heap]? = some h ∧ p ∈ h.pools ∧ h.Formed p.key.heap := by
  obtain ⟨h, there, inside⟩ := List.mem_flatMap.mp member
  obtain ⟨i, place⟩ := List.mem_iff_getElem?.mp there
  have index := ((formed i h place).of_mem inside).1
  rw [index]
  exact ⟨h, place, inside, formed i h place⟩

theorem Formed.keys (formed : m.Formed) : (m.pools.map Pool.key).Nodup := by
  have indices : m.heaps.map Heap.index = List.range m.heaps.length := by
    apply List.ext_getElem
    · simp
    · intro i _ inside
      simp only [List.length_range] at inside
      simp [(formed i _ (List.getElem?_eq_getElem inside)).index]
  have distinct : (m.heaps.map Heap.index).Nodup := indices ▸ List.nodup_range
  rw [pools, List.map_flatMap]
  refine Keyed.nodup_flatMap Heap.index PoolKey.heap distinct ?_ ?_
  · intro h there
    obtain ⟨i, place⟩ := List.mem_iff_getElem?.mp there
    exact (formed i h place).keys
  · intro h there key member
    obtain ⟨i, place⟩ := List.mem_iff_getElem?.mp there
    obtain ⟨p, inside, rfl⟩ := List.mem_map.mp member
    rw [((formed i h place).of_mem inside).1, (formed i h place).index]

theorem Formed.blockSize_pos (formed : m.Formed) (member : p ∈ m.pools) : 0 < p.key.blockSize := by
  obtain ⟨h, -, inside, formed'⟩ := formed.heap_of_mem member
  exact formed'.blockSize_pos inside

/-- A pool of the memory is found by its key, and put back in its place. -/
theorem Formed.pool_split (formed : m.Formed) (member : p ∈ m.pools) :
    ∃ h before after, m.heaps[p.key.heap]? = some h ∧ h.pool? p.key = some p ∧
      m.pools = before ++ p :: after ∧ ∀ p' b, p.Alike p' →
        Formed ⟨b, m.heaps.set p.key.heap (h.setPool p')⟩ ∧
          (m.heaps.set p.key.heap (h.setPool p')).flatMap Heap.pools = before ++ p' :: after := by
  obtain ⟨h, there, inside, formed'⟩ := formed.heap_of_mem member
  obtain ⟨before, after, outer, replaced⟩ := pools_split there
  obtain ⟨found, left, right, inner, put⟩ := formed'.pool_split inside
  refine ⟨h, before ++ left, right ++ after, there, found, ?_, ?_⟩
  · rw [outer, inner]
    simp only [List.append_assoc, List.cons_append]
  · intro p' b alike
    refine ⟨formed.set (formed'.setPool inside alike) b, ?_⟩
    rw [replaced, put p' alike]
    simp only [List.append_assoc, List.cons_append]

/-- The ways in which a request can go, with the pools of all heaps in one list. -/
inductive Request (m : Memory) (heap : Nat) (r : Except HeapError Block) (m' : Memory) : Prop where
  | refused {cause : HeapError} {fresh : List Pool} (failed : r = .error cause)
      (backing : m'.backing = m.backing) (pools : m'.pools.Perm (fresh ++ m.pools))
      (blank : ∀ p ∈ fresh, p.blank = p)
  | served {p p' : Pool} {before after fresh : List Pool}
      (wide : (before ++ p :: after).Perm (fresh ++ m.pools)) (blank : ∀ p ∈ fresh, p.blank = p)
      (own : p.key.heap = heap) (size : 0 < p.key.blockSize)
      (got : p.allocate m.backing = (r, p', m'.backing)) (pools : m'.pools = before ++ p' :: after)

theorem widens_perm (there : m.heaps[i]? = some h) (wider : h.Widens h') :
    ∃ fresh, ((m.heaps.set i h').flatMap Heap.pools).Perm (fresh ++ m.pools) ∧
      ∀ p ∈ fresh, p.blank = p := by
  obtain ⟨before, after, outer, replaced⟩ := pools_split there
  obtain ⟨fresh, more, blank⟩ := wider
  refine ⟨fresh, ?_, blank⟩
  rw [replaced, outer, more, List.append_assoc, ← List.append_assoc before]
  exact (List.perm_append_comm_assoc _ _ _).trans (by rw [List.append_assoc])

theorem Formed.request {heap size node : Nat} {device : Option Nat} {r : Except HeapError Block}
    (formed : m.Formed) (got : m.allocate heap size node device = (r, m')) :
    m'.Formed ∧ m.Request heap r m' := by
  unfold allocate at got
  cases there : m.heaps[heap]? with
  | none =>
      simp only [there, Prod.mk.injEq] at got
      obtain ⟨rfl, rfl⟩ := got
      exact ⟨formed, .refused rfl rfl (List.Perm.refl ([] ++ m.pools)) (by simp)⟩
  | some h =>
      rcases went : h.allocate size node device m.backing with ⟨r', h', b'⟩
      obtain ⟨formed', request⟩ := (formed heap h there).request went
      simp only [there, went, Prod.mk.injEq] at got
      obtain ⟨rfl, rfl⟩ := got
      refine ⟨formed.set formed' _, ?_⟩
      cases request with
      | refused wider =>
          obtain ⟨fresh, perm, blank⟩ := widens_perm there wider
          exact .refused rfl rfl perm blank
      | @served wide p p' r b' wider wideFormed member served =>
          obtain ⟨fresh, perm, blank⟩ := widens_perm there wider
          have index := (formed heap h there).index
          have formed₁ : Formed ⟨m.backing, m.heaps.set heap wide⟩ :=
            formed.set (index ▸ wideFormed) _
          have own : p.key.heap = heap := index ▸ (wideFormed.of_mem member).1
          have place : (m.heaps.set heap wide)[heap]? = some wide := by
            rw [List.getElem?_set_self (List.getElem?_eq_some_iff.mp there).1]
          have inside : p ∈ Memory.pools ⟨m.backing, m.heaps.set heap wide⟩ :=
            List.mem_flatMap.mpr ⟨wide, List.mem_of_getElem? place, member⟩
          obtain ⟨h₁, before, after, at₁, -, split, put⟩ := formed₁.pool_split inside
          rw [own, place, Option.some.injEq] at at₁
          subst at₁
          have pools := (put p' m.backing (.of_allocate served)).2
          simp only [own, List.set_set] at pools
          rw [show Memory.pools ⟨m.backing, m.heaps.set heap wide⟩ =
            (m.heaps.set heap wide).flatMap Heap.pools from rfl] at split
          exact .served (split ▸ perm) blank own (formed₁.blockSize_pos inside) served pools

/-- A block of a pool goes back to it. -/
theorem Formed.free_segment {block : Block} {n : Nat} (formed : m.Formed) (member : p ∈ m.pools)
    (origin : block.origin = .segment p.key n) :
    ∃ p' before after, m.pools = before ++ p :: after ∧ (m.free block).Formed ∧
      p.giveBack n block (m.backing.log (.blockFreed block.address)) =
        (p', (m.free block).backing) ∧
      (m.free block).pools = before ++ p' :: after := by
  obtain ⟨h, before, after, there, found, split, put⟩ := formed.pool_split member
  rcases went : p.giveBack n block (m.backing.log (.blockFreed block.address)) with ⟨p', b'⟩
  have freed : m.free block = ⟨b', m.heaps.set p.key.heap (h.setPool p')⟩ := by
    simp only [free, origin, log, there, Heap.giveBack, found, went]
  obtain ⟨formed', pools⟩ := put p' b' (.of_giveBack went)
  refine ⟨p', before, after, split, ?_, ?_, ?_⟩
  · rw [freed]
    exact formed'
  · rw [freed]
  · rw [freed]
    exact pools

end RegisteredHeap.Memory
