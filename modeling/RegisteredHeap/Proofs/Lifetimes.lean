import RegisteredHeap.Proofs.Custody
import RegisteredHeap.Proofs.Demands

/-! # Lifetimes of extents

The segments of a memory have their extents in custody, and no other extent is in use. What a call
does to the segments it does to the custody of their extents, so over a whole run each extent is
obtained, registered, deregistered and given back in this order, or given back without a
registration if there was none to be had.
-/

namespace RegisteredHeap

namespace Memory

variable {m m' : Memory} {closed : List Nat} {out : Multiset Block} {x : Block}
  {heap size node address len : Nat} {device : Option Nat} {r : Except HeapError Block}
  {cause : HeapError} {b : Backing}

/-- The extents of all segments. -/
def charges (m : Memory) : Multiset Charge := (m.pools.map Pool.charges).sum

/-- The extents of segments are registered, and all others have come to their end. -/
def Cares (m : Memory) : Prop := m.backing.Custody m.charges

/-- New pools have no extents yet. -/
theorem charges_widen {wide fresh : List Pool} (perm : wide.Perm (fresh ++ m.pools))
    (blank : ∀ p ∈ fresh, p.blank = p) : (wide.map Pool.charges).sum = m.charges := by
  have none : (fresh.map Pool.charges).sum = 0 := by
    apply List.sum_eq_zero
    intro part member
    obtain ⟨p, new, rfl⟩ := List.mem_map.mp member
    exact blank p new ▸ rfl
  rw [(perm.map Pool.charges).sum_eq, List.map_append, List.sum_append, none, zero_add, charges]

theorem Cares.rebase (cares : m.Cares) (same : ∀ parts, m.backing.Custody parts → b.Custody parts) :
    Cares { m with backing := b } := same _ cares

theorem Cares.store (cares : m.Cares) (a : Address) (element : Element) (values : List Nat) :
    (m.store a element values).Cares := cares.rebase fun _ custody => custody.write a _

theorem Cares.endValues (cares : m.Cares) (element : Element) (values : List Nat) :
    (m.endValues element values).Cares :=
  endValues_induction (P := Cares) element values cares
    fun _ _ cares => cares.rebase fun _ custody => custody.logs (.log _ _) rfl

/-- A request is refused before the backing is asked, or one pool answers it, and the extents of the
others stay theirs. -/
inductive Response (m : Memory) (r : Except HeapError Block) (m' : Memory) : Prop where
  | refused {cause : HeapError} (failed : r = .error cause) (backing : m'.backing = m.backing)
      (same : m'.charges = m.charges)
  | served {p p' : Pool} {own : Multiset Block} {rest : Inventory} {others : Multiset Charge}
      (kept : p.Kept m.backing own rest) (went : p.allocate m.backing = (r, p', m'.backing))
      (before : m.charges = p.charges + others) (after : m'.charges = p'.charges + others)

theorem Sound.response (sound : m.Sound closed out)
    (got : m.allocate heap size node device = (r, m')) : m.Response r m' := by
  obtain ⟨formed, request⟩ := sound.formed.request got
  cases request with
  | refused failed backing pools blank => exact .refused failed backing (charges_widen pools blank)
  | served wide blank _ _ went pools =>
      have ledger := sound.widen formed (pools ▸ keys_put (.of_allocate went)) wide blank
      have before := charges_widen wide blank
      rw [sum_map_split] at before
      exact .served ledger.kept went before.symm (by rw [charges, pools, sum_map_split])

theorem Sound.cares_allocate (sound : m.Sound closed out) (cares : m.Cares)
    (got : m.allocate heap size node device = (r, m')) : m'.Cares := by
  cases sound.response got with
  | refused _ backing same =>
      rw [Cares, backing, same]
      exact cares
  | served kept went before after =>
      rw [Cares, before] at cares
      rw [Cares, after]
      exact kept.custody_allocate went cares

/-- A request that fails leaves the segments their extents. -/
theorem Sound.charges_failed (sound : m.Sound closed out)
    (failed : m.allocate heap size node device = (.error cause, m')) : m'.charges = m.charges := by
  cases sound.response failed with
  | refused _ _ same => exact same
  | served kept went before after => rw [after, kept.charges_failed went, before]

theorem Sound.cares_allocateArray {l : Layout} {count : Nat} (sound : m.Sound closed out)
    (cares : m.Cares) (got : m.allocateArray heap l count node = (r, m')) : m'.Cares := by
  rcases m.allocateArray_cases heap l count node with ⟨_, -, same⟩ | ⟨_, -, same⟩
  · rw [same, Prod.mk.injEq] at got
    exact got.2 ▸ cares
  · exact sound.cares_allocate cares (same ▸ got)

theorem Sound.cares_makeOwner (sound : m.Sound closed out) (cares : m.Cares) (heap : Nat)
    (element : Element) (node value : Nat) : (m.makeOwner heap element node value).2.Cares := by
  rcases got : m.allocateArray heap element.layout 1 node with ⟨cause | x, m'⟩
  · simp only [makeOwner, got]
    exact (sound.cares_allocateArray cares got).endValues element [value]
  · simp only [makeOwner, got]
    exact (sound.cares_allocateArray cares got).store x.address element [value]

theorem Sound.cares_free (sound : m.Sound closed (x.bare ::ₘ out)) (cares : m.Cares) :
    (m.free x).Cares := by
  have logged : (m.backing.log (.blockFreed x.address)).Custody m.charges :=
    Backing.Custody.logs cares (.log _ _) rfl
  cases sound.freed with
  | @pooled p p' n before after split origin _ went pools =>
      have listed : p ∈ m.pools := split ▸ List.mem_append_cons_self
      obtain ⟨_, kept⟩ := (sound.logged x.address).exists_kept_cons listed
        (Block.pool?_eq_some.mpr ⟨n, origin⟩)
      rw [charges, split, sum_map_split] at logged
      rw [Cares, charges, pools, sum_map_split]
      exact (kept.returned origin went).custody logged
  | @ended r same freed =>
      rcases sound.ledger.homes x.bare (Multiset.mem_cons_self _ _) with
        ⟨p, -, home⟩ | ⟨r', same', -, v, base⟩
      · rw [same] at home
        cases home
      · have region : r = r' := Origin.user.inj (congrArg Block.origin (same.symm.trans same'))
        rw [freed]
        exact logged.withdraw (by rw [region, base]; rfl)

theorem Cares.registerUser (cares : m.Cares) (heap address size : Nat) (device : Option Nat) :
    (m.registerUser heap address size device).2.Cares := by
  rcases got : m.registerUser heap address size device with ⟨r, m'⟩
  rcases registerUser_cases got with ⟨_, -, rfl⟩ | ⟨_, _, -, rfl, asked⟩ | ⟨_, _, -, rfl, asked⟩
  · exact cares
  · exact cares.rebase fun _ custody => custody.register_failed asked
  · exact cares.rebase fun _ custody => custody.enroll rfl asked

/-- The new heap has pools, but they have no extents. -/
theorem Cares.addHeap (cares : m.Cares) (c : Config) : (m.addHeap c).Cares := by
  have pools : (m.addHeap c).pools.Perm ((Heap.ofConfig m.heaps.length c m.backing.numa.nodes
      (m.backing.device.map Device.count)).pools ++ m.pools) := by
    simp only [Memory.addHeap, Memory.pools, List.flatMap_append, List.flatMap_singleton]
    exact List.perm_append_comm
  have same : (m.addHeap c).charges = m.charges := by
    refine charges_widen pools ?_
    intro p member
    obtain ⟨k, -, inside⟩ := List.mem_flatMap.mp member
    exact Heap.blank_of_mem_poolsOf inside
  rw [Cares, same]
  exact cares

theorem custody_closeAll {mine : List Pool} {others : Multiset Charge}
    (custody : b.Custody ((mine.map Pool.charges).sum + others)) :
    (mine.foldl Pool.releaseAll b).Custody others := by
  induction mine generalizing b with
  | nil => simpa using custody
  | cons p mine ih =>
      rw [List.map_cons, List.sum_cons, add_assoc] at custody
      exact ih (Pool.custody_releaseAll custody)

theorem backing_closeHeap {h : Heap} (there : m.heaps[heap]? = some h) :
    (m.closeHeap heap).backing = h.pools.foldl Pool.releaseAll m.backing := by
  simp only [Memory.closeHeap, there, Heap.close]

theorem Cares.closeHeap (cares : m.Cares) (heap : Nat) : (m.closeHeap heap).Cares := by
  cases there : m.heaps[heap]? with
  | none =>
      simp only [Memory.closeHeap, there]
      exact cares
  | some h =>
      obtain ⟨before, after, split, pools⟩ := pools_closeHeap there
      have nothing : ((h.pools.map Pool.emptied).map Pool.charges).sum = 0 := by
        apply List.sum_eq_zero
        intro part member
        obtain ⟨p, gone, rfl⟩ := List.mem_map.mp member
        obtain ⟨q, -, rfl⟩ := List.mem_map.mp gone
        rfl
      rw [Cares, charges, split, List.map_append, List.map_append, List.sum_append,
        List.sum_append, add_left_comm] at cares
      rw [Cares, charges, pools, List.map_append, List.map_append, List.sum_append,
        List.sum_append, nothing, zero_add, backing_closeHeap there]
      exact custody_closeAll cares

theorem Sound.cares_arrange (sound : m.Sound closed out) (cares : m.Cares) (key : PoolKey)
    (order : List Nat) : (m.arrange key order).Cares := by
  rcases sound.formed.arrange_split key order with
    same | ⟨p, before, after, -, split, -, backing, pools⟩
  · exact same.symm ▸ cares
  · have moved : (p.arrange order).charges = p.charges :=
      ((List.mergeSort_perm p.segments _).map Segment.charges).sum_eq
    rw [Cares, charges, split, sum_map_split] at cares
    rw [Cares, charges, backing, pools, sum_map_split, moved]
    exact cares

end Memory

namespace Tenancy

variable {w : Tenancy} {act : Act} {heap : Nat} {m : Memory} {x : Block}

theorem cares_on {next : Tenancy} (cares : w.memory.Cares)
    (after : heap ∉ w.closed → next.memory.Cares) : (w.on heap next).memory.Cares :=
  on_cases (P := fun v => v.memory.Cares) (fun _ => cares) after

theorem cares_call {g : Option Grip} (cares : w.memory.Cares) (after : m.Cares) :
    (w.on heap (w.keep heap m g)).memory.Cares :=
  cares_on cares fun _ => (w.memory_keep heap m g).symm ▸ after

/-- Until a free gives the block back, nothing was given back. -/
theorem Sound.cares_of_frees (sound : w.Sound) (cares : w.memory.Cares) (frees : w.Frees act m x) :
    m.Cares := by
  cases frees with
  | pointer => exact cares
  | erased => exact cares
  | owner => exact cares.endValues _ _
  | row isOpen got =>
      exact ((sound.memory.cares_allocateArray cares got).store _ _ _).endValues _ _

theorem Sound.cares_frees (sound : w.Sound) (cares : w.memory.Cares) (frees : w.Frees act m x) :
    (w.step act).memory.Cares := by
  obtain ⟨out, memory⟩ := sound.frees frees
  rw [sound.step_frees frees]
  exact memory.cares_free (sound.cares_of_frees cares frees)

theorem Sound.cares_makeRow (sound : w.Sound) (cares : w.memory.Cares) (heap : Nat)
    (element : Element) (node len : Nat) (init : Nat → Option Nat) :
    (w.step (.makeRow heap element node len init)).memory.Cares := by
  rcases got : w.memory.allocateArray heap element.layout len node with ⟨cause | b, m⟩
  · simp only [Tenancy.step, Memory.makeRow, got]
    exact cares_call cares (sound.memory.cares_allocateArray cares got)
  rcases filled : yields init 0 len with ⟨values, _ | _⟩
  · by_cases isClosed : heap ∈ w.closed
    · simp only [Tenancy.step, Tenancy.on, isClosed, if_true]
      exact cares
    · exact sound.cares_frees cares (.row isClosed got filled)
  · simp only [Tenancy.step, Memory.makeRow, got, filled, if_true]
    have after := sound.memory.cares_allocateArray cares got
    exact cares_call cares (after.store b.address element values)

theorem Sound.cares_step (sound : w.Sound) (cares : w.memory.Cares) (act : Act) :
    (w.step act).memory.Cares := by
  have memory := sound.memory
  cases act with
  | openHeap settings =>
      simp only [Tenancy.step]
      split
      · exact cares
      · exact cares.addHeap _
  | closeHeap heap =>
      refine cares_on cares fun _ => ?_
      unfold Tenancy.close
      split
      · exact cares
      · exact cares.closeHeap heap
  | allocate heap size node device => exact cares_call cares (memory.cares_allocate cares rfl)
  | allocateErased heap size node => exact cares_call cares (memory.cares_allocate cares rfl)
  | allocateArray heap layout count node =>
      exact cares_call cares (memory.cares_allocateArray cares rfl)
  | makeOwner heap element node value =>
      exact cares_call cares (memory.cares_makeOwner cares heap element node value)
  | makeRow heap element node len init => exact sound.cares_makeRow cares heap element node len init
  | registerUser heap address size device =>
      exact cares_call cares (cares.registerUser heap address size device)
  | setMessageLength lease len =>
      simp only [Tenancy.step, Tenancy.note]
      split <;> exact cares
  | free lease =>
      rcases w.free_cases lease with idle | ⟨m, x, frees, -⟩
      · rw [idle]
        exact cares
      · exact sound.cares_frees cares frees
  | write place bytes => exact cares.rebase fun _ custody => custody.write place bytes
  | arrange pool order => exact cares_on cares fun _ => memory.cares_arrange cares pool order
  | change conditions => exact cares.rebase fun _ custody => custody.under conditions

theorem Sound.cares_run (sound : w.Sound) (cares : w.memory.Cares) (acts : List Act) :
    (w.run acts).memory.Cares := by
  unfold Tenancy.run
  induction acts generalizing w with
  | nil => exact cares
  | cons act acts ih => exact ih (sound.step act) (sound.cares_step cares act)

end Tenancy

end RegisteredHeap
