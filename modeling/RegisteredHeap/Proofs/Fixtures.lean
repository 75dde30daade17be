import RegisteredHeap.Proofs.Reach

/-! # Fixtures

The nodes and devices of a backing stay what they are, its counters never count back, and its journal
only grows. A heap is made for the nodes and devices that are there, so at no time does it offer one
that is missing.
-/

namespace RegisteredHeap

/-- What a later backing has in common with an earlier one. -/
structure Backing.Lasts (b b' : Backing) : Prop where
  nodes : b'.numa.nodes = b.numa.nodes
  devices : b'.device.map Device.count = b.device.map Device.count
  registered : b.registrar.registered ≤ b'.registrar.registered
  pageSize : b'.numa.pageSize = b.numa.pageSize
  issued : b.numa.issued ≤ b'.numa.issued
  journal : b.journal <:+ b'.journal

namespace Backing.Lasts

variable {b b' b'' : Backing}

theorem refl (b : Backing) : b.Lasts b :=
  ⟨rfl, rfl, Nat.le_refl _, rfl, Nat.le_refl _, List.suffix_refl _⟩

theorem trans (first : b.Lasts b') (second : b'.Lasts b'') : b.Lasts b'' :=
  ⟨second.nodes.trans first.nodes, second.devices.trans first.devices,
    first.registered.trans second.registered, second.pageSize.trans first.pageSize,
    first.issued.trans second.issued, first.journal.trans second.journal⟩

theorem log (b : Backing) (e : Event) : b.Lasts (b.log e) :=
  ⟨rfl, rfl, Nat.le_refl _, rfl, Nat.le_refl _, List.suffix_cons _ _⟩

theorem obtain {size node : Nat} {r : Except HeapError Extent}
    (got : b.obtain size node = (r, b')) : b.Lasts b' := by
  rcases b.numa.allocate_cases size node with ⟨cause, failed⟩ | ⟨bytes, place, contents, done⟩
  · simp only [Backing.obtain, failed, Prod.mk.injEq] at got
    exact got.2 ▸ refl b
  · simp only [Backing.obtain, done, Prod.mk.injEq] at got
    exact got.2 ▸ ⟨rfl, rfl, Nat.le_refl _, rfl, Nat.le_succ _, List.suffix_cons _ _⟩

theorem release (b : Backing) (e : Extent) : b.Lasts (b.release e) :=
  ⟨rfl, rfl, Nat.le_refl _, rfl, Nat.le_refl _, List.suffix_cons _ _⟩

theorem register {base : Address} {len : Nat} {flags : Flags} {device : Option Nat}
    {r : Except HeapError Region} (got : b.register base len flags device = (r, b')) :
    b.Lasts b' := by
  rcases b.register_cases base len flags device with ⟨cause, failed⟩ | ⟨user, onDevice, done⟩
  · rw [failed, Prod.mk.injEq] at got
    exact got.2 ▸ ⟨rfl, rfl, Nat.le_refl _, rfl, Nat.le_refl _, List.suffix_refl _⟩
  · rw [done, Prod.mk.injEq] at got
    exact got.2 ▸ ⟨rfl, rfl, Nat.le_succ _, rfl, Nat.le_refl _, List.suffix_cons _ _⟩

theorem deregister (b : Backing) (r : Region) : b.Lasts (b.deregister r) :=
  ⟨rfl, rfl, Nat.le_refl _, rfl, Nat.le_refl _, List.suffix_cons _ _⟩

theorem obtainDevice {size device : Nat} {r : Except HeapError DeviceExtent}
    (got : b.obtainDevice size device = (r, b')) : b.Lasts b' := by
  unfold Backing.obtainDevice at got
  cases there : b.device with
  | none =>
      simp only [there, Prod.mk.injEq] at got
      exact got.2 ▸ refl b
  | some d =>
      rcases d.allocate_cases size device with ⟨cause, selected, failed⟩ | done
      · simp only [there, failed, Prod.mk.injEq] at got
        exact got.2 ▸ ⟨rfl, by rw [there]; rfl, Nat.le_refl _, rfl, Nat.le_refl _,
          List.suffix_refl _⟩
      · simp only [there, done, Prod.mk.injEq] at got
        exact got.2 ▸ ⟨rfl, by rw [there]; rfl, Nat.le_refl _, rfl, Nat.le_refl _,
          List.suffix_cons _ _⟩

theorem mapDevice {f : Device → Device} (same : ∀ d, (f d).count = d.count)
    (others : b.Lasts { b' with device := b.device }) (device : b'.device = b.device.map f) :
    b.Lasts b' := by
  refine ⟨others.nodes, ?_, others.registered, others.pageSize, others.issued, others.journal⟩
  rw [device, Option.map_map]
  exact congrArg (Option.map · b.device) (funext same)

theorem releaseDevice (b : Backing) (e : DeviceExtent) : b.Lasts (b.releaseDevice e) := by
  refine mapDevice (f := (Device.free · e.number)) ?_ (.log b (.deviceReleased e.number)) rfl
  intro d
  unfold Device.free
  split <;> rfl

theorem write (b : Backing) (a : Address) (bytes : Array UInt8) : b.Lasts (b.write a bytes) := by
  cases a with
  | host => exact ⟨rfl, rfl, Nat.le_refl _, rfl, Nat.le_refl _, List.suffix_refl _⟩
  | device number start =>
      exact mapDevice (f := (Device.write · number start bytes)) (fun _ => rfl) (.refl b) rfl
  | user => exact refl b

theorem under (b : Backing) (c : Conditions) : b.Lasts (b.under c) :=
  mapDevice (f := fun d =>
    { d with capacity := c.capacity, hostLimit := c.hostLimit, selected := c.selected })
    (fun _ => rfl) ⟨rfl, rfl, Nat.le_refl _, rfl, Nat.le_refl _, List.suffix_refl _⟩ rfl

end Backing.Lasts

/-- The collaborators were asked for something, or had something back, one call after the other. -/
inductive Backing.Dealings (b : Backing) : Backing → Prop where
  | none : b.Dealings b
  | obtain {b' b'' : Backing} {size node : Nat} {r : Except HeapError Extent}
      (before : b.Dealings b') (got : b'.obtain size node = (r, b'')) : b.Dealings b''
  | release {b' : Backing} (before : b.Dealings b') (e : Extent) : b.Dealings (b'.release e)
  | register {b' b'' : Backing} {base : Address} {len : Nat} {flags : Flags} {device : Option Nat}
      {r : Except HeapError Region} (before : b.Dealings b')
      (got : b'.register base len flags device = (r, b'')) : b.Dealings b''
  | deregister {b' : Backing} (before : b.Dealings b') (r : Region) : b.Dealings (b'.deregister r)
  | obtainDevice {b' b'' : Backing} {size device : Nat} {r : Except HeapError DeviceExtent}
      (before : b.Dealings b') (got : b'.obtainDevice size device = (r, b'')) : b.Dealings b''
  | releaseDevice {b' : Backing} (before : b.Dealings b') (e : DeviceExtent) :
    b.Dealings (b'.releaseDevice e)

namespace Backing.Dealings

variable {b b' b'' : Backing}

theorem trans (first : b.Dealings b') (second : b'.Dealings b'') : b.Dealings b'' := by
  induction second with
  | none => exact first
  | obtain _ got ih => exact ih.obtain got
  | release _ e ih => exact ih.release e
  | register _ got ih => exact ih.register got
  | deregister _ r ih => exact ih.deregister r
  | obtainDevice _ got ih => exact ih.obtainDevice got
  | releaseDevice _ e ih => exact ih.releaseDevice e

theorem lasts (dealings : b.Dealings b') : b.Lasts b' := by
  induction dealings with
  | none => exact .refl b
  | obtain _ got ih => exact ih.trans (.obtain got)
  | release _ e ih => exact ih.trans (.release _ e)
  | register _ got ih => exact ih.trans (.register got)
  | deregister _ r ih => exact ih.trans (.deregister _ r)
  | obtainDevice _ got ih => exact ih.trans (.obtainDevice got)
  | releaseDevice _ e ih => exact ih.trans (.releaseDevice _ e)

end Backing.Dealings

namespace Pool

open Backing (Dealings)

theorem dealings_obtainDeviceSide {p : Pool} {len : Nat} {b b' : Backing}
    {r : Except HeapError (Option DeviceSide)} (got : p.obtainDeviceSide len b = (r, b')) :
    b.Dealings b' := by
  cases copying got with
  | single => exact .none
  | refused _ first => exact .obtainDevice .none first
  | unregistered _ first second =>
      exact ((Dealings.none.obtainDevice first).register second).releaseDevice _
  | made _ first second => exact (Dealings.none.obtainDevice first).register second

theorem dealings_obtainSegment {p : Pool} {b b' : Backing} {r : Except HeapError Segment}
    (got : p.obtainSegment b = (r, b')) : b.Dealings b' := by
  cases attempt got with
  | refused first => exact .obtain .none first
  | misplaced first => exact (Dealings.none.obtain first).release _
  | short first => exact (Dealings.none.obtain first).release _
  | unregistered first second =>
      exact ((Dealings.none.obtain first).register second).release _
  | uncopied first second third =>
      have registered := (Dealings.none.obtain first).register second
      have copied := registered.trans (dealings_obtainDeviceSide third)
      exact (copied.deregister _).release _
  | made first _ _ second third =>
      exact ((Dealings.none.obtain first).register second).trans (dealings_obtainDeviceSide third)

theorem dealings_grow (p : Pool) (b : Backing) : b.Dealings (p.grow b).2.2 := by
  unfold grow
  rcases got : p.obtainSegment b with ⟨_ | s, b₁⟩
  · exact dealings_obtainSegment got
  · simp only
    split <;> exact dealings_obtainSegment got

theorem dealings_allocate (p : Pool) (b : Backing) : b.Dealings (p.allocate b).2.2 := by
  unfold allocate
  split
  · exact .none
  · simp only [allocateSlow]
    split
    · exact .none
    · exact dealings_grow _ b

theorem dealings_releaseSegment (s : Segment) (b : Backing) : b.Dealings (s.release b) := by
  unfold Segment.release
  have first := Dealings.none.deregister (b := b) s.region
  split
  · rename_i d _
    exact ((first.deregister d.region).releaseDevice d.extent).release s.extent
  · exact first.release s.extent

theorem dealings_giveBack (p : Pool) (extent : Nat) (block : Block) (b : Backing) :
    b.Dealings (p.giveBack extent block b).2 := by
  simp only [giveBack]
  split
  · exact .none
  split
  · exact dealings_releaseSegment _ b
  · exact .none

theorem dealings_releaseAll (p : Pool) (b : Backing) : b.Dealings (p.releaseAll b) := by
  unfold releaseAll
  induction p.segments generalizing b with
  | nil => exact .none
  | cons s segments ih => exact (dealings_releaseSegment s b).trans (ih (s.release b))

end Pool

/-- The heap is for the same nodes and devices. -/
structure Heap.Lasts (h h' : Heap) : Prop where
  nodes : h'.nodes = h.nodes
  devices : h'.devices = h.devices

namespace Heap

theorem lasts_classOf (h : Heap) (size : Nat) : h.Lasts (h.classOf size).2 := by
  simp only [classOf, hugeClass]
  split
  · split <;> exact ⟨rfl, rfl⟩
  split
  · split <;> exact ⟨rfl, rfl⟩
  split
  · exact ⟨rfl, rfl⟩
  · split <;> exact ⟨rfl, rfl⟩

theorem lasts_allocate (h : Heap) (size node : Nat) (device : Option Nat) (b : Backing) :
    h.Lasts (h.allocate size node device b).2.1 ∧
      b.Dealings (h.allocate size node device b).2.2 := by
  have wider := h.lasts_classOf size
  unfold allocate
  rcases routed : h.classOf size with ⟨_ | k, wide⟩
  · simp only [routed] at wider ⊢
    exact ⟨wider, .none⟩
  simp only [routed] at wider ⊢
  split
  · exact ⟨wider, .none⟩
  simp only [allocateFrom]
  split
  · exact ⟨wider, .none⟩
  · exact ⟨⟨wider.nodes, wider.devices⟩, Pool.dealings_allocate _ b⟩

theorem lasts_giveBack (h : Heap) (key : PoolKey) (extent : Nat) (block : Block) (b : Backing) :
    h.Lasts (h.giveBack key extent block b).1 ∧
      b.Dealings (h.giveBack key extent block b).2 := by
  unfold giveBack
  split
  · exact ⟨⟨rfl, rfl⟩, .none⟩
  · exact ⟨⟨rfl, rfl⟩, Pool.dealings_giveBack _ extent block b⟩

theorem lasts_close (h : Heap) (b : Backing) :
    h.Lasts (h.close b).1 ∧ b.Dealings (h.close b).2 := by
  refine ⟨⟨rfl, rfl⟩, ?_⟩
  simp only [close]
  induction h.pools generalizing b with
  | nil => exact .none
  | cons p pools ih => exact (p.dealings_releaseAll b).trans (ih (p.releaseAll b))

end Heap

/-- The backing lasts, and so do the heaps that are still there. -/
structure Memory.Lasts (m m' : Memory) : Prop where
  backing : m.backing.Lasts m'.backing
  heaps : ∀ h' ∈ m'.heaps, ∃ h ∈ m.heaps, h.Lasts h'

/-- The heaps are for the nodes and devices that there are. -/
def Memory.Furnished (m : Memory) : Prop :=
  ∀ h ∈ m.heaps, h.nodes = m.backing.numa.nodes.eraseDups ∧
    h.devices = m.backing.device.map Device.count

namespace Memory

variable {m m' m'' : Memory} {h h' : Heap} {b' : Backing} {i : Nat}

theorem Lasts.refl (m : Memory) : m.Lasts m :=
  ⟨.refl _, fun h member => ⟨h, member, rfl, rfl⟩⟩

theorem Lasts.trans (first : m.Lasts m') (second : m'.Lasts m'') : m.Lasts m'' := by
  refine ⟨first.backing.trans second.backing, ?_⟩
  intro h'' member
  obtain ⟨h', member', nodes', devices'⟩ := second.heaps h'' member
  obtain ⟨h, member, nodes, devices⟩ := first.heaps h' member'
  exact ⟨h, member, nodes'.trans nodes, devices'.trans devices⟩

theorem Lasts.rebase (lasts : m.backing.Lasts b') : m.Lasts { m with backing := b' } :=
  ⟨lasts, (Lasts.refl m).heaps⟩

theorem Lasts.set (there : m.heaps[i]? = some h) (heap : h.Lasts h')
    (backing : m.backing.Lasts b') : m.Lasts ⟨b', m.heaps.set i h'⟩ := by
  refine ⟨backing, ?_⟩
  intro g member
  rcases List.mem_or_eq_of_mem_set member with old | rfl
  · exact ⟨g, old, rfl, rfl⟩
  · exact ⟨h, List.mem_of_getElem? there, heap⟩

theorem Lasts.furnished (lasts : m.Lasts m') (furnished : m.Furnished) : m'.Furnished := by
  intro h' member
  obtain ⟨h, there, nodes, devices⟩ := lasts.heaps h' member
  obtain ⟨nodes', devices'⟩ := furnished h there
  rw [lasts.backing.nodes, lasts.backing.devices, nodes, devices]
  exact ⟨nodes', devices'⟩

theorem lasts_allocate (m : Memory) (heap size node : Nat) (device : Option Nat) :
    m.Lasts (m.allocate heap size node device).2 := by
  unfold allocate
  split
  · exact .refl m
  · rename_i h there
    obtain ⟨first, second⟩ := h.lasts_allocate size node device m.backing
    exact .set there first second.lasts

theorem lasts_allocateArray (m : Memory) (heap : Nat) (l : Layout) (count node : Nat) :
    m.Lasts (m.allocateArray heap l count node).2 := by
  unfold allocateArray
  split
  · exact .refl m
  split
  · exact .refl m
  · exact m.lasts_allocate heap _ node none

theorem lasts_endValues (m : Memory) (element : Element) (values : List Nat) :
    m.Lasts (m.endValues element values) :=
  endValues_induction (P := fun m' => m.Lasts m') element values (.refl m)
    fun _ _ lasts => lasts.trans (.rebase (.log _ _))

theorem lasts_store (m : Memory) (a : Address) (element : Element) (values : List Nat) :
    m.Lasts (m.store a element values) := .rebase (.write _ a _)

theorem lasts_free (m : Memory) (block : Block) : m.Lasts (m.free block) := by
  have logged : m.Lasts (m.log (.blockFreed block.address)) := .rebase (.log _ _)
  simp only [free]
  split
  · exact logged.trans (.rebase (.deregister _ _))
  split
  · exact logged
  · rename_i h there
    obtain ⟨first, second⟩ := h.lasts_giveBack _ _ block _
    exact logged.trans (.set there first second.lasts)

theorem lasts_freeErased (m : Memory) (e : ErasedBlock) : m.Lasts (m.freeErased e) := by
  unfold freeErased
  split
  · exact m.lasts_free _
  · exact .refl m

theorem lasts_makeOwner (m : Memory) (heap : Nat) (element : Element) (node value : Nat) :
    m.Lasts (m.makeOwner heap element node value).2 := by
  have lasts := m.lasts_allocateArray heap element.layout 1 node
  unfold makeOwner
  split
  · rename_i failed
    rw [failed] at lasts
    exact lasts.trans (lasts_endValues _ _ _)
  · rename_i done
    rw [done] at lasts
    exact lasts.trans (lasts_store _ _ _ _)

theorem lasts_makeRow (m : Memory) (heap : Nat) (element : Element) (node len : Nat)
    (init : Nat → Option Nat) : m.Lasts (m.makeRow heap element node len init).2 := by
  have lasts := m.lasts_allocateArray heap element.layout len node
  simp only [makeRow]
  split
  · rename_i failed
    rw [failed] at lasts
    exact lasts
  · rename_i block _ done
    rw [done] at lasts
    have stored := lasts.trans (lasts_store _ block.address element (yields init 0 len).1)
    split
    · exact stored
    · exact (stored.trans (lasts_endValues _ _ _)).trans (lasts_free _ block)

theorem lasts_registerUser (m : Memory) (heap address size : Nat) (device : Option Nat) :
    m.Lasts (m.registerUser heap address size device).2 := by
  rcases got : m.registerUser heap address size device with ⟨r, m'⟩
  rcases registerUser_cases got with ⟨_, -, rfl⟩ | ⟨_, _, -, rfl, asked⟩ | ⟨_, _, -, rfl, asked⟩
  · exact .refl m'
  · exact .rebase (.register asked)
  · exact .rebase (.register asked)

theorem lasts_closeHeap (m : Memory) (heap : Nat) : m.Lasts (m.closeHeap heap) := by
  unfold closeHeap
  split
  · exact .refl m
  · rename_i h there
    obtain ⟨first, second⟩ := h.lasts_close m.backing
    exact .set there first second.lasts

theorem lasts_arrange (m : Memory) (key : PoolKey) (order : List Nat) :
    m.Lasts (m.arrange key order) := by
  unfold arrange
  split
  · exact .refl m
  rename_i h there
  split
  · exact .refl m
  · exact .set there ⟨rfl, rfl⟩ (.refl _)

theorem lasts_giveBack (m : Memory) (g : Grip) : m.Lasts (g.giveBack m) := by
  cases g with
  | pointer b => exact m.lasts_free b
  | erased b => exact m.lasts_freeErased b.erase
  | owner o => exact (m.lasts_endValues o.element o.values).trans (lasts_free _ o.block)

theorem Furnished.addHeap (furnished : m.Furnished) (c : Config) : (m.addHeap c).Furnished := by
  intro h member
  rcases List.mem_append.mp member with old | new
  · exact furnished h old
  · rw [List.mem_singleton.mp new]
    exact ⟨rfl, rfl⟩

/-- A pool that a request reaches is for a device only if there are devices. -/
theorem Furnished.device_of_reaches {heap size node d : Nat} {device : Option Nat} {p : Pool}
    (furnished : m.Furnished) (reaches : m.Reaches heap size node device p)
    (wanted : p.key.device = some d) : m.backing.device.isSome := by
  obtain ⟨h, wide, there, reaches⟩ := reaches
  obtain ⟨k, routed, key⟩ := reaches.routed
  obtain ⟨same, -, offered⟩ := Heap.keyOf_ok key
  have lasts := h.lasts_classOf size
  rw [routed] at lasts
  have devices := (furnished h (List.mem_of_getElem? there)).2
  rw [same] at wanted
  simp only at wanted
  rw [wanted, lasts.devices, devices] at offered
  cases support : m.backing.device with
  | none => simp [support] at offered
  | some _ => rfl

end Memory

namespace Tenancy

variable {w : Tenancy} {heap : Nat} {m : Memory}

theorem lasts_on {next : Tenancy} (after : w.memory.Lasts next.memory) :
    w.memory.Lasts (w.on heap next).memory :=
  on_cases (P := fun v => w.memory.Lasts v.memory) (fun _ => .refl _) fun _ => after

theorem lasts_call {g : Option Grip} (after : w.memory.Lasts m) :
    w.memory.Lasts (w.on heap (w.keep heap m g)).memory := by
  apply lasts_on
  rw [memory_keep]
  exact after

/-- An act that opens no heap changes nothing that lasts. -/
theorem lasts_step {act : Act} (other : ∀ settings, act ≠ .openHeap settings) :
    w.memory.Lasts (w.step act).memory := by
  cases act with
  | openHeap settings => exact absurd rfl (other settings)
  | closeHeap heap =>
      refine lasts_on ?_
      unfold Tenancy.close
      split
      · exact .refl _
      · exact w.memory.lasts_closeHeap heap
  | allocate heap size node device =>
      exact lasts_call (w.memory.lasts_allocate heap size node device)
  | allocateErased heap size node => exact lasts_call (w.memory.lasts_allocate heap size node none)
  | allocateArray heap layout count node =>
      exact lasts_call (w.memory.lasts_allocateArray heap layout count node)
  | makeOwner heap element node value =>
      exact lasts_call (w.memory.lasts_makeOwner heap element node value)
  | makeRow heap element node len init =>
      exact lasts_call (w.memory.lasts_makeRow heap element node len init)
  | registerUser heap address size device =>
      exact lasts_call (w.memory.lasts_registerUser heap address size device)
  | setMessageLength lease len =>
      simp only [Tenancy.step, Tenancy.note]
      split <;> exact .refl _
  | free lease =>
      simp only [Tenancy.step, Tenancy.giveBack]
      split
      · exact .refl _
      · exact lasts_on (w.memory.lasts_giveBack _)
  | write place bytes => exact .rebase (.write _ place bytes)
  | arrange pool order => exact lasts_on (w.memory.lasts_arrange pool order)
  | change conditions => exact .rebase (.under _ conditions)

/-- Whatever is done, the backing lasts. -/
theorem backing_lasts_step (w : Tenancy) (act : Act) :
    w.memory.backing.Lasts (w.step act).memory.backing := by
  by_cases opens : ∃ settings, act = .openHeap settings
  · obtain ⟨settings, rfl⟩ := opens
    simp only [Tenancy.step]
    split <;> exact .refl _
  · exact (lasts_step fun settings same => opens ⟨settings, same⟩).backing

theorem backing_lasts_run (w : Tenancy) (acts : List Act) :
    w.memory.backing.Lasts (w.run acts).memory.backing := by
  unfold Tenancy.run
  induction acts generalizing w with
  | nil => exact .refl _
  | cons act acts ih => exact (w.backing_lasts_step act).trans (ih (w.step act))

theorem furnished_step (furnished : w.memory.Furnished) (act : Act) :
    (w.step act).memory.Furnished := by
  by_cases opens : ∃ settings, act = .openHeap settings
  · obtain ⟨settings, rfl⟩ := opens
    simp only [Tenancy.step]
    split
    · exact furnished
    · exact furnished.addHeap _
  · exact (lasts_step fun settings same => opens ⟨settings, same⟩).furnished furnished

/-- At no time does a heap offer a node or a device that is not there. -/
theorem furnished_run (b : Backing) (acts : List Act) :
    ((start b).run acts).memory.Furnished := by
  have run (w : Tenancy) (furnished : w.memory.Furnished) : (w.run acts).memory.Furnished := by
    induction acts generalizing w with
    | nil => exact furnished
    | cons act acts ih => exact ih (w.step act) (furnished_step furnished act)
  exact run (start b) nofun

end Tenancy

end RegisteredHeap
