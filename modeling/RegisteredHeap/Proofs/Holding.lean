import RegisteredHeap.Proofs.Inventory

/-! # Calls on a backing

A backing holds an inventory when its counters and lists are in order and what it has given out is
exactly that. Each call is stated by the inventory before and after, so that whoever makes several
calls in a row only adds up.
-/

namespace RegisteredHeap

/-- Regions registered and not dropped by the events of a journal, the last event first. -/
def openRegions : List Event → Multiset Region
  | [] => 0
  | .registered r :: earlier => r ::ₘ openRegions earlier
  | .deregistered r :: earlier => (openRegions earlier).erase r
  | _ :: earlier => openRegions earlier

namespace Backing

def mirrors (b : Backing) : Multiset (Nat × Nat) := (b.device.map Device.extents).getD 0

def regions (b : Backing) : Multiset Region := openRegions b.journal

def inventory (b : Backing) : Inventory := (b.numa.extents, b.mirrors, b.regions)

/-- Numbers and keys are given once, and the registrar counts its open regions. -/
structure Orderly (b : Backing) : Prop where
  numa : b.numa.Orderly
  device : ∀ d ∈ b.device, d.Orderly
  keys : (b.regions.map Region.key).Nodup
  known : ∀ r ∈ b.regions, r.key ≤ b.registrar.registered
  /-- Keys are counted apart from registrations, and alike. -/
  lastKey : b.registrar.lastKey = b.registrar.registered
  balance : b.registrar.registered = b.registrar.deregistered + b.regions.card

/-- Nothing was ever asked of the backing. -/
structure Unused (b : Backing) : Prop where
  lastKey : b.registrar.lastKey = 0
  registered : b.registrar.registered = 0
  deregistered : b.registrar.deregistered = 0
  extents : b.numa.live = []
  buffers : ∀ d ∈ b.device, d.buffers = [] ∧ d.liveBytes = 0
  journal : b.journal = []

/-- Exactly `i` is given out. -/
structure Holds (b : Backing) (i : Inventory) : Prop where
  orderly : b.Orderly
  inventory : b.inventory = i

variable {b b' : Backing} {i : Inventory}

theorem Unused.holds (unused : b.Unused) : b.Holds 0 where
  orderly := {
    numa := by constructor <;> simp [unused.extents]
    device := by
      intro d member
      obtain ⟨none, zero⟩ := unused.buffers d member
      constructor <;> simp [none, zero]
    keys := by simp [regions, unused.journal, openRegions]
    known := by simp [regions, unused.journal, openRegions]
    lastKey := unused.lastKey.trans unused.registered.symm
    balance := by
      simp [regions, unused.journal, openRegions, unused.registered, unused.deregistered] }
  inventory := by
    have mirrors : b.mirrors = 0 := by
      cases there : b.device with
      | none => simp [Backing.mirrors, there]
      | some d =>
          obtain ⟨none, -⟩ := unused.buffers d there
          simp [Backing.mirrors, there, Device.extents, none]
    simp only [Backing.inventory, mirrors]
    simp [Numa.extents, unused.extents, regions, unused.journal, openRegions]

/-- Two backings that agree on what the inventory is read from hold the same. -/
theorem Holds.congr (holds : b.Holds i) (numa : b'.numa.live = b.numa.live)
    (issued : b'.numa.issued = b.numa.issued) (device : ∀ d ∈ b'.device, d.Orderly)
    (mirrors : b'.mirrors = b.mirrors)
    (lastKey : b'.registrar.lastKey = b.registrar.lastKey)
    (registered : b'.registrar.registered = b.registrar.registered)
    (deregistered : b'.registrar.deregistered = b.registrar.deregistered)
    (regions : b'.regions = b.regions) : b'.Holds i where
  orderly := {
    numa := by
      constructor
      · simpa only [numa] using holds.orderly.numa.distinct
      · simpa only [numa, issued] using holds.orderly.numa.fresh
    device := device
    keys := by simpa only [regions] using holds.orderly.keys
    known := by simpa only [regions, registered] using holds.orderly.known
    lastKey := lastKey.trans (holds.orderly.lastKey.trans registered.symm)
    balance := by simpa only [regions, registered, deregistered] using holds.orderly.balance }
  inventory := by
    rw [← holds.inventory]
    simp only [Backing.inventory, Numa.extents, numa, mirrors, regions]

theorem Holds.obtain (holds : b.Holds i) {size node : Nat} {e : Extent}
    (got : b.obtain size node = (.ok e, b')) : b'.Holds (.ofExtent e + i) := by
  unfold Backing.obtain at got
  rcases b.numa.allocate_cases size node with ⟨cause, failed⟩ | ⟨bytes, place, contents, done⟩
  · simp [failed] at got
  · simp only [done, Prod.mk.injEq, Except.ok.injEq] at got
    obtain ⟨rfl, rfl⟩ := got
    refine ⟨⟨holds.orderly.numa.issue .., holds.orderly.device, holds.orderly.keys,
      holds.orderly.known, holds.orderly.lastKey, holds.orderly.balance⟩, ?_⟩
    rw [← holds.inventory]
    simp only [Backing.inventory, Inventory.ofExtent, Prod.mk_add_mk, zero_add,
      Multiset.singleton_add]
    rfl

theorem Holds.obtain_failed (holds : b.Holds i) {size node : Nat} {cause : HeapError}
    (got : b.obtain size node = (.error cause, b')) : b'.Holds i := by
  unfold Backing.obtain at got
  rcases b.numa.allocate_cases size node with ⟨cause, failed⟩ | ⟨bytes, place, contents, done⟩
  · simp only [failed, Prod.mk.injEq] at got
    exact got.2 ▸ holds
  · simp [done] at got

theorem Holds.release {e : Extent} (holds : b.Holds (.ofExtent e + i)) :
    (b.release e).Holds i := by
  have parts := holds.inventory
  have used : e ∈ b.numa.extents := by
    have same := congrArg Prod.fst parts
    simp only [Backing.inventory, Inventory.ofExtent, Prod.fst_add] at same
    rw [same]
    exact Multiset.mem_add.mpr (.inl (Multiset.mem_singleton_self e))
  refine ⟨⟨holds.orderly.numa.free _, holds.orderly.device, holds.orderly.keys,
    holds.orderly.known, holds.orderly.lastKey, holds.orderly.balance⟩, ?_⟩
  apply add_left_cancel (a := Inventory.ofExtent e)
  rw [← parts]
  simp only [Backing.inventory, Inventory.ofExtent, Prod.mk_add_mk, zero_add,
    Multiset.singleton_add]
  rw [← Numa.extents_free holds.orderly.numa used]
  rfl

theorem register_cases (b : Backing) (base : Address) (len : Nat) (flags : Flags)
    (device : Option Nat) :
    (∃ e, b.register base len flags device =
        (.error e, { b with registrar.rejected := b.registrar.rejected + 1 })) ∨
      ∃ user onDevice, b.register base len flags device =
        (.ok ⟨b.registrar.lastKey + 1, base, len, flags, device⟩,
          { b with
            registrar.lastKey := b.registrar.lastKey + 1
            registrar.registered := b.registrar.registered + 1
            registrar.user := user
            registrar.device := onDevice
            journal :=
              .registered ⟨b.registrar.lastKey + 1, base, len, flags, device⟩ :: b.journal }) := by
  simp only [register, Registrar.register]
  cases b.registrar.refusal? len with
  | some reason => exact .inl ⟨_, rfl⟩
  | none => exact .inr ⟨_, _, rfl⟩

theorem register_region {base : Address} {len : Nat} {flags : Flags} {device : Option Nat}
    {r : Region} (got : b.register base len flags device = (.ok r, b')) :
    r.base = base ∧ r.len = len ∧ r.flags = flags ∧ r.device = device := by
  rcases b.register_cases base len flags device with ⟨e, failed⟩ | ⟨user, onDevice, done⟩
  · simp [failed] at got
  · simp only [done, Prod.mk.injEq, Except.ok.injEq] at got
    obtain ⟨rfl, -⟩ := got
    exact ⟨rfl, rfl, rfl, rfl⟩

theorem Holds.register (holds : b.Holds i) {base : Address} {len : Nat} {flags : Flags}
    {device : Option Nat} {r : Region}
    (got : b.register base len flags device = (.ok r, b')) : b'.Holds (.ofRegion r + i) := by
  rcases b.register_cases base len flags device with ⟨e, failed⟩ | ⟨user, onDevice, done⟩
  · simp [failed] at got
  · simp only [done, Prod.mk.injEq, Except.ok.injEq] at got
    obtain ⟨rfl, rfl⟩ := got
    have agree := holds.orderly.lastKey
    have unknown : ∀ r ∈ b.regions, r.key ≠ b.registrar.lastKey + 1 := by
      intro r member same
      have older := holds.orderly.known r member
      omega
    refine ⟨⟨holds.orderly.numa, holds.orderly.device, ?_, ?_, congrArg (· + 1) agree, ?_⟩, ?_⟩
    · simp only [regions, openRegions, Multiset.map_cons, Multiset.nodup_cons, Multiset.mem_map,
        not_exists, not_and]
      exact ⟨unknown, holds.orderly.keys⟩
    · intro r member
      simp only [regions, openRegions, Multiset.mem_cons] at member
      rcases member with rfl | member
      · exact Nat.succ_le_succ agree.le
      · exact Nat.le_succ_of_le (holds.orderly.known r member)
    · have balance := holds.orderly.balance
      simp only [regions, openRegions, Multiset.card_cons] at balance ⊢
      omega
    · rw [← holds.inventory]
      simp only [Backing.inventory, Inventory.ofRegion, Prod.mk_add_mk, zero_add,
        Multiset.singleton_add]
      rfl

theorem Holds.register_failed (holds : b.Holds i) {base : Address} {len : Nat} {flags : Flags}
    {device : Option Nat} {cause : HeapError}
    (got : b.register base len flags device = (.error cause, b')) : b'.Holds i := by
  rcases b.register_cases base len flags device with ⟨e, failed⟩ | ⟨user, onDevice, done⟩
  · simp only [failed, Prod.mk.injEq] at got
    rw [← got.2]
    exact holds.congr rfl rfl holds.orderly.device rfl rfl rfl rfl rfl
  · simp [done] at got

theorem Holds.deregister {r : Region} (holds : b.Holds (.ofRegion r + i)) :
    (b.deregister r).Holds i := by
  have parts := holds.inventory
  have member : r ∈ b.regions := by
    have same := congrArg (fun p => p.2.2) parts
    simp only [Backing.inventory, Inventory.ofRegion, Prod.snd_add] at same
    rw [same]
    exact Multiset.mem_add.mpr (.inl (Multiset.mem_singleton_self r))
  have back : r ::ₘ (b.deregister r).regions = b.regions := Multiset.cons_erase member
  refine ⟨⟨holds.orderly.numa, holds.orderly.device, ?_, ?_, holds.orderly.lastKey, ?_⟩, ?_⟩
  · have keys := holds.orderly.keys
    rw [← back, Multiset.map_cons, Multiset.nodup_cons] at keys
    exact keys.2
  · intro s inside
    apply holds.orderly.known
    rw [← back]
    exact Multiset.mem_cons_of_mem inside
  · have balance := holds.orderly.balance
    rw [← back, Multiset.card_cons] at balance
    simp only [Backing.deregister, Registrar.deregister, log] at balance ⊢
    omega
  · apply add_left_cancel (a := Inventory.ofRegion r)
    rw [← parts]
    simp only [Backing.inventory, Inventory.ofRegion, Prod.mk_add_mk, zero_add,
      Multiset.singleton_add]
    rw [← back]
    rfl

theorem Holds.obtainDevice (holds : b.Holds i) {size device : Nat} {e : DeviceExtent}
    (got : b.obtainDevice size device = (.ok e, b')) :
    b'.Holds (.ofMirror e + i) ∧ e.size = size ∧ e.device = device := by
  unfold Backing.obtainDevice at got
  cases there : b.device with
  | none => simp [there] at got
  | some d =>
      rcases d.allocate_cases size device with ⟨cause, selected, failed⟩ | done
      · simp [there, failed] at got
      · simp only [there, done, Prod.mk.injEq, Except.ok.injEq] at got
        obtain ⟨rfl, rfl⟩ := got
        refine ⟨⟨⟨holds.orderly.numa, ?_, holds.orderly.keys, holds.orderly.known,
          holds.orderly.lastKey, holds.orderly.balance⟩, ?_⟩, rfl, rfl⟩
        · intro d' same
          cases same
          exact (holds.orderly.device d there).holding size device
        · rw [← holds.inventory]
          simp only [Backing.inventory, Inventory.ofMirror, Prod.mk_add_mk, zero_add,
            Multiset.singleton_add, Backing.mirrors, there]
          rfl

theorem Holds.obtainDevice_failed (holds : b.Holds i) {size device : Nat} {cause : HeapError}
    (got : b.obtainDevice size device = (.error cause, b')) : b'.Holds i := by
  unfold Backing.obtainDevice at got
  cases there : b.device with
  | none =>
      simp only [there, Prod.mk.injEq] at got
      exact got.2 ▸ holds
  | some d =>
      rcases d.allocate_cases size device with ⟨cause, selected, failed⟩ | done
      · simp only [there, failed, Prod.mk.injEq] at got
        rw [← got.2]
        have orderly := holds.orderly.device d there
        refine holds.congr rfl rfl ?_ (by simp only [Backing.mirrors, there]; rfl) rfl rfl rfl
          rfl
        intro d' same
        cases same
        exact ⟨orderly.distinct, orderly.fresh, orderly.bytes⟩
      · simp [there, done] at got

theorem Holds.releaseDevice {e : DeviceExtent} (holds : b.Holds (.ofMirror e + i)) :
    (b.releaseDevice e).Holds i := by
  have parts := holds.inventory
  have same : b.mirrors = {(e.number, e.size)} + i.2.1 := by
    have second := congrArg (fun p => p.2.1) parts
    simpa only [Backing.inventory, Inventory.ofMirror, Prod.snd_add, Prod.fst_add] using second
  cases there : b.device with
  | none => simp [Backing.mirrors, there] at same
  | some d =>
      have orderly := holds.orderly.device d there
      have member : (e.number, e.size) ∈ d.extents := by
        simp only [Backing.mirrors, there, Option.map_some, Option.getD_some] at same
        rw [same]
        exact Multiset.mem_add.mpr (.inl (Multiset.mem_singleton_self _))
      refine ⟨⟨holds.orderly.numa, ?_, holds.orderly.keys, holds.orderly.known,
        holds.orderly.lastKey, holds.orderly.balance⟩, ?_⟩
      · intro d' same
        simp only [Backing.releaseDevice, log, there, Option.map_some, Option.mem_some] at same
        exact same ▸ orderly.free _
      · apply add_left_cancel (a := Inventory.ofMirror e)
        rw [← parts]
        simp only [Backing.inventory, Inventory.ofMirror, Prod.mk_add_mk, zero_add,
          Multiset.singleton_add, Backing.mirrors, Backing.releaseDevice, log, there,
          Option.map_some, Option.getD_some, Device.extents_free orderly member]
        rfl

theorem Holds.blockFreed (holds : b.Holds i) (a : Address) : (b.log (.blockFreed a)).Holds i :=
  holds.congr rfl rfl holds.orderly.device rfl rfl rfl rfl rfl

theorem Holds.valueDropped (holds : b.Holds i) (element : Element) (v : Nat) :
    (b.log (.valueDropped element v)).Holds i :=
  holds.congr rfl rfl holds.orderly.device rfl rfl rfl rfl rfl

theorem Holds.write (holds : b.Holds i) (a : Address) (bytes : Array UInt8) :
    (b.write a bytes).Holds i := by
  cases a with
  | user v => exact holds
  | host number start =>
      obtain ⟨numa, extents⟩ := holds.orderly.numa.write number start bytes
      refine ⟨⟨numa, holds.orderly.device, holds.orderly.keys, holds.orderly.known,
        holds.orderly.lastKey, holds.orderly.balance⟩, ?_⟩
      rw [← holds.inventory]
      simp only [Backing.inventory, Backing.write, extents]
      rfl
  | device number start =>
      refine ⟨⟨holds.orderly.numa, ?_, holds.orderly.keys, holds.orderly.known,
        holds.orderly.lastKey, holds.orderly.balance⟩, ?_⟩
      · intro d same
        obtain ⟨d', there, rfl⟩ := Option.mem_map.mp same
        exact ((holds.orderly.device d' there).write number start bytes).1
      · rw [← holds.inventory]
        have mirrors : (b.write (.device number start) bytes).mirrors = b.mirrors := by
          cases there : b.device with
          | none => simp only [Backing.mirrors, Backing.write, there, Option.map_none]
          | some d =>
              have extents := ((holds.orderly.device d there).write number start bytes).2
              simp only [Backing.mirrors, Backing.write, there, Option.map_some, extents]
        simp only [Backing.inventory, mirrors]
        rfl

end Backing

end RegisteredHeap
