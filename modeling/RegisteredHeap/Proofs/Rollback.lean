import RegisteredHeap.Proofs.Fixtures
import RegisteredHeap.Proofs.Peak

/-! # Failed growth

A pool that asks for a segment in vain is as it was before, but for two of its counters. It had
nothing to collect, and what it obtained before the failure went back, so the backing holds what it
held, and no other pool was touched.
-/

namespace RegisteredHeap

/-- The backing after a failure has given out what it had before. -/
structure Backing.Restored (b b' : Backing) : Prop where
  extents : b'.numa.extents = b.numa.extents
  mirrors : b'.mirrors = b.mirrors
  bytes : b'.device.map Device.liveBytes = b.device.map Device.liveBytes
  regions : b'.regions = b.regions
  live : b'.registrar.live = b.registrar.live
  /-- What was registered in vain was dropped again. -/
  dropped : ∃ n, b'.registrar.registered = b.registrar.registered + n ∧
    b'.registrar.deregistered = b.registrar.deregistered + n

namespace Backing

variable {b b' : Backing} {i : Inventory} {d : Device}

theorem Holds.liveBytes (holds : b.Holds i) (there : b.device = some d) :
    d.liveBytes = (b.mirrors.map fun x => max x.2 1).sum := by
  rw [(holds.orderly.device d there).bytes, mirrors, there, Option.map_some, Option.getD_some,
    Device.extents, Multiset.map_coe, Multiset.sum_coe, List.map_map]
  rfl

theorem Holds.restored (before : b.Holds i) (after : b'.Holds i) (lasts : b.Lasts b') :
    b.Restored b' := by
  have same : b'.inventory = b.inventory := after.inventory.trans before.inventory.symm
  have extents : b'.numa.extents = b.numa.extents := congrArg Prod.fst same
  have mirrors : b'.mirrors = b.mirrors := congrArg (fun i => i.2.1) same
  have regions : b'.regions = b.regions := congrArg (fun i => i.2.2) same
  have more := lasts.registered
  have balance := before.orderly.balance
  have balance' := after.orderly.balance
  rw [regions] at balance'
  refine ⟨extents, mirrors, ?_, regions, ?_, b'.registrar.registered - b.registrar.registered, ?_⟩
  · have devices := lasts.devices
    cases there : b.device with
    | none =>
        rw [there, Option.map_none, Option.map_eq_none_iff] at devices
        rw [devices]
    | some d =>
        rw [there, Option.map_some, Option.map_eq_some_iff] at devices
        obtain ⟨d', there', -⟩ := devices
        rw [there', Option.map_some, Option.map_some, after.liveBytes there',
          before.liveBytes there, mirrors]
  · simp only [Registrar.live]
    omega
  · omega

theorem obtain_cause {size node : Nat} {cause : HeapError}
    (failed : b.obtain size node = (.error cause, b')) : ∃ e, cause = .numa e := by
  unfold obtain at failed
  split at failed
  · cases failed
    exact ⟨_, rfl⟩
  · cases failed

theorem register_cause {base : Address} {len : Nat} {flags : Flags} {device : Option Nat}
    {cause : HeapError} (failed : b.register base len flags device = (.error cause, b')) :
    ∃ e, cause = .registration e := by
  unfold register at failed
  split at failed
  · cases failed
    exact ⟨_, rfl⟩
  · cases failed

theorem obtainDevice_cause {size device : Nat} {cause : HeapError} (there : b.device.isSome)
    (failed : b.obtainDevice size device = (.error cause, b')) : ∃ e, cause = .device e := by
  unfold obtainDevice at failed
  split at failed
  · rename_i none
    rw [none] at there
    cases there
  split at failed
  · cases failed
    exact ⟨_, rfl⟩
  · cases failed

end Backing

/-- Why a pool gets no segment. -/
inductive PoolKey.Obstacle (key : PoolKey) : HeapError → Prop where
  | numa (cause : NumaError) : key.Obstacle (.numa cause)
  | wrongNode (actual : Nat) : key.Obstacle (.wrongNode key.node actual)
  /-- The extent is too short for a block. -/
  | short : key.Obstacle (.invalidSize key.blockSize)
  | registration (cause : RegistrationError) : key.Obstacle (.registration cause)
  | device (cause : DeviceError) : key.Obstacle (.device cause)

namespace Pool

variable {p p' : Pool} {b b' : Backing} {cause : HeapError} {out : Multiset Block}
  {rest : Inventory}

theorem obtainDeviceSide_cause {len : Nat}
    (there : ∀ d, p.key.device = some d → b.device.isSome)
    (failed : p.obtainDeviceSide len b = (.error cause, b')) : p.key.Obstacle cause := by
  cases copying failed with
  | refused wanted first =>
      obtain ⟨e, rfl⟩ := Backing.obtainDevice_cause (there _ wanted) first
      exact .device e
  | unregistered _ _ second =>
      obtain ⟨e, rfl⟩ := Backing.register_cause second
      exact .registration e

theorem obtainSegment_cause (there : ∀ d, p.key.device = some d → b.device.isSome)
    (failed : p.obtainSegment b = (.error cause, b')) : p.key.Obstacle cause := by
  cases attempt failed with
  | refused first =>
      obtain ⟨e, rfl⟩ := Backing.obtain_cause first
      exact .numa e
  | @misplaced extent => exact .wrongNode extent.node
  | short => exact .short
  | unregistered _ second =>
      obtain ⟨e, rfl⟩ := Backing.register_cause second
      exact .registration e
  | uncopied first second third =>
      refine obtainDeviceSide_cause ?_ third
      intro d wanted
      have devices := ((Backing.Lasts.obtain first).trans (.register second)).devices
      rw [← Option.isSome_map (f := Device.count), devices, Option.isSome_map]
      exact there d wanted

/-- The pool, with one more allocation counted that found nothing to collect. -/
def tried (p : Pool) : Pool :=
  { p with
    counters := { p.counters with
      slowPaths := p.counters.slowPaths + 1
      collections := p.counters.collections + 1 } }

/-- There is nothing to collect in a drained pool. -/
theorem Drained.swept_eq (drained : p.Drained) : p.swept = p.tried := by
  have blocks : (p.segments.map Segment.collect).flatMap Prod.fst = [] := by
    rw [List.flatMap_map, List.flatMap_eq_nil_iff]
    intro s there
    rw [Segment.collect, drained.waiting s there, List.reverse_nil]
  have segments : (p.segments.map Segment.collect).map Prod.snd = p.segments := by
    rw [List.map_map]
    conv_rhs => rw [← List.map_id p.segments]
    apply List.map_congr_left
    intro s there
    have none := drained.waiting s there
    cases s
    simp_all [Segment.collect]
  simp only [swept, collect, record, blocks, segments, List.append_nil, PoolCounters.record,
    List.length_nil, Nat.add_zero, tried]

theorem Kept.failed (kept : p.Kept b out rest) (got : p.allocate b = (.error cause, p', b')) :
    p.Drained ∧ p' = p.tried ∧ b.Restored b' ∧
      ((∀ d, p.key.device = some d → b.device.isSome) → p.key.Obstacle cause) := by
  have lasts := (p.dealings_allocate b).lasts
  rw [got] at lasts
  cases kept.allocation got with
  | failed empty collected refused holds =>
      have drained := drained_of_swept empty collected
      exact ⟨drained, drained.swept_eq, kept.holds.restored holds lasts,
        fun there => obtainSegment_cause there refused⟩

end Pool

namespace Tenancy

variable {w w' : Tenancy} {heap size node : Nat} {device : Option Nat} {p : Pool}
  {cause : HeapError} {m : Memory}

/-- From `w` to `w'` the pool `p` asked for a segment in vain, and nothing else happened. -/
structure RolledBack (w : Tenancy) (p : Pool) (w' : Tenancy) : Prop where
  /-- The pool was there, or was just made. -/
  known : p ∈ w.memory.pools ∨ p.blank = p
  pool : p.tried ∈ w'.memory.pools
  others : ∀ q ∈ w.memory.pools, q.key ≠ p.key → q ∈ w'.memory.pools
  /-- All other pools that there are now are as they were, or were just made. -/
  only : ∀ q ∈ w'.memory.pools, q.key ≠ p.key → q ∈ w.memory.pools ∨ q.blank = q
  keys : (w'.memory.pools.map Pool.key).Nodup
  leases : w'.leases = w.leases
  backing : w.memory.backing.Restored w'.memory.backing

theorem step_allocate_failed (isOpen : heap ∉ w.closed)
    (failed : w.memory.allocate heap size node device = (.error cause, m)) :
    w.step (.allocate heap size node device) = { w with memory := m } := by
  simp [Tenancy.step, failed, Tenancy.on, isOpen, Except.toOption, Tenancy.keep]

theorem Sound.rolledBack (sound : w.Sound) (isOpen : heap ∉ w.closed)
    (reaches : w.memory.Reaches heap size node device p)
    (failed : w.memory.allocate heap size node device = (.error cause, m)) :
    w.RolledBack p (w.step (.allocate heap size node device)) ∧
      ((∀ d, p.key.device = some d → w.memory.backing.device.isSome) → p.key.Obstacle cause) := by
  have formed := (sound.memory.allocate_failed isOpen failed).formed
  cases sound.memory.answers reaches with
  | @intro before after fresh p' r m' wide blank ledger _ went result pools =>
      rw [failed, Prod.mk.injEq] at result
      obtain ⟨rfl, rfl⟩ := result
      obtain ⟨drained, rfl, restored, obstacle⟩ := ledger.kept.failed went
      have apart := ledger.apart
      rw [step_allocate_failed isOpen failed]
      refine ⟨⟨?_, ?_, ?_, ?_, formed.keys, rfl, restored⟩, obstacle⟩
      · rcases List.mem_append.mp (wide.mem_iff.mp List.mem_append_cons_self) with new | old
        · exact .inr (blank p new)
        · exact .inl old
      · rw [pools]
        exact List.mem_append_cons_self
      · intro q listed other
        have known : q ∈ before ++ p :: after :=
          wide.mem_iff.mpr (List.mem_append_right _ listed)
        rcases Keyed.mem_split.mp known with rfl | elsewhere
        · exact absurd rfl other
        · rw [pools]
          exact Keyed.mem_split.mpr (.inr elsewhere)
      · intro q listed other
        rw [pools] at listed
        rcases Keyed.mem_split.mp listed with rfl | elsewhere
        · exact absurd rfl other
        have known : q ∈ before ++ p :: after := Keyed.mem_split.mpr (.inr elsewhere)
        rcases List.mem_append.mp (wide.mem_iff.mp known) with new | old
        · exact .inr (blank q new)
        · exact .inl old

/-- Whatever callers did before, a request that came to a pool and failed is rolled back. -/
theorem run_rolledBack {b : Backing} (unused : b.Unused) (acts : List Act)
    (isOpen : heap ∉ ((start b).run acts).closed)
    (reaches : ((start b).run acts).memory.Reaches heap size node device p)
    (failed : ((start b).run acts).memory.allocate heap size node device = (.error cause, m)) :
    ((start b).run acts).RolledBack p
      (((start b).run acts).step (.allocate heap size node device)) ∧ p.key.Obstacle cause := by
  obtain ⟨rolledBack, obstacle⟩ := (sound_run unused acts).rolledBack isOpen reaches failed
  have furnished := furnished_run b acts
  exact ⟨rolledBack, obstacle fun d wanted => furnished.device_of_reaches reaches wanted⟩

/-- From here on one range may be registered, and no second one. -/
def limiting : Act :=
  .change
    { limit := some 1, allowed := [0], localNode := 0, supply := .store 256 none 0,
      capacity := 256, hostLimit := 256, selected := 0 }

/-- The pool for blocks of 8 bytes with a copy on the device, as it is made. -/
def mirrored : Pool := { key := ⟨0, 8, 0, some 0⟩, segmentSize := 16, retention := ⟨false, 0⟩ }

/-- Extent, region and copy were there when the region on the device was refused. -/
theorem limited_rolledBack : shelf.Unused ∧ 0 ∉ ((start shelf).run [opening, limiting]).closed ∧
    ((start shelf).run [opening, limiting]).memory.Reaches 0 8 0 (some 0) mirrored ∧
    (((start shelf).run [opening, limiting]).memory.allocate 0 8 0 (some 0)).1 =
      .error (.registration ⟨"loopback", .device 0 0, 16, .limitReached 1⟩) ∧
    ((start shelf).run [opening, limiting]).RolledBack mirrored
      (((start shelf).run [opening, limiting]).step (.allocate 0 8 0 (some 0))) ∧
    mirrored.key.Obstacle (.registration ⟨"loopback", .device 0 0, 16, .limitReached 1⟩) :=
  have reaches : ((start shelf).run [opening, limiting]).memory.Reaches 0 8 0 (some 0) mirrored :=
    ⟨_, _, rfl, ⟨_, rfl, rfl⟩, rfl⟩
  ⟨unused_shelf, List.not_mem_nil, reaches, rfl,
    run_rolledBack unused_shelf _ List.not_mem_nil reaches (Prod.ext rfl rfl)⟩

end Tenancy

end RegisteredHeap
