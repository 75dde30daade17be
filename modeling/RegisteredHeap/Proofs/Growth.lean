import RegisteredHeap.Pool
import RegisteredHeap.Proofs.Slicing

/-! # Growth of a pool

A new segment takes up to four calls on the backing, each of which may fail. Whatever was obtained
before a failure is given back, so the inventory grows by a whole segment or not at all. `Attempt`
and `Copying` say how far the calls get; all else about growth is derived from their cases.
-/

namespace RegisteredHeap.Pool

variable {p : Pool} {b b' : Backing} {i : Inventory}

/-- How far the calls for a copy on the device get, and what they leave. -/
inductive Copying (p : Pool) (len : Nat) (b : Backing) :
    Except HeapError (Option DeviceSide) → Backing → Prop where
  | single (alone : p.key.device = none) : p.Copying len b (.ok none) b
  | refused {device : Nat} {cause : HeapError} {b₁ : Backing} (wanted : p.key.device = some device)
      (first : b.obtainDevice len device = (.error cause, b₁)) : p.Copying len b (.error cause) b₁
  | unregistered {device : Nat} {extent : DeviceExtent} {cause : HeapError} {b₁ b₂ : Backing}
      (wanted : p.key.device = some device)
      (first : b.obtainDevice len device = (.ok extent, b₁))
      (second : b₁.register (.device extent.number 0) len .none (some device) =
        (.error cause, b₂)) :
    p.Copying len b (.error cause) (b₂.releaseDevice extent)
  | made {device : Nat} {extent : DeviceExtent} {region : Region} {b₁ b₂ : Backing}
      (wanted : p.key.device = some device)
      (first : b.obtainDevice len device = (.ok extent, b₁))
      (second : b₁.register (.device extent.number 0) len .none (some device) =
        (.ok region, b₂)) :
    p.Copying len b (.ok (some ⟨extent, region⟩)) b₂

theorem copying {len : Nat} {r : Except HeapError (Option DeviceSide)}
    (got : p.obtainDeviceSide len b = (r, b')) : p.Copying len b r b' := by
  unfold obtainDeviceSide at got
  cases wanted : p.key.device with
  | none =>
      simp only [wanted, Prod.mk.injEq] at got
      obtain ⟨rfl, rfl⟩ := got
      exact .single wanted
  | some device =>
      simp only [wanted] at got
      rcases first : b.obtainDevice len device with ⟨cause | extent, b₁⟩
      · simp only [first, Prod.mk.injEq] at got
        obtain ⟨rfl, rfl⟩ := got
        exact .refused wanted first
      simp only [first] at got
      rcases second : b₁.register (.device extent.number 0) len .none (some device) with
        ⟨cause | region, b₂⟩
      · simp only [second, Prod.mk.injEq] at got
        obtain ⟨rfl, rfl⟩ := got
        exact .unregistered wanted first second
      · simp only [second, Prod.mk.injEq] at got
        obtain ⟨rfl, rfl⟩ := got
        exact .made wanted first second

theorem obtainDeviceSide_failed {len : Nat} {cause : HeapError} (holds : b.Holds i)
    (got : p.obtainDeviceSide len b = (.error cause, b')) : b'.Holds i := by
  cases copying got with
  | refused _ first => exact holds.obtainDevice_failed first
  | unregistered _ first second =>
      exact ((holds.obtainDevice first).1.register_failed second).releaseDevice

/-- The copy on the device fits the pool, and is all that was obtained. -/
theorem obtainDeviceSide_ok {len : Nat} {side : Option DeviceSide} (holds : b.Holds i)
    (got : p.obtainDeviceSide len b = (.ok side, b')) :
    b'.Holds ((side.map DeviceSide.inventory).getD 0 + i) ∧
      (p.key.device = none → side = none) ∧
      ∀ d, p.key.device = some d → ∃ there, side = some there ∧ there.Fits d len := by
  cases copying got with
  | single alone =>
      refine ⟨by simpa using holds, fun _ => rfl, ?_⟩
      intro d same
      rw [alone] at same
      cases same
  | @made device extent region _ _ wanted first second =>
      obtain ⟨held, size, place⟩ := holds.obtainDevice first
      refine ⟨?_, by simp [wanted], ?_⟩
      · have both := held.register second
        simp only [Option.map_some, Option.getD_some, DeviceSide.inventory]
        convert both using 1
        abel
      · intro d same
        rw [wanted] at same
        cases same
        obtain ⟨base, length, flags, where_⟩ := Backing.register_region second
        refine ⟨_, rfl, ⟨⟨region.key, ?_⟩, place, size⟩⟩
        cases region
        simp_all

/-- How far the calls for a new segment get, and what they leave. -/
inductive Attempt (p : Pool) (b : Backing) : Except HeapError Segment → Backing → Prop where
  | refused {cause : HeapError} {b₁ : Backing}
      (first : b.obtain p.segmentSize p.key.node = (.error cause, b₁)) :
    p.Attempt b (.error cause) b₁
  | misplaced {extent : Extent} {b₁ : Backing}
      (first : b.obtain p.segmentSize p.key.node = (.ok extent, b₁)) :
    p.Attempt b (.error (.wrongNode p.key.node extent.node)) (b₁.release extent)
  | short {extent : Extent} {b₁ : Backing}
      (first : b.obtain p.segmentSize p.key.node = (.ok extent, b₁)) :
    p.Attempt b (.error (.invalidSize p.key.blockSize)) (b₁.release extent)
  | unregistered {extent : Extent} {cause : HeapError} {b₁ b₂ : Backing}
      (first : b.obtain p.segmentSize p.key.node = (.ok extent, b₁))
      (second : b₁.register (.host extent.number 0) extent.size .none none = (.error cause, b₂)) :
    p.Attempt b (.error cause) (b₂.release extent)
  | uncopied {extent : Extent} {region : Region} {cause : HeapError} {b₁ b₂ b₃ : Backing}
      (first : b.obtain p.segmentSize p.key.node = (.ok extent, b₁))
      (second : b₁.register (.host extent.number 0) extent.size .none none = (.ok region, b₂))
      (third : p.obtainDeviceSide extent.size b₂ = (.error cause, b₃)) :
    p.Attempt b (.error cause) ((b₃.deregister region).release extent)
  | made {extent : Extent} {region : Region} {side : Option DeviceSide} {b₁ b₂ b₃ : Backing}
      (first : b.obtain p.segmentSize p.key.node = (.ok extent, b₁))
      (onNode : extent.node = p.key.node) (roomy : p.key.blockSize ≤ extent.size)
      (second : b₁.register (.host extent.number 0) extent.size .none none = (.ok region, b₂))
      (third : p.obtainDeviceSide extent.size b₂ = (.ok side, b₃)) :
    p.Attempt b (.ok (.ofExtent p.key extent region side)) b₃

theorem attempt {r : Except HeapError Segment} (got : p.obtainSegment b = (r, b')) :
    p.Attempt b r b' := by
  unfold obtainSegment at got
  rcases first : b.obtain p.segmentSize p.key.node with ⟨cause | extent, b₁⟩
  · simp only [first, Prod.mk.injEq] at got
    obtain ⟨rfl, rfl⟩ := got
    exact .refused first
  simp only [first, furnish] at got
  split at got
  · cases got
    exact .misplaced first
  rename_i onNode
  split at got
  · cases got
    exact .short first
  rename_i roomy
  rcases second : b₁.register (.host extent.number 0) extent.size .none none with
    ⟨cause | region, b₂⟩
  · simp only [second, Prod.mk.injEq] at got
    obtain ⟨rfl, rfl⟩ := got
    exact .unregistered first second
  simp only [second] at got
  rcases third : p.obtainDeviceSide extent.size b₂ with ⟨cause | side, b₃⟩
  · simp only [third, Prod.mk.injEq] at got
    obtain ⟨rfl, rfl⟩ := got
    exact .uncopied first second third
  · simp only [third, Prod.mk.injEq] at got
    obtain ⟨rfl, rfl⟩ := got
    exact .made first (not_not.mp onNode) (not_lt.mp roomy) second third

theorem obtainSegment_failed {cause : HeapError} (holds : b.Holds i)
    (got : p.obtainSegment b = (.error cause, b')) : b'.Holds i := by
  cases attempt got with
  | refused first => exact holds.obtain_failed first
  | misplaced first => exact (holds.obtain first).release
  | short first => exact (holds.obtain first).release
  | unregistered first second => exact ((holds.obtain first).register_failed second).release
  | uncopied first second third =>
      have registered := (holds.obtain first).register second
      exact (obtainDeviceSide_failed registered third).deregister.release

/-- The new segment is formed for the pool, and is all that was obtained. -/
theorem obtainSegment_ok {s : Segment} (holds : b.Holds i)
    (got : p.obtainSegment b = (.ok s, b')) :
    b'.Holds (s.inventory + i) ∧ s.Formed p.key ∧ s.deferred = [] ∧ s.numFreed = 0 := by
  cases attempt got with
  | @made extent region side _ _ _ first onNode roomy second third =>
      obtain ⟨all, single, copied⟩ :=
        obtainDeviceSide_ok ((holds.obtain first).register second) third
      refine ⟨?_, ?_, rfl, rfl⟩
      · simp only [Segment.inventory, Segment.ofExtent]
        convert all using 1
        abel
      · obtain ⟨base, length, flags, host⟩ := Backing.register_region second
        refine ⟨rfl, onNode, rfl, roomy, ⟨region.key, ?_⟩, single, copied⟩
        cases region
        simp_all [Segment.ofExtent]

end RegisteredHeap.Pool
