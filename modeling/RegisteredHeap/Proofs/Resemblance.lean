import RegisteredHeap.Proofs.Calls

/-! # What does not depend on keys

Blocks, segments and pools carry the keys of their registrations, and the registrar counts. Without
a limit nothing else depends on either: calls on memories that differ in keys and counts alone give
the same addresses, sizes and errors, and leave memories that differ in no more.
-/

namespace RegisteredHeap

/-- Data with keys of registrations in them. -/
class Visible (α : Type) where
  /-- What can be told of the data without the keys. -/
  visible : α → α

open Visible

/-- The two differ in keys at most. -/
def Resembles {α : Type} [Visible α] (x y : α) : Prop := visible x = visible y

section Data

variable {α β : Type} [Visible α] [Visible β]

instance : Visible Bool := ⟨id⟩

instance : Visible Extent := ⟨id⟩

instance : Visible DeviceExtent := ⟨id⟩

instance : Visible SizeClass := ⟨id⟩

instance : Visible (Option α) := ⟨Option.map visible⟩

instance : Visible (List α) := ⟨List.map visible⟩

instance {ε : Type} : Visible (Except ε α) := ⟨Except.map visible⟩

instance : Visible (α × β) := ⟨fun x => (visible x.1, visible x.2)⟩

instance : Visible Region := ⟨fun r => { r with key := 0 }⟩

instance : Visible Handle := ⟨fun h => { h with localKey := 0 }⟩

instance : Visible Origin where
  visible
    | .segment pool extent => .segment pool extent
    | .user region => .user (visible region)

instance : Visible DeviceCopy := ⟨fun c => { c with handle := visible c.handle }⟩

instance : Visible Block where
  visible x :=
    { x with
      origin := visible x.origin
      handle := visible x.handle
      copy := visible x.copy }

instance : Visible DeviceSide := ⟨fun d => { d with region := visible d.region }⟩

instance : Visible Segment where
  visible s :=
    { s with
      region := visible s.region
      device := visible s.device
      deferred := visible s.deferred }

instance : Visible Pool where
  visible p := { p with free := visible p.free, segments := visible p.segments }

instance : Visible Heap := ⟨fun h => { h with pools := visible h.pools }⟩

/-- Below a limit it shows how often it was asked. -/
instance : Visible Registrar := ⟨fun r => if r.limit = none then {} else r⟩

instance : Visible Backing where
  visible b := { b with registrar := visible b.registrar, journal := [] }

instance : Visible Memory := ⟨fun m => ⟨visible m.backing, visible m.heaps⟩⟩

instance : Visible Owner := ⟨fun o => { o with block := visible o.block }⟩

end Data

namespace Resembles

variable {α β γ ε : Type} [Visible α] [Visible β] [Visible γ] {x y : α} {x' y' : β}

theorem refl (x : α) : Resembles x x := rfl

theorem symm (same : Resembles x y) : Resembles y x := Eq.symm same

theorem trans {z : α} (first : Resembles x y) (second : Resembles y z) : Resembles x z :=
  Eq.trans first second

/-- A function that reads no keys gives what it would without them. -/
theorem map {f : α → β} (same : Resembles x y)
    (blind : ∀ x, visible (f x) = f (visible x)) : Resembles (f x) (f y) := by
  unfold Resembles at same ⊢
  rw [blind, blind, same]

theorem map₂ {f : α → β → γ} (same : Resembles x y) (same' : Resembles x' y')
    (blind : ∀ x x', visible (f x x') = f (visible x) (visible x')) :
    Resembles (f x x') (f y y') := by
  unfold Resembles at same same' ⊢
  rw [blind, blind, same, same']

/-- What is told without keys is told the same. -/
theorem tells {δ : Type} {f : α → δ} (same : Resembles x y) (blind : ∀ x, f (visible x) = f x) :
    f x = f y := by
  rw [← blind x, ← blind y, same]

theorem pair (same : Resembles x y) (same' : Resembles x' y') : Resembles (x, x') (y, y') :=
  Prod.ext same same'

theorem fst {s t : α × β} (same : Resembles s t) : Resembles s.1 t.1 := congrArg Prod.fst same

theorem snd {s t : α × β} (same : Resembles s t) : Resembles s.2 t.2 := congrArg Prod.snd same

theorem ok (same : Resembles x y) :
    Resembles (.ok x : Except ε α) (.ok y) := congrArg Except.ok same

/-- There are both or none. -/
theorem option {s t : Option α} (same : Resembles s t) :
    s = none ∧ t = none ∨ ∃ a b, s = some a ∧ t = some b ∧ Resembles a b := by
  cases s with
  | none =>
      cases t with
      | none => exact .inl ⟨rfl, rfl⟩
      | some b => cases same
  | some a =>
      cases t with
      | none => cases same
      | some b => exact .inr ⟨a, b, rfl, rfl, Option.some.inj same⟩

/-- Both calls fail with the same cause, or both succeed. -/
theorem outcome {s t : Except ε α × β} (same : Resembles s t) :
    (∃ cause b c, s = (.error cause, b) ∧ t = (.error cause, c) ∧ Resembles b c) ∨
      ∃ x y b c, s = (.ok x, b) ∧ t = (.ok y, c) ∧ Resembles x y ∧ Resembles b c := by
  obtain ⟨r, b⟩ := s
  obtain ⟨r', c⟩ := t
  have result : visible r = visible r' := same.fst
  cases r with
  | error cause =>
      cases r' with
      | error cause' =>
          cases result
          exact .inl ⟨cause, b, c, rfl, rfl, same.snd⟩
      | ok y => cases result
  | ok x =>
      cases r' with
      | error cause' => cases result
      | ok y => exact .inr ⟨x, y, b, c, rfl, rfl, Except.ok.inj result, same.snd⟩

end Resembles

namespace Registrar

variable {r r' : Registrar}

/-- There is no limit, or the two are the same. -/
theorem resembles_cases (same : Resembles r r') : r.limit = none ∧ r'.limit = none ∨ r = r' := by
  have equal : (if r.limit = none then {} else r) = if r'.limit = none then {} else r' := same
  by_cases free : r.limit = none
  · by_cases free' : r'.limit = none
    · exact .inl ⟨free, free'⟩
    · rw [if_pos free, if_neg free'] at equal
      rw [← equal] at free'
      exact absurd rfl free'
  · by_cases free' : r'.limit = none
    · rw [if_neg free, if_pos free'] at equal
      rw [equal] at free
      exact absurd rfl free
    · rw [if_neg free, if_neg free'] at equal
      exact .inr equal

theorem resembles_of_unlimited (free : r.limit = none) (free' : r'.limit = none) :
    Resembles r r' := by
  change (if r.limit = none then {} else r) = if r'.limit = none then {} else r'
  rw [if_pos free, if_pos free']

theorem resembles_register (same : Resembles r r') (base : Address) (len : Nat) (flags : Flags)
    (device : Option Nat) :
    Resembles (r.register base len flags device) (r'.register base len flags device) := by
  rcases resembles_cases same with ⟨free, free'⟩ | rfl
  · have refusal : r.refusal? len = r'.refusal? len := by
      rw [refusal?, refusal?, free, free']
    unfold register
    rw [refusal]
    cases r'.refusal? len with
    | some reason => exact .pair rfl (resembles_of_unlimited free free')
    | none => exact .pair rfl (resembles_of_unlimited free free')
  · rfl

theorem resembles_deregister (same : Resembles r r') : Resembles r.deregister r'.deregister := by
  rcases resembles_cases same with ⟨free, free'⟩ | rfl
  · exact resembles_of_unlimited free free'
  · rfl

end Registrar

namespace Backing

variable {b c : Backing}

theorem resembles_iff : Resembles b c ↔
    b.numa = c.numa ∧ b.device = c.device ∧ Resembles b.registrar c.registrar := by
  obtain ⟨registrar, numa, device, journal⟩ := b
  obtain ⟨registrar', numa', device', journal'⟩ := c
  constructor
  · intro same
    have whole := Backing.mk.inj same
    exact ⟨whole.2.1, whole.2.2.1, whole.1⟩
  · rintro ⟨rfl, rfl, same⟩
    exact congrArg (Backing.mk · numa device []) same

theorem resembles_obtain (same : Resembles b c) (size node : Nat) :
    Resembles (b.obtain size node) (c.obtain size node) := by
  obtain ⟨numa, device, registrar⟩ := resembles_iff.mp same
  unfold obtain
  rw [numa]
  split
  · exact .pair rfl (resembles_iff.mpr ⟨rfl, device, registrar⟩)
  · exact .pair rfl (resembles_iff.mpr ⟨rfl, device, registrar⟩)

theorem resembles_release (same : Resembles b c) (e : Extent) :
    Resembles (b.release e) (c.release e) := by
  obtain ⟨numa, device, registrar⟩ := resembles_iff.mp same
  exact resembles_iff.mpr ⟨congrArg (Numa.free · e.number) numa, device, registrar⟩

theorem resembles_register (same : Resembles b c) (base : Address) (len : Nat) (flags : Flags)
    (device : Option Nat) :
    Resembles (b.register base len flags device) (c.register base len flags device) := by
  obtain ⟨numa, devices, registrar⟩ := resembles_iff.mp same
  unfold register
  rcases (Registrar.resembles_register registrar base len flags device).outcome with
    ⟨cause, r, r', first, second, after⟩ | ⟨region, region', r, r', first, second, result, after⟩
  · rw [first, second]
    exact .pair rfl (resembles_iff.mpr ⟨numa, devices, after⟩)
  · rw [first, second]
    exact .pair (.ok result) (resembles_iff.mpr ⟨numa, devices, after⟩)

theorem resembles_deregister (same : Resembles b c) (r r' : Region) :
    Resembles (b.deregister r) (c.deregister r') := by
  obtain ⟨numa, device, registrar⟩ := resembles_iff.mp same
  exact resembles_iff.mpr ⟨numa, device, Registrar.resembles_deregister registrar⟩

theorem resembles_obtainDevice (same : Resembles b c) (size device : Nat) :
    Resembles (b.obtainDevice size device) (c.obtainDevice size device) := by
  obtain ⟨numa, devices, registrar⟩ := resembles_iff.mp same
  unfold obtainDevice
  rw [devices]
  split
  · exact .pair rfl same
  split
  · exact .pair rfl (resembles_iff.mpr ⟨numa, rfl, registrar⟩)
  · exact .pair rfl (resembles_iff.mpr ⟨numa, rfl, registrar⟩)

theorem resembles_releaseDevice (same : Resembles b c) (e : DeviceExtent) :
    Resembles (b.releaseDevice e) (c.releaseDevice e) := by
  obtain ⟨numa, device, registrar⟩ := resembles_iff.mp same
  exact resembles_iff.mpr
    ⟨numa, congrArg (Option.map (Device.free · e.number)) device, registrar⟩

theorem resembles_write (same : Resembles b c) (a : Address) (bytes : Array UInt8) :
    Resembles (b.write a bytes) (c.write a bytes) := by
  obtain ⟨numa, device, registrar⟩ := resembles_iff.mp same
  cases a with
  | host e o =>
      exact resembles_iff.mpr ⟨congrArg (Numa.write · e o bytes) numa, device, registrar⟩
  | device e o =>
      exact resembles_iff.mpr
        ⟨numa, congrArg (Option.map fun d => Device.write d e o bytes) device, registrar⟩
  | user a => exact same

end Backing

theorem Block.visible_inRegion (r : Region) (a : Address) (size : Nat) :
    visible (inRegion r a size) = inRegion (visible r) a size := by
  obtain ⟨key, base, len, flags, device⟩ := r
  cases device <;> rfl

namespace Segment

variable {s t : Segment} {b c : Backing} {x y : Block}

@[simp] theorem visible_blockAt (s : Segment) (offset : Nat) :
    visible (s.blockAt offset) = (visible s).blockAt offset := by
  obtain ⟨pool, extent, region, device, capacity, deferred, numFreed⟩ := s
  cases device <;> rfl

theorem visible_blockFrom (s : Segment) (a : Address) :
    visible (s.blockFrom a) = (visible s).blockFrom a :=
  congrArg (fun x : Block => { x with address := a }) (s.visible_blockAt a.offset)

theorem visible_blocks (s : Segment) : visible s.blocks = (visible s).blocks := by
  change (s.blocks).map visible = _
  simp only [blocks, List.map_map, Function.comp_def, visible_blockAt]
  rfl

theorem visible_free (s : Segment) (x : Block) :
    visible (s.free x) = (visible s).free (visible x) := by
  unfold free
  change visible (if max s.capacity 1 ≤ s.deferred.length then (false, s) else _) =
    if max s.capacity 1 ≤ (s.deferred.map visible).length then _ else _
  rw [List.length_map]
  split <;> rfl

theorem visible_collect (s : Segment) : visible s.collect = (visible s).collect := by
  refine Prod.ext (List.map_reverse ..) ?_
  change Segment.mk _ _ _ _ _ _ _ = Segment.mk _ _ _ _ _ _ (_ - (s.deferred.map visible).length)
  rw [List.length_map]
  rfl

/-- A segment goes in the same way whatever its keys. -/
theorem resembles_release (same : Resembles s t) (alike : Resembles b c) :
    Resembles (s.release b) (t.release c) := by
  have extent : s.extent = t.extent := same.tells fun _ => rfl
  have device : Resembles s.device t.device := same.map fun _ => rfl
  have first := Backing.resembles_deregister alike s.region t.region
  unfold release
  rcases device.option with ⟨none, none'⟩ | ⟨d, d', some, some', side⟩
  · rw [none, none', extent]
    exact Backing.resembles_release first _
  · have copy : d.extent = d'.extent := side.tells fun _ => rfl
    rw [some, some', extent]
    simp only [copy]
    exact Backing.resembles_release (Backing.resembles_releaseDevice
      (Backing.resembles_deregister first d.region d'.region) _) _

end Segment

namespace Pool

variable {p q : Pool} {b c : Backing} {x y : Block} {s t : Segment}

theorem visible_collect (p : Pool) : visible p.collect = (visible p).collect := by
  have parts : (p.segments.map visible).map Segment.collect =
      (p.segments.map Segment.collect).map visible := by
    rw [List.map_map, List.map_map]
    exact List.map_congr_left fun s _ => (Segment.visible_collect s).symm
  have blocks : ((p.segments.map Segment.collect).map visible).flatMap Prod.fst =
      ((p.segments.map Segment.collect).flatMap Prod.fst).map visible := by
    rw [List.flatMap_map, List.map_flatMap]
    rfl
  have rest : ((p.segments.map Segment.collect).map visible).map Prod.snd =
      ((p.segments.map Segment.collect).map Prod.snd).map visible := by
    simp only [List.map_map]
    rfl
  change _ = Pool.record { visible p with
    free := p.free.map visible ++ ((p.segments.map visible).map Segment.collect).flatMap Prod.fst
    segments := ((p.segments.map visible).map Segment.collect).map Prod.snd }
    (.collection (((p.segments.map visible).map Segment.collect).flatMap Prod.fst).length)
  rw [parts, blocks, rest, List.length_map, ← List.map_append]
  rfl

theorem visible_addSegment (p : Pool) (s : Segment) :
    visible (p.addSegment s) = (visible p).addSegment (visible s) := by
  change Pool.record { visible p with
    free := (p.free ++ s.blocks).map visible
    segments := (p.segments ++ [s]).map visible } .segmentCreated = _
  rw [List.map_append, List.map_append, show s.blocks.map visible = _ from s.visible_blocks]
  rfl

theorem visible_segment? (p : Pool) (n : Nat) :
    visible (p.segment? n) = (visible p).segment? n := by
  change (p.segments.find? _).map visible = (p.segments.map visible).find? _
  rw [List.find?_map]
  rfl

theorem visible_setSegment (p : Pool) (s : Segment) :
    visible (p.setSegment s) = (visible p).setSegment (visible s) := by
  have segments : (p.segments.map fun t => if t.extent.number = s.extent.number then s else t).map
      visible = (p.segments.map visible).map fun t =>
        if t.extent.number = (visible s).extent.number then visible s else t := by
    rw [List.map_map, List.map_map]
    apply List.map_congr_left
    intro t _
    simp only [Function.comp_apply, apply_ite visible]
    rfl
  exact congrArg (fun segments => ({ visible p with segments } : Pool)) segments

theorem visible_removeSegment (p : Pool) (s : Segment) :
    visible (p.removeSegment s) = (visible p).removeSegment (visible s) := by
  have segments : (p.segments.filter (·.extent.number != s.extent.number)).map visible =
      (p.segments.map visible).filter (·.extent.number != (visible s).extent.number) := by
    rw [List.filter_map]
    rfl
  exact congrArg (fun segments => ({ visible p with segments } : Pool).record .segmentReleased)
    segments

theorem visible_arrange (p : Pool) (order : List Nat) :
    visible (p.arrange order) = (visible p).arrange order :=
  congrArg (fun segments => ({ visible p with segments } : Pool))
    (List.map_mergeSort fun _ _ _ _ => rfl)

theorem letsGo_visible (p : Pool) : (visible p).letsGo = p.letsGo := by
  change (_ && decide (_ < (p.segments.map visible).length)) = _
  rw [List.length_map]
  rfl

theorem stats_visible (p : Pool) : (visible p).stats = p.stats := by
  change p.counters.snapshot (p.segments.map visible).length = _
  rw [List.length_map]
  rfl

theorem resembles_obtainDeviceSide (key : p.key = q.key) (alike : Resembles b c) (len : Nat) :
    Resembles (p.obtainDeviceSide len b) (q.obtainDeviceSide len c) := by
  unfold obtainDeviceSide
  rw [key]
  cases q.key.device with
  | none => exact .pair rfl alike
  | some device =>
      simp only
      rcases (Backing.resembles_obtainDevice alike len device).outcome with
        ⟨cause, b, c, first, second, alike⟩ | ⟨extent, extent', b, c, first, second, same, alike⟩
      · rw [first, second]
        exact .pair rfl alike
      rw [first, second]
      cases (show extent = extent' from same)
      simp only
      rcases (Backing.resembles_register alike (.device extent.number 0) len .none
          (some device)).outcome with
        ⟨cause, b, c, first, second, alike⟩ | ⟨r, r', b, c, first, second, same, alike⟩
      · rw [first, second]
        exact .pair rfl (Backing.resembles_releaseDevice alike extent)
      · rw [first, second]
        exact .pair (.ok (congrArg (fun r => some (DeviceSide.mk extent r)) same)) alike

theorem resembles_furnish (same : Resembles p q) (alike : Resembles b c) (extent : Extent) :
    Resembles (p.furnish extent b) (q.furnish extent c) := by
  have key : p.key = q.key := same.tells fun _ => rfl
  unfold furnish
  rw [key]
  split
  · exact .pair rfl (Backing.resembles_release alike extent)
  split
  · exact .pair rfl (Backing.resembles_release alike extent)
  rcases (Backing.resembles_register alike (.host extent.number 0) extent.size .none none).outcome
    with ⟨cause, b, c, first, second, alike⟩ | ⟨r, r', b, c, first, second, region, alike⟩
  · rw [first, second]
    exact .pair rfl (Backing.resembles_release alike extent)
  rw [first, second]
  simp only
  rcases (resembles_obtainDeviceSide key alike extent.size).outcome with
    ⟨cause, b, c, first, second, alike⟩ | ⟨d, d', b, c, first, second, device, alike⟩
  · rw [first, second]
    exact .pair rfl (Backing.resembles_release (Backing.resembles_deregister alike r r') extent)
  · rw [first, second]
    exact .pair (.ok (region.map₂ device fun _ _ => rfl)) alike

theorem resembles_obtainSegment (same : Resembles p q) (alike : Resembles b c) :
    Resembles (p.obtainSegment b) (q.obtainSegment c) := by
  have key : p.key = q.key := same.tells fun _ => rfl
  have size : p.segmentSize = q.segmentSize := same.tells fun _ => rfl
  unfold obtainSegment
  rw [key, size]
  rcases (Backing.resembles_obtain alike q.segmentSize q.key.node).outcome with
    ⟨cause, b, c, first, second, alike⟩ | ⟨extent, extent', b, c, first, second, same', alike⟩
  · rw [first, second]
    exact .pair rfl alike
  · rw [first, second]
    cases (show extent = extent' from same')
    exact resembles_furnish same alike extent

/-- The first block of the free list, with the rest in its place. -/
theorem resembles_pop (same : Resembles p q) : p.free = [] ∧ q.free = [] ∨
    ∃ x ready y ready', p.free = x :: ready ∧ q.free = y :: ready' ∧ Resembles x y ∧
      Resembles { p with free := ready } { q with free := ready' } := by
  have lists : p.free.map visible = q.free.map visible := congrArg Pool.free same
  cases there : p.free with
  | nil =>
      cases there' : q.free with
      | nil => exact .inl ⟨rfl, rfl⟩
      | cons y ready' => rw [there, there'] at lists; cases lists
  | cons x ready =>
      cases there' : q.free with
      | nil => rw [there, there'] at lists; cases lists
      | cons y ready' =>
          rw [there, there', List.map_cons, List.map_cons] at lists
          obtain ⟨first, rest⟩ := List.cons.inj lists
          refine .inr ⟨x, ready, y, ready', rfl, rfl, first, ?_⟩
          have others : ({ visible p with free := [] } : Pool) = { visible q with free := [] } :=
            congrArg (fun p : Pool => { p with free := [] }) same
          exact congrArg₂ (fun (p : Pool) free => { p with free }) others rest

theorem resembles_grow (same : Resembles p q) (alike : Resembles b c) :
    Resembles (p.grow b) (q.grow c) := by
  unfold grow
  rcases (resembles_obtainSegment same alike).outcome with
    ⟨cause, b, c, first, second, alike⟩ | ⟨s, t, b, c, first, second, new, alike⟩
  · rw [first, second]
    exact .pair rfl (.pair same alike)
  have key : p.key = q.key := same.tells fun _ => rfl
  have grown : Resembles (p.addSegment s) (q.addSegment t) := same.map₂ new visible_addSegment
  rw [first, second]
  simp only
  rcases resembles_pop grown with ⟨none, none'⟩ | ⟨x, ready, y, ready', some, some', head, rest⟩
  · rw [none, none']
    simp only
    rw [show (p.addSegment s).key = (q.addSegment t).key from key]
    exact .pair rfl (.pair grown alike)
  · rw [some, some']
    exact .pair (.ok head) (.pair rest alike)

theorem resembles_allocate (same : Resembles p q) (alike : Resembles b c) :
    Resembles (p.allocate b) (q.allocate c) := by
  have swept : Resembles (p.record .slowPath).collect (q.record .slowPath).collect :=
    (same.map (f := (record · .slowPath)) fun _ => rfl).map visible_collect
  unfold allocate
  rcases resembles_pop same with ⟨none, none'⟩ | ⟨x, ready, y, ready', some, some', head, rest⟩
  · rw [none, none']
    simp only [allocateSlow]
    rcases resembles_pop swept with ⟨none, none'⟩ | ⟨x, ready, y, ready', some, some', head, rest⟩
    · rw [none, none']
      exact resembles_grow swept alike
    · rw [some, some']
      exact .pair (.ok head) (.pair rest alike)
  · rw [some, some']
    exact .pair (.ok head) (.pair rest alike)

theorem resembles_giveBack (same : Resembles p q) (n : Nat) (block : Resembles x y)
    (alike : Resembles b c) : Resembles (p.giveBack n x b) (q.giveBack n y c) := by
  unfold giveBack
  rcases (same.map (f := (segment? · n)) (visible_segment? · n)).option with
    ⟨none, none'⟩ | ⟨s, t, some, some', found⟩
  · simp only [none, none']
    exact .pair same alike
  simp only [some, some']
  have freed : Resembles (s.free x) (t.free y) := found.map₂ block Segment.visible_free
  have emptied : (s.free x).1 = (t.free y).1 := freed.fst
  have put := same.map₂ freed.snd visible_setSegment
  have go : ((p.setSegment (s.free x).2).letsGo) = (q.setSegment (t.free y).2).letsGo :=
    put.tells letsGo_visible
  rw [emptied, go]
  split
  · exact .pair (put.map₂ freed.snd visible_removeSegment)
      (Segment.resembles_release freed.snd alike)
  · exact .pair put alike

theorem resembles_releaseAll (same : Resembles p q) (alike : Resembles b c) :
    Resembles (p.releaseAll b) (q.releaseAll c) := by
  have lists : p.segments.map visible = q.segments.map visible := congrArg Pool.segments same
  unfold releaseAll
  generalize p.segments = ss at lists
  generalize q.segments = ts at lists
  induction ss generalizing ts b c with
  | nil =>
      rw [List.map_nil, eq_comm, List.map_eq_nil_iff] at lists
      rw [lists]
      exact alike
  | cons s ss ih =>
      cases ts with
      | nil => cases lists
      | cons t ts =>
          obtain ⟨first, rest⟩ := List.cons.inj lists
          exact ih (Segment.resembles_release first alike) ts rest

end Pool

namespace Heap

variable {h g : Heap} {b c : Backing} {x y : Block} {p q : Pool}

theorem visible_setPool (h : Heap) (p : Pool) :
    visible (h.setPool p) = (visible h).setPool (visible p) := by
  have pools : (h.pools.map fun q => if q.key = p.key then p else q).map visible =
      (h.pools.map visible).map fun q => if q.key = (visible p).key then visible p else q := by
    rw [List.map_map, List.map_map]
    apply List.map_congr_left
    intro q _
    simp only [Function.comp_apply, apply_ite visible]
    rfl
  exact congrArg (fun pools => ({ visible h with pools } : Heap)) pools

theorem visible_pool? (h : Heap) (key : PoolKey) :
    visible (h.pool? key) = (visible h).pool? key := by
  change (h.pools.find? _).map visible = (h.pools.map visible).find? _
  rw [List.find?_map]
  rfl

theorem visible_of_blank {ps : List Pool} (blank : ∀ p ∈ ps, p.blank = p) :
    ps.map visible = ps :=
  Keyed.map_fixed fun p member => by rw [← blank p member]; rfl

theorem visible_hugeClass (h : Heap) (size : Nat) :
    visible (h.hugeClass size) = (visible h).hugeClass size := by
  unfold hugeClass
  cases Word.roundUp? size with
  | none => rfl
  | some n =>
      change visible (if _ ∈ h.huge then _ else _) = if _ ∈ h.huge then _ else _
      split
      · rfl
      · have pools : (h.pools ++ poolsOf h.index (retention h.config) h.nodes h.devices
            ⟨n, n⟩).map visible = h.pools.map visible ++
              poolsOf h.index (retention h.config) h.nodes h.devices ⟨n, n⟩ := by
          rw [List.map_append, visible_of_blank fun p => blank_of_mem_poolsOf]
        exact congrArg (fun pools => (Except.ok (SizeClass.mk n n),
          ({ visible h with huge := h.huge ++ [⟨n, n⟩], pools } : Heap))) pools

theorem visible_classOf (h : Heap) (size : Nat) :
    visible (h.classOf size) = (visible h).classOf size := by
  have config : (visible h).config = h.config := rfl
  have tiny : (visible h).tiny = h.tiny := rfl
  have exponential : (visible h).exponential = h.exponential := rfl
  simp only [classOf, config, tiny, exponential, ← visible_hugeClass]
  split
  · split <;> rfl
  split
  · split <;> rfl
  · rfl

theorem visible_segment? (h : Heap) (key : PoolKey) (n : Nat) :
    visible (h.segment? key n) = (visible h).segment? key n := by
  simp only [segment?, ← visible_pool?]
  cases h.pool? key with
  | none => rfl
  | some p => exact p.visible_segment? n

theorem resembles_allocateFrom (same : Resembles h g) (alike : Resembles b c) (key : PoolKey) :
    Resembles (h.allocateFrom key b) (g.allocateFrom key c) := by
  unfold allocateFrom
  rcases (same.map (f := (pool? · key)) (visible_pool? · key)).option with
    ⟨none, none'⟩ | ⟨p, q, some, some', found⟩
  · simp only [none, none']
    exact .pair rfl (.pair same alike)
  · simp only [some, some']
    have got := Pool.resembles_allocate found alike
    exact .pair got.fst (.pair (same.map₂ got.snd.fst visible_setPool) got.snd.snd)

theorem resembles_allocate (same : Resembles h g) (alike : Resembles b c) (size node : Nat)
    (device : Option Nat) :
    Resembles (h.allocate size node device b) (g.allocate size node device c) := by
  unfold allocate
  rcases (same.map (f := (classOf · size)) (visible_classOf · size)).outcome with
    ⟨cause, h, g, first, second, same⟩ | ⟨k, k', h, g, first, second, equal, same⟩
  · rw [first, second]
    exact .pair rfl (.pair same alike)
  rw [first, second]
  cases (show k = k' from equal)
  simp only
  rw [show h.keyOf k node device = g.keyOf k node device from
    same.tells (f := (keyOf · k node device)) fun _ => rfl]
  cases g.keyOf k node device with
  | error cause => exact .pair rfl (.pair same alike)
  | ok key => exact resembles_allocateFrom same alike key

theorem resembles_giveBack (same : Resembles h g) (key : PoolKey) (n : Nat) (block : Resembles x y)
    (alike : Resembles b c) : Resembles (h.giveBack key n x b) (g.giveBack key n y c) := by
  unfold giveBack
  rcases (same.map (f := (pool? · key)) (visible_pool? · key)).option with
    ⟨none, none'⟩ | ⟨p, q, some, some', found⟩
  · simp only [none, none']
    exact .pair same alike
  · simp only [some, some']
    have back := Pool.resembles_giveBack found n block alike
    exact .pair (same.map₂ back.fst visible_setPool) back.snd

theorem resembles_close (same : Resembles h g) (alike : Resembles b c) :
    Resembles (h.close b) (g.close c) := by
  have lists : h.pools.map visible = g.pools.map visible := congrArg Heap.pools same
  refine .pair (same.map (f := fun h => { h with pools := h.pools.map Pool.emptied }) ?_) ?_
  · intro h
    have pools : (h.pools.map Pool.emptied).map visible =
        (h.pools.map visible).map Pool.emptied := by
      rw [List.map_map, List.map_map]
      rfl
    exact congrArg (fun pools => ({ visible h with pools } : Heap)) pools
  · generalize h.pools = ps at lists
    generalize g.pools = qs at lists
    induction ps generalizing qs b c with
    | nil =>
        rw [List.map_nil, eq_comm, List.map_eq_nil_iff] at lists
        rw [lists]
        exact alike
    | cons p ps ih =>
        cases qs with
        | nil => cases lists
        | cons q qs =>
            obtain ⟨first, rest⟩ := List.cons.inj lists
            exact ih (Pool.resembles_releaseAll first alike) qs rest

theorem stats_visible (h : Heap) : (visible h).stats = h.stats := by
  change Stats.total ((h.pools.map visible).map Pool.stats) = _
  rw [List.map_map]
  exact congrArg Stats.total (List.map_congr_left fun p _ => p.stats_visible)

end Heap

namespace Memory

variable {m n : Memory} {x y : Block} {o o' : Owner} {heap : Nat}

theorem resembles_iff :
    Resembles m n ↔ Resembles m.backing n.backing ∧ Resembles m.heaps n.heaps := by
  obtain ⟨backing, heaps⟩ := m
  obtain ⟨backing', heaps'⟩ := n
  exact ⟨fun same => Memory.mk.inj same, fun same => congrArg₂ Memory.mk same.1 same.2⟩

theorem resembles_heap? (same : Resembles m n) (i : Nat) :
    Resembles m.heaps[i]? n.heaps[i]? := by
  have heaps : m.heaps.map visible = n.heaps.map visible := (resembles_iff.mp same).2
  change m.heaps[i]?.map visible = n.heaps[i]?.map visible
  rw [← List.getElem?_map, ← List.getElem?_map, heaps]

theorem resembles_set {h g : Heap} {b c : Backing} (same : Resembles m n) (i : Nat)
    (heap : Resembles h g) (alike : Resembles b c) :
    Resembles (⟨b, m.heaps.set i h⟩ : Memory) ⟨c, n.heaps.set i g⟩ := by
  have heaps : m.heaps.map visible = n.heaps.map visible := (resembles_iff.mp same).2
  refine resembles_iff.mpr ⟨alike, ?_⟩
  change (m.heaps.set i h).map visible = (n.heaps.set i g).map visible
  rw [List.map_set, List.map_set, heaps, show visible h = visible g from heap]

theorem resembles_rebase {b c : Backing} (same : Resembles m n) (alike : Resembles b c) :
    Resembles { m with backing := b } { n with backing := c } :=
  resembles_iff.mpr ⟨alike, (resembles_iff.mp same).2⟩

theorem resembles_allocate (same : Resembles m n) (heap size node : Nat) (device : Option Nat) :
    Resembles (m.allocate heap size node device) (n.allocate heap size node device) := by
  unfold allocate
  rcases (resembles_heap? same heap).option with ⟨none, none'⟩ | ⟨h, g, some, some', there⟩
  · simp only [none, none']
    exact .pair rfl same
  · simp only [some, some']
    have got := Heap.resembles_allocate there (resembles_iff.mp same).1 size node device
    exact .pair got.fst (resembles_set same heap got.snd.fst got.snd.snd)

theorem resembles_allocateArray (same : Resembles m n) (heap : Nat) (l : Layout)
    (count node : Nat) :
    Resembles (m.allocateArray heap l count node) (n.allocateArray heap l count node) := by
  have pages : m.backing.numa.pageSize = n.backing.numa.pageSize :=
    same.tells (f := fun m => m.backing.numa.pageSize) fun _ => rfl
  unfold allocateArray
  rw [pages]
  split
  · exact .pair rfl same
  split
  · exact .pair rfl same
  · exact resembles_allocate same heap _ node none

theorem resembles_endValues (m : Memory) (element : Element) (values : List Nat) :
    Resembles (m.endValues element values) m :=
  endValues_induction (P := (Resembles · m)) element values (.refl m) fun _ _ same => same

theorem resembles_store (same : Resembles m n) (a : Address) (element : Element)
    (values : List Nat) : Resembles (m.store a element values) (n.store a element values) :=
  resembles_rebase same (Backing.resembles_write (resembles_iff.mp same).1 a _)

theorem resembles_free (same : Resembles m n) (block : Resembles x y) :
    Resembles (m.free x) (n.free y) := by
  have alike := (resembles_iff.mp same).1
  have origin : Resembles x.origin y.origin := block.map fun _ => rfl
  unfold free
  cases from' : x.origin with
  | user r =>
      cases into : y.origin with
      | user r' => exact resembles_rebase same (Backing.resembles_deregister alike r r')
      | segment key extent => rw [from', into] at origin; cases origin
  | segment key extent =>
      cases into : y.origin with
      | user r' => rw [from', into] at origin; cases origin
      | segment key' extent' =>
          rw [from', into] at origin
          cases origin
          rcases (resembles_heap? same key.heap).option with
            ⟨none, none'⟩ | ⟨h, g, some, some', there⟩
          · simp only [log, none, none']
            exact same
          · have logged : Resembles (m.backing.log (.blockFreed x.address))
                (n.backing.log (.blockFreed y.address)) := alike
            simp only [log, some, some']
            have back := Heap.resembles_giveBack there key extent block logged
            exact resembles_set same key.heap back.fst back.snd

theorem resembles_restore? (same : Resembles m n) (block : Resembles x y) :
    Resembles (m.restore? x.erase) (n.restore? y.erase) := by
  have origin : Resembles x.origin y.origin := block.map fun _ => rfl
  have address : x.address = y.address := block.tells fun _ => rfl
  have size : x.size = y.size := block.tells fun _ => rfl
  simp only [restore?, Block.erase, address, size]
  cases from' : x.origin with
  | user r =>
      cases into : y.origin with
      | user r' =>
          rw [from', into] at origin
          have region : Resembles r r' := Origin.user.inj origin
          exact congrArg some
            (region.map (f := (Block.inRegion · y.address y.size)) (Block.visible_inRegion · _ _))
      | segment key extent => rw [from', into] at origin; cases origin
  | segment key extent =>
      cases into : y.origin with
      | user r' => rw [from', into] at origin; cases origin
      | segment key' extent' =>
          rw [from', into] at origin
          cases origin
          rcases (resembles_heap? same key.heap).option with
            ⟨none, none'⟩ | ⟨h, g, some, some', there⟩
          · simp only [none, none']
            rfl
          simp only [some, some']
          have segments : Resembles (h.segment? key extent) (g.segment? key extent) :=
            there.map (f := (Heap.segment? · key extent)) (Heap.visible_segment? · key extent)
          rcases segments.option with ⟨none, none'⟩ | ⟨s, t, some, some', found⟩
          · rw [none, none']
            rfl
          · rw [some, some']
            exact congrArg Option.some
              (found.map (f := (Segment.blockFrom · y.address)) (Segment.visible_blockFrom · _))

theorem resembles_freeErased (same : Resembles m n) (block : Resembles x y) :
    Resembles (m.freeErased x.erase) (n.freeErased y.erase) := by
  unfold freeErased
  rcases (resembles_restore? same block).option with ⟨none, none'⟩ | ⟨x, y, some, some', block⟩
  · simp only [none, none']
    exact same
  · simp only [some, some']
    exact resembles_free same block

theorem resembles_makeOwner (same : Resembles m n) (heap : Nat) (element : Element)
    (node value : Nat) :
    Resembles (m.makeOwner heap element node value) (n.makeOwner heap element node value) := by
  unfold makeOwner
  rcases (resembles_allocateArray same heap element.layout 1 node).outcome with
    ⟨cause, m, n, first, second, same⟩ | ⟨x, y, m, n, first, second, block, same⟩
  · rw [first, second]
    exact .pair rfl (((resembles_endValues m element [value]).trans same).trans
      (resembles_endValues n element [value]).symm)
  · have address : x.address = y.address := block.tells fun _ => rfl
    rw [first, second]
    simp only [address]
    exact .pair (.ok (block.map (f := fun x => Owner.mk element x [value] false) fun _ => rfl))
      (resembles_store same _ element [value])

theorem resembles_makeRow (same : Resembles m n) (heap : Nat) (element : Element)
    (node len : Nat) (init : Nat → Option Nat) :
    Resembles (m.makeRow heap element node len init) (n.makeRow heap element node len init) := by
  unfold makeRow
  rcases (resembles_allocateArray same heap element.layout len node).outcome with
    ⟨cause, m, n, first, second, same⟩ | ⟨x, y, m, n, first, second, block, same⟩
  · rw [first, second]
    exact .pair rfl same
  have address : x.address = y.address := block.tells fun _ => rfl
  rw [first, second]
  simp only [address]
  have stored := resembles_store same y.address element (yields init 0 len).1
  split
  · exact .pair (.ok (block.map (f := fun x => some (Owner.mk element x (yields init 0 len).1 true))
      fun _ => rfl)) stored
  · refine .pair rfl (resembles_free ?_ block)
    exact ((resembles_endValues _ element _).trans stored).trans
      (resembles_endValues _ element _).symm

theorem resembles_dropOwner (same : Resembles m n) (owner : Resembles o o') :
    Resembles (m.dropOwner o) (n.dropOwner o') := by
  refine resembles_free ?_ (owner.map fun _ => rfl)
  exact ((resembles_endValues m _ _).trans same).trans (resembles_endValues n _ _).symm

theorem resembles_closeHeap (same : Resembles m n) (heap : Nat) :
    Resembles (m.closeHeap heap) (n.closeHeap heap) := by
  unfold closeHeap
  rcases (resembles_heap? same heap).option with ⟨none, none'⟩ | ⟨h, g, some, some', there⟩
  · simp only [none, none']
    exact same
  · simp only [some, some']
    have closed := Heap.resembles_close there (resembles_iff.mp same).1
    exact resembles_set same heap closed.fst closed.snd

theorem resembles_arrange (same : Resembles m n) (key : PoolKey) (order : List Nat) :
    Resembles (m.arrange key order) (n.arrange key order) := by
  unfold arrange
  rcases (resembles_heap? same key.heap).option with ⟨none, none'⟩ | ⟨h, g, some, some', there⟩
  · simp only [none, none']
    exact same
  simp only [some, some']
  rcases (there.map (f := (Heap.pool? · key)) (Heap.visible_pool? · key)).option with
    ⟨none, none'⟩ | ⟨p, q, some, some', found⟩
  · simp only [none, none']
    exact same
  · simp only [some, some']
    have ordered := found.map (f := (Pool.arrange · order)) (Pool.visible_arrange · order)
    exact resembles_set same key.heap (there.map₂ ordered Heap.visible_setPool)
      (resembles_iff.mp same).1

theorem resembles_addHeap (same : Resembles m n) (config : Config) :
    Resembles (m.addHeap config) (n.addHeap config) := by
  obtain ⟨alike, -⟩ := resembles_iff.mp same
  have heaps : m.heaps.map visible = n.heaps.map visible := (resembles_iff.mp same).2
  have count : m.heaps.length = n.heaps.length := by
    rw [← List.length_map (f := visible), heaps, List.length_map]
  obtain ⟨numa, device, -⟩ := Backing.resembles_iff.mp alike
  refine resembles_iff.mpr ⟨alike, ?_⟩
  change (m.addHeap config).heaps.map visible = (n.addHeap config).heaps.map visible
  rw [addHeap, addHeap, List.map_append, List.map_append, heaps, count, numa, device]

end Memory

end RegisteredHeap
