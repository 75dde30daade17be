import RegisteredHeap.Proofs.Coverage
import RegisteredHeap.Proofs.Lifetimes
import RegisteredHeap.Proofs.Rollback
import RegisteredHeap.Proofs.Turns

/-! # When extents go back

An extent goes back in a step of growth that fails, with the last block of its segment, or together
with its heap, and at no other time. With what custody says of its life this settles for each extent
what happened to it over a run, and when.
-/

namespace RegisteredHeap

/-- The extent that goes back with an event. -/
def Event.released? : Event → Option Place
  | .extentReleased n => some (.host n)
  | .deviceReleased n => some (.device n)
  | _ => none

theorem Event.released?_eq_some {e : Event} {p : Place} :
    e.released? = some p ↔ e = p.released := by
  cases e <;> cases p <;> simp [Event.released?, Place.released]

/-- The extents that a block lies in, with that of its copy. -/
def Block.places (x : Block) : List Place :=
  x.address.place?.toList ++ (x.copy.bind fun c => c.address.place?).toList

/-- The extents of a segment. -/
def Segment.places (s : Segment) : List Place :=
  .host s.extent.number :: (s.device.map fun d => Place.device d.extent.number).toList

/-- The extents that were given back, the last one first. -/
def Backing.released (b : Backing) : List Place := b.journal.filterMap Event.released?

theorem Segment.mem_places {s : Segment} {p : Place} :
    p ∈ s.places ↔ p ∈ s.charges.map Charge.place := by
  cases there : s.device with
  | none => simp [places, charges, DeviceSide.charges, there, charge, Charge.place, Loan.place]
  | some d =>
      simp [places, charges, DeviceSide.charges, there, charge, DeviceSide.charge, Charge.place,
        Loan.place]

/-- A block lies in all extents of its segment. -/
theorem Segment.places_blockAt (s : Segment) (offset : Nat) :
    (s.blockAt offset).places = s.places := by
  unfold Block.places Segment.places Segment.blockAt
  cases s.device <;> rfl

theorem Segment.registered_of_mem {s : Segment} {c : Charge} (own : c ∈ s.charges) :
    ∃ m r, c = ⟨m, .registered r⟩ := by
  rcases Multiset.mem_cons.mp own with rfl | copy
  · exact ⟨_, _, rfl⟩
  · cases there : s.device with
    | none => simp [DeviceSide.charges, there] at copy
    | some d =>
        simp only [DeviceSide.charges, there, Option.map_some, Option.getD_some,
          Multiset.mem_singleton] at copy
        exact ⟨_, _, copy⟩

namespace Backing

variable {b b' : Backing} {charges : Multiset Charge} {c : Charge} {p : Place}
  {size node device len : Nat} {base : Address} {flags : Flags} {onDevice : Option Nat}

theorem mem_released : p ∈ b.released ↔ p.released ∈ b.life p := by
  rw [released, List.mem_filterMap, mem_life]
  simp only [Event.released?_eq_some, exists_eq_right]
  exact ⟨fun listed => ⟨listed, p.place?_released⟩, And.left⟩

theorem released_obtain {r : Except HeapError Extent} (got : b.obtain size node = (r, b')) :
    b'.released = b.released := by
  unfold Backing.obtain at got
  rcases b.numa.allocate_cases size node with ⟨cause, failed⟩ | ⟨bytes, place, contents, done⟩
  · rw [failed, Prod.mk.injEq] at got
    exact got.2 ▸ rfl
  · rw [done, Prod.mk.injEq] at got
    exact got.2 ▸ rfl

theorem released_register {r : Except HeapError Region}
    (got : b.register base len flags onDevice = (r, b')) : b'.released = b.released := by
  rcases b.register_cases base len flags onDevice with ⟨cause, failed⟩ | ⟨user, device, done⟩
  · rw [failed, Prod.mk.injEq] at got
    exact got.2 ▸ rfl
  · rw [done, Prod.mk.injEq] at got
    exact got.2 ▸ rfl

theorem released_obtainDevice {r : Except HeapError DeviceExtent}
    (got : b.obtainDevice size device = (r, b')) : b'.released = b.released := by
  unfold Backing.obtainDevice at got
  split at got
  · cases got
    rfl
  · split at got <;> cases got <;> rfl

theorem released_write (b : Backing) (a : Address) (bytes : Array UInt8) :
    (b.write a bytes).released = b.released := by
  cases a <;> rfl

/-- An extent in use was not given back. -/
theorem Custody.not_released (custody : b.Custody charges) (member : c ∈ charges) :
    c.place ∉ b.released := by
  rw [mem_released, custody.held c member, Charge.story]
  rcases c with ⟨⟨e⟩ | ⟨e⟩, stage⟩ <;> cases stage <;>
    simp [Charge.place, Loan.place, Loan.obtained, Place.released, Stage.events]

/-- Of an extent that is neither in use nor was given back nothing is known. -/
theorem Custody.unknown (custody : b.Custody charges) (unused : p ∉ charges.map Charge.place)
    (first : p ∉ b.released) : b.life p = [] := by
  rw [mem_released] at first
  have ended := custody.ended p unused
  generalize b.life p = life at first ended
  cases ended with
  | unknown => rfl
  | unregistered => simp at first
  | registered => simp at first

end Backing

theorem Segment.released_release (s : Segment) (b : Backing) :
    (s.release b).released = s.places ++ b.released := by
  unfold Segment.release Segment.places
  cases s.device <;> rfl

namespace Pool

variable {p p' : Pool} {b b' : Backing} {out : Multiset Block} {rest : Inventory} {x : Block}
  {place : Place}

theorem released_copy {len : Nat} {side : Option DeviceSide}
    (done : p.obtainDeviceSide len b = (.ok side, b')) : b'.released = b.released := by
  cases copying done with
  | single => rfl
  | made _ first second =>
      exact (Backing.released_register second).trans (Backing.released_obtainDevice first)

/-- A pool that gets a block has given nothing back for it. -/
theorem Kept.released_allocate (kept : p.Kept b out rest)
    (done : p.allocate b = (.ok x, p', b')) : b'.released = b.released := by
  cases kept.allocation done with
  | ready => rfl
  | collected => rfl
  | grown _ _ obtained =>
      cases attempt obtained with
      | made first _ _ second third =>
          exact (released_copy third).trans
            ((Backing.released_register second).trans (Backing.released_obtain first))

theorem mem_released_releaseAll : place ∈ (p.releaseAll b).released ↔
    place ∈ b.released ∨ ∃ s ∈ p.segments, place ∈ s.places := by
  rw [releaseAll]
  induction p.segments generalizing b with
  | nil => simp
  | cons s segments ih =>
      rw [List.foldl_cons, ih, Segment.released_release, List.mem_append]
      grind

end Pool

namespace Memory

variable {m m' : Memory} {closed : List Nat} {out : Multiset Block} {x : Block} {place : Place}
  {heap size node : Nat} {device : Option Nat} {h : Heap}

theorem released_endValues (m : Memory) (element : Element) (values : List Nat) :
    (m.endValues element values).backing.released = m.backing.released :=
  endValues_induction (P := fun m' => m'.backing.released = m.backing.released) element values rfl
    fun _ _ => id

theorem released_store (m : Memory) (a : Address) (element : Element) (values : List Nat) :
    (m.store a element values).backing.released = m.backing.released :=
  m.backing.released_write a _

theorem Sound.released_allocate (sound : m.Sound closed out)
    (done : m.allocate heap size node device = (.ok x, m')) :
    m'.backing.released = m.backing.released := by
  cases sound.response done with
  | refused _ backing => rw [backing]
  | served kept went => exact kept.released_allocate went

theorem released_makeOwner (m : Memory) (heap : Nat) (element : Element) (node value : Nat) :
    (m.makeOwner heap element node value).2.backing.released =
      (m.allocateArray heap element.layout 1 node).2.backing.released := by
  rcases got : m.allocateArray heap element.layout 1 node with ⟨cause | x, m'⟩
  · simp only [makeOwner, got]
    exact m'.released_endValues element [value]
  · simp only [makeOwner, got]
    exact m'.released_store x.address element [value]

theorem released_registerUser (m : Memory) (heap address size : Nat) (device : Option Nat) :
    (m.registerUser heap address size device).2.backing.released = m.backing.released := by
  rcases got : m.registerUser heap address size device with ⟨r, m'⟩
  rcases registerUser_cases got with ⟨_, -, rfl⟩ | ⟨_, _, -, rfl, asked⟩ | ⟨_, _, -, rfl, asked⟩
  · rfl
  · exact Backing.released_register asked
  · exact Backing.released_register asked

theorem backing_arrange (m : Memory) (key : PoolKey) (order : List Nat) :
    (m.arrange key order).backing = m.backing := by
  unfold arrange
  split
  · rfl
  split <;> rfl

/-- What goes back with a free is a segment that the free releases. -/
theorem Sound.released_free (sound : m.Sound closed (x.bare ::ₘ out))
    (back : place ∈ (m.free x).backing.released) : place ∈ m.backing.released ∨
      ∃ q ∈ m.pools, ∃ s ∈ q.segments, place ∈ s.places ∧ m.Releases x q s.extent := by
  cases sound.freed with
  | @pooled q q' n before after split origin formed went pools =>
      have listed : q ∈ m.pools := split ▸ List.mem_append_cons_self
      have listed' : q' ∈ (m.free x).pools := pools ▸ List.mem_append_cons_self
      have alike := Pool.Alike.of_giveBack went
      obtain ⟨_, kept⟩ := (sound.logged x.address).exists_kept_cons listed
        (Block.pool?_eq_some.mpr ⟨n, origin⟩)
      have returned := kept.returned origin went
      generalize (m.free x).backing = b' at back returned
      cases returned with
      | parked => exact .inl back
      | @released left right s parts =>
          rw [Segment.released_release, List.mem_append] at back
          rcases back with own | old
          · right
            have there : s ∈ q.segments := parts ▸ List.mem_append_cons_self
            refine ⟨q, listed, s, there, own,
              sound.releases listed (List.mem_map_of_mem there) ?_⟩
            -- The pool is found by its key, and what is left of it lies on other extents.
            rintro ⟨u, known, same, inside⟩
            have only : u = _ := List.inj_on_of_nodup_map formed.keys known listed'
              (same.trans alike.key.symm)
            subst only
            obtain ⟨t, remains, extent⟩ := List.mem_map.mp inside
            have distinct := kept.distinct
            rw [Pool.Distinct, parts] at distinct
            exact Keyed.apart_of_nodup distinct t remains (congrArg Extent.number extent)
          · exact .inl old
  | ended _ freed =>
      rw [freed] at back
      exact .inl back

/-- What goes back with a heap is what its segments have. -/
theorem released_closeHeap (there : m.heaps[heap]? = some h)
    (back : place ∈ (m.closeHeap heap).backing.released) : place ∈ m.backing.released ∨
      ∃ q ∈ h.pools, ∃ s ∈ q.segments, place ∈ s.places := by
  rw [backing_closeHeap there] at back
  generalize m.backing = b at back ⊢
  generalize h.pools = mine at back ⊢
  induction mine generalizing b with
  | nil => exact .inl back
  | cons p mine ih =>
      rcases ih _ back with old | ⟨q, listed, segment⟩
      · rcases Pool.mem_released_releaseAll.mp old with old | segment
        · exact .inl old
        · exact .inr ⟨p, List.mem_cons_self, segment⟩
      · exact .inr ⟨q, List.mem_cons_of_mem _ listed, segment⟩

end Memory

namespace Tenancy

variable {w : Tenancy} {act : Act} {heap : Nat} {m : Memory} {x : Block} {place : Place}
  {d : Demand}

/-- Why an act gives an extent back. -/
inductive Occasion (w : Tenancy) (act : Act) (place : Place) : Prop where
  /-- It was obtained in a step of growth that failed, and went back before the error came. -/
  | failed {d : Demand} {cause : HeapError} (wanted : w.demand? act = some d)
      (unknown : w.memory.backing.life place = [])
      (failed : (w.memory.answer d).1 = .error cause)
      (back : place ∈ (w.memory.answer d).2.backing.released)
  /-- The last block of its segment came back. -/
  | emptied {m : Memory} {x : Block} {q : Pool} {s : Segment} (frees : w.Frees act m x)
      (listed : q ∈ m.pools) (there : s ∈ q.segments) (own : place ∈ s.places)
      (releases : m.Releases x q s.extent)
  /-- Its heap was closed. -/
  | closed {q : Pool} {s : Segment} (same : act = .closeHeap q.key.heap)
      (isOpen : q.key.heap ∉ w.closed) (listed : q ∈ w.memory.pools) (there : s ∈ q.segments)
      (own : place ∈ s.places)

theorem Sound.occasion_asked (sound : w.Sound) (cares : w.memory.Cares)
    (wanted : w.demand? act = some d) (back : place ∈ (w.memory.answer d).2.backing.released)
    (first : place ∉ w.memory.backing.released) : w.Occasion act place := by
  rcases got : w.memory.answer d with ⟨cause | x, m⟩
  · refine .failed wanted ?_ (congrArg Prod.fst got) back
    refine Backing.Custody.unknown cares ?_ first
    intro used
    obtain ⟨c, member, rfl⟩ := Multiset.mem_map.mp used
    -- The answer leaves what is in use in use, so it cannot have been given back.
    have after := sound.memory.cares_allocate cares got
    rw [Memory.Cares, sound.memory.charges_failed got] at after
    rw [got] at back
    exact after.not_released member back
  · rw [got, sound.memory.released_allocate got] at back
    exact absurd back first

theorem Sound.occasion_storage {l : Layout} {count node : Nat} (sound : w.Sound)
    (cares : w.memory.Cares) (isOpen : heap ∉ w.closed)
    (wanted : act.demand? w.memory.backing.numa.pageSize =
      Act.storage? w.memory.backing.numa.pageSize heap l count node)
    (back : place ∈ (w.memory.allocateArray heap l count node).2.backing.released)
    (first : place ∉ w.memory.backing.released) : w.Occasion act place := by
  rcases w.memory.allocateArray_cases heap l count node with ⟨cause, -, same⟩ | ⟨size, some, same⟩
  · rw [same] at back
    exact absurd back first
  · rw [same] at back
    rw [Act.storage?, some] at wanted
    exact sound.occasion_asked (d := ⟨heap, size, node, none⟩) cares
      (demand?_of_some wanted isOpen) back first

theorem Sound.occasion_frees (sound : w.Sound) (frees : w.Frees act m x)
    (back : place ∈ (w.step act).memory.backing.released)
    (first : place ∉ m.backing.released) : w.Occasion act place := by
  obtain ⟨out, memory⟩ := sound.frees frees
  rw [sound.step_frees frees] at back
  rcases memory.released_free back with old | ⟨q, listed, s, there, own, releases⟩
  · exact absurd old first
  · exact .emptied frees listed there own releases

/-- Nothing goes back on a heap that is closed. -/
theorem released_on {next : Tenancy} (back : place ∈ (w.on heap next).memory.backing.released)
    (first : place ∉ w.memory.backing.released) :
    heap ∉ w.closed ∧ place ∈ next.memory.backing.released := by
  unfold Tenancy.on at back
  split at back
  · exact absurd back first
  · rename_i isOpen
    exact ⟨isOpen, back⟩

theorem released_call {g : Option Grip}
    (back : place ∈ (w.on heap (w.keep heap m g)).memory.backing.released)
    (first : place ∉ w.memory.backing.released) :
    heap ∉ w.closed ∧ place ∈ m.backing.released := by
  obtain ⟨isOpen, back⟩ := released_on back first
  rw [memory_keep] at back
  exact ⟨isOpen, back⟩

theorem Sound.occasion_makeRow {element : Element} {node len : Nat} {init : Nat → Option Nat}
    (sound : w.Sound) (cares : w.memory.Cares)
    (back : place ∈ (w.step (.makeRow heap element node len init)).memory.backing.released)
    (first : place ∉ w.memory.backing.released) :
    w.Occasion (.makeRow heap element node len init) place := by
  -- It went back before the row had its storage, or with the block when the row was given up.
  have same := back
  simp only [Tenancy.step] at same
  obtain ⟨isOpen, went⟩ := released_call same first
  by_cases early : place ∈
      (w.memory.allocateArray heap element.layout len node).2.backing.released
  · exact sound.occasion_storage cares isOpen rfl early first
  rcases got : w.memory.allocateArray heap element.layout len node with ⟨cause | b, m⟩
  · simp only [Memory.makeRow, got] at went
    rw [got] at early
    exact absurd went early
  rw [got] at early
  have stored : place ∉ (m.store b.address element (yields init 0 len).1).backing.released := by
    rw [Memory.released_store]
    exact early
  rcases filled : yields init 0 len with ⟨values, _ | _⟩
  · refine sound.occasion_frees (.row isOpen got filled) back ?_
    rw [filled] at stored
    rw [Memory.released_endValues]
    exact stored
  · simp only [Memory.makeRow, got, filled, if_true] at went
    rw [filled] at stored
    exact absurd went stored

theorem Sound.occasion_free {lease : Nat} (sound : w.Sound)
    (back : place ∈ (w.step (.free lease)).memory.backing.released)
    (first : place ∉ w.memory.backing.released) : w.Occasion (.free lease) place := by
  rcases w.free_cases lease with idle | ⟨m, x, frees, -⟩
  · rw [idle] at back
    exact absurd back first
  · have quiet : m.backing.released = w.memory.backing.released := by
      cases frees with
      | pointer => rfl
      | erased => rfl
      | owner => exact Memory.released_endValues _ _ _
    exact sound.occasion_frees frees back (quiet ▸ first)

theorem Sound.occasion_closeHeap (sound : w.Sound)
    (back : place ∈ (w.step (.closeHeap heap)).memory.backing.released)
    (first : place ∉ w.memory.backing.released) : w.Occasion (.closeHeap heap) place := by
  obtain ⟨isOpen, back⟩ := released_on back first
  cases there : w.memory.heaps[heap]? with
  | none =>
      simp only [Tenancy.close, there] at back
      exact absurd back first
  | some h =>
      simp only [Tenancy.close, there] at back
      rcases Memory.released_closeHeap there back with old | ⟨q, listed, s, inside, own⟩
      · exact absurd old first
      · have same : q.key.heap = heap := ((sound.memory.formed heap h there).of_mem listed).1
        have known : q ∈ w.memory.pools :=
          List.mem_flatMap.mpr ⟨h, List.mem_of_getElem? there, listed⟩
        exact .closed (same ▸ rfl) (same ▸ isOpen) known inside own

/-- Whatever goes back with an act has an occasion to. -/
theorem Sound.occasion (sound : w.Sound) (cares : w.memory.Cares)
    (back : place ∈ (w.step act).memory.backing.released)
    (first : place ∉ w.memory.backing.released) : w.Occasion act place := by
  cases act with
  | openHeap settings =>
      simp only [Tenancy.step] at back
      split at back <;> exact absurd back first
  | closeHeap heap => exact sound.occasion_closeHeap back first
  | allocate heap size node device =>
      obtain ⟨isOpen, back⟩ := released_call back first
      exact sound.occasion_asked (d := ⟨heap, size, node, device⟩) cares
        (demand?_of_some rfl isOpen) back first
  | allocateErased heap size node =>
      obtain ⟨isOpen, back⟩ := released_call back first
      exact sound.occasion_asked (d := ⟨heap, size, node, none⟩) cares
        (demand?_of_some rfl isOpen) back first
  | allocateArray heap l count node =>
      obtain ⟨isOpen, back⟩ := released_call back first
      exact sound.occasion_storage cares isOpen rfl back first
  | makeOwner heap element node value =>
      obtain ⟨isOpen, back⟩ := released_call back first
      change place ∈ (w.memory.makeOwner heap element node value).2.backing.released at back
      rw [Memory.released_makeOwner] at back
      exact sound.occasion_storage cares isOpen rfl back first
  | makeRow heap element node len init => exact sound.occasion_makeRow cares back first
  | registerUser heap address size device =>
      obtain ⟨-, back⟩ := released_call back first
      change place ∈ (w.memory.registerUser heap address size device).2.backing.released at back
      rw [Memory.released_registerUser] at back
      exact absurd back first
  | setMessageLength lease len =>
      simp only [Tenancy.step, Tenancy.note] at back
      split at back <;> exact absurd back first
  | free lease => exact sound.occasion_free back first
  | write place bytes =>
      simp only [Tenancy.step, Backing.released_write] at back
      exact absurd back first
  | arrange pool order =>
      obtain ⟨-, back⟩ := released_on back first
      rw [Memory.backing_arrange] at back
      exact absurd back first
  | change conditions => exact absurd back first

/-- What the journal says about extents. -/
structure Traced (w : Tenancy) : Prop where
  /-- The extents of a segment were obtained and registered, and its heap is there. -/
  held : ∀ q ∈ w.memory.pools, ∀ s ∈ q.segments, q.key.heap ∉ w.closed ∧
    w.memory.backing.life (.host s.extent.number) =
      [.extentObtained s.extent, .registered s.region] ∧
    ∀ side, s.device = some side → w.memory.backing.life (.device side.extent.number) =
      [.deviceObtained side.extent, .registered side.region]
  /-- Any other extent, if it was obtained at all, was given back once, and the registration that it
  may have had was dropped once, before that. -/
  ended : ∀ place : Place, (∀ q ∈ w.memory.pools, ∀ s ∈ q.segments, place ∉ s.places) →
    place.Ended (w.memory.backing.life place)
  /-- As long as a caller has a block of a pool, its extents are registered. -/
  outstanding : ∀ l ∈ w.leases, l.grip.block.pool?.isSome → ∀ place ∈ l.grip.block.places,
    ∃ (m : Loan) (r : Region), m.place = place ∧
      w.memory.backing.life place = [m.obtained, .registered r]
  /-- Once all heaps are closed, nothing is left. -/
  closed : (∀ heap < w.memory.heaps.length, heap ∈ w.closed) →
    ∀ place : Place, place.Ended (w.memory.backing.life place)
  occasion : ∀ act, ∀ place ∈ (w.step act).memory.backing.released,
    place ∉ w.memory.backing.released → w.Occasion act place

theorem mem_charges {c : Charge} : c ∈ m.charges ↔
    ∃ q ∈ m.pools, ∃ s ∈ q.segments, c ∈ s.charges := by
  simp only [Memory.charges, Pool.charges, mem_sum_map]

theorem ended_of_elsewhere (cares : w.memory.Cares)
    (elsewhere : ∀ q ∈ w.memory.pools, ∀ s ∈ q.segments, place ∉ s.places) :
    place.Ended (w.memory.backing.life place) := by
  apply cares.ended
  intro used
  obtain ⟨c, member, rfl⟩ := Multiset.mem_map.mp used
  obtain ⟨q, listed, s, there, own⟩ := mem_charges.mp member
  exact elsewhere q listed s there (Segment.mem_places.mpr (Multiset.mem_map_of_mem _ own))

theorem Sound.traced (sound : w.Sound) (cares : w.memory.Cares) : w.Traced where
  held := by
    intro q listed s there
    have held {c : Charge} (own : c ∈ s.charges) : w.memory.backing.life c.place = c.story :=
      cares.held c (mem_charges.mpr ⟨q, listed, s, there, own⟩)
    refine ⟨?_, held (c := s.charge) (Multiset.mem_cons_self _ _), ?_⟩
    · intro isClosed
      rw [(sound.memory.ledger.closed q listed isClosed).1] at there
      cases there
    · intro side known
      refine held (c := side.charge) (Multiset.mem_cons_of_mem ?_)
      rw [known]
      exact Multiset.mem_singleton_self _
  ended _ := ended_of_elsewhere cares
  outstanding := by
    intro l member pooled place inside
    obtain ⟨key, own⟩ := Option.isSome_iff_exists.mp pooled
    obtain ⟨s, there, -, i, -, block⟩ := sound.slice_of_lease member own
    obtain ⟨q, listed, there⟩ := mem_segmentsOf.mp there
    obtain ⟨-, address, -, copy, -⟩ := Block.of_bare block
    rw [Block.places, address, copy, ← Block.places, Segment.places_blockAt,
      Segment.mem_places] at inside
    obtain ⟨c, charged, rfl⟩ := Multiset.mem_map.mp inside
    obtain ⟨m, r, rfl⟩ := Segment.registered_of_mem charged
    exact ⟨m, r, rfl, cares.held _ (mem_charges.mpr ⟨q, listed, s, there, charged⟩)⟩
  closed := by
    intro all place
    apply ended_of_elsewhere cares
    intro q listed s there
    obtain ⟨h, here, -⟩ := sound.memory.formed.heap_of_mem listed
    have gone := all q.key.heap (List.getElem?_eq_some_iff.mp here).1
    rw [(sound.memory.ledger.closed q listed gone).1] at there
    cases there
  occasion _ _ back first := sound.occasion cares back first

theorem cares_start {b : Backing} (unused : b.Unused) : (start b).memory.Cares := unused.custody

/-- Whatever callers do who keep to the contract, and wherever a call fails, extents are registered
once and given back once, in the right order and at the right time. -/
theorem run_traced {b : Backing} (unused : b.Unused) (acts : List Act) :
    ((start b).run acts).Traced :=
  (sound_run unused acts).traced ((sound_start unused).cares_run (cares_start unused) acts)

/-- A segment with a copy is made, a second one cannot be registered, and the heap is closed. -/
def interrupted : List Act :=
  [opening, .allocate 0 8 0 (some 0), limiting, .allocate 0 8 0 none, .closeHeap 0]

/-- The extents of the first segment go with the heap, that of the second one before. -/
theorem interrupted_traced : shelf.Unused ∧
    ((start shelf).run interrupted).memory.backing.life (.host 0) =
      [.extentObtained ⟨0, 16, 0⟩, .registered ⟨1, .host 0 0, 16, .none, none⟩,
        .deregistered ⟨1, .host 0 0, 16, .none, none⟩, .extentReleased 0] ∧
    ((start shelf).run interrupted).memory.backing.life (.host 1) =
      [.extentObtained ⟨1, 16, 0⟩, .extentReleased 1] ∧
    ((start shelf).run interrupted).memory.backing.released = [.host 0, .device 0, .host 1] ∧
    ((start shelf).run interrupted).Traced :=
  ⟨unused_shelf, rfl, rfl, rfl, run_traced unused_shelf _⟩

end Tenancy

end RegisteredHeap
