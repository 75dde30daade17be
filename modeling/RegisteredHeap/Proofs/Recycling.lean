import RegisteredHeap.Proofs.Notes

/-! # Recycling of blocks

Over the time that a segment is there its blocks go round in one queue. At first they stand in it in
the order of their places, and whatever comes back joins its end. The part of the free list that
belongs to the segment is the front of the queue and the deferred list its end, so it does not
matter when a pool collects, or in which order.
-/

namespace RegisteredHeap

namespace Address

/-- Of some addresses those on the host extent `n`. -/
def on (n : Nat) (addresses : List Address) : List Address :=
  addresses.filter fun
    | .host m _ => m == n
    | .device .. | .user _ => false

variable {n : Nat} {a : Address} {addresses more : List Address}

theorem mem_on : a ∈ on n addresses ↔ a ∈ addresses ∧ ∃ o, a = .host n o := by
  rw [on, List.mem_filter]
  cases a <;> simp

theorem on_append (n : Nat) (addresses more : List Address) :
    on n (addresses ++ more) = on n addresses ++ on n more := List.filter_append ..

theorem on_eq_self (own : ∀ a ∈ addresses, ∃ o, a = .host n o) : on n addresses = addresses := by
  rw [on, List.filter_eq_self]
  intro a member
  obtain ⟨o, rfl⟩ := own a member
  simp

theorem on_eq_nil (other : ∀ a ∈ addresses, ∀ o, a ≠ .host n o) : on n addresses = [] := by
  rw [List.eq_nil_iff_forall_not_mem]
  intro a member
  obtain ⟨there, o, same⟩ := mem_on.mp member
  exact other a there o same

end Address

/-- The addresses of the blocks that came and went over a run, in their order. -/
structure Traffic where
  issued : List Address := []
  freed : List Address := []

namespace Traffic

/-- A block may be handed out. -/
def issue (t : Traffic) (x : Option Block) : Traffic :=
  { t with issued := t.issued ++ (x.map Block.address).toList }

/-- A block may come back. -/
def free (t : Traffic) (x : Option Block) : Traffic :=
  { t with freed := t.freed ++ (x.map Block.address).toList }

@[simp] theorem issue_none (t : Traffic) : t.issue none = t := by
  simp [issue]

@[simp] theorem free_none (t : Traffic) : t.free none = t := by
  simp [free]

/-- Nothing came or went that lies on the extent. -/
def Untouched (t : Traffic) (n : Nat) : Prop :=
  Address.on n t.issued = [] ∧ Address.on n t.freed = []

theorem on_issue (t : Traffic) (x : Block) (n : Nat) :
    Address.on n (t.issue (some x)).issued =
      Address.on n t.issued ++ Address.on n [x.address] :=
  Address.on_append ..

theorem on_free (t : Traffic) (x : Block) (n : Nat) :
    Address.on n (t.free (some x)).freed = Address.on n t.freed ++ Address.on n [x.address] :=
  Address.on_append ..

end Traffic

namespace Segment

variable {s : Segment} {x : Block} {ready : List Block} {t : Traffic}

def addresses (s : Segment) : List Address := s.blocks.map Block.address

theorem address_of_mem_slices (slice : x ∈ s.slices) :
    ∃ o, x.address = .host s.extent.number o := by
  obtain ⟨i, -, rfl⟩ := mem_slices.mp slice
  exact ⟨_, rfl⟩

theorem address_of_bare (slice : x.bare ∈ s.slices) : ∃ o, x.address = .host s.extent.number o :=
  address_of_mem_slices (x := x.bare) slice

theorem on_addresses (s : Segment) : Address.on s.extent.number s.addresses = s.addresses := by
  apply Address.on_eq_self
  intro a member
  obtain ⟨x, inside, rfl⟩ := List.mem_map.mp member
  exact address_of_mem_slices (Multiset.mem_coe.mpr inside)

theorem on_addresses_of_ne {n : Nat} (other : s.extent.number ≠ n) :
    Address.on n s.addresses = [] := by
  apply Address.on_eq_nil
  intro a member o same
  obtain ⟨x, inside, rfl⟩ := List.mem_map.mp member
  obtain ⟨o', place⟩ := address_of_mem_slices (Multiset.mem_coe.mpr inside)
  cases place.symm.trans same
  exact other rfl

/-- The blocks of the segment that wait for their next holder, where `ready` is the free list: those
on the free list come first. -/
def queue (s : Segment) (ready : List Block) : List Address :=
  Address.on s.extent.number (ready.map Block.address) ++ s.deferred.reverse.map Block.address

/-- What was handed out of the segment, and then what waits, are its blocks in the order of their
places, and then those that came back in the order of their returns. -/
structure Queues (s : Segment) (ready : List Block) (t : Traffic) : Prop where
  order : s.addresses ++ Address.on s.extent.number t.freed =
    Address.on s.extent.number t.issued ++ s.queue ready
  known : Address.on s.extent.number t.freed ⊆ s.addresses

/-- The next holder gets the first block of the queue. -/
theorem Queues.pop (queues : s.Queues (x :: ready) t) : s.Queues ready (t.issue (some x)) := by
  obtain ⟨order, known⟩ := queues
  refine ⟨?_, known⟩
  have front : s.queue (x :: ready) =
      Address.on s.extent.number [x.address] ++ s.queue ready := by
    rw [queue, queue, List.map_cons, ← List.singleton_append, Address.on_append,
      List.append_assoc]
  rw [Traffic.on_issue, List.append_assoc, ← front]
  exact order

/-- A block that lies elsewhere does not matter to the queue. -/
theorem Queues.free_other (queues : s.Queues ready t)
    (other : ∀ o, x.address ≠ .host s.extent.number o) : s.Queues ready (t.free (some x)) := by
  have nothing : Address.on s.extent.number [x.address] = [] := by
    apply Address.on_eq_nil
    simpa using other
  obtain ⟨order, known⟩ := queues
  refine ⟨?_, ?_⟩
  · rw [Traffic.on_free, nothing, List.append_nil]
    exact order
  · rw [Traffic.on_free, nothing, List.append_nil]
    exact known

theorem Queues.issue_other (queues : s.Queues ready t)
    (other : ∀ o, x.address ≠ .host s.extent.number o) : s.Queues ready (t.issue (some x)) := by
  have nothing : Address.on s.extent.number [x.address] = [] := by
    apply Address.on_eq_nil
    simpa using other
  refine ⟨?_, queues.known⟩
  rw [Traffic.on_issue, nothing, List.append_nil]
  exact queues.order

/-- A block that comes back joins the end of the queue. -/
theorem Queues.park (queues : s.Queues ready t) (own : x.bare ∈ s.slices) :
    (s.park x).Queues ready (t.free (some x)) := by
  obtain ⟨o, place⟩ := address_of_bare own
  have one : Address.on s.extent.number [x.address] = [x.address] := by
    apply Address.on_eq_self
    intro a member
    exact ⟨o, (List.mem_singleton.mp member).trans place⟩
  have last : (s.park x).queue ready = s.queue ready ++ [x.address] := by
    calc
      (s.park x).queue ready = Address.on s.extent.number (ready.map Block.address) ++
          (x :: s.deferred).reverse.map Block.address := rfl
      _ = s.queue ready ++ [x.address] := by
        rw [List.reverse_cons, List.map_append, ← List.append_assoc]
        rfl
  obtain ⟨order, known⟩ := queues
  refine ⟨?_, ?_⟩
  · rw [last]
    change s.addresses ++ Address.on s.extent.number _ = Address.on s.extent.number t.issued ++ _
    rw [Traffic.on_free, one, ← List.append_assoc, order, List.append_assoc]
  · change Address.on s.extent.number _ ⊆ s.addresses
    rw [Traffic.on_free, one]
    have listed : x.address ∈ s.addresses := List.mem_map.mpr ⟨x.bare, Multiset.mem_coe.mp own, rfl⟩
    exact List.append_subset.mpr ⟨known, List.cons_subset.mpr ⟨listed, List.nil_subset _⟩⟩

/-- The segment has been one queue all along. -/
structure Rotates (s : Segment) (ready : List Block) (t : Traffic) : Prop where
  /-- The lowest address comes first. -/
  places : s.addresses =
    (List.range s.capacity).map fun i => .host s.extent.number (i * s.pool.blockSize)
  order : s.addresses ++ Address.on s.extent.number t.freed =
    Address.on s.extent.number t.issued ++ s.queue ready
  issued : Address.on s.extent.number t.issued <+:
    s.addresses ++ Address.on s.extent.number t.freed
  /-- What is handed out again comes in the order of the returns. -/
  again : (Address.on s.extent.number t.issued).drop s.capacity <+:
    Address.on s.extent.number t.freed
  /-- A block was handed out before just when all blocks were. -/
  reissued : ∀ i a, (Address.on s.extent.number t.issued)[i]? = some a →
    (a ∈ (Address.on s.extent.number t.issued).take i ↔ s.capacity ≤ i)

theorem addresses_eq (s : Segment) : s.addresses =
    (List.range s.capacity).map fun i => .host s.extent.number (i * s.pool.blockSize) := by
  rw [addresses, blocks, List.map_map]
  rfl

theorem length_addresses (s : Segment) : s.addresses.length = s.capacity := by
  rw [addresses, List.length_map, length_blocks]

theorem mem_take_iff {places back gone queue : List Address} {i : Nat} {a : Address}
    (order : places ++ back = gone ++ queue) (distinct : places.Nodup) (known : back ⊆ places)
    (here : gone[i]? = some a) : a ∈ gone.take i ↔ places.length ≤ i := by
  obtain ⟨inside, -⟩ := List.getElem?_eq_some_iff.mp here
  have whole : (places ++ back)[i]? = some a := by
    rw [order, List.getElem?_append_left inside]
    exact here
  have start : gone.take i = (places ++ back).take i := by
    rw [order, List.take_append_of_le_length inside.le]
  rw [start]
  -- Places differ from each other, so none is met twice before all are used up.
  rcases Nat.lt_or_ge i places.length with first | later
  · rw [List.getElem?_append_left first] at whole
    rw [List.take_append_of_le_length first.le]
    refine ⟨fun earlier => ?_, fun all => absurd first (Nat.not_lt.mpr all)⟩
    obtain ⟨j, less, same⟩ := List.mem_take_iff_getElem.mp earlier
    have place := (List.getElem?_eq_some_iff.mp whole).2
    have equal := (distinct.getElem_inj_iff).mp (same.trans place.symm)
    omega
  · rw [List.getElem?_append_right later] at whole
    refine ⟨fun _ => later, fun _ => ?_⟩
    rw [List.take_append]
    apply List.mem_append_left
    rw [List.take_of_length_le later]
    exact known (List.mem_of_getElem? whole)

theorem Queues.rotates (queues : s.Queues ready t) (size : 0 < s.pool.blockSize) :
    s.Rotates ready t := by
  obtain ⟨order, known⟩ := queues
  have distinct : s.addresses.Nodup := Multiset.coe_nodup.mp (nodup_addresses size)
  have length := s.length_addresses
  refine ⟨s.addresses_eq, order, ⟨s.queue ready, order.symm⟩, ?_, ?_⟩
  · have rest := congrArg (List.drop s.capacity) order
    rw [← length, List.drop_left, List.drop_append, length] at rest
    exact ⟨_, rest.symm⟩
  · intro i a here
    rw [← length]
    exact mem_take_iff order distinct known here

end Segment

namespace Pool

variable {p p' : Pool} {b b' : Backing} {out : Multiset Block} {rest : Inventory} {s s' : Segment}
  {x : Block} {t : Traffic}

/-- Every segment is a queue. -/
def Recycles (p : Pool) (t : Traffic) : Prop := ∀ s ∈ p.segments, s.Queues p.free t

theorem recycles_of_empty (segments : p.segments = []) : p.Recycles t := by
  intro s there
  rw [segments] at there
  cases there

theorem Recycles.pop {others : List Block} (recycles : p.Recycles t)
    (there : p.free = x :: others) : { p with free := others }.Recycles (t.issue (some x)) := by
  intro s inside
  exact (there ▸ recycles s inside).pop

/-- Deferred blocks are on the extent of their segment. -/
theorem Sound.address_of_deferred (sound : p.Sound out) (distinct : p.Distinct)
    (there : s ∈ p.segments) (waits : x ∈ s.deferred) :
    ∃ o, x.address = .host s.extent.number o := by
  have slice : x.bare ∈ s.slices := by
    rw [← sound.share distinct there]
    exact Multiset.mem_add.mpr (.inl (Multiset.mem_add.mpr
      (.inr (Multiset.mem_coe.mpr (List.mem_map_of_mem waits)))))
  exact Segment.address_of_bare slice

/-- To collect moves the end of each queue to its front part. -/
theorem Kept.queue_swept (kept : p.Kept b out rest) (there : s ∈ p.segments) :
    s.collect.2.queue p.swept.free = s.queue p.free := by
  obtain ⟨before, after, split, apart⟩ := Keyed.exists_split kept.distinct there
  have own : Address.on s.extent.number (s.deferred.reverse.map Block.address) =
      s.deferred.reverse.map Block.address := by
    apply Address.on_eq_self
    intro a member
    obtain ⟨x, waits, rfl⟩ := List.mem_map.mp member
    exact kept.sound.address_of_deferred kept.distinct there (List.mem_reverse.mp waits)
  have others (side : List Segment) (inside : ∀ u ∈ side, u ∈ before ++ after) :
      Address.on s.extent.number
        ((side.flatMap fun u => u.deferred.reverse).map Block.address) = [] := by
    apply Address.on_eq_nil
    intro a member o same
    obtain ⟨x, waits, rfl⟩ := List.mem_map.mp member
    obtain ⟨u, listed, waits⟩ := List.mem_flatMap.mp waits
    have there' : u ∈ p.segments := split ▸ Keyed.mem_split.mpr (.inr (inside u listed))
    obtain ⟨o', place⟩ :=
      kept.sound.address_of_deferred kept.distinct there' (List.mem_reverse.mp waits)
    exact apart u (inside u listed) (Address.host.inj (place.symm.trans same)).1
  have collected : Address.on s.extent.number
      ((p.segments.flatMap fun u => u.deferred.reverse).map Block.address) =
        s.deferred.reverse.map Block.address := by
    rw [split, List.flatMap_append, List.flatMap_cons, List.map_append, List.map_append,
      Address.on_append, Address.on_append, own,
      others before fun u => List.mem_append_left _, others after fun u => List.mem_append_right _,
      List.nil_append, List.append_nil]
  calc
    s.collect.2.queue p.swept.free =
        Address.on s.extent.number (p.swept.free.map Block.address) ++ [] := rfl
    _ = s.queue p.free := by
      rw [List.append_nil, Pool.swept, collect_free, List.map_append, Address.on_append]
      exact congrArg _ collected

theorem Kept.recycles_swept (kept : p.Kept b out rest) (recycles : p.Recycles t) :
    p.swept.Recycles t := by
  intro s' there'
  rw [Pool.swept, collect_segments] at there'
  obtain ⟨s, there, rfl⟩ := List.mem_map.mp there'
  obtain ⟨order, known⟩ := recycles s there
  refine ⟨?_, known⟩
  rw [kept.queue_swept there]
  exact order

/-- A new segment on an untouched extent has all its blocks in its queue. -/
theorem Recycles.addSegment (recycles : p.Recycles t) (fresh : s.deferred = [])
    (number : ∀ u ∈ p.segments, u.extent.number ≠ s.extent.number) (none : p.free = [])
    (untouched : t.Untouched s.extent.number) : (p.addSegment s).Recycles t := by
  have free : (p.addSegment s).free.map Block.address = s.addresses := by
    simp only [Pool.addSegment, record, none, List.nil_append]
    rfl
  intro u there
  rcases List.mem_append.mp there with old | new
  · obtain ⟨order, known⟩ := recycles u old
    refine ⟨?_, known⟩
    have queue : u.queue (p.addSegment s).free = u.queue p.free := by
      rw [Segment.queue, free, Segment.on_addresses_of_ne (number u old).symm, Segment.queue, none]
      rfl
    rw [queue]
    exact order
  · rw [List.mem_singleton.mp new]
    obtain ⟨issued, freed⟩ := untouched
    refine ⟨?_, by simp [freed]⟩
    rw [Segment.queue, free, Segment.on_addresses, fresh, issued, freed]
    rfl

theorem Kept.recycles_allocate {r : Except HeapError Block} (kept : p.Kept b out rest)
    (allocation : p.Allocation b rest r p' b') (recycles : p.Recycles t)
    (old : ∀ u ∈ p.segments, u.extent.number < b.numa.issued)
    (untouched : ∀ n, b.numa.issued ≤ n → t.Untouched n) :
    p'.Recycles (t.issue r.toOption) := by
  have swept := kept.recycles_swept recycles
  cases allocation with
  | ready there => exact recycles.pop there
  | collected _ there => exact swept.pop there
  | failed =>
      rw [Except.toOption, Traffic.issue_none]
      exact swept
  | @grown s others _ _ none obtained _ _ fresh _ blocks =>
      have number : s.extent.number = b.numa.issued := (obtainSegment_new obtained).1
      have apart : ∀ u ∈ p.swept.segments, u.extent.number ≠ s.extent.number := by
        intro u there
        rw [Pool.swept, collect_segments] at there
        obtain ⟨v, listed, rfl⟩ := List.mem_map.mp there
        have less : v.extent.number < b.numa.issued := old v listed
        rw [number]
        exact less.ne
      have free : (p.swept.addSegment s).free = s.blockAt 0 :: others := by
        simp only [Pool.addSegment, record, none, List.nil_append, blocks]
      exact (swept.addSegment fresh apart none (untouched _ number.ge)).pop free

theorem Return.recycles (returned : p.Return x b p' b') (distinct : p.Distinct)
    (recycles : p.Recycles t) : p'.Recycles (t.free (some x)) := by
  have elsewhere {before after : List Segment} {s u : Segment}
      (split : p.segments = before ++ s :: after) (own : x.bare ∈ s.slices)
      (member : u ∈ before ++ after) : ∀ o, x.address ≠ .host u.extent.number o := by
    intro o same
    obtain ⟨o', place⟩ := Segment.address_of_bare own
    have number := (Address.host.inj (same.symm.trans place)).1
    rw [Distinct, split] at distinct
    exact Keyed.apart_of_nodup distinct u member number
  cases returned with
  | parked split own =>
      intro u there
      rcases Keyed.mem_split.mp there with rfl | other
      · exact (recycles _ (split ▸ List.mem_append_cons_self)).park own
      · have queues := recycles u (split ▸ Keyed.mem_split.mpr (.inr other))
        exact queues.free_other (elsewhere split own other)
  | released split own =>
      intro u there
      have queues := recycles u (split ▸ Keyed.mem_split.mpr (.inr there))
      exact queues.free_other (elsewhere split own there)

end Pool

namespace Tenancy

variable {w : Tenancy} {act : Act} {p p' : Pool} {s : Segment} {x : Block} {t : Traffic}

/-- The traffic up to the crest of an act. -/
def arriving (w : Tenancy) (t : Traffic) (act : Act) : Traffic := t.issue (w.issued? act)

/-- The traffic after an act. -/
def passing (w : Tenancy) (t : Traffic) (act : Act) : Traffic :=
  (w.arriving t act).free (w.returned? act)

/-- The traffic after a run. -/
def passingOver (w : Tenancy) (t : Traffic) : List Act → Traffic
  | [] => t
  | act :: acts => (w.step act).passingOver (w.passing t act) acts

/-- All segments are queues, and nothing came from where no extent was yet. -/
structure Recycles (w : Tenancy) (t : Traffic) : Prop where
  pools : ∀ p ∈ w.memory.pools, p.Recycles t
  untouched : ∀ n, w.memory.backing.numa.issued ≤ n → t.Untouched n

/-- What is held of another pool, or by a user, lies elsewhere. -/
theorem Sound.address_ne_of_other (sound : w.Sound) (listed : p ∈ w.memory.pools)
    (there : s ∈ p.segments) (held : x.bare ∈ w.blocks) (other : x.pool? ≠ some p.key) :
    ∀ o, x.address ≠ .host s.extent.number o := by
  have ledger := sound.memory.ledger
  intro o same
  rcases ledger.homes x.bare held with ⟨q, listed', own⟩ | ⟨r, user, -, v, base⟩
  · obtain ⟨q', inside, key, -, s', there', slice⟩ := ledger.segment_of_out held own
    obtain ⟨o', place⟩ := Segment.address_of_bare slice
    have number := (Address.host.inj (place.symm.trans same)).1
    have whole := ledger.segment_eq (mem_segmentsOf.mpr ⟨q', inside, there'⟩)
      (mem_segmentsOf.mpr ⟨p, listed, there⟩) number
    have pool := ((ledger.sound q' inside).formed s' there').pool
    have pool' := ((ledger.sound p listed).formed s there).pool
    rw [Block.bare_pool?, ← key, ← pool, whole, pool'] at own
    exact other own
  · obtain ⟨-, address, -⟩ := Block.of_bare user
    rw [same] at address
    cases address.trans base

theorem Recycles.offers (recycles : w.Recycles t) (offers : w.Offers p) : p.Recycles t := by
  rcases offers with listed | ⟨blank, -⟩
  · exact recycles.pools p listed
  · rw [← blank]
    exact Pool.recycles_of_empty rfl

theorem Supplies.recycles (supplies : w.Supplies act p p') (sound : w.Sound)
    (offers : w.Offers p) (listed : p' ∈ (w.crest act).memory.pools) (recycles : w.Recycles t) :
    p'.Recycles (w.arriving t act) := by
  have own := recycles.offers offers
  cases supplies with
  | idle other same =>
      subst same
      cases gets : w.issued? act with
      | none =>
          rw [arriving, gets, Traffic.issue_none]
          exact own
      | some x =>
          obtain ⟨q, asked, pool⟩ := sound.asked_of_issued gets
          obtain ⟨l, leases, rfl⟩ := lease_of_issued gets
          have held : l.grip.block.bare ∈ (w.crest act).blocks :=
            bare_mem_blocks (leases ▸ List.mem_cons_self)
          rw [arriving, gets]
          intro s there
          apply (own s there).issue_other
          apply (sound.crest act).address_ne_of_other listed there held
          rw [pool]
          exact fun same => other q asked (Option.some.inj same)
  | @arranged order arranges same =>
      have nothing : w.issued? act = none := by
        rw [issued?, demand?_of_none (arranges ▸ rfl), Option.bind_none]
      rw [arriving, nothing, Traffic.issue_none, same]
      exact fun s there => own s ((List.mergeSort_perm p.segments _).mem_iff.mp there)
  | asked _ issued kept went =>
      rw [arriving, issued]
      refine kept.recycles_allocate (kept.allocation went) own ?_ recycles.untouched
      intro u there
      exact sound.memory.ledger.number_lt_issued
        (mem_segmentsOf.mpr ⟨p, offers.listed there, there⟩)

theorem Receives.recycles (receives : w.Receives act p p') (sound : w.Sound)
    (listed : p ∈ (w.crest act).memory.pools) (recycles : p.Recycles t) :
    p'.Recycles (t.free (w.returned? act)) := by
  cases receives with
  | idle other same =>
      subst same
      cases back : w.returned? act with
      | none =>
          rw [Traffic.free_none]
          exact recycles
      | some x =>
          intro s there
          apply (recycles s there).free_other
          exact (sound.crest act).address_ne_of_other listed there (held_of_returned back)
            (other x back)
  | back back origin kept went =>
      rw [back]
      exact (kept.returned origin went).recycles kept.distinct recycles

/-- What is held lies on an extent that was given out, so it is not news from any other. -/
theorem Sound.not_on_of_held {n : Nat} (sound : w.Sound) (held : x.bare ∈ w.blocks)
    (fresh : w.memory.backing.numa.issued ≤ n) : Address.on n [x.address] = [] := by
  apply Address.on_eq_nil
  intro a member o same
  rw [List.mem_singleton.mp member] at same
  have old := sound.number_lt_issued held same
  omega

/-- Up to the crest the backing lasts. -/
theorem lasts_crest (w : Tenancy) (act : Act) :
    w.memory.backing.Lasts (w.crest act).memory.backing := by
  cases act with
  | free | closeHeap => exact .refl _
  | makeRow heap element node len init =>
      exact w.backing_lasts_step (.allocateArray heap element.layout len node)
  | _ => exact w.backing_lasts_step _

theorem Sound.recycles_crest (sound : w.Sound) (recycles : w.Recycles t) (act : Act) :
    (w.crest act).Recycles (w.arriving t act) where
  pools := by
    intro p' listed
    obtain ⟨p, offers, supplies⟩ := sound.supplies listed
    exact supplies.recycles sound offers listed recycles
  untouched := by
    intro n fresh
    have lasts := (w.lasts_crest act).issued
    obtain ⟨issued, freed⟩ := recycles.untouched n (lasts.trans fresh)
    cases gets : w.issued? act with
    | none =>
        rw [arriving, gets, Traffic.issue_none]
        exact ⟨issued, freed⟩
    | some x =>
        obtain ⟨l, leases, rfl⟩ := lease_of_issued gets
        have held : l.grip.block.bare ∈ (w.crest act).blocks :=
          bare_mem_blocks (leases ▸ List.mem_cons_self)
        rw [arriving, gets]
        refine ⟨?_, freed⟩
        rw [Traffic.on_issue, issued, (sound.crest act).not_on_of_held held fresh]
        rfl

theorem Sound.recycles_step (sound : w.Sound) (recycles : w.Recycles t) (act : Act) :
    (w.step act).Recycles (w.passing t act) where
  pools := by
    intro p' listed
    by_cases isClosed : p'.key.heap ∈ (w.step act).closed
    · exact Pool.recycles_of_empty
        ((sound.step act).memory.ledger.closed p' listed isClosed).1
    · obtain ⟨q, there, receives⟩ := sound.receives listed fun gone => absurd gone isClosed
      exact receives.recycles sound there ((sound.recycles_crest recycles act).pools q there)
  untouched := by
    intro n fresh
    have lasts := (w.crest_lasts act).issued
    obtain ⟨issued, freed⟩ := (sound.recycles_crest recycles act).untouched n (lasts.trans fresh)
    cases back : w.returned? act with
    | none =>
        rw [passing, back, Traffic.free_none]
        exact ⟨issued, freed⟩
    | some x =>
        rw [passing, back]
        refine ⟨issued, ?_⟩
        rw [Traffic.on_free, freed,
          (sound.crest act).not_on_of_held (held_of_returned back) (lasts.trans fresh)]
        rfl

theorem Sound.recycles_run (sound : w.Sound) (recycles : w.Recycles t) (acts : List Act) :
    (w.run acts).Recycles (w.passingOver t acts) := by
  unfold Tenancy.run
  induction acts generalizing w t with
  | nil => exact recycles
  | cons act acts ih => exact ih (sound.step act) (sound.recycles_step recycles act)

/-- Every segment has been one queue since it came, to its end in the course of an act. -/
structure Rotates (w : Tenancy) (t : Traffic) : Prop where
  segments : ∀ p ∈ w.memory.pools, ∀ s ∈ p.segments, s.Rotates p.free t
  crest : ∀ act, ∀ p ∈ (w.crest act).memory.pools, ∀ s ∈ p.segments,
    s.Rotates p.free (w.arriving t act)

theorem Recycles.rotates (recycles : w.Recycles t) (sound : w.Sound) :
    ∀ p ∈ w.memory.pools, ∀ s ∈ p.segments, s.Rotates p.free t := by
  intro p listed s there
  have size := (sound.memory.ledger.formed (mem_segmentsOf.mpr ⟨p, listed, there⟩)).1
  exact (recycles.pools p listed s there).rotates size

theorem recycles_start (b : Backing) : (start b).Recycles {} :=
  ⟨nofun, fun _ _ => ⟨rfl, rfl⟩⟩

/-- Whatever callers do who keep to the contract, the blocks of a segment go round in one queue. -/
theorem run_rotates {b : Backing} (unused : b.Unused) (acts : List Act) :
    ((start b).run acts).Rotates ((start b).passingOver {} acts) := by
  have sound := sound_run unused acts
  have recycles := (sound_start unused).recycles_run (recycles_start b) acts
  exact ⟨recycles.rotates sound,
    fun act => (sound.recycles_crest recycles act).rotates (sound.crest act)⟩

/-- A heap that keeps its segments. -/
def hoarding : Act :=
  .openHeap
    { neverFree := true, reserveSegments := 0, tinyLimit := 8, smallLimit := 16, largeLimit := 32,
      tinySegmentSize := 16, smallSegmentSize := 16, largeSegmentSize := 32 }

/-- The second block comes back before the first, and goes out again before it. -/
theorem pair_rotates : shelf.Unused ∧
    (start shelf).passingOver {} [hoarding, .allocate 0 8 0 none, .allocateErased 0 8 0, .free 0,
      .free 0, .allocate 0 8 0 none, .allocate 0 8 0 none] =
        { issued := [.host 0 0, .host 0 8, .host 0 8, .host 0 0],
          freed := [.host 0 8, .host 0 0] } ∧
    ((start shelf).run [hoarding, .allocate 0 8 0 none, .allocateErased 0 8 0, .free 0, .free 0,
      .allocate 0 8 0 none, .allocate 0 8 0 none]).Rotates
        ((start shelf).passingOver {} [hoarding, .allocate 0 8 0 none, .allocateErased 0 8 0,
          .free 0, .free 0, .allocate 0 8 0 none, .allocate 0 8 0 none]) :=
  ⟨unused_shelf, rfl, run_rotates unused_shelf _⟩

end Tenancy

end RegisteredHeap
