import RegisteredHeap.Proofs.Isolation

/-! # Notes on blocks

The handle of a block carries a note of its holder, the length of a message. The note goes back with
the block and waits with it, and whoever gets the block next finds it. Only an erased handle stands
for its block without the note.
-/

namespace RegisteredHeap

/-- What each place was noted with when it was last given back. -/
abbrev Notes := Address → Nat

namespace Notes

/-- The notes after a block came back with its own. -/
def after (notes : Notes) (x : Block) : Notes :=
  Function.update notes x.address x.handle.messageLength

theorem after_self (notes : Notes) (x : Block) : notes.after x x.address = x.handle.messageLength :=
  Function.update_self ..

theorem after_of_ne {notes : Notes} {x : Block} {a : Address} (other : a ≠ x.address) :
    notes.after x a = notes a :=
  Function.update_of_ne other ..

end Notes

namespace Pool

/-- The blocks that nobody holds. -/
def atHand (p : Pool) : List Block := p.free ++ p.segments.flatMap Segment.deferred

/-- The blocks at hand carry the notes that they came back with. -/
def Remembers (p : Pool) (notes : Notes) : Prop :=
  ∀ x ∈ p.atHand, x.handle.messageLength = notes x.address

variable {p p' : Pool} {b b' : Backing} {out : Multiset Block} {rest : Inventory} {s : Segment}
  {x y : Block} {notes : Notes}

theorem mem_atHand : x ∈ p.atHand ↔ x ∈ p.free ∨ ∃ s ∈ p.segments, x ∈ s.deferred := by
  rw [atHand, List.mem_append, List.mem_flatMap]

theorem Remembers.mono (remembers : p.Remembers notes) (less : p'.atHand ⊆ p.atHand) :
    p'.Remembers notes :=
  fun x here => remembers x (less here)

theorem remembers_of_empty (free : p.free = []) (segments : p.segments = []) :
    p.Remembers notes := by
  intro x here
  rw [atHand, free, segments] at here
  cases here

theorem atHand_swept (p : Pool) : p.swept.atHand ⊆ p.atHand := by
  intro x here
  rcases mem_atHand.mp here with ready | ⟨s, there, waits⟩
  · rw [swept, collect_free, List.mem_append] at ready
    rcases ready with ready | collected
    · exact mem_atHand.mpr (.inl ready)
    · obtain ⟨s, there, waits⟩ := List.mem_flatMap.mp collected
      exact mem_atHand.mpr (.inr ⟨s, there, List.mem_reverse.mp waits⟩)
  · rw [deferred_of_mem_collect there] at waits
    cases waits

theorem atHand_pop {others : List Block} (there : p.free = x :: others) :
    x ∈ p.atHand ∧ { p with free := others }.atHand ⊆ p.atHand := by
  refine ⟨mem_atHand.mpr (.inl (there ▸ List.mem_cons_self)), ?_⟩
  intro y here
  rcases mem_atHand.mp here with ready | waits
  · exact mem_atHand.mpr (.inl (there ▸ List.mem_cons_of_mem _ ready))
  · exact mem_atHand.mpr (.inr waits)

theorem Remembers.pop {others : List Block} (remembers : p.Remembers notes)
    (there : p.free = x :: others) :
    { p with free := others }.Remembers notes ∧ x.handle.messageLength = notes x.address :=
  ⟨remembers.mono (atHand_pop there).2, remembers x (atHand_pop there).1⟩

/-- A new segment has blocks without notes, at places that nothing was noted for. -/
theorem Remembers.addSegment (remembers : p.Remembers notes) (fresh : s.deferred = [])
    (unwritten : ∀ o, notes (.host s.extent.number o) = 0) :
    (p.addSegment s).Remembers notes := by
  intro x here
  rcases mem_atHand.mp here with ready | ⟨t, there, waits⟩
  · rcases List.mem_append.mp ready with old | new
    · exact remembers x (mem_atHand.mpr (.inl old))
    · obtain ⟨i, -, rfl⟩ := List.mem_map.mp new
      exact (unwritten _).symm
  · rcases List.mem_append.mp there with old | new
    · exact remembers x (mem_atHand.mpr (.inr ⟨t, old, waits⟩))
    · rw [List.mem_singleton.mp new, fresh] at waits
      cases waits

/-- A request leaves the notes as they are, and what is handed out carries its own. -/
theorem Allocation.remembers {r : Except HeapError Block} (allocation : p.Allocation b rest r p' b')
    (remembers : p.Remembers notes)
    (unwritten : ∀ n o, b.numa.issued ≤ n → notes (.host n o) = 0) :
    p'.Remembers notes ∧ ∀ x, r = .ok x → x.handle.messageLength = notes x.address := by
  have gets {x : Block} (own : x.handle.messageLength = notes x.address) :
      ∀ y, (Except.ok x : Except HeapError Block) = .ok y →
        y.handle.messageLength = notes y.address := by
    rintro y ⟨⟩
    exact own
  have swept := remembers.mono (atHand_swept p)
  cases allocation with
  | ready there => exact (remembers.pop there).imp_right gets
  | collected _ there => exact (swept.pop there).imp_right gets
  | failed =>
      refine ⟨swept, ?_⟩
      rintro x ⟨⟩
  | @grown s others _ _ none obtained _ _ fresh _ blocks =>
      have unwritten' : ∀ o, notes (.host s.extent.number o) = 0 :=
        fun o => unwritten _ o (obtainSegment_new obtained).1.ge
      have free : (p.swept.addSegment s).free = s.blockAt 0 :: others := by
        simp only [Pool.addSegment, record, none, List.nil_append, blocks]
      exact ((swept.addSegment fresh unwritten').pop free).imp_right gets

theorem Remembers.after (remembers : p.Remembers notes)
    (alone : ∀ y ∈ p.atHand, y.address ≠ x.address) : p.Remembers (notes.after x) := by
  intro y here
  rw [Notes.after_of_ne (alone y here)]
  exact remembers y here

/-- A block that comes back is at hand with its note, unless its segment goes with it. -/
theorem Return.atHand (returned : p.Return x b p' b') (here : y ∈ p'.atHand) :
    y = x ∨ y ∈ p.atHand := by
  cases returned with
  | @parked before after s split =>
      rcases mem_atHand.mp here with ready | ⟨t, there, waits⟩
      · exact .inr (mem_atHand.mpr (.inl ready))
      rcases Keyed.mem_split.mp there with rfl | other
      · rcases List.mem_cons.mp waits with same | old
        · exact .inl same
        · have there : s ∈ p.segments := split ▸ List.mem_append_cons_self
          exact .inr (mem_atHand.mpr (.inr ⟨s, there, old⟩))
      · have there : t ∈ p.segments := split ▸ Keyed.mem_split.mpr (.inr other)
        exact .inr (mem_atHand.mpr (.inr ⟨t, there, waits⟩))
  | released split =>
      rcases mem_atHand.mp here with ready | ⟨t, there, waits⟩
      · exact .inr (mem_atHand.mpr (.inl ready))
      · have there : t ∈ p.segments := split ▸ Keyed.mem_split.mpr (.inr there)
        exact .inr (mem_atHand.mpr (.inr ⟨t, there, waits⟩))

theorem Return.remembers (returned : p.Return x b p' b') (remembers : p.Remembers notes)
    (alone : ∀ y ∈ p.atHand, y.address ≠ x.address) : p'.Remembers (notes.after x) := by
  intro y here
  rcases returned.atHand here with rfl | old
  · exact (notes.after_self y).symm
  · exact remembers.after alone y old

end Pool

namespace Tenancy

variable {w : Tenancy} {act : Act} {p p' : Pool} {x : Block} {notes : Notes}

/-- The notes after an act. -/
def noted (w : Tenancy) (notes : Notes) (act : Act) : Notes :=
  match w.returned? act with
  | none => notes
  | some x => notes.after x

/-- The notes after a run. -/
def notedOver (w : Tenancy) (notes : Notes) : List Act → Notes
  | [] => notes
  | act :: acts => (w.step act).notedOver (w.noted notes act) acts

/-- Blocks at hand carry the notes that they came back with, and nothing is noted where no extent was
yet. -/
structure Remembers (w : Tenancy) (notes : Notes) : Prop where
  pools : ∀ p ∈ w.memory.pools, p.Remembers notes
  unwritten : ∀ n o, w.memory.backing.numa.issued ≤ n → notes (.host n o) = 0

theorem Remembers.offers (remembers : w.Remembers notes) (offers : w.Offers p) :
    p.Remembers notes := by
  rcases offers with listed | ⟨blank, -⟩
  · exact remembers.pools p listed
  · rw [← blank]
    exact Pool.remembers_of_empty rfl rfl

theorem Supplies.remembers (supplies : w.Supplies act p p') (offers : w.Offers p)
    (remembers : w.Remembers notes) : p'.Remembers notes := by
  have own := remembers.offers offers
  cases supplies with
  | idle _ same => exact same ▸ own
  | @arranged order _ same =>
      subst same
      apply own.mono
      intro x here
      refine Pool.mem_atHand.mpr ((Pool.mem_atHand.mp here).imp_right ?_)
      rintro ⟨s, there, waits⟩
      exact ⟨s, (List.mergeSort_perm p.segments _).mem_iff.mp there, waits⟩
  | asked _ _ kept went => exact ((kept.allocation went).remembers own remembers.unwritten).1

/-- What an act gets comes with the note of its place. -/
theorem Supplies.note (supplies : w.Supplies act p p') (sound : w.Sound) (offers : w.Offers p)
    (remembers : w.Remembers notes) (gets : w.issued? act = some x) (own : x.pool? = some p.key) :
    x.handle.messageLength = notes x.address := by
  obtain ⟨q, asked, own'⟩ := sound.asked_of_issued gets
  rw [own, Option.some.injEq] at own'
  cases supplies with
  | idle other => exact absurd own'.symm (other q asked)
  | arranged arranges =>
      rw [asked?_of_nothing (demand?_of_none (arranges ▸ rfl))] at asked
      cases asked
  | @asked r _ _ _ issued kept went =>
      rw [gets] at issued
      cases r with
      | error cause => cases issued
      | ok y =>
          cases issued
          have own := remembers.offers offers
          exact ((kept.allocation went).remembers own remembers.unwritten).2 x rfl

/-- No block at hand lies where one is held. -/
theorem Sound.address_ne (sound : w.Sound) {y : Block} (listed : p ∈ w.memory.pools)
    (here : y ∈ p.atHand) (held : x.bare ∈ w.blocks) : y.address ≠ x.address := by
  have ledger := sound.memory.ledger
  intro same
  -- A block is at one place only, and this one is out.
  have nowhere {s : Segment} (there : s ∈ p.segments) (slice : y.bare ∈ s.slices) :
      (p.free.map Block.bare).count y.bare + (s.deferred.map Block.bare).count y.bare = 0 := by
    have equal : x.bare = y.bare :=
      ledger.eq_of_out_address (mem_segmentsOf.mpr ⟨p, listed, there⟩) slice held same.symm
    have once := ledger.count_eq_one listed there slice
    have out := Multiset.one_le_count_iff_mem.mpr (equal ▸ held)
    omega
  rcases Pool.mem_atHand.mp here with ready | ⟨s, there, waits⟩
  · obtain ⟨s, there, slice⟩ := ledger.mem_of_free listed ready
    have some := List.count_pos_iff.mpr (List.mem_map_of_mem (f := Block.bare) ready)
    have none := nowhere there slice
    omega
  · have slice := ledger.mem_of_deferred listed there waits
    have some := List.count_pos_iff.mpr (List.mem_map_of_mem (f := Block.bare) waits)
    have none := nowhere there slice
    omega

/-- What is held lies on an extent that was given out. -/
theorem Sound.number_lt_issued {n o : Nat} (sound : w.Sound) (held : x.bare ∈ w.blocks)
    (place : x.address = .host n o) : n < w.memory.backing.numa.issued := by
  have ledger := sound.memory.ledger
  rcases ledger.homes x.bare held with ⟨p, -, own⟩ | ⟨r, same, -, v, base⟩
  · obtain ⟨q, listed, -, -, s, there, slice⟩ := ledger.segment_of_out held own
    have old := ledger.number_lt_issued (mem_segmentsOf.mpr ⟨q, listed, there⟩)
    obtain ⟨i, -, block⟩ := Segment.mem_slices.mp slice
    obtain ⟨-, address, -⟩ := Block.of_bare block
    rw [place] at address
    cases address
    exact old
  · obtain ⟨-, address, -⟩ := Block.of_bare same
    rw [place] at address
    cases address.trans base

theorem Receives.remembers (receives : w.Receives act p p') (sound : w.Sound)
    (listed : p ∈ (w.crest act).memory.pools) (remembers : p.Remembers notes) :
    p'.Remembers (w.noted notes act) := by
  have alone {x : Block} (back : w.returned? act = some x) :
      ∀ y ∈ p.atHand, y.address ≠ x.address :=
    fun y here => (sound.crest act).address_ne listed here (held_of_returned back)
  cases receives with
  | idle _ same =>
      subst same
      cases back : w.returned? act with
      | none =>
          rw [noted, back]
          exact remembers
      | some x =>
          rw [noted, back]
          exact remembers.after (alone back)
  | back back origin kept went =>
      rw [noted, back]
      exact (kept.returned origin went).remembers remembers (alone back)

theorem Sound.remembers_step (sound : w.Sound) (remembers : w.Remembers notes) (act : Act) :
    (w.step act).Remembers (w.noted notes act) where
  pools := by
    intro p' listed
    by_cases isClosed : p'.key.heap ∈ (w.step act).closed
    · obtain ⟨segments, free⟩ := (sound.step act).memory.ledger.closed p' listed isClosed
      exact Pool.remembers_of_empty free segments
    · obtain ⟨q, there, receives⟩ := sound.receives listed fun gone => absurd gone isClosed
      obtain ⟨p, offers, supplies⟩ := sound.supplies there
      exact receives.remembers sound there (supplies.remembers offers remembers)
  unwritten := by
    intro n o fresh
    have unwritten := remembers.unwritten n o ((w.backing_lasts_step act).issued.trans fresh)
    cases back : w.returned? act with
    | none =>
        rw [noted, back]
        exact unwritten
    | some x =>
        rw [noted, back]
        refine (Notes.after_of_ne ?_).trans unwritten
        intro same
        have old := (sound.crest act).number_lt_issued (held_of_returned back) same.symm
        have lasts := (w.crest_lasts act).issued
        omega

theorem Sound.remembers_run (sound : w.Sound) (remembers : w.Remembers notes) (acts : List Act) :
    (w.run acts).Remembers (w.notedOver notes acts) := by
  unfold Tenancy.run
  induction acts generalizing w notes with
  | nil => exact remembers
  | cons act acts ih => exact ih (sound.step act) (sound.remembers_step remembers act)

/-- What an act gets is a block of a segment with the note of its place, so it is the block that the
segment makes, with the handles that the regions grant, if and only if nothing is noted there. -/
structure Noted (w : Tenancy) (notes : Notes) : Prop where
  issued : ∀ act x, w.issued? act = some x →
    ∃ s ∈ segmentsOf (w.crest act).memory.pools, ∃ i < s.capacity,
      x = (s.blockAt (i * s.pool.blockSize)).setMessageLength (notes x.address) ∧
        (x = s.blockAt (i * s.pool.blockSize) ↔ notes x.address = 0)
  /-- A block that comes back leaves its own note, an erased handle none. -/
  left : ∀ lease l, w.leases[lease]? = some l → l.heap ∉ w.closed →
    ∀ a, w.noted notes (.free lease) a =
      if a = l.grip.block.address then l.grip.returned.handle.messageLength else notes a

theorem Sound.noted (sound : w.Sound) (remembers : w.Remembers notes) : w.Noted notes where
  issued := by
    intro act x gets
    obtain ⟨l, leases, rfl⟩ := lease_of_issued gets
    obtain ⟨p, asked, own⟩ := sound.asked_of_issued gets
    obtain ⟨p', listed, same⟩ := sound.listed_of_asked asked
    obtain ⟨q, offers, supplies⟩ := sound.supplies listed
    rw [← same, supplies.alike.key] at own
    have note := supplies.note sound offers remembers gets own
    have member : l ∈ (w.crest act).leases := leases ▸ List.mem_cons_self
    obtain ⟨s, there, formed, i, inside, block⟩ := (sound.crest act).slice_of_lease member own
    rw [← formed.pool] at block
    have whole : l.grip.block = (s.blockAt (i * s.pool.blockSize)).setMessageLength
        (notes l.grip.block.address) := by
      rw [← block, ← note]
      rfl
    refine ⟨s, there, i, inside, whole, ?_⟩
    constructor
    · intro plain
      rw [← note, plain]
      rfl
    · intro nothing
      rw [nothing] at whole
      exact whole
  left := by
    intro lease l there isOpen a
    have place : l.grip.returned.address = l.grip.block.address := by cases l.grip <;> rfl
    rw [Tenancy.noted, returned?_free there isOpen, ← place]
    exact Function.update_apply ..

theorem remembers_start (b : Backing) : (start b).Remembers fun _ => 0 := by
  refine ⟨?_, fun _ _ _ => rfl⟩
  intro p listed
  cases listed

/-- Whatever callers do who keep to the contract, notes stay with the places of blocks. -/
theorem run_noted {b : Backing} (unused : b.Unused) (acts : List Act) :
    ((start b).run acts).Noted ((start b).notedOver (fun _ => 0) acts) :=
  (sound_run unused acts).noted ((sound_start unused).remembers_run (remembers_start b) acts)

/-- Given back by its erased handle, a block leaves no note. -/
theorem erased_noted : shelf.Unused ∧
    ((start shelf).run [opening, .allocateErased 0 8 0, .allocate 0 8 0 none,
      .setMessageLength 1 7, .free 1]).Noted ((start shelf).notedOver (fun _ => 0)
        [opening, .allocateErased 0 8 0, .allocate 0 8 0 none, .setMessageLength 1 7, .free 1]) ∧
    (start shelf).notedOver (fun _ => 0) [opening, .allocateErased 0 8 0, .allocate 0 8 0 none,
      .setMessageLength 1 7, .free 1] (.host 0 0) = 0 :=
  ⟨unused_shelf, run_noted unused_shelf _, rfl⟩

/-- A note outlives the lease that it was made in. -/
theorem note_left_behind :
    (((start shelf).run [opening, .allocate 0 8 0 none, .allocate 0 8 0 none,
      .setMessageLength 0 7, .free 0]).issued? (.allocate 0 8 0 none)).map
        (fun x => (x.address, x.handle.messageLength)) = some (.host 0 8, 7) ∧
    (start shelf).notedOver (fun _ => 0) [opening, .allocate 0 8 0 none, .allocate 0 8 0 none,
      .setMessageLength 0 7, .free 0] (.host 0 8) = 7 :=
  ⟨rfl, rfl⟩

end Tenancy

end RegisteredHeap
