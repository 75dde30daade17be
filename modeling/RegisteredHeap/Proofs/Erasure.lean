import RegisteredHeap.Proofs.Conservation

/-! # Erased handles

An erased handle has no copy, and its keys are not read again. The block is rebuilt from the
address, and to give that back is to give back the block itself: the same pools, the same counts and
the same calls on the backing. Only the note of the block that waits is gone.
-/

namespace RegisteredHeap

variable {a : Address} {x : Block} {b : Backing}

namespace Segment

variable {s : Segment}

/-- No block that starts at the address waits on the segment. -/
def Quiet (a : Address) (s : Segment) : Prop := ∀ x ∈ s.deferred, x.address ≠ a

/-- The block that starts at the address waits without its note. -/
def strip (a : Address) (s : Segment) : Segment :=
  { s with deferred := s.deferred.map fun x => if x.address = a then x.bare else x }

theorem Quiet.strip (quiet : s.Quiet a) : s.strip a = s := by
  have same : (s.deferred.map fun x => if x.address = a then x.bare else x) = s.deferred :=
    Keyed.map_fixed fun x waits => if_neg (quiet x waits)
  rw [Segment.strip, same]

/-- A segment takes a block with or without its note. -/
theorem Quiet.free (quiet : s.Quiet x.address) :
    s.free x.bare = ((s.free x).1, (s.free x).2.strip x.address) := by
  unfold Segment.free
  split
  · rw [quiet.strip]
  · have others := congrArg Segment.deferred quiet.strip
    simp only [Segment.strip] at others
    simp only [Segment.strip, List.map_cons, if_true, others]

end Segment

namespace Pool

variable {p : Pool}

def Quiet (a : Address) (p : Pool) : Prop := ∀ s ∈ p.segments, s.Quiet a

def strip (a : Address) (p : Pool) : Pool := { p with segments := p.segments.map (·.strip a) }

theorem Quiet.strip (quiet : p.Quiet a) : p.strip a = p := by
  have same : p.segments.map (·.strip a) = p.segments :=
    Keyed.map_fixed fun s there => (quiet s there).strip
  rw [Pool.strip, same]

@[simp] theorem stats_strip (p : Pool) (a : Address) : (p.strip a).stats = p.stats := by
  simp only [stats, strip, List.length_map]

@[simp] theorem letsGo_strip (p : Pool) (a : Address) : (p.strip a).letsGo = p.letsGo := by
  simp only [letsGo, strip, List.length_map]

theorem Quiet.setSegment (quiet : p.Quiet a) (s : Segment) :
    p.setSegment (s.strip a) = (p.setSegment s).strip a := by
  simp only [Pool.setSegment, Pool.strip, List.map_map]
  congr 1
  apply List.map_congr_left
  intro t there
  by_cases same : t.extent.number = s.extent.number
  · simp only [Function.comp_apply, same, if_true]
    rw [if_pos (show s.extent.number = (s.strip a).extent.number from rfl)]
  · simp only [Function.comp_apply, same, if_false, (quiet t there).strip]
    rw [if_neg (show ¬ t.extent.number = (s.strip a).extent.number from same)]

theorem removeSegment_strip (p : Pool) (s : Segment) (a : Address) :
    (p.strip a).removeSegment (s.strip a) = (p.removeSegment s).strip a := by
  simp only [removeSegment, strip, record, List.filter_map]
  rfl

/-- A pool takes a block with or without its note, and does the same to the backing. -/
theorem Quiet.giveBack (quiet : p.Quiet x.address) (n : Nat) (b : Backing) :
    p.giveBack n x.bare b = ((p.giveBack n x b).1.strip x.address, (p.giveBack n x b).2) := by
  cases found : p.segment? n with
  | none => simp only [Pool.giveBack, found, quiet.strip]
  | some s =>
      have there : s ∈ p.segments := List.mem_of_find?_eq_some found
      have taken := (quiet s there).free
      simp only [Pool.giveBack, found, taken, quiet.setSegment, letsGo_strip, removeSegment_strip]
      split <;> rfl

end Pool

namespace Heap

variable {h : Heap}

def Quiet (a : Address) (h : Heap) : Prop := ∀ p ∈ h.pools, p.Quiet a

def strip (a : Address) (h : Heap) : Heap := { h with pools := h.pools.map (·.strip a) }

theorem Quiet.strip (quiet : h.Quiet a) : h.strip a = h := by
  have same : h.pools.map (·.strip a) = h.pools :=
    Keyed.map_fixed fun p there => (quiet p there).strip
  rw [Heap.strip, same]

@[simp] theorem stats_strip (h : Heap) (a : Address) : (h.strip a).stats = h.stats := by
  simp only [stats, strip, List.map_map, Function.comp_def, Pool.stats_strip]

theorem Quiet.setPool (quiet : h.Quiet a) (p : Pool) :
    h.setPool (p.strip a) = (h.setPool p).strip a := by
  simp only [Heap.setPool, Heap.strip, List.map_map]
  congr 1
  apply List.map_congr_left
  intro q there
  by_cases same : q.key = p.key
  · simp only [Function.comp_apply, same, if_true]
    rw [if_pos (show p.key = (p.strip a).key from rfl)]
  · simp only [Function.comp_apply, same, if_false, (quiet q there).strip]
    rw [if_neg (show ¬ q.key = (p.strip a).key from same)]

theorem Quiet.giveBack (quiet : h.Quiet x.address) (key : PoolKey) (n : Nat) (b : Backing) :
    h.giveBack key n x.bare b =
      ((h.giveBack key n x b).1.strip x.address, (h.giveBack key n x b).2) := by
  cases found : h.pool? key with
  | none => simp only [Heap.giveBack, found, quiet.strip]
  | some p =>
      have there : p ∈ h.pools := List.mem_of_find?_eq_some found
      simp only [Heap.giveBack, found, (quiet p there).giveBack, quiet.setPool]

end Heap

namespace Memory

variable {m : Memory} {closed : List Nat} {out : Multiset Block}

def Quiet (a : Address) (m : Memory) : Prop := ∀ h ∈ m.heaps, h.Quiet a

def strip (a : Address) (m : Memory) : Memory := { m with heaps := m.heaps.map (·.strip a) }

theorem Quiet.strip (quiet : m.Quiet a) : m.strip a = m := by
  have same : m.heaps.map (·.strip a) = m.heaps :=
    Keyed.map_fixed fun h there => (quiet h there).strip
  rw [Memory.strip, same]

/-- Nothing depends on the note of a block that is given back but the note that waits. -/
theorem Quiet.free (quiet : m.Quiet x.address) : m.free x.bare = (m.free x).strip x.address := by
  unfold Memory.free
  cases origin : x.origin with
  | user r =>
      simp only [Block.bare_origin, origin, log, Block.bare_address]
      exact congrArg (fun heaps => Memory.mk _ heaps) (congrArg Memory.heaps quiet.strip).symm
  | segment key n =>
      cases there : m.heaps[key.heap]? with
      | none =>
          simp only [Block.bare_origin, origin, log, Block.bare_address, there]
          exact congrArg (fun heaps => Memory.mk _ heaps) (congrArg Memory.heaps quiet.strip).symm
      | some h =>
          have others := congrArg Memory.heaps quiet.strip
          simp only [Memory.strip] at others
          simp only [Block.bare_origin, origin, log, Block.bare_address, there,
            (quiet h (List.mem_of_getElem? there)).giveBack, Memory.strip, List.map_set, others]

/-- While a block is outstanding, no block waits at its address. -/
theorem Sound.quiet (sound : m.Sound closed out) (member : x.bare ∈ out) : m.Quiet x.address := by
  intro h there p inside s mine y waits same
  have ledger := sound.ledger
  have listed : p ∈ m.pools := List.mem_flatMap.mpr ⟨h, there, inside⟩
  have slice := ledger.mem_of_deferred listed mine waits
  have equal : x.bare = y.bare :=
    ledger.eq_of_out_address (mem_segmentsOf.mpr ⟨p, listed, mine⟩) slice member same.symm
  have total := ledger.count_eq_one listed mine slice
  have held : 0 < out.count y.bare := Multiset.count_pos.mpr (equal ▸ member)
  have waiting : 0 < (s.deferred.map Block.bare).count y.bare :=
    List.count_pos_iff.mpr (List.mem_map_of_mem waits)
  omega

/-- An erased handle does as well as the block that it was made from. -/
structure Interchanges (m : Memory) (x : Block) : Prop where
  /-- The handle stands for the block, which has all that it had but the note. -/
  rebuilt : m.restore? x.erase = some (x.setMessageLength 0)
  /-- Afterwards the memory is the same, but for the note of the block if it waits. -/
  freed : m.freeErased x.erase = (m.free x).strip x.address
  backing : (m.freeErased x.erase).backing = (m.free x).backing
  stats : (m.freeErased x.erase).heaps.map Heap.stats = (m.free x).heaps.map Heap.stats

theorem Sound.interchanges (sound : m.Sound closed out) (member : x.bare ∈ out) :
    m.Interchanges x := by
  obtain ⟨others, rfl⟩ := Multiset.exists_cons_of_mem member
  have rebuilt : m.restore? x.erase = some x.bare := sound.restore
  have freed : m.freeErased x.erase = (m.free x).strip x.address := by
    rw [Memory.freeErased, rebuilt]
    exact (sound.quiet member).free
  refine ⟨rebuilt, freed, ?_, ?_⟩
  · rw [freed]
    rfl
  · rw [freed]
    simp only [strip, List.map_map, Function.comp_def, Heap.stats_strip]

end Memory

namespace Tenancy

/-- Whatever callers did before and whatever they noted, what they hold can be given back through
erased handles. -/
theorem run_interchanges {b : Backing} (unused : b.Unused) (acts : List Act) (x : Block)
    (held : x.bare ∈ ((start b).run acts).blocks) :
    ((start b).run acts).memory.Interchanges x :=
  (sound_run unused acts).memory.interchanges held

/-- A block with a copy, in which its holder noted a length. -/
theorem noted_interchanges : shelf.Unused ∧
    ∃ x, ((start shelf).run [opening, .allocate 0 8 0 (some 0), .setMessageLength 0 5]).leases.map
        (·.grip.block) = [x] ∧
      x.handle.messageLength = 5 ∧ x.copy.isSome = true ∧
      x.bare ∈ ((start shelf).run
        [opening, .allocate 0 8 0 (some 0), .setMessageLength 0 5]).blocks ∧
      ((start shelf).run
        [opening, .allocate 0 8 0 (some 0), .setMessageLength 0 5]).memory.Interchanges x := by
  refine ⟨unused_shelf, _, rfl, rfl, rfl, ?_, ?_⟩
  · exact Multiset.mem_coe.mpr List.mem_cons_self
  · exact run_interchanges unused_shelf _ _ (Multiset.mem_coe.mpr List.mem_cons_self)

end Tenancy

end RegisteredHeap
