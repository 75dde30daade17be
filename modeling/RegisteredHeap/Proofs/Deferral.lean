import RegisteredHeap.Proofs.Slicing

/-! # Deferral

A segment with its blocks in circulation: they are handed out from a ready list, come back to the
segment in any order, and those that wait there are collected now and then. The segment counts them
apart from the list that it keeps them on. However both are used, the count is the length of the
list, and it says when the segment is empty.
-/

namespace RegisteredHeap

namespace Segment

variable {s : Segment}

/-- Moves the block that waits longest to the end of a list until none waits, and counts. -/
def drain (s : Segment) (ready : List Block) : Nat × List Block × Segment :=
  match _h : s.deferred.getLast? with
  | none => (0, ready, s)
  | some x =>
    let (n, ready, s) := drain { s with deferred := s.deferred.dropLast } (ready ++ [x])
    (n + 1, ready, s)
termination_by s.deferred.length
decreasing_by
  have waits : s.deferred ≠ [] := by
    rintro empty
    rw [empty] at _h
    cases _h
  have some := List.length_pos_of_ne_nil waits
  simp only [List.length_dropLast]
  omega

/-- Collects onto the end of a list, and takes what was moved off the count. -/
def collectOnto (s : Segment) (ready : List Block) : Nat × List Block × Segment :=
  let (n, ready, s) := s.drain ready
  (n, ready, if 0 < n then { s with numFreed := s.numFreed - n } else s)

theorem drain_eq (s : Segment) (ready : List Block) :
    s.drain ready =
      (s.deferred.length, ready ++ s.deferred.reverse, { s with deferred := [] }) := by
  fun_induction drain s ready with
  | case1 s ready none =>
      have empty := List.getLast?_eq_none_iff.mp none
      cases s
      simp_all
  | case2 s ready x last n all rest result ih =>
      obtain ⟨before, split⟩ := List.getLast?_eq_some_iff.mp last
      have shorter : s.deferred.dropLast = before := by rw [split, List.dropLast_concat]
      rw [result, shorter, Prod.mk.injEq, Prod.mk.injEq] at ih
      obtain ⟨rfl, rfl, rfl⟩ := ih
      simp [split]

theorem collectOnto_eq (s : Segment) (ready : List Block) :
    s.collectOnto ready = (s.deferred.length, ready ++ s.collect.1, s.collect.2) := by
  have counted : (if 0 < s.deferred.length then
      { s with deferred := [], numFreed := s.numFreed - s.deferred.length }
      else { s with deferred := [] }) = s.collect.2 := by
    split
    · rfl
    · rename_i nothing
      have none : s.deferred.length = 0 := by omega
      simp only [collect, none, Nat.cast_zero, sub_zero]
  rw [collectOnto, drain_eq]
  exact congrArg (fun t => (s.deferred.length, ready ++ s.deferred.reverse, t)) counted

/-- A segment is empty once all of its blocks wait. -/
theorem parked_eq_slices_iff (inside : s.parked ≤ s.slices) :
    s.parked = s.slices ↔ s.deferred.length = s.capacity := by
  have cards : s.parked.card = s.deferred.length := by simp [parked]
  constructor
  · intro all
    rw [← cards, all, card_slices]
  · intro as_many
    exact Multiset.eq_of_le_of_card_le inside (by rw [cards, card_slices, as_many])

end Segment

namespace Circuit

inductive Outcome where
  /-- A block came back, and the segment said whether it was the last. -/
  | freed (last : Bool)
  /-- So many blocks were collected. -/
  | collected (count : Nat)
  deriving DecidableEq

/-- How many blocks came back since the last collection. The last outcome comes first. -/
def pending : List Outcome → Nat
  | [] => 0
  | .freed _ :: older => pending older + 1
  | .collected _ :: _ => 0

/-- Each block that came back found room, and was said to be the last if it took what was left; each
collection found all that came back since the one before. -/
def Consistent (capacity : Nat) : List Outcome → Prop
  | [] => True
  | .freed last :: older => pending older < capacity ∧
      (last = true ↔ pending older + 1 = capacity) ∧ Consistent capacity older
  | .collected n :: older => n = pending older ∧ Consistent capacity older

namespace Consistent

variable {capacity : Nat} {newer between older : List Outcome}

theorem drop (consistent : Consistent capacity (newer ++ older)) : Consistent capacity older := by
  induction newer with
  | nil => exact consistent
  | cons x newer ih =>
      cases x with
      | freed last => exact ih consistent.2.2
      | collected n => exact ih consistent.2

/-- As long as nothing is drained no more than one block is the last, and with it the segment is
full. -/
theorem count_last (consistent : Consistent capacity (between ++ older))
    (idle : ∀ n, .collected n ∈ between → n = 0) :
    between.count (.freed true) ≤ 1 ∧
      (0 < between.count (.freed true) → pending (between ++ older) = capacity) := by
  induction between with
  | nil => simp
  | cons x between ih =>
      cases x with
      | freed last =>
          obtain ⟨room, tells, before⟩ := consistent
          obtain ⟨-, full⟩ := ih before fun n member => idle n (List.mem_cons_of_mem _ member)
          -- A block that came back found room, so none before it was the last.
          have none : between.count (.freed true) = 0 := by
            by_contra some
            exact room.ne (full (Nat.pos_of_ne_zero some))
          cases last with
          | false => simp [none]
          | true => simpa [none, pending] using tells
      | collected n =>
          obtain ⟨found, before⟩ := consistent
          obtain ⟨once, full⟩ := ih before fun n member => idle n (List.mem_cons_of_mem _ member)
          have nothing : pending (between ++ older) = 0 := found ▸ idle n List.mem_cons_self
          rw [List.count_cons_of_ne (by simp)]
          exact ⟨once, fun some => (full some ▸ nothing).symm⟩

end Consistent

end Circuit

/-- A segment with its blocks in circulation. -/
structure Circuit where
  segment : Segment
  /-- The list that blocks are collected onto. -/
  ready : List Block
  /-- The blocks that are handed out. -/
  held : List Block := []
  /-- The last outcome first. -/
  history : List Circuit.Outcome := []

namespace Circuit

/-- Blocks are named by their places. -/
inductive Act where
  | issue (place : Nat)
  /-- The holder leaves a note in the block. -/
  | free (place note : Nat)
  | collect

def step (c : Circuit) : Act → Circuit
  | .issue place =>
    match c.ready[place]? with
    | none => c
    | some x => { c with ready := c.ready.eraseIdx place, held := x :: c.held }
  | .free place note =>
    match c.held[place]? with
    | none => c
    | some x =>
      let (last, segment) := c.segment.free (x.setMessageLength note)
      { c with segment, held := c.held.eraseIdx place, history := .freed last :: c.history }
  | .collect =>
    let (n, ready, segment) := c.segment.collectOnto c.ready
    { c with segment, ready, history := .collected n :: c.history }

def run (c : Circuit) (acts : List Act) : Circuit := acts.foldl step c

/-- All blocks are ready, the lowest first. -/
def start (s : Segment) : Circuit := { segment := s, ready := s.blocks }

/-- The blocks of `s` are where they are, each at one place, and all that happened was counted. -/
structure Sound (s : Segment) (c : Circuit) : Prop where
  made : ∃ deferred numFreed, c.segment = { s with deferred, numFreed }
  parked : c.segment.Parked
  share : c.segment.parked + ↑(c.ready.map Block.bare) + ↑(c.held.map Block.bare) = s.slices
  pending : c.segment.deferred.length = pending c.history
  consistent : Consistent s.capacity c.history

variable {s : Segment} {c : Circuit} {x : Block} {place note : Nat}

theorem bare_eraseIdx {blocks : List Block} (there : blocks[place]? = some x) :
    (↑(blocks.map Block.bare) : Multiset Block) =
      x.bare ::ₘ ↑((blocks.eraseIdx place).map Block.bare) := by
  obtain ⟨inside, same⟩ := List.getElem?_eq_some_iff.mp there
  have moved : (x :: blocks.eraseIdx place).Perm blocks :=
    same ▸ List.getElem_cons_eraseIdx_perm inside
  exact Multiset.coe_eq_coe.mpr (moved.map Block.bare).symm

namespace Sound

theorem capacity_eq (sound : Sound s c) : c.segment.capacity = s.capacity := by
  obtain ⟨_, _, same⟩ := sound.made
  rw [same]

theorem slices_eq (sound : Sound s c) : c.segment.slices = s.slices := by
  obtain ⟨_, _, same⟩ := sound.made
  rw [same]
  rfl

/-- A block that is handed out is not on the deferred list, which has room for it. -/
theorem room (sound : Sound s c) (there : c.held[place]? = some x) :
    c.segment.deferred.length < c.segment.capacity := by
  have counts := congrArg Multiset.card sound.share
  obtain ⟨inside, -⟩ := List.getElem?_eq_some_iff.mp there
  simp only [Multiset.card_add, Segment.card_slices, Segment.parked, Multiset.coe_card,
    List.length_map] at counts
  rw [sound.capacity_eq]
  omega

theorem origin (sound : Sound s c) (there : c.held[place]? = some x) :
    x.origin = c.segment.origin := by
  have slice : x.bare ∈ s.slices := by
    rw [← sound.share, bare_eraseIdx there]
    exact Multiset.mem_add.mpr (.inr (Multiset.mem_cons_self _ _))
  rw [← sound.slices_eq] at slice
  exact (x.bare_origin).symm.trans (Segment.origin_of_mem_slices slice)

theorem free_eq (sound : Sound s c) (there : c.held[place]? = some x) (note : Nat) :
    c.segment.free (x.setMessageLength note) =
      (c.segment.deferred.length + 1 == c.segment.capacity,
        c.segment.park (x.setMessageLength note)) :=
  Segment.free_eq sound.parked (sound.room there) _

theorem issue (sound : Sound s c) (place : Nat) : Sound s (c.step (.issue place)) := by
  simp only [Circuit.step]
  split
  · exact sound
  · rename_i x there
    refine ⟨sound.made, sound.parked, ?_, sound.pending, sound.consistent⟩
    rw [← sound.share, bare_eraseIdx there, List.map_cons, ← Multiset.cons_coe]
    simp only [Multiset.cons_add, Multiset.add_cons]

theorem free (sound : Sound s c) (place note : Nat) : Sound s (c.step (.free place note)) := by
  simp only [Circuit.step]
  split
  · exact sound
  · rename_i x there
    have room := sound.room there
    have own := sound.origin there
    rw [sound.pending, sound.capacity_eq] at room
    rw [sound.free_eq there note]
    refine ⟨?_, sound.parked.park (b := x.setMessageLength note) own, ?_, ?_, room, ?_,
      sound.consistent⟩
    · obtain ⟨_, _, same⟩ := sound.made
      exact ⟨_, _, by rw [same, Segment.park]⟩
    · rw [← sound.share, bare_eraseIdx there, Segment.parked_park]
      simp only [Multiset.cons_add, Multiset.add_cons]
      rfl
    · exact congrArg (· + 1) sound.pending
    · rw [beq_iff_eq, sound.pending, sound.capacity_eq]

theorem collect (sound : Sound s c) : Sound s (c.step .collect) := by
  simp only [Circuit.step, Segment.collectOnto_eq]
  refine ⟨?_, sound.parked.collect, ?_, rfl, sound.pending, sound.consistent⟩
  · obtain ⟨_, _, same⟩ := sound.made
    exact ⟨_, _, by rw [same, Segment.collect]⟩
  · rw [← sound.share, Segment.collect, List.map_append, List.map_reverse, ← Multiset.coe_add,
      Multiset.coe_reverse]
    simp only [Segment.parked, List.map_nil, Multiset.coe_nil]
    abel

theorem step (sound : Sound s c) (act : Act) : Sound s (c.step act) := by
  cases act with
  | issue place => exact sound.issue place
  | free place note => exact sound.free place note
  | collect => exact sound.collect

theorem run (sound : Sound s c) (acts : List Act) : Sound s (c.run acts) := by
  unfold Circuit.run
  induction acts generalizing c with
  | nil => exact sound
  | cons act acts ih => exact ih (sound.step act)

end Sound

/-- A segment as it is made. -/
theorem sound_start (pool : PoolKey) (extent : Extent) (region : Region)
    (device : Option DeviceSide) :
    Sound (.ofExtent pool extent region device) (start (.ofExtent pool extent region device)) := by
  refine ⟨⟨[], 0, rfl⟩, ⟨rfl, fun x waits => absurd waits List.not_mem_nil⟩, ?_, rfl, trivial⟩
  simp [start, Segment.parked, Segment.ofExtent, Segment.slices, Segment.bare_blocks]

/-- The count of a segment is the number of its blocks that wait, whatever is done with them. -/
structure Counts (s : Segment) (c : Circuit) : Prop where
  counted : c.segment.numFreed = c.segment.deferred.length
  bounds : 0 ≤ c.segment.numFreed ∧ c.segment.numFreed ≤ s.capacity
  distinct : s.blocks.Nodup ∧ s.blocks.length = s.capacity
  /-- What comes back is taken, and is the last if with it the count is the capacity. -/
  frees : ∀ (place note : Nat) (x : Block), c.held[place]? = some x →
    ∃ last t, c.segment.free (x.setMessageLength note) = (last, t) ∧
      t.deferred = x.setMessageLength note :: c.segment.deferred ∧
      t.numFreed = c.segment.numFreed + 1 ∧ (last = true ↔ t.numFreed = s.capacity)
  /-- Between two collections that find something one block at most is the last. -/
  once : ∀ newer between older, c.history = newer ++ (between ++ older) →
    (∀ n, .collected n ∈ between → n = 0) → between.count (.freed true) ≤ 1
  empty : c.segment.isEmpty = true ↔ (c.segment.deferred.map Block.bare).Perm s.blocks
  /-- At once as one after the other, in the order they came back. -/
  collects : c.segment.collect =
      (c.segment.deferred.reverse, { c.segment with deferred := [], numFreed := 0 }) ∧
    ∀ ready, c.segment.collectOnto ready =
      (c.segment.deferred.length, ready ++ c.segment.collect.1, c.segment.collect.2)

namespace Sound

theorem length_deferred_le (sound : Sound s c) : c.segment.deferred.length ≤ s.capacity := by
  have counts := congrArg Multiset.card sound.share
  simp only [Multiset.card_add, Segment.card_slices, Segment.parked, Multiset.coe_card,
    List.length_map] at counts
  omega

theorem isEmpty_iff (sound : Sound s c) :
    c.segment.isEmpty = true ↔ (c.segment.deferred.map Block.bare).Perm s.blocks := by
  have inside : c.segment.parked ≤ c.segment.slices := by
    rw [sound.slices_eq, ← sound.share, add_assoc]
    exact Multiset.le_add_right _ _
  rw [← Multiset.coe_eq_coe]
  change _ ↔ c.segment.parked = s.slices
  rw [← sound.slices_eq, Segment.parked_eq_slices_iff inside, Segment.isEmpty, beq_iff_eq,
    sound.parked.counted, Nat.cast_inj]

theorem frees (sound : Sound s c) (there : c.held[place]? = some x) (note : Nat) :
    ∃ last t, c.segment.free (x.setMessageLength note) = (last, t) ∧
      t.deferred = x.setMessageLength note :: c.segment.deferred ∧
      t.numFreed = c.segment.numFreed + 1 ∧ (last = true ↔ t.numFreed = s.capacity) := by
  refine ⟨_, _, sound.free_eq there note, rfl, ?_, ?_⟩
  · rw [sound.parked.counted]
    rfl
  · have sum : ((c.segment.deferred.length : Int) + 1 = s.capacity) ↔
        c.segment.deferred.length + 1 = s.capacity := by omega
    rw [beq_iff_eq, sound.capacity_eq]
    exact sum.symm

theorem counts (sound : Sound s c) (distinct : s.blocks.Nodup) : Counts s c where
  counted := sound.parked.counted
  bounds := by
    rw [sound.parked.counted]
    exact ⟨Int.natCast_nonneg _, Int.ofNat_le.mpr sound.length_deferred_le⟩
  distinct := ⟨distinct, s.length_blocks⟩
  frees _ note _ there := sound.frees there note
  once newer between older split idle := by
    have consistent := sound.consistent
    rw [split] at consistent
    exact (consistent.drop.count_last idle).1
  empty := sound.isEmpty_iff
  collects := by
    refine ⟨?_, c.segment.collectOnto_eq⟩
    rw [Segment.collect, sound.parked.counted, sub_self]

end Sound

/-- No two blocks of a segment are the same. -/
theorem nodup_ofExtent (pool : PoolKey) (extent : Extent) (region : Region)
    (device : Option DeviceSide) : (Segment.ofExtent pool extent region device).blocks.Nodup := by
  rcases Nat.eq_zero_or_pos pool.blockSize with none | size
  · have empty : (Segment.ofExtent pool extent region device).blocks = [] := by
      rw [← List.length_eq_zero_iff, Segment.length_blocks, Segment.ofExtent, none, Nat.div_zero]
    rw [empty]
    exact List.nodup_nil
  · exact Multiset.coe_nodup.mp (Segment.nodup_slices size)

/-- However the blocks of a segment circulate, its count is right. -/
theorem run_counts (pool : PoolKey) (extent : Extent) (region : Region)
    (device : Option DeviceSide) (acts : List Act) :
    Counts (.ofExtent pool extent region device)
      ((start (.ofExtent pool extent region device)).run acts) :=
  ((sound_start pool extent region device).run acts).counts
    (nodup_ofExtent pool extent region device)

/-- Of three blocks the third that comes back is the last, whichever it is. -/
example :
    let s := Segment.ofExtent ⟨0, 8, 0, none⟩ ⟨0, 24, 0⟩ ⟨1, .host 0 0, 24, .none, none⟩ none
    ((start s).run [.issue 0, .issue 0, .issue 0, .free 1 0, .free 0 7, .free 0 0]).history =
      [.freed true, .freed false, .freed false] := by decide

end Circuit

end RegisteredHeap
