import RegisteredHeap.Proofs.Peak

/-! # Rounds of growth

A request that finds no ready block looks once more, collects, and then goes on in rounds until
there is a block: in even rounds it adds a segment, in odd ones it waits for others to give something
back. The rounds have no bound of their own. Yet a segment that is added holds at least one block,
however long the extent is that was given for it, so a request that is alone ends with the first
round.
-/

namespace RegisteredHeap

/-- What answers when an extent of so many bytes is asked for on a node. -/
abbrev Source := Nat → Nat → Backing → Except HeapError Extent × Backing

/-- The provider of the backing. -/
def Source.own : Source := fun size node b => b.obtain size node

namespace Pool

/-- The first ready block, and the pool without it. -/
def pop? (p : Pool) : Option (Block × Pool) :=
  match p.free with
  | [] => none
  | x :: others => some (x, { p with free := others })

/-- A new segment, on an extent that the source gives. -/
def segmentFrom (p : Pool) (source : Source) (b : Backing) : Except HeapError Segment × Backing :=
  match source p.segmentSize p.key.node b with
  | (.error cause, b) => (.error cause, b)
  | (.ok extent, b) => p.furnish extent b

/-- What is done in a round before the free list is looked at. -/
inductive Round where
  | grow
  | wait
  deriving DecidableEq

/-- How a request ends that found no ready block. -/
structure Ending where
  result : Except HeapError Block
  pool : Pool
  backing : Backing
  /-- What was done in the rounds, the first one first. -/
  rounds : List Round

/-- Goes on in rounds until there is a block or a segment is refused; `none` if neither comes. -/
def rounds (source : Source) (p : Pool) (b : Backing) (past : List Round) : Option Ending :=
  if past.length % 2 = 0 then
    match p.segmentFrom source b with
    | (.error cause, b) => some ⟨.error cause, p, b, past ++ [.grow]⟩
    | (.ok s, b) =>
      match (p.addSegment s).pop? with
      | some (x, p) => some ⟨.ok x, p, b, past ++ [.grow]⟩
      | none => p.addSegment s |>.rounds source b (past ++ [.grow])
  else
    match p.pop? with
    | some (x, p) => some ⟨.ok x, p, b, past ++ [.wait]⟩
    | none => p |>.rounds source b (past ++ [.wait])
partial_fixpoint

/-- The whole way of a request that found no ready block. -/
def slowPath (source : Source) (p : Pool) (b : Backing) : Option Ending :=
  match (p.record .slowPath).pop? with
  | some (x, p) => some ⟨.ok x, p, b, []⟩
  | none =>
    match p.swept.pop? with
    | some (x, p) => some ⟨.ok x, p, b, []⟩
    | none => rounds source p.swept b []

variable {p : Pool} {source : Source} {b b' : Backing} {extent : Extent} {s : Segment}
  {cause : HeapError} {x : Block} {others : List Block} {e : Ending}

theorem pop?_of_cons (there : p.free = x :: others) :
    p.pop? = some (x, { p with free := others }) := by
  simp only [pop?, there]

theorem pop?_of_nil (empty : p.free = []) : p.pop? = none := by
  simp only [pop?, empty]

/-- An extent without room for a block goes back, and so does one on another node. -/
theorem furnish_of_lt (short : extent.size < p.key.blockSize) :
    ∃ cause, p.furnish extent b = (.error cause, b.release extent) ∧
      (extent.node = p.key.node → cause = .invalidSize p.key.blockSize) := by
  by_cases onNode : extent.node = p.key.node
  · refine ⟨.invalidSize p.key.blockSize, ?_, fun _ => rfl⟩
    simp only [furnish, onNode, ne_eq, not_true_eq_false, if_false, short, if_true]
  · refine ⟨.wrongNode p.key.node extent.node, ?_, fun same => absurd same onNode⟩
    simp only [furnish, ne_eq, onNode, not_false_eq_true, if_true]

/-- A segment is as large as its extent allows, whatever size was asked for. -/
theorem furnish_ok (got : p.furnish extent b = (.ok s, b')) :
    s.pool = p.key ∧ s.extent = extent ∧ s.capacity = extent.size / p.key.blockSize ∧
      p.key.blockSize ≤ extent.size := by
  unfold furnish at got
  split at got
  · cases got
  split at got
  · cases got
  rename_i roomy
  split at got
  · cases got
  split at got
  · cases got
  · cases got
    exact ⟨rfl, rfl, rfl, not_lt.mp roomy⟩

theorem furnish_capacity_pos (size : 0 < p.key.blockSize)
    (got : p.furnish extent b = (.ok s, b')) : 0 < s.capacity := by
  obtain ⟨-, -, capacity, roomy⟩ := furnish_ok got
  rw [capacity]
  exact Nat.div_pos roomy size

theorem segmentFrom_capacity_pos (size : 0 < p.key.blockSize)
    (got : p.segmentFrom source b = (.ok s, b')) : 0 < s.capacity := by
  unfold segmentFrom at got
  split at got
  · cases got
  · exact furnish_capacity_pos size got

/-- The ways in which a request can end that is alone. -/
inductive Way (source : Source) (p : Pool) (b : Backing) : Ending → Prop where
  | ready {x : Block} {others : List Block} (there : p.free = x :: others) :
    Way source p b ⟨.ok x, { p.record .slowPath with free := others }, b, []⟩
  | collected {x : Block} {others : List Block} (empty : p.free = [])
      (there : p.swept.free = x :: others) :
    Way source p b ⟨.ok x, { p.swept with free := others }, b, []⟩
  | refused {cause : HeapError} {b' : Backing} (empty : p.free = []) (collected : p.swept.free = [])
      (got : p.segmentFrom source b = (.error cause, b')) :
    Way source p b ⟨.error cause, p.swept, b', [.grow]⟩
  | grown {s : Segment} {b' : Backing} {others : List Block} (empty : p.free = [])
      (collected : p.swept.free = []) (got : p.segmentFrom source b = (.ok s, b'))
      (some : 0 < s.capacity) (blocks : s.blocks = s.blockAt 0 :: others) :
    Way source p b ⟨.ok (s.blockAt 0), { p.swept.addSegment s with free := others }, b', [.grow]⟩

theorem free_addSegment (empty : p.free = []) (s : Segment) : (p.addSegment s).free = s.blocks := by
  simp only [addSegment, record, empty, List.nil_append]

/-- With no block left, the first round brings one at least, or is refused a segment. -/
theorem rounds_of_empty (size : 0 < p.key.blockSize) (empty : p.free = [])
    (collected : p.swept.free = []) (source : Source) (b : Backing) :
    ∃ e, rounds source p.swept b [] = some e ∧ Way source p b e := by
  have even : ([] : List Round).length % 2 = 0 := rfl
  have same : p.swept.segmentFrom source b = p.segmentFrom source b := rfl
  rw [rounds, if_pos even, same]
  rcases got : p.segmentFrom source b with ⟨cause | s, b'⟩
  · exact ⟨_, rfl, .refused empty collected got⟩
  · have positive := segmentFrom_capacity_pos size got
    obtain ⟨others, blocks⟩ := Segment.blocks_eq_cons positive
    have free := (free_addSegment collected s).trans blocks
    simp only [pop?_of_cons free]
    exact ⟨_, rfl, .grown empty collected got positive blocks⟩

theorem slowPath_ends (size : 0 < p.key.blockSize) (source : Source) (b : Backing) :
    ∃ e, slowPath source p b = some e ∧ Way source p b e := by
  cases empty : p.free with
  | cons x others =>
      have there : (p.record .slowPath).free = x :: others := empty
      simp only [slowPath, pop?_of_cons there]
      exact ⟨_, rfl, .ready empty⟩
  | nil =>
      have none : (p.record .slowPath).free = [] := empty
      cases collected : p.swept.free with
      | cons x others =>
          simp only [slowPath, pop?_of_nil none, pop?_of_cons collected]
          exact ⟨_, rfl, .collected empty collected⟩
      | nil =>
          simp only [slowPath, pop?_of_nil none, pop?_of_nil collected]
          exact rounds_of_empty size empty collected source b

/-- With the provider of the backing, the rounds come to what an allocation answers. -/
theorem Way.allocate_eq (way : Way .own p b e) (empty : p.free = []) :
    p.allocate b = (e.result, e.pool, e.backing) := by
  cases way with
  | ready there =>
      rw [empty] at there
      cases there
  | collected _ there => exact allocate_of_swept empty there b
  | refused _ collected got =>
      have obtained : p.swept.obtainSegment b = _ := got
      rw [allocate_of_grow empty collected, grow, obtained]
  | grown _ collected got _ blocks =>
      have obtained : p.swept.obtainSegment b = _ := got
      have free := (free_addSegment collected _).trans blocks
      simp only [allocate_of_grow empty collected, grow, obtained, free]

/-- A request that is alone asks for one segment at most, and only if there is no block left. It is
answered in the same round, with the lowest block of that segment. -/
structure Settled (source : Source) (p : Pool) (b : Backing) (e : Ending) : Prop where
  once : e.rounds = [] ∨ e.rounds = [.grow]
  drained : e.rounds ≠ [] → p.Drained
  reused : e.rounds = [] →
    (∃ x, e.result = .ok x) ∧ e.pool.extents = p.extents ∧ e.backing = b
  refused : e.rounds ≠ [] → ∀ cause b', p.segmentFrom source b = (.error cause, b') →
    e.result = .error cause ∧ e.pool = p.swept ∧ e.backing = b'
  grown : e.rounds ≠ [] → ∀ s b', p.segmentFrom source b = (.ok s, b') →
    0 < s.capacity ∧ e.result = .ok (s.blockAt 0) ∧
      (∀ x ∈ s.blocks, ∃ n, x.address = (s.blockAt 0).address.advance n) ∧
      s.blocks = s.blockAt 0 :: e.pool.free ∧ e.pool.segments = p.swept.segments ++ [s] ∧
      e.backing = b'

theorem Way.settled (way : Way source p b e) : Settled source p b e := by
  cases way with
  | ready there =>
      exact ⟨.inl rfl, fun grew => absurd rfl grew, fun _ => ⟨⟨_, rfl⟩, rfl, rfl⟩,
        fun grew => absurd rfl grew, fun grew => absurd rfl grew⟩
  | collected empty there =>
      exact ⟨.inl rfl, fun grew => absurd rfl grew, fun _ => ⟨⟨_, rfl⟩, swept_extents p, rfl⟩,
        fun grew => absurd rfl grew, fun grew => absurd rfl grew⟩
  | refused empty collected got =>
      refine ⟨.inr rfl, fun _ => drained_of_swept empty collected, nofun, ?_, ?_⟩
      · intro _ cause b' again
        rw [got, Prod.mk.injEq, Except.error.injEq] at again
        exact ⟨congrArg _ again.1, rfl, again.2⟩
      · intro _ s b' again
        rw [got] at again
        cases again
  | grown empty collected got some blocks =>
      refine ⟨.inr rfl, fun _ => drained_of_swept empty collected, nofun, ?_, ?_⟩
      · intro _ cause b' again
        rw [got] at again
        cases again
      · intro _ s b' again
        rw [got, Prod.mk.injEq, Except.ok.injEq] at again
        obtain ⟨rfl, rfl⟩ := again
        exact ⟨some, rfl, fun x member => Segment.address_of_mem_blocks member, blocks, rfl, rfl⟩

end Pool

namespace Tenancy

variable {w : Tenancy}

/-- Whoever asks a pool for a block while nobody else does gets an answer. -/
structure Progresses (w : Tenancy) : Prop where
  /-- Wherever extents come from, and however long they are. -/
  ends : ∀ heap size node device p, w.memory.Reaches heap size node device p → ∀ source,
    ∃ e, Pool.slowPath source p w.memory.backing = some e ∧
      Pool.Settled source p w.memory.backing e
  answers : ∀ heap size node device p, w.memory.Reaches heap size node device p → p.free = [] →
    ∃ e, Pool.slowPath .own p w.memory.backing = some e ∧
      p.allocate w.memory.backing = (e.result, e.pool, e.backing)
  short : ∀ heap size node device p, w.memory.Reaches heap size node device p →
    ∀ extent b, extent.size < p.key.blockSize →
      ∃ cause, p.furnish extent b = (.error cause, b.release extent) ∧
        (extent.node = p.key.node → cause = .invalidSize p.key.blockSize)
  roomy : ∀ heap size node device p, w.memory.Reaches heap size node device p →
    ∀ extent b s b', p.furnish extent b = (.ok s, b') →
      s.capacity = extent.size / p.key.blockSize ∧ 0 < s.capacity
  inserted : ∀ p ∈ w.memory.pools, ∀ s ∈ p.segments, 0 < s.capacity

theorem Sound.blockSize_pos {heap size node : Nat} {device : Option Nat} {p : Pool}
    (sound : w.Sound) (reaches : w.memory.Reaches heap size node device p) : 0 < p.key.blockSize := by
  obtain ⟨_, _, ledger, _, _, _, _⟩ := sound.memory.answers reaches
  exact (ledger.sound p List.mem_append_cons_self).size

theorem Sound.progresses (sound : w.Sound) : w.Progresses where
  ends _ _ _ _ p reaches source := by
    obtain ⟨e, ends, way⟩ := p.slowPath_ends (sound.blockSize_pos reaches) source w.memory.backing
    exact ⟨e, ends, way.settled⟩
  answers _ _ _ _ p reaches empty := by
    obtain ⟨e, ends, way⟩ := p.slowPath_ends (sound.blockSize_pos reaches) .own w.memory.backing
    exact ⟨e, ends, way.allocate_eq empty⟩
  short _ _ _ _ _ _ _ _ short := Pool.furnish_of_lt short
  roomy _ _ _ _ _ reaches _ _ _ _ got :=
    ⟨(Pool.furnish_ok got).2.2.1, Pool.furnish_capacity_pos (sound.blockSize_pos reaches) got⟩
  inserted p listed s there := by
    have pool := sound.memory.ledger.sound p listed
    exact (pool.formed s there).capacity_pos pool.size

/-- However callers use a memory, the growth of a pool that one of them asks for comes to an end. -/
theorem run_progresses {b : Backing} (unused : b.Unused) (acts : List Act) :
    ((start b).run acts).Progresses :=
  (sound_run unused acts).progresses

/-- The pool for blocks of 8 bytes, as it is made. -/
def untouched : Pool := { key := ⟨0, 8, 0, none⟩, segmentSize := 16, retention := ⟨false, 0⟩ }

/-- Five blocks come of an extent of 40 bytes, where 16 were asked for. -/
theorem longer_progresses : shelf.Unused ∧
    ((start shelf).run [opening]).memory.Reaches 0 8 0 none untouched ∧
    (untouched.segmentFrom (fun _ node b => (.ok ⟨7, 40, node⟩, b)) shelf).1.map Segment.capacity =
      .ok 5 ∧
    ((start shelf).run [opening]).Progresses :=
  ⟨unused_shelf, ⟨_, _, rfl, ⟨_, rfl, rfl⟩, rfl⟩, rfl, run_progresses unused_shelf _⟩

end Tenancy

end RegisteredHeap
