import RegisteredHeap.Proofs.Accounting
import RegisteredHeap.Proofs.Turns

/-! # Tallies

What a pool goes through in the course of a run is read off the calls: the blocks that it hands out
and gets back, the segments that come and go. Its counters are a ledger of that, to the unit.
-/

namespace RegisteredHeap

/-- What pools go through. -/
@[ext]
structure Tally where
  /-- Requests that got a block. -/
  allocations : Nat := 0
  returns : Nat := 0
  /-- Requests that found no block ready, but some to collect. -/
  reclaims : Nat := 0
  /-- Requests that found no block at all, and for which no segment was to be had. -/
  failures : Nat := 0
  /-- How many blocks the segments hold that came. -/
  made : Nat := 0
  /-- How many blocks the segments held that went. -/
  gone : Nat := 0
  deriving DecidableEq, Repr

namespace Tally

def add (t u : Tally) : Tally where
  allocations := t.allocations + u.allocations
  returns := t.returns + u.returns
  reclaims := t.reclaims + u.reclaims
  failures := t.failures + u.failures
  made := t.made + u.made
  gone := t.gone + u.gone

def total (all : List Tally) : Tally := all.foldl add {}

@[simp] theorem add_nothing (t : Tally) : t.add {} = t := rfl

@[simp] theorem nothing_add (t : Tally) : add {} t = t := by
  ext <;> exact Nat.zero_add _

theorem add_assoc (t u v : Tally) : (t.add u).add v = t.add (u.add v) := by
  ext <;> exact Nat.add_assoc _ _ _

end Tally

/-- How many blocks of a pool there are on the extents that were not there before. -/
def PoolKey.gain (key : PoolKey) (before after : Multiset Extent) : Nat := key.room (after - before)

theorem PoolKey.gain_self (key : PoolKey) (extents : Multiset Extent) :
    key.gain extents extents = 0 := by
  have none := add_tsub_cancel_right 0 extents
  rw [zero_add] at none
  rw [gain, none]
  rfl

theorem PoolKey.gain_cons (key : PoolKey) (e : Extent) (extents : Multiset Extent) :
    key.gain extents (e ::ₘ extents) = e.size / key.blockSize := by
  rw [gain, ← Multiset.singleton_add, add_tsub_cancel_right, room, Multiset.map_singleton,
    Multiset.sum_singleton]

/-- The counters are a ledger of what happened, with so many blocks ready and so many that wait. -/
structure Stats.Tells (s : Stats) (ready waiting : Nat) (t : Tally) : Prop where
  passes : s.slowPaths = s.collections
  entries : s.slowPaths = s.created + t.reclaims + t.failures
  live : s.created = s.liveSegments + s.released
  returns : t.returns = s.collected + waiting + t.gone
  allocations : t.allocations + ready = t.made + s.collected

theorem Stats.Tells.add {s s' : Stats} {ready ready' waiting waiting' : Nat} {t t' : Tally}
    (tells : s.Tells ready waiting t) (tells' : s'.Tells ready' waiting' t') :
    (s.add s').Tells (ready + ready') (waiting + waiting') (t.add t') := by
  obtain ⟨passes, entries, live, returns, allocations⟩ := tells
  obtain ⟨passes', entries', live', returns', allocations'⟩ := tells'
  constructor <;> simp only [Stats.add, Tally.add] <;> omega

namespace Pool

/-- How many blocks wait to be collected. -/
def waiting (p : Pool) : Nat := (p.segments.map fun s => s.deferred.length).sum

def Tells (p : Pool) (t : Tally) : Prop := p.stats.Tells p.free.length p.waiting t

variable {p p' : Pool} {b b' : Backing} {out : Multiset Block} {rest : Inventory} {s : Segment}
  {block : Block} {ready : List Block} {t : Tally}

theorem tells_of_blank (blank : p.blank = p) : p.Tells {} := by
  rw [← blank]
  constructor <;> rfl

theorem Tells.pop (tells : p.Tells t) (there : p.free = block :: ready) :
    { p with free := ready }.Tells (t.add { allocations := 1 }) := by
  obtain ⟨passes, entries, live, returns, allocations⟩ := tells
  rw [there, List.length_cons] at allocations
  refine ⟨passes, entries, live, returns, ?_⟩
  simp only [Tally.add, stats, PoolCounters.snapshot] at allocations ⊢
  omega

theorem length_swept (p : Pool) : p.swept.free.length = p.free.length + p.waiting := by
  rw [swept, collect_free, List.length_append, List.length_flatMap]
  simp only [List.length_reverse]
  rfl

theorem waiting_swept (p : Pool) : p.swept.waiting = 0 := by
  apply List.sum_eq_zero
  intro n member
  obtain ⟨s, there, rfl⟩ := List.mem_map.mp member
  rw [deferred_of_mem_collect there, List.length_nil]

theorem stats_swept (p : Pool) : p.swept.stats =
    { p.stats with
      collections := p.stats.collections + 1
      collected := p.stats.collected + p.waiting
      slowPaths := p.stats.slowPaths + 1 } := by
  have found : ((p.segments.map Segment.collect).flatMap Prod.fst).length = p.waiting := by
    rw [List.flatMap_map, List.length_flatMap]
    simp only [Segment.collect, List.length_reverse]
    rfl
  simp only [swept, collect, record, stats, PoolCounters.record, PoolCounters.snapshot, found,
    List.length_map]

/-- A pass over the waiting blocks counts as a slow path before it is known what comes of it; whatever
that is makes up for it. -/
theorem Tells.sweep {n k : Nat} (tells : p.Tells t) (one : n + k = 1) :
    p.swept.Tells (t.add { reclaims := n, failures := k }) := by
  obtain ⟨passes, entries, live, returns, allocations⟩ := tells
  constructor <;> simp only [stats_swept, length_swept, waiting_swept, Tally.add] <;> omega

theorem stats_addSegment (p : Pool) (s : Segment) : (p.addSegment s).stats =
    { p.stats with
      liveSegments := p.stats.liveSegments + 1
      created := p.stats.created + 1 } := by
  simp only [addSegment, record, stats, PoolCounters.record, PoolCounters.snapshot,
    List.length_append, List.length_singleton]

theorem Tells.grow (tells : p.Tells t) (fresh : s.deferred = []) :
    (p.swept.addSegment s).Tells (t.add { made := s.capacity }) := by
  have ready : (p.swept.addSegment s).free.length = p.swept.free.length + s.capacity := by
    simp only [addSegment, record, List.length_append, Segment.length_blocks]
  have waiting : (p.swept.addSegment s).waiting = p.swept.waiting := by
    simp only [Pool.waiting, addSegment, record, List.map_append, List.sum_append,
      List.map_singleton, List.sum_singleton, fresh, List.length_nil, Nat.add_zero]
  obtain ⟨passes, entries, live, returns, allocations⟩ := tells
  constructor <;>
    simp only [stats_addSegment, stats_swept, ready, waiting, length_swept, waiting_swept,
      Tally.add] <;> omega

/-- What a pool goes through with a request that gets `x`, and for which blocks were made. -/
def charge (p : Pool) (x : Option Block) (made : Nat) : Tally where
  allocations := if x.isSome then 1 else 0
  reclaims := if p.free = [] ∧ p.waiting ≠ 0 then 1 else 0
  failures := if x.isNone then 1 else 0
  made := made

theorem Tells.allocate {r : Except HeapError Block} (tells : p.Tells t)
    (kept : p.Kept b out rest) (went : p.allocate b = (r, p', b')) :
    p'.Tells (t.add (p.charge r.toOption (p.key.gain ↑p.extents ↑p'.extents))) := by
  have found := p.length_swept
  have level : p.key.gain ↑p.extents ↑p.swept.extents = 0 := by
    rw [swept_extents, PoolKey.gain_self]
  cases kept.allocation went with
  | @ready x ready there =>
      have charge : p.charge (some x) 0 = { allocations := 1 } := by simp [Pool.charge, there]
      change Tells _ (t.add (p.charge (some x) (p.key.gain ↑p.extents ↑p.extents)))
      rw [PoolKey.gain_self, charge]
      exact tells.pop there
  | @collected x ready empty there =>
      rw [there, empty, List.length_nil, List.length_cons, Nat.zero_add] at found
      have charge : p.charge (some x) 0 = { reclaims := 1, allocations := 1 } := by
        simp [Pool.charge, empty, ← found]
      change Tells _ (t.add (p.charge (some x) (p.key.gain ↑p.extents ↑p.swept.extents)))
      rw [level, charge]
      exact (tells.sweep (n := 1) (k := 0) rfl).pop there
  | @failed cause _ empty none =>
      rw [none, empty, List.length_nil, Nat.zero_add] at found
      have charge : p.charge Option.none 0 = { failures := 1 } := by
        simp [Pool.charge, ← found]
      change Tells _ (t.add (p.charge Option.none (p.key.gain ↑p.extents ↑p.swept.extents)))
      rw [level, charge]
      exact tells.sweep (n := 0) (k := 1) rfl
  | @grown s ready _ empty none _ _ formed fresh _ blocks =>
      rw [none, empty, List.length_nil, Nat.zero_add] at found
      have charge : p.charge (some (s.blockAt 0)) s.capacity =
          { made := s.capacity, allocations := 1 } := by
        simp [Pool.charge, ← found]
      change Tells _ (t.add (p.charge (some (s.blockAt 0))
        (p.key.gain ↑p.extents ↑(p.swept.addSegment s).extents)))
      rw [swept_addSegment_extents, PoolKey.gain_cons, ← formed.capacity, charge]
      have free : (p.swept.addSegment s).free = s.blockAt 0 :: ready := by
        simp only [addSegment, record, none, List.nil_append, blocks]
      exact (tells.grow fresh).pop free

theorem waiting_split {before after : List Segment} (split : p.segments = before ++ s :: after) :
    p.waiting = s.deferred.length + ((before ++ after).map fun s => s.deferred.length).sum := by
  rw [Pool.waiting, split, sum_map_split]

theorem Tells.park {before after : List Segment} (tells : p.Tells t)
    (split : p.segments = before ++ s :: after) (block : Block) :
    { p with segments := before ++ s.park block :: after }.Tells (t.add { returns := 1 }) := by
  have more : waiting { p with segments := before ++ s.park block :: after } = p.waiting + 1 := by
    rw [waiting_split rfl, waiting_split split, Segment.park, List.length_cons]
    omega
  have length : (before ++ s.park block :: after).length = p.segments.length := by
    rw [split, List.length_append, List.length_append, List.length_cons, List.length_cons]
  obtain ⟨passes, entries, live, returns, allocations⟩ := tells
  refine ⟨passes, entries, ?_, ?_, allocations⟩
  · simp only [stats, PoolCounters.snapshot, length] at live ⊢
    exact live
  · rw [more]
    simp only [stats, PoolCounters.snapshot, Tally.add] at returns ⊢
    omega

theorem Tells.release {before after : List Segment} (tells : p.Tells t)
    (split : p.segments = before ++ s :: after) (last : s.deferred.length + 1 = s.capacity) :
    ({ p with segments := before ++ after }.record .segmentReleased).Tells
      (t.add { returns := 1, gone := s.capacity }) := by
  have waiting := waiting_split split
  obtain ⟨passes, entries, live, returns, allocations⟩ := tells
  refine ⟨passes, entries, ?_, ?_, allocations⟩
  · simp only [stats, PoolCounters.snapshot, record, PoolCounters.record, split,
      List.length_append, List.length_cons] at live ⊢
    omega
  · simp only [stats, PoolCounters.snapshot, record, PoolCounters.record, Pool.waiting,
      Tally.add] at returns waiting ⊢
    omega

theorem Tells.giveBack {n : Nat} (tells : p.Tells t) (kept : p.Kept b (block.bare ::ₘ out) rest)
    (origin : block.origin = .segment p.key n) (went : p.giveBack n block b = (p', b')) :
    p'.Tells (t.add { returns := 1, gone := p.key.gain ↑p'.extents ↑p.extents }) := by
  have formed := kept.sound.formed
  cases kept.returned origin went with
  | @parked before after s split =>
      have same : p.extents = (before ++ s.park block :: after).map Segment.extent := by
        rw [extents, split, List.map_append, List.map_append]
        rfl
      rw [same, extents, PoolKey.gain_self]
      exact tells.park split block
  | @released before after s split _ last =>
      have there : s ∈ p.segments := split ▸ List.mem_append_cons_self
      have more : (↑p.extents : Multiset Extent) =
          s.extent ::ₘ ↑((before ++ after).map Segment.extent) := by
        rw [extents, split, List.map_append, List.map_append, List.map_cons]
        exact Multiset.coe_eq_coe.mpr List.perm_middle
      rw [more, extents, record, PoolKey.gain_cons, ← (formed s there).capacity]
      exact tells.release split last

theorem Tells.arrange (tells : p.Tells t) (order : List Nat) : (p.arrange order).Tells t := by
  have perm := List.mergeSort_perm p.segments fun s t =>
    decide (order.idxOf s.extent.number ≤ order.idxOf t.extent.number)
  have waiting : (p.arrange order).waiting = p.waiting := (perm.map _).sum_eq
  have stats : (p.arrange order).stats = p.stats := by
    rw [Pool.stats, Pool.arrange, perm.length_eq, Pool.stats]
  rw [Tells, stats, waiting]
  exact tells

end Pool

/-- What the pools of a heap tell adds up to what the heap tells. -/
theorem Heap.tells {h : Heap} {t : PoolKey → Tally} (told : ∀ p ∈ h.pools, p.Tells (t p.key)) :
    h.stats.Tells (h.pools.map fun p => p.free.length).sum (h.pools.map Pool.waiting).sum
      (.total (h.pools.map fun p => t p.key)) := by
  -- Totals are folds from the left, so the induction is for any totals to start from.
  have folded (pools : List Pool) (told : ∀ p ∈ pools, p.Tells (t p.key)) :
      ∀ s ready waiting u, Stats.Tells s ready waiting u →
        ((pools.map Pool.stats).foldl Stats.add s).Tells
          (ready + (pools.map fun p => p.free.length).sum)
          (waiting + (pools.map Pool.waiting).sum)
          ((pools.map fun p => t p.key).foldl Tally.add u) := by
    induction pools with
    | nil => exact fun _ _ _ _ tells => tells
    | cons p pools ih =>
        intro s ready waiting u tells
        have first := told p List.mem_cons_self
        have others := ih (fun q member => told q (List.mem_cons_of_mem _ member)) _ _ _ _
          (tells.add first)
        simp only [List.map_cons, List.sum_cons, List.foldl_cons, ← Nat.add_assoc]
        exact others
  have all := folded h.pools told {} 0 0 {} ⟨rfl, rfl, rfl, rfl, rfl⟩
  rw [Nat.zero_add, Nat.zero_add] at all
  exact all

namespace Tenancy

variable {w : Tenancy} {act : Act} {p p' : Pool} {x : Block} {key : PoolKey} {t : PoolKey → Tally}

/-- What a pool goes through until the crest of an act. -/
def handsOut (w : Tenancy) (key : PoolKey) (act : Act) : Tally where
  allocations := if (w.issued? act).bind Block.pool? = some key then 1 else 0
  reclaims :=
    if ∃ p ∈ w.asked? act, p.key = key ∧ p.free = [] ∧ p.waiting ≠ 0 then 1 else 0
  failures := if (w.asked? act).map Pool.key = some key ∧ w.issued? act = none then 1 else 0
  made := key.gain (w.extents key) ((w.crest act).extents key)

/-- What a pool goes through from the crest of an act on. -/
def takesBack (w : Tenancy) (key : PoolKey) (act : Act) : Tally where
  returns := if (w.returned? act).bind Block.pool? = some key then 1 else 0
  gone := key.gain ((w.step act).extents key) ((w.crest act).extents key)

/-- What a pool goes through with an act. -/
def entry (w : Tenancy) (key : PoolKey) (act : Act) : Tally :=
  (w.handsOut key act).add (w.takesBack key act)

/-- What a pool goes through over a run. -/
def tally (w : Tenancy) (key : PoolKey) : List Act → Tally
  | [] => {}
  | act :: acts => (w.entry key act).add ((w.step act).tally key acts)

theorem Offers.extents_eq (sound : w.Sound) (offers : w.Offers p) :
    w.extents p.key = ↑p.extents := by
  rcases offers with listed | ⟨blank, unknown⟩
  · exact sound.memory.ledger.extentsOf_eq listed
  · have none : w.extents p.key = 0 :=
      extentsOf_of_empty fun q listed same => absurd same (unknown q listed)
    rw [none, ← blank]
    rfl

/-- A pool that is not asked hands out nothing. -/
theorem Sound.handsOut_of_other (sound : w.Sound)
    (other : ∀ q, w.asked? act = some q → q.key ≠ key)
    (level : (w.crest act).extents key = w.extents key) : w.handsOut key act = {} := by
  have nobody : (w.asked? act).map Pool.key ≠ some key := by
    intro same
    obtain ⟨q, asked, own⟩ := Option.map_eq_some_iff.mp same
    exact other q asked own
  have nothing : (w.issued? act).bind Block.pool? ≠ some key := by
    intro same
    obtain ⟨x, gets, own⟩ := Option.bind_eq_some_iff.mp same
    obtain ⟨q, asked, own'⟩ := sound.asked_of_issued gets
    rw [own, Option.some.injEq] at own'
    exact other q asked own'.symm
  have unasked : ¬ ∃ p ∈ w.asked? act, p.key = key ∧ p.free = [] ∧ p.waiting ≠ 0 := by
    rintro ⟨q, asked, own, -⟩
    exact other q asked own
  simp only [handsOut, nothing, unasked, nobody, level, PoolKey.gain_self, false_and, if_false]

theorem Sound.handsOut_of_asked (sound : w.Sound) (asked : w.asked? act = some p) :
    w.handsOut p.key act = p.charge (w.issued? act)
      (p.key.gain (w.extents p.key) ((w.crest act).extents p.key)) := by
  have own : (w.issued? act).bind Block.pool? = some p.key ↔ (w.issued? act).isSome := by
    cases gets : w.issued? act with
    | none => simp
    | some x =>
        obtain ⟨q, asked', own⟩ := sound.asked_of_issued gets
        rw [asked, Option.some.injEq] at asked'
        simp [own, asked']
  simp only [handsOut, Pool.charge, own, asked, Option.mem_some, exists_eq_left', Option.map_some,
    true_and, Option.isNone_iff_eq_none]

theorem Supplies.tells {t : Tally} (supplies : w.Supplies act p p') (sound : w.Sound)
    (offers : w.Offers p) (listed : p' ∈ (w.crest act).memory.pools) (told : p.Tells t) :
    p'.Tells (t.add (w.handsOut p.key act)) := by
  have before := offers.extents_eq sound
  have after : (w.crest act).extents p.key = ↑p'.extents := by
    rw [← supplies.alike.key]
    exact (sound.crest act).memory.ledger.extentsOf_eq listed
  cases supplies with
  | idle other same =>
      subst same
      rw [sound.handsOut_of_other other (after.trans before.symm)]
      exact told
  | @arranged order arranges same =>
      subst same
      have nobody : w.asked? act = none := asked?_of_nothing (demand?_of_none (arranges ▸ rfl))
      have level : (w.crest act).extents p.key = w.extents p.key := by
        rw [after, before]
        exact Multiset.coe_eq_coe.mpr ((List.mergeSort_perm p.segments _).map Segment.extent)
      rw [sound.handsOut_of_other (key_ne_of_nobody nobody) level]
      exact told.arrange order
  | @asked r _ _ asked issued kept went =>
      rw [sound.handsOut_of_asked asked, issued, before, after]
      exact told.allocate kept went

/-- A pool that gets nothing back takes nothing in. -/
theorem takesBack_of_other (other : ∀ x, w.returned? act = some x → x.pool? ≠ some key)
    (level : (w.step act).extents key = (w.crest act).extents key) : w.takesBack key act = {} := by
  have nothing : (w.returned? act).bind Block.pool? ≠ some key := by
    intro same
    obtain ⟨x, back, own⟩ := Option.bind_eq_some_iff.mp same
    exact other x back own
  simp only [takesBack, nothing, level, PoolKey.gain_self, if_false]

theorem Receives.tells {t : Tally} (receives : w.Receives act p p') (sound : w.Sound)
    (there : p ∈ (w.crest act).memory.pools) (listed : p' ∈ (w.step act).memory.pools)
    (told : p.Tells t) : p'.Tells (t.add (w.takesBack p.key act)) := by
  have before : (w.crest act).extents p.key = ↑p.extents :=
    (sound.crest act).memory.ledger.extentsOf_eq there
  have after : (w.step act).extents p.key = ↑p'.extents := by
    rw [← receives.alike.key]
    exact (sound.step act).memory.ledger.extentsOf_eq listed
  cases receives with
  | idle other same =>
      subst same
      rw [takesBack_of_other other (after.trans before.symm)]
      exact told
  | @back x n _ _ _ _ back origin kept went =>
      have own : (w.returned? act).bind Block.pool? = some p.key := by
        rw [back]
        exact Block.pool?_eq_some.mpr ⟨n, origin⟩
      simp only [takesBack, own, if_true, before, after]
      exact told.giveBack kept origin went

theorem Sound.alike_crest (sound : w.Sound) (listed : p ∈ (w.crest act).memory.pools) :
    ∃ p' ∈ (w.step act).memory.pools, p.Alike p' := by
  cases w.downturn act with
  | stays _ pools => exact ⟨p, pools ▸ listed, .refl p⟩
  | @closes heap h _ same isOpen there =>
      subst same
      simp only [Tenancy.step, Tenancy.on, isOpen, if_false, Tenancy.close, there]
      obtain ⟨p', listed', alike, -⟩ := alike_closeHeap w.memory heap listed
      exact ⟨p', listed', alike⟩
  | frees frees _ pools =>
      obtain ⟨out, memory⟩ := sound.frees frees
      rw [sound.step_frees frees]
      exact alike_free memory (pools ▸ listed)

theorem Sound.entry_of_unknown (sound : w.Sound)
    (unknown : ∀ p ∈ (w.step act).memory.pools, p.key ≠ key) : w.entry key act = {} := by
  -- Pools stay, so what has no pool afterwards had none at any time.
  have unknown' : ∀ p ∈ (w.crest act).memory.pools, p.key ≠ key := by
    intro p listed same
    obtain ⟨p', listed', alike⟩ := sound.alike_crest listed
    exact unknown p' listed' (alike.key.trans same)
  have unknown'' : ∀ p ∈ w.memory.pools, p.key ≠ key := by
    intro p listed same
    obtain ⟨p', listed', alike⟩ := sound.alike_step act listed
    exact unknown p' listed' (alike.key.trans same)
  have none {v : Tenancy} (missing : ∀ p ∈ v.memory.pools, p.key ≠ key) : v.extents key = 0 :=
    extentsOf_of_empty fun p listed same => absurd same (missing p listed)
  have out : w.handsOut key act = {} := by
    apply sound.handsOut_of_other
    · intro p asked same
      obtain ⟨p', listed, own⟩ := sound.listed_of_asked asked
      exact unknown' p' listed (own.trans same)
    · rw [none unknown', none unknown'']
  have back : w.takesBack key act = {} := by
    apply takesBack_of_other
    · intro x back own
      obtain ⟨p, listed, same, -⟩ :=
        (sound.crest act).memory.ledger.pool_of_out (held_of_returned back) own
      exact unknown' p listed same
    · rw [none unknown, none unknown']
  rw [entry, out, back, Tally.add_nothing]

/-- What the pools of the open heaps tell is what the tallies say. -/
structure Told (w : Tenancy) (t : PoolKey → Tally) : Prop where
  pools : ∀ p ∈ w.memory.pools, p.key.heap ∉ w.closed → p.Tells (t p.key)
  unknown : ∀ key, (∀ p ∈ w.memory.pools, p.key ≠ key) → t key = {}

theorem Told.offers (told : w.Told t) (offers : w.Offers p) (isOpen : p.key.heap ∉ w.closed) :
    p.Tells (t p.key) := by
  rcases offers with listed | ⟨blank, unknown⟩
  · exact told.pools p listed isOpen
  · rw [told.unknown p.key unknown]
    exact Pool.tells_of_blank blank

theorem Sound.told_step (sound : w.Sound) (told : w.Told t) (act : Act) :
    (w.step act).Told fun key => (t key).add (w.entry key act) where
  pools := by
    intro p' listed isOpen
    obtain ⟨q, there, receives⟩ := sound.receives listed fun gone => absurd gone isOpen
    obtain ⟨p, offers, supplies⟩ := sound.supplies there
    rw [receives.alike.key, supplies.alike.key] at isOpen
    have before := told.offers offers fun gone => isOpen (w.closed_subset act gone)
    have after := receives.tells sound there listed (supplies.tells sound offers there before)
    rw [Tally.add_assoc, supplies.alike.key] at after
    rw [receives.alike.key, supplies.alike.key]
    exact after
  unknown := by
    intro key unknown
    have before : t key = {} := by
      apply told.unknown
      intro p listed same
      obtain ⟨p', listed', alike⟩ := sound.alike_step act listed
      exact unknown p' listed' (alike.key.trans same)
    rw [before, sound.entry_of_unknown unknown, Tally.add_nothing]

theorem Sound.told_run (sound : w.Sound) (told : w.Told t) (acts : List Act) :
    (w.run acts).Told fun key => (t key).add (w.tally key acts) := by
  unfold Tenancy.run
  induction acts generalizing w t with
  | nil => exact told
  | cons act acts ih =>
      have rest := ih (sound.step act) (sound.told_step told act)
      simp only [Tally.add_assoc] at rest
      exact rest

/-- Counters are exact: per pool and per heap they tell what the tallies say, and what users register
and give back does not show in them. -/
structure Ledgered (w : Tenancy) (t : PoolKey → Tally) : Prop where
  pools : ∀ p ∈ w.memory.pools, p.key.heap ∉ w.closed → p.Tells (t p.key)
  heaps : ∀ (i : Nat) (h : Heap), w.memory.heaps[i]? = some h → i ∉ w.closed →
    h.stats.Tells (h.pools.map fun p => p.free.length).sum (h.pools.map Pool.waiting).sum
      (.total (h.pools.map fun p => t p.key))
  registers : ∀ heap address size device,
    (w.step (.registerUser heap address size device)).memory.heaps = w.memory.heaps ∧
      ∀ key, w.entry key (.registerUser heap address size device) = {}
  ends : ∀ lease l, w.leases[lease]? = some l → l.grip.block.isUser →
    (w.step (.free lease)).memory.heaps = w.memory.heaps ∧ ∀ key, w.entry key (.free lease) = {}

theorem heaps_registerUser (w : Tenancy) (heap address size : Nat) (device : Option Nat) :
    (w.step (.registerUser heap address size device)).memory.heaps = w.memory.heaps := by
  simp only [Tenancy.step, Tenancy.on]
  split
  · rfl
  rw [memory_keep]
  unfold Memory.registerUser
  split <;> rfl

theorem heaps_free_of_user {m : Memory} (user : x.isUser) : (m.free x).heaps = m.heaps := by
  unfold Block.isUser at user
  unfold Memory.free
  cases origin : x.origin with
  | user r => rfl
  | segment pool extent =>
      rw [origin] at user
      cases user

theorem heaps_giveBack {m : Memory} {g : Grip} (user : g.block.isUser) :
    (g.giveBack m).heaps = m.heaps := by
  cases g with
  | pointer b => exact heaps_free_of_user user
  | owner o =>
      have freed := heaps_free_of_user (m := m.endValues o.element o.values) user
      rw [Memory.heaps_endValues] at freed
      exact freed
  | erased b =>
      cases origin : b.origin with
      | user r =>
          simp only [Grip.giveBack, Memory.freeErased, Block.erase, Memory.restore?, origin]
          exact heaps_free_of_user rfl
      | segment pool extent =>
          simp only [Grip.block, Block.isUser, origin] at user
          cases user

theorem heaps_free {lease : Nat} {l : Lease} (there : w.leases[lease]? = some l)
    (user : l.grip.block.isUser) : (w.step (.free lease)).memory.heaps = w.memory.heaps := by
  simp only [Tenancy.step, Tenancy.giveBack, there, Tenancy.on]
  split
  · rfl
  · exact heaps_giveBack user

/-- An act that no pool is asked in, and that brings no pool a block, is no entry for any of them. -/
theorem Sound.entry_of_idle (sound : w.Sound) (nobody : w.asked? act = none)
    (nothing : ∀ x, w.returned? act = some x → x.pool? = none)
    (up : (w.crest act).memory.heaps = w.memory.heaps)
    (down : (w.step act).memory.heaps = w.memory.heaps) (key : PoolKey) :
    w.entry key act = {} := by
  have level {v : Tenancy} (same : v.memory.heaps = w.memory.heaps) :
      v.extents key = w.extents key := by
    rw [extents, Memory.pools, same]
    rfl
  have out : w.handsOut key act = {} := sound.handsOut_of_other (key_ne_of_nobody nobody) (level up)
  have back : w.takesBack key act = {} := by
    refine takesBack_of_other ?_ ((level down).trans (level up).symm)
    intro x back own
    rw [nothing x back] at own
    cases own
  rw [entry, out, back, Tally.add_nothing]

theorem pool?_of_user (user : x.isUser) : x.pool? = none := by
  cases own : x.pool? with
  | none => rfl
  | some key => exact absurd user (by simp [isUser_of_pool? own])

theorem Sound.entry_free {lease : Nat} {l : Lease} (sound : w.Sound)
    (there : w.leases[lease]? = some l) (user : l.grip.block.isUser) (key : PoolKey) :
    w.entry key (.free lease) = {} := by
  refine sound.entry_of_idle rfl ?_ rfl (heaps_free there user) key
  intro x back
  simp only [returned?, there] at back
  split at back
  · cases back
  · cases back
    apply pool?_of_user
    cases grip : l.grip <;> rw [grip] at user <;> exact user

theorem Sound.ledgered (sound : w.Sound) (told : w.Told t) : w.Ledgered t where
  pools := told.pools
  heaps := by
    intro i h there isOpen
    apply Heap.tells
    intro p member
    have own := ((sound.memory.formed i h there).of_mem member).1
    have listed : p ∈ w.memory.pools :=
      List.mem_flatMap.mpr ⟨h, List.mem_of_getElem? there, member⟩
    exact told.pools p listed (own ▸ isOpen)
  registers := by
    intro heap address size device
    have same := w.heaps_registerUser heap address size device
    refine ⟨same, sound.entry_of_idle rfl ?_ same same⟩
    intro x back
    cases back
  ends _ _ there user := ⟨heaps_free there user, sound.entry_free there user⟩

theorem told_start (b : Backing) : (start b).Told fun _ => {} := ⟨nofun, fun _ _ => rfl⟩

/-- Whatever callers do who keep to the contract, the counters are an exact ledger of it. -/
theorem run_ledgered {b : Backing} (unused : b.Unused) (acts : List Act) :
    ((start b).run acts).Ledgered fun key => (start b).tally key acts := by
  have told := (sound_start unused).told_run (told_start b) acts
  simp only [Tally.nothing_add] at told
  exact (sound_run unused acts).ledgered told

/-- Of two blocks one is handed out a second time; when both are back their segment goes. -/
theorem reclaimed_ledgered : shelf.Unused ∧
    (start shelf).tally ⟨0, 8, 0, none⟩ [opening, .allocate 0 8 0 none, .allocate 0 8 0 none,
      .free 0, .allocate 0 8 0 none, .free 0, .free 0] =
        { allocations := 3, returns := 3, reclaims := 1, made := 2, gone := 2 } ∧
    ((start shelf).run [opening, .allocate 0 8 0 none, .allocate 0 8 0 none,
      .free 0, .allocate 0 8 0 none, .free 0, .free 0]).Ledgered fun key =>
        (start shelf).tally key [opening, .allocate 0 8 0 none, .allocate 0 8 0 none,
          .free 0, .allocate 0 8 0 none, .free 0, .free 0] :=
  ⟨unused_shelf, rfl, run_ledgered unused_shelf _⟩

end Tenancy

end RegisteredHeap
