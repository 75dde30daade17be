import RegisteredHeap.Proofs.Accounting
import RegisteredHeap.Proofs.Isolation

/-! # The order of returns

Callers may give back what they hold in any order. Which segments go depends on it where some are
kept for the reserve, but not how many: every segment that gets all its blocks back would go, and
only the reserve holds some of them. What becomes of a pool is told from the blocks that come back,
without their order.
-/

namespace RegisteredHeap

namespace Segment

variable {s : Segment} {x : Block} {back back' : List Block}

/-- How many of the blocks are of the segment. -/
def coming (s : Segment) (back : List Block) : Nat := back.countP (·.origin = s.origin)

/-- With these blocks the segment has all of its own. -/
def completes (s : Segment) (back : List Block) : Bool :=
  s.deferred.length + s.coming back == s.capacity

/-- The segment once its own of these blocks came back. -/
def parkAll (s : Segment) (back : List Block) : Segment :=
  (back.filter (·.origin = s.origin)).foldl park s

theorem Formed.pool?_of_origin {key : PoolKey} (formed : s.Formed key) (own : x.origin = s.origin) :
    x.pool? = some key := by
  rw [Block.pool?, own, ← formed.pool]
  rfl

theorem coming_cons_self (own : x.origin = s.origin) :
    s.coming (x :: back) = s.coming back + 1 :=
  List.countP_cons_of_pos (by simpa using own)

theorem coming_cons_of_ne (other : x.origin ≠ s.origin) : s.coming (x :: back) = s.coming back :=
  List.countP_cons_of_neg (by simpa using other)

theorem completes_cons_of_ne (other : x.origin ≠ s.origin) :
    s.completes (x :: back) = s.completes back := by
  rw [completes, coming_cons_of_ne other, completes]

theorem completes_cons_self (own : x.origin = s.origin) :
    s.completes (x :: back) = (s.park x).completes back := by
  have lengths : s.deferred.length + s.coming (x :: back) =
      (s.park x).deferred.length + (s.park x).coming back := by
    rw [coming_cons_self own, Nat.add_comm (s.coming back), ← Nat.add_assoc]
    rfl
  rw [completes, lengths]
  rfl

theorem parkAll_cons_of_ne (other : x.origin ≠ s.origin) :
    s.parkAll (x :: back) = s.parkAll back := by
  rw [parkAll, List.filter_cons_of_neg (by simpa using other), parkAll]

theorem parkAll_cons_self (own : x.origin = s.origin) :
    s.parkAll (x :: back) = (s.park x).parkAll back := by
  rw [parkAll, List.filter_cons_of_pos (by simpa using own)]
  rfl

theorem completes_perm (perm : back.Perm back') : s.completes back = s.completes back' := by
  rw [completes, coming, perm.countP_eq, completes, coming]

theorem foldl_park (s : Segment) (own : List Block) :
    (own.foldl park s).vacant = s.vacant ∧
      (own.foldl park s).deferred = own.reverse ++ s.deferred := by
  induction own generalizing s with
  | nil => exact ⟨rfl, rfl⟩
  | cons x own ih =>
      obtain ⟨vacant, deferred⟩ := ih (s.park x)
      refine ⟨vacant, ?_⟩
      rw [List.foldl_cons, deferred, List.reverse_cons, List.append_assoc]
      rfl

/-- The same segment, on which the same blocks wait. -/
structure Matches (s t : Segment) : Prop where
  vacant : s.vacant = t.vacant
  deferred : s.deferred.Perm t.deferred

theorem parkAll_matches (s : Segment) (perm : back.Perm back') :
    (s.parkAll back).Matches (s.parkAll back') := by
  obtain ⟨vacant, deferred⟩ := s.foldl_park (back.filter (·.origin = s.origin))
  obtain ⟨vacant', deferred'⟩ := s.foldl_park (back'.filter (·.origin = s.origin))
  refine ⟨vacant.trans vacant'.symm, ?_⟩
  rw [parkAll, parkAll, deferred, deferred']
  apply List.Perm.append_right
  exact (List.reverse_perm _).trans ((perm.filter _).trans (List.reverse_perm _).symm)

end Segment

namespace Retention

variable {r : Retention} {s : Segment} {x : Block} {back back' : List Block}
  {segments before after : List Segment}

/-- How many segments go: those that get all their blocks back, up to the reserve. -/
def releases (r : Retention) (segments : List Segment) (back : List Block) : Nat :=
  if r.neverFree then 0
  else min (segments.countP (·.completes back)) (segments.length - r.reserve)

/-- What becomes of a segment if there is no reserve. -/
def settle? (r : Retention) (back : List Block) (s : Segment) : Option Segment :=
  if r.neverFree || !s.completes back then some (s.parkAll back) else none

theorem releases_perm (segments : List Segment) (perm : back.Perm back') :
    r.releases segments back = r.releases segments back' := by
  have completes : (fun s : Segment => s.completes back) = fun s => s.completes back' :=
    funext fun s => Segment.completes_perm perm
  rw [releases, releases, completes]

/-- A block that is of none of the segments changes nothing. -/
theorem releases_cons_of_ne (other : ∀ s ∈ segments, x.origin ≠ s.origin) :
    r.releases segments (x :: back) = r.releases segments back := by
  have completed : segments.countP (·.completes (x :: back)) = segments.countP (·.completes back) :=
    List.countP_congr fun s there => by rw [Segment.completes_cons_of_ne (other s there)]
  rw [releases, completed, releases]

theorem settle_cons_of_ne (other : ∀ s ∈ segments, x.origin ≠ s.origin) :
    segments.filterMap (r.settle? (x :: back)) = segments.filterMap (r.settle? back) := by
  apply List.filterMap_congr
  intro s there
  rw [settle?, Segment.completes_cons_of_ne (other s there),
    Segment.parkAll_cons_of_ne (other s there), settle?]

theorem settle_cons_self (own : x.origin = s.origin) :
    r.settle? (x :: back) s = r.settle? back (s.park x) := by
  rw [settle?, Segment.completes_cons_self own, Segment.parkAll_cons_self own, settle?]

variable (own : x.origin = s.origin) (others : ∀ t ∈ before ++ after, x.origin ≠ t.origin)

include others in
theorem completed_split :
    (before ++ s :: after).countP (·.completes (x :: back)) =
      (before ++ after).countP (·.completes back) + (s.completes (x :: back)).toNat := by
  have rest : (before ++ after).countP (·.completes (x :: back)) =
      (before ++ after).countP (·.completes back) :=
    List.countP_congr fun t there => by rw [Segment.completes_cons_of_ne (others t there)]
  rw [List.perm_middle.countP_eq, List.countP_cons, rest]
  cases s.completes (x :: back) <;> rfl

include own others in
/-- It comes to the same whether a block has come back or is still to come. -/
theorem releases_park :
    r.releases (before ++ s :: after) (x :: back) =
      r.releases (before ++ s.park x :: after) back := by
  have after : (before ++ s.park x :: after).countP (·.completes back) =
      (before ++ after).countP (·.completes back) + ((s.park x).completes back).toNat := by
    rw [List.perm_middle.countP_eq, List.countP_cons]
    cases (s.park x).completes back <;> rfl
  rw [releases, completed_split others, Segment.completes_cons_self own, releases, after]
  simp

include others in
theorem settled_split :
    (before ++ s :: after).filterMap (r.settle? (x :: back)) =
      before.filterMap (r.settle? back) ++
        ((r.settle? (x :: back) s).toList ++ after.filterMap (r.settle? back)) := by
  have left : before.filterMap (r.settle? (x :: back)) = before.filterMap (r.settle? back) :=
    settle_cons_of_ne fun t there => others t (List.mem_append_left _ there)
  have right : after.filterMap (r.settle? (x :: back)) = after.filterMap (r.settle? back) :=
    settle_cons_of_ne fun t there => others t (List.mem_append_right _ there)
  rw [List.filterMap_append, List.filterMap_cons, left, right]
  cases r.settle? (x :: back) s <;> rfl

include own others in
theorem settle_park :
    (before ++ s :: after).filterMap (r.settle? (x :: back)) =
      (before ++ s.park x :: after).filterMap (r.settle? back) := by
  rw [settled_split others, settle_cons_self own, List.filterMap_append, List.filterMap_cons]
  cases r.settle? back (s.park x) <;> rfl

variable (done : s.completes (x :: back)) (frees : r.neverFree = false)

include others done frees in
/-- A segment that goes takes its place below those that may go. -/
theorem releases_remove (more : r.reserve < (before ++ s :: after).length) :
    r.releases (before ++ s :: after) (x :: back) =
      r.releases (before ++ after) back + 1 := by
  have length : (before ++ s :: after).length = (before ++ after).length + 1 :=
    List.perm_middle.length_eq
  rw [length] at more
  rw [releases, releases, completed_split others, done, frees, length, Bool.toNat_true]
  simp only [Bool.false_eq_true, if_false]
  omega

include others done frees in
theorem settle_remove :
    (before ++ s :: after).filterMap (r.settle? (x :: back)) =
      (before ++ after).filterMap (r.settle? back) := by
  have gone : r.settle? (x :: back) s = none := by
    rw [settle?, done, frees]
    rfl
  rw [settled_split others, gone, List.filterMap_append]
  rfl

end Retention

namespace Pool

variable {p p' p'' : Pool} {b b' : Backing} {out : Multiset Block} {rest : Inventory} {s : Segment}
  {x : Block} {back back' : List Block}

/-- What becomes of a pool when these blocks come back, whatever their order. -/
structure Settles (p : Pool) (back : List Block) (p' : Pool) : Prop where
  alike : p.Alike p'
  free : p'.free = p.free
  length : p'.segments.length + p.retention.releases p.segments back = p.segments.length
  counters : p'.counters =
    { p.counters with
      released := p.counters.released + p.retention.releases p.segments back }
  /-- Without a reserve it is told as well which segments stay. -/
  segments : p.retention.neverFree = true ∨ p.retention.reserve = 0 →
    p'.segments = p.segments.filterMap (p.retention.settle? back)

/-- Where nothing came back, no segment is complete that could go. -/
theorem Sound.settles_nil (sound : p.Sound out) : p.Settles [] p := by
  have complete {s : Segment} : s.completes [] = true ↔ s.deferred.length = s.capacity := by
    simp [Segment.completes, Segment.coming]
  have partly (frees : p.retention.neverFree = false)
      (more : p.retention.reserve < p.segments.length) : ∀ s ∈ p.segments, ¬ s.completes [] := by
    intro s there done
    have few := sound.kept frees ⟨s, there, complete.mp done⟩
    omega
  have releases : p.retention.releases p.segments [] = 0 := by
    rw [Retention.releases]
    cases frees : p.retention.neverFree with
    | true => rfl
    | false =>
        cases Nat.lt_or_ge p.retention.reserve p.segments.length with
        | inl more =>
            have none := List.countP_eq_zero.mpr (partly frees more)
            simp [none]
        | inr few => simp [Nat.sub_eq_zero_of_le few]
  refine ⟨.refl p, rfl, by rw [releases, Nat.add_zero], by rw [releases, Nat.add_zero], ?_⟩
  intro simple
  have stays : ∀ s ∈ p.segments, p.retention.settle? [] s = some s := by
    intro s there
    cases frees : p.retention.neverFree with
    | true => simp [Retention.settle?, frees, Segment.parkAll]
    | false =>
        have none : p.retention.reserve = 0 := by simpa [frees] using simple
        have unfinished := partly frees (none ▸ List.length_pos_of_mem there) s there
        simp [Retention.settle?, frees, unfinished, Segment.parkAll]
  rw [List.filterMap_congr stays, List.filterMap_some]

/-- A block of another pool changes nothing. -/
theorem Settles.cons_other (settles : p.Settles back p')
    (other : ∀ s ∈ p.segments, x.origin ≠ s.origin) : p.Settles (x :: back) p' := by
  obtain ⟨alike, free, length, counters, segments⟩ := settles
  have releases : p.retention.releases p.segments (x :: back) =
      p.retention.releases p.segments back := Retention.releases_cons_of_ne other
  have settle : p.segments.filterMap (p.retention.settle? (x :: back)) =
      p.segments.filterMap (p.retention.settle? back) := Retention.settle_cons_of_ne other
  exact ⟨alike, free, releases ▸ length, releases ▸ counters, settle ▸ segments⟩

/-- A block that comes back waits on its segment, or the segment goes, before the others come. -/
theorem Return.settles (returned : p.Return x b p' b') (distinct : p.Distinct)
    (fits : ∀ s ∈ p.segments, s.deferred.length + s.coming (x :: back) ≤ s.capacity)
    (settles : p'.Settles back p'') : p.Settles (x :: back) p'' := by
  obtain ⟨alike, free, length, counters, segments⟩ := settles
  have others {before after : List Segment} {s : Segment}
      (split : p.segments = before ++ s :: after) (own : x.origin = s.origin) :
      ∀ t ∈ before ++ after, x.origin ≠ t.origin := by
    intro t there same
    rw [Distinct, split] at distinct
    exact origin_ne_of_apart (Keyed.apart_of_nodup distinct) there (same.symm.trans own)
  cases returned with
  | @parked before after s split own =>
      have same : x.origin = s.origin := Segment.origin_of_mem_slices (b := x.bare) own
      have releases : p.retention.releases p.segments (x :: back) =
          p.retention.releases (before ++ s.park x :: after) back := by
        rw [split]
        exact Retention.releases_park same (others split same)
      have settle : p.segments.filterMap (p.retention.settle? (x :: back)) =
          (before ++ s.park x :: after).filterMap (p.retention.settle? back) := by
        rw [split]
        exact Retention.settle_park same (others split same)
      have lengths : (before ++ s.park x :: after).length = p.segments.length := by simp [split]
      refine ⟨⟨alike.key, alike.segmentSize, alike.retention⟩, free, ?_, ?_, ?_⟩
      · rw [releases, ← lengths]
        exact length
      · rw [releases]
        exact counters
      · rw [settle]
        exact segments
  | @released before after s split own last go =>
      have same : x.origin = s.origin := Segment.origin_of_mem_slices (b := x.bare) own
      -- The segment goes with its last block, so of what is still to come nothing is its own.
      have room := fits s (split ▸ List.mem_append_cons_self)
      have done : s.completes (x :: back) = true := by
        rw [Segment.coming_cons_self same] at room
        rw [Segment.completes, Segment.coming_cons_self same, beq_iff_eq]
        omega
      simp only [letsGo, Bool.and_eq_true, Bool.not_eq_true', decide_eq_true_eq] at go
      obtain ⟨frees, more⟩ := go
      rw [split] at more
      have releases := Retention.releases_remove (others split same) done frees more
      have settle := Retention.settle_remove (others split same) done frees
      have lengths : p.segments.length = (before ++ after).length + 1 := by
        rw [split]
        exact List.perm_middle.length_eq
      rw [← split] at releases settle
      refine ⟨⟨alike.key, alike.segmentSize, alike.retention⟩, free, ?_, ?_, ?_⟩
      · rw [releases, lengths, ← Nat.add_assoc]
        exact congrArg (· + 1) length
      · rw [releases, counters]
        simp only [record, PoolCounters.record, Nat.add_assoc, Nat.add_comm 1]
      · rw [settle]
        exact segments

/-- Two pools that callers cannot tell apart by their counters, and without a reserve not by their
segments. -/
structure Agrees (p q : Pool) : Prop where
  stats : p.stats = q.stats
  length : p.segments.length = q.segments.length
  segments : p.retention.neverFree = true ∨ p.retention.reserve = 0 →
    List.Forall₂ Segment.Matches p.segments q.segments

/-- Without a reserve the same segments stay, and the same blocks wait on them. -/
theorem matches_settle (r : Retention) (segments : List Segment) (perm : back.Perm back') :
    List.Forall₂ Segment.Matches (segments.filterMap (r.settle? back))
      (segments.filterMap (r.settle? back')) := by
  induction segments with
  | nil => exact .nil
  | cons s segments ih =>
      have same : s.completes back = s.completes back' := Segment.completes_perm perm
      rw [List.filterMap_cons, List.filterMap_cons, Retention.settle?, Retention.settle?, ← same]
      cases r.neverFree || !s.completes back with
      | true => exact .cons (s.parkAll_matches perm) ih
      | false => exact ih

/-- The order of what comes back tells nothing about the counters. -/
theorem Settles.agrees {q : Pool} (settles : p.Settles back p') (settles' : p.Settles back' q)
    (perm : back.Perm back') : p'.Agrees q := by
  have releases := Retention.releases_perm (r := p.retention) p.segments perm
  have length := settles.length
  have length' := settles'.length
  have same : p'.segments.length = q.segments.length := by omega
  refine ⟨?_, same, ?_⟩
  · rw [stats, stats, settles.counters, settles'.counters, releases, same]
  · intro simple
    rw [settles.alike.retention] at simple
    rw [settles.segments simple, settles'.segments simple]
    exact matches_settle _ _ perm

/-- Lists of pools with the same keys agree in what pools of one key agree in. -/
theorem map_eq_of_keys {α : Type} {f : Pool → α} {ps qs : List Pool}
    (keys : ps.map Pool.key = qs.map Pool.key)
    (same : ∀ p ∈ ps, ∀ q ∈ qs, p.key = q.key → f p = f q) : ps.map f = qs.map f := by
  induction ps generalizing qs with
  | nil =>
      rw [List.map_nil, eq_comm, List.map_eq_nil_iff] at keys
      rw [keys]
  | cons p ps ih =>
      cases qs with
      | nil => cases keys
      | cons q qs =>
          obtain ⟨first, rest⟩ := List.cons.inj keys
          rw [List.map_cons, List.map_cons,
            same p List.mem_cons_self q List.mem_cons_self first,
            ih rest fun p there q there' =>
              same p (List.mem_cons_of_mem _ there) q (List.mem_cons_of_mem _ there')]

end Pool

/-- Of what the registrar counts only the regions that were dropped may differ. -/
def Backing.Sheds (b b' : Backing) : Prop :=
  b'.registrar = { b.registrar with deregistered := b'.registrar.deregistered }

namespace Backing.Sheds

variable {b b' b'' : Backing}

theorem refl (b : Backing) : b.Sheds b := rfl

theorem trans (first : b.Sheds b') (second : b'.Sheds b'') : b.Sheds b'' := by
  rw [Sheds] at first second ⊢
  rw [second, first]

theorem segment (s : Segment) (b : Backing) : b.Sheds (s.release b) := by
  cases there : s.device with
  | none => simp only [Segment.release, there]; rfl
  | some d => simp only [Segment.release, there]; rfl

theorem giveBack (p : Pool) (n : Nat) (x : Block) (b : Backing) :
    b.Sheds (p.giveBack n x b).2 := by
  unfold Pool.giveBack
  split
  · exact .refl b
  · simp only
    split
    · exact segment _ b
    · exact .refl b

end Backing.Sheds

namespace Memory

/-- The keys of the pools of each heap. -/
def keys (m : Memory) : List (List PoolKey) := m.heaps.map fun h => h.pools.map Pool.key

/-- The heaps have the same pools, and at most regions were dropped. -/
structure Slims (m m' : Memory) : Prop where
  keys : m'.keys = m.keys
  sheds : m.backing.Sheds m'.backing

variable {m m' m'' : Memory}

theorem Slims.refl (m : Memory) : m.Slims m := ⟨rfl, .refl _⟩

theorem Slims.trans (first : m.Slims m') (second : m'.Slims m'') : m.Slims m'' :=
  ⟨second.keys.trans first.keys, first.sheds.trans second.sheds⟩

theorem keys_setPool (h : Heap) (p : Pool) :
    (h.setPool p).pools.map Pool.key = h.pools.map Pool.key := by
  rw [Heap.setPool, List.map_map]
  apply List.map_congr_left
  intro q _
  simp only [Function.comp_apply]
  split
  · rename_i same
    exact same.symm
  · rfl

theorem keys_set {i : Nat} {h h' : Heap} (there : m.heaps[i]? = some h)
    (same : h'.pools.map Pool.key = h.pools.map Pool.key) (b : Backing) :
    Memory.keys ⟨b, m.heaps.set i h'⟩ = m.keys :=
  Keyed.map_set there same

theorem slims_free (m : Memory) (x : Block) : m.Slims (m.free x) := by
  unfold Memory.free
  cases x.origin with
  | user r => exact ⟨rfl, rfl⟩
  | segment key n =>
      simp only
      split
      · exact ⟨rfl, rfl⟩
      · rename_i h there
        unfold Heap.giveBack
        split
        · exact ⟨keys_set (m := m) there rfl _, rfl⟩
        · rename_i p found
          have sheds := Backing.Sheds.giveBack p n x (m.log (.blockFreed x.address)).backing
          exact ⟨keys_set (m := m) there (keys_setPool h _) _, sheds⟩

theorem slims_endValues (m : Memory) (element : Element) (values : List Nat) :
    m.Slims (m.endValues element values) :=
  endValues_induction (P := fun m' => m.Slims m') element values (.refl m)
    fun _ _ slims => slims.trans ⟨rfl, rfl⟩

theorem slims_giveBack (m : Memory) (g : Grip) : m.Slims (g.giveBack m) := by
  cases g with
  | pointer b => exact m.slims_free b
  | owner o => exact (m.slims_endValues _ _).trans (slims_free _ _)
  | erased b =>
      simp only [Grip.giveBack, freeErased]
      split
      · exact m.slims_free _
      · exact .refl m

end Memory

namespace Tenancy

variable {w v v' : Tenancy} {l : Lease} {ls xs ys : List Lease} {p q : Pool}

/-- The holder of a lease gives it back. -/
def surrender (w : Tenancy) (l : Lease) : Tenancy := w.step (.free (w.leases.idxOf l))

/-- These leases are given back, one after the other and with nothing in between. -/
def surrenderAll (w : Tenancy) (ls : List Lease) : Tenancy := ls.foldl surrender w

theorem surrender_of_closed (held : l ∈ w.leases) (isClosed : l.heap ∈ w.closed) :
    w.surrender l = w := by
  simp only [surrender, Tenancy.step, Tenancy.giveBack, List.getElem?_idxOf held, Tenancy.on,
    isClosed, if_true]

theorem surrender_of_open (held : l ∈ w.leases) (isOpen : l.heap ∉ w.closed) :
    w.surrender l =
      { w with memory := l.grip.giveBack w.memory, leases := w.leases.erase l } := by
  simp only [surrender, Tenancy.step, Tenancy.giveBack, List.getElem?_idxOf held, Tenancy.on,
    isOpen, if_false, List.erase_eq_eraseIdx_of_idxOf]

theorem slims_surrender (w : Tenancy) (l : Lease) : w.memory.Slims (w.surrender l).memory := by
  simp only [surrender, Tenancy.step, Tenancy.giveBack]
  split
  · exact .refl _
  · simp only [Tenancy.on]
    split
    · exact .refl _
    · exact w.memory.slims_giveBack _

theorem slims_surrenderAll (w : Tenancy) (ls : List Lease) :
    w.memory.Slims (w.surrenderAll ls).memory := by
  unfold surrenderAll
  induction ls generalizing w with
  | nil => exact .refl _
  | cons l ls ih => exact (w.slims_surrender l).trans (ih _)

theorem Sound.surrenderAll (sound : w.Sound) (ls : List Lease) : (w.surrenderAll ls).Sound := by
  unfold Tenancy.surrenderAll
  induction ls generalizing w with
  | nil => exact sound
  | cons l ls ih => exact ih (sound.step _)

theorem closed_surrender (w : Tenancy) (l : Lease) : (w.surrender l).closed = w.closed :=
  closed_step nofun

theorem Sound.nodup_leases (sound : w.Sound) : w.leases.Nodup :=
  List.Nodup.of_map _ (Multiset.coe_nodup.mp sound.memory.ledger.nodup_out)

/-- What is held after a return is what else was held. -/
theorem Sound.leases_surrender (sound : w.Sound) (held : l ∈ w.leases) :
    (w.surrender l).leases = w.leases.filter fun m => m ≠ l ∨ m.heap ∈ w.closed := by
  by_cases isClosed : l.heap ∈ w.closed
  · rw [surrender_of_closed held isClosed]
    symm
    rw [List.filter_eq_self]
    intro m _
    by_cases same : m = l
    · simp [same, isClosed]
    · simp [same]
  · rw [surrender_of_open held isClosed, sound.nodup_leases.erase_eq_filter]
    apply List.filter_congr
    intro m _
    by_cases same : m = l
    · simp [same, isClosed]
    · simp [same]

/-- The rest is still held when the first one was given back. -/
theorem Sound.held_surrender (sound : w.Sound) (distinct : (l :: ls).Nodup)
    (held : l :: ls ⊆ w.leases) : ls ⊆ (w.surrender l).leases := by
  obtain ⟨first, rest⟩ := List.cons_subset.mp held
  intro m member
  rw [sound.leases_surrender first, List.mem_filter]
  have other : m ≠ l := ne_of_mem_of_not_mem member (List.nodup_cons.mp distinct).1
  exact ⟨rest member, by simp [other]⟩

theorem Sound.leases_surrenderAll (sound : w.Sound) (distinct : ls.Nodup)
    (held : ls ⊆ w.leases) :
    (w.surrenderAll ls).leases = w.leases.filter fun m => m ∉ ls ∨ m.heap ∈ w.closed := by
  induction ls generalizing w with
  | nil => simp [Tenancy.surrenderAll]
  | cons l ls ih =>
      have first := sound.leases_surrender (held List.mem_cons_self)
      have rest : (w.surrenderAll (l :: ls)).leases =
          (w.surrender l).leases.filter fun m => m ∉ ls ∨ m.heap ∈ (w.surrender l).closed :=
        ih (sound.step _) (List.nodup_cons.mp distinct).2 (sound.held_surrender distinct held)
      rw [rest, first, w.closed_surrender l, List.filter_filter]
      apply List.filter_congr
      intro m _
      grind

/-- What is given back of a segment is held of it before. -/
theorem coming_le (distinct : ls.Nodup) (held : ls ⊆ w.leases) (s : Segment) :
    s.coming (ls.map (·.grip.returned)) ≤
      (w.blocks.filter fun x : Block => x.origin = s.origin).card := by
  have own : ∀ g : Grip, g.returned.origin = g.block.bare.origin := by
    intro g
    cases g <;> rfl
  calc
    s.coming (ls.map (·.grip.returned)) =
        ls.countP fun l => l.grip.block.bare.origin = s.origin := by
      rw [Segment.coming, List.countP_map]
      apply List.countP_congr
      intro l _
      simp only [Function.comp_apply, own]
    _ ≤ w.leases.countP fun l => l.grip.block.bare.origin = s.origin :=
      (distinct.subperm held).countP_le _
    _ = (w.blocks.filter fun x : Block => x.origin = s.origin).card := by
      rw [Tenancy.blocks, Multiset.filter_coe, Multiset.coe_card, ← List.countP_eq_length_filter,
        List.countP_map]
      rfl

/-- All that is given back of a segment has room on it. -/
theorem Sound.fits (sound : w.Sound) (distinct : ls.Nodup) (held : ls ⊆ w.leases)
    (listed : p ∈ w.memory.pools) {s : Segment} (there : s ∈ p.segments) :
    s.deferred.length + s.coming (ls.map (·.grip.returned)) ≤ s.capacity := by
  obtain ⟨_, kept⟩ := sound.memory.ledger.exists_kept listed
  have share := congrArg Multiset.card (kept.sound.share kept.distinct there)
  have formed := kept.sound.formed s there
  have out : (blocksOf w.blocks p.key).filter (fun x : Block => x.origin = s.origin) =
      w.blocks.filter fun x : Block => x.origin = s.origin := by
    rw [blocksOf, Multiset.filter_filter]
    apply Multiset.filter_congr
    intro x _
    constructor
    · exact And.left
    · intro origin
      exact ⟨origin, formed.pool?_of_origin origin⟩
  have few := coming_le distinct held s
  rw [out, Multiset.card_add, Multiset.card_add, Segment.card_slices, Segment.parked,
    Multiset.coe_card, List.length_map] at share
  omega

/-- Nothing of a closed heap is left to give back but what it registered. -/
theorem Sound.user_of_closed (sound : w.Sound) (member : l ∈ w.leases)
    (isClosed : l.heap ∈ w.closed) : l.grip.returned.pool? = none := by
  have own : l.grip.returned.pool? = l.grip.block.pool? := by cases l.grip <;> rfl
  rw [own]
  cases pool : l.grip.block.pool? with
  | none => rfl
  | some key =>
      obtain ⟨_, -, -, isOpen⟩ := sound.memory.ledger.pool_of_out (bare_mem_blocks member) pool
      rw [sound.issuers l member key pool] at isOpen
      exact absurd isClosed isOpen

theorem Sound.settles_surrender {p' q : Pool} (sound : w.Sound) (distinct : (l :: ls).Nodup)
    (held : l :: ls ⊆ w.leases) (listed : p' ∈ (w.surrender l).memory.pools)
    (settles : p'.Settles (ls.map (·.grip.returned)) q) :
    ∃ p ∈ w.memory.pools, p.Settles ((l :: ls).map (·.grip.returned)) q := by
  have first := held List.mem_cons_self
  have closed : (w.step (.free (w.leases.idxOf l))).closed = w.closed := closed_step nofun
  obtain ⟨p, there, receives⟩ := sound.receives listed (by rw [closed]; exact id)
  refine ⟨p, there, ?_⟩
  cases receives with
  | idle other same =>
      subst same
      apply settles.cons_other
      intro s inside same
      have own : l.grip.returned.pool? = some p'.key :=
        ((sound.memory.ledger.sound p' there).formed s inside).pool?_of_origin same
      by_cases isClosed : l.heap ∈ w.closed
      · rw [sound.user_of_closed first isClosed] at own
        cases own
      · exact other _ (returned?_free (List.getElem?_idxOf first) isClosed) own
  | @back x _ _ _ _ _ back origin kept went =>
      have same : x = l.grip.returned := by
        by_cases isClosed : l.heap ∈ w.closed
        · simp [returned?, List.getElem?_idxOf first, isClosed] at back
        · rw [returned?_free (List.getElem?_idxOf first) isClosed, Option.some.injEq] at back
          exact back.symm
      subst same
      exact (kept.returned origin went).settles kept.distinct
        (fun s inside => sound.fits distinct held there inside) settles

/-- What becomes of each pool when leases are given back. -/
theorem Sound.settles (sound : w.Sound) (distinct : ls.Nodup) (held : ls ⊆ w.leases)
    (listed : q ∈ (w.surrenderAll ls).memory.pools) :
    ∃ p ∈ w.memory.pools, p.Settles (ls.map (·.grip.returned)) q := by
  induction ls generalizing w with
  | nil => exact ⟨q, listed, (sound.memory.ledger.sound q listed).settles_nil⟩
  | cons l ls ih =>
      obtain ⟨p', there, settles⟩ := ih (sound.step _) (List.nodup_cons.mp distinct).2
        (sound.held_surrender distinct held) listed
      exact sound.settles_surrender distinct held there settles

/-- What callers, the registrar and the providers can tell of two states is the same. -/
structure Agrees (v v' : Tenancy) : Prop where
  stats : v.memory.heaps.map Heap.stats = v'.memory.heaps.map Heap.stats
  registrar : v.memory.backing.registrar = v'.memory.backing.registrar
  extents : v.memory.backing.numa.live.length = v'.memory.backing.numa.live.length
  mirrors : v.memory.backing.mirrors.card = v'.memory.backing.mirrors.card
  outstanding : v.leases = v'.leases
  keys : v.memory.keys = v'.memory.keys
  /-- Without a reserve even the segments are the same, and what waits on them. -/
  segments : ∀ p ∈ v.memory.pools, ∀ q ∈ v'.memory.pools, p.key = q.key →
    p.retention.neverFree = true ∨ p.retention.reserve = 0 →
      List.Forall₂ Segment.Matches p.segments q.segments

theorem sum_segments (pools : List Pool) (f : Pool → Bool) :
    (segmentsOf (pools.filter f)).length =
      (pools.map fun p => if f p then p.segments.length else 0).sum := by
  induction pools with
  | nil => rfl
  | cons p pools ih =>
      cases holds : f p with
      | true => simp [segmentsOf_cons, holds, ih]
      | false => simp [holds, ih]

theorem Sound.card_mirrors (sound : w.Sound) :
    w.memory.backing.mirrors.card = (deviceSegments w.memory.pools).length := by
  have ledger := sound.memory.ledger
  have sides := congrArg List.length (sizes_sidesOf ledger.all_formed)
  rw [List.length_map, List.length_map] at sides
  rw [ledger.mirrors, Multiset.coe_card, List.length_map, sides]

/-- The registrar has dropped what is not registered any more. -/
theorem Sound.deregistered_add_live (sound : w.Sound) :
    w.memory.backing.registrar.deregistered + w.memory.backing.registrar.live =
      w.memory.backing.registrar.registered := by
  have balance := sound.memory.ledger.holds.orderly.balance
  rw [Registrar.live]
  omega

theorem pools_keys (m : Memory) : m.pools.map Pool.key = m.keys.flatten := by
  rw [Memory.pools, List.map_flatMap, Memory.keys, List.flatMap_def]

/-- Of the pools with some of the keys all have as many segments. -/
theorem lengths_of_pools {m m' : Memory} (keys : m.keys = m'.keys)
    (lengths : ∀ p ∈ m.pools, ∀ q ∈ m'.pools, p.key = q.key →
      p.segments.length = q.segments.length) (f : PoolKey → Bool) :
    (segmentsOf (m.pools.filter fun p => f p.key)).length =
      (segmentsOf (m'.pools.filter fun p => f p.key)).length := by
  have poolKeys : m.pools.map Pool.key = m'.pools.map Pool.key := by
    rw [pools_keys, pools_keys, keys]
  rw [sum_segments, sum_segments]
  congr 1
  apply Pool.map_eq_of_keys poolKeys
  intro p there q there' key
  rw [key, lengths p there q there' key]

theorem stats_of_pools {m m' : Memory} (keys : m.keys = m'.keys)
    (stats : ∀ p ∈ m.pools, ∀ q ∈ m'.pools, p.key = q.key → p.stats = q.stats) :
    m.heaps.map Heap.stats = m'.heaps.map Heap.stats := by
  apply List.ext_getElem
  · have count := congrArg List.length keys
    simpa only [Memory.keys, List.length_map] using count
  · intro i inside inside'
    rw [List.length_map] at inside inside'
    have own := congrArg (·[i]?) keys
    simp only [Memory.keys, List.getElem?_map, List.getElem?_eq_getElem inside,
      List.getElem?_eq_getElem inside', Option.map_some, Option.some.injEq] at own
    rw [List.getElem_map, List.getElem_map, Heap.stats, Heap.stats]
    congr 1
    apply Pool.map_eq_of_keys own
    intro p there q there' key
    exact stats p (List.mem_flatMap.mpr ⟨_, List.getElem_mem inside, there⟩) q
      (List.mem_flatMap.mpr ⟨_, List.getElem_mem inside', there'⟩) key

/-- What was registered and what is registered are the same, and so is what was dropped. -/
theorem Sound.registrar_eq (left : v.Sound) (right : v'.Sound)
    (sheds : w.memory.backing.Sheds v.memory.backing)
    (sheds' : w.memory.backing.Sheds v'.memory.backing)
    (live : v.memory.backing.registrar.live = v'.memory.backing.registrar.live) :
    v.memory.backing.registrar = v'.memory.backing.registrar := by
  have registered : v.memory.backing.registrar.registered =
      v'.memory.backing.registrar.registered := by
    rw [sheds, sheds']
  have dropped := left.deregistered_add_live
  have dropped' := right.deregistered_add_live
  have same : v.memory.backing.registrar.deregistered =
      v'.memory.backing.registrar.deregistered := by
    omega
  rw [sheds, sheds', same]

/-- States whose pools agree, and that differ in what the registrar has dropped at most, agree in
what it has dropped too. -/
theorem Sound.agrees_of_pools (left : v.Sound) (right : v'.Sound) (slims : w.memory.Slims v.memory)
    (slims' : w.memory.Slims v'.memory) (outstanding : v.leases = v'.leases)
    (pools : ∀ p ∈ v.memory.pools, ∀ q ∈ v'.memory.pools, p.key = q.key → p.Agrees q) :
    v.Agrees v' := by
  have keys : v.memory.keys = v'.memory.keys := slims.keys.trans slims'.keys.symm
  have lengths := lengths_of_pools keys fun p there q there' key =>
    (pools p there q there' key).length
  have hosts : (hostSegments v.memory.pools).length = (hostSegments v'.memory.pools).length :=
    lengths fun key => key.device.isNone
  have devices : (deviceSegments v.memory.pools).length =
      (deviceSegments v'.memory.pools).length := lengths fun key => key.device.isSome
  have blocks : v.blocks = v'.blocks := by
    rw [Tenancy.blocks, Tenancy.blocks, outstanding]
  have live : v.memory.backing.registrar.live = v'.memory.backing.registrar.live := by
    rw [left.memory.ledger.live_regions, right.memory.ledger.live_regions, hosts, devices, blocks]
  exact
    { stats := stats_of_pools keys fun p there q there' key => (pools p there q there' key).stats
      registrar := left.registrar_eq right slims.sheds slims'.sheds live
      extents := by
        rw [left.memory.ledger.live_extents, right.memory.ledger.live_extents, length_segmentsOf,
          length_segmentsOf, hosts, devices]
      mirrors := by rw [left.card_mirrors, right.card_mirrors, devices]
      outstanding
      keys
      segments := fun p there q there' key => (pools p there q there' key).segments }

theorem Sound.agrees (sound : w.Sound) (distinct : xs.Nodup) (held : xs ⊆ w.leases)
    (perm : xs.Perm ys) : (w.surrenderAll xs).Agrees (w.surrenderAll ys) := by
  have distinct' : ys.Nodup := perm.nodup_iff.mp distinct
  have held' : ys ⊆ w.leases := fun l member => held (perm.mem_iff.mpr member)
  refine (sound.surrenderAll xs).agrees_of_pools (sound.surrenderAll ys) (w.slims_surrenderAll xs)
    (w.slims_surrenderAll ys) ?_ ?_
  · rw [sound.leases_surrenderAll distinct held, sound.leases_surrenderAll distinct' held']
    apply List.filter_congr
    intro l _
    simp only [perm.mem_iff]
  · intro p there q there' key
    obtain ⟨o, listed, settles⟩ := sound.settles distinct held there
    obtain ⟨o', listed', settles'⟩ := sound.settles distinct' held' there'
    -- Pools of one key come from one pool of the state before.
    have same : o = o' := by
      apply sound.memory.ledger.pool_eq listed listed'
      rw [← settles.alike.key, ← settles'.alike.key, key]
    subst same
    exact settles.agrees settles' (perm.map _)

/-- Whatever is given back, the order does not matter. -/
structure Commutes (w : Tenancy) : Prop where
  /-- All of it is given back, but for what a closed heap had registered. -/
  returns : ∀ xs : List Lease, xs.Nodup → xs ⊆ w.leases →
    (w.surrenderAll xs).leases = w.leases.filter fun m => m ∉ xs ∨ m.heap ∈ w.closed
  settles : ∀ xs : List Lease, xs.Nodup → xs ⊆ w.leases →
    ∀ q ∈ (w.surrenderAll xs).memory.pools, ∃ p ∈ w.memory.pools,
      p.Settles (xs.map (·.grip.returned)) q
  agrees : ∀ xs ys : List Lease, xs.Nodup → xs ⊆ w.leases → xs.Perm ys →
    (w.surrenderAll xs).Agrees (w.surrenderAll ys)

/-- Whatever callers do who keep to the contract, they may give back in any order what they hold. -/
theorem run_commutes {b : Backing} (unused : b.Unused) (acts : List Act) :
    ((start b).run acts).Commutes where
  returns _ distinct held := (sound_run unused acts).leases_surrenderAll distinct held
  settles _ distinct held _ listed := (sound_run unused acts).settles distinct held listed
  agrees _ _ distinct held perm := (sound_run unused acts).agrees distinct held perm

/-- Three segments of one block, of which one is for the reserve. -/
def reserved : List Act :=
  [.openHeap
    { reserveSegments := 1, tinyLimit := 8, smallLimit := 16, largeLimit := 32,
      tinySegmentSize := 16, smallSegmentSize := 16, largeSegmentSize := 32 },
    .allocate 0 16 0 none, .allocate 0 16 0 none, .allocate 0 16 0 none]

/-- One of the segments stays, but which one depends on the order. -/
theorem reserved_commutes : shelf.Unused ∧ ((start shelf).run reserved).Commutes ∧
    (((start shelf).run reserved).surrenderAll
      ((start shelf).run reserved).leases).memory.backing.numa.live.map (·.1.number) = [0] ∧
    (((start shelf).run reserved).surrenderAll ((start shelf).run
      reserved).leases.reverse).memory.backing.numa.live.map (·.1.number) = [2] :=
  ⟨unused_shelf, run_commutes unused_shelf _, rfl, rfl⟩

end Tenancy

end RegisteredHeap
