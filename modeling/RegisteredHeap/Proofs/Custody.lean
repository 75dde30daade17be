import RegisteredHeap.Proofs.Tenancy

/-! # Custody of extents

An extent is registered after it was obtained, and its registration is dropped before it is given
back, each of it once. Custody says for every extent how far it has come: those of segments are
registered, and all others have come to their end. A call takes one extent one stage further, so
whoever makes several calls in a row only goes through the stages.
-/

namespace RegisteredHeap

/-- An extent of the host or of the devices, by its number. -/
inductive Place where
  | host (number : Nat)
  | device (number : Nat)
  deriving DecidableEq

/-- The extent that an address lies in. -/
def Address.place? : Address → Option Place
  | host n _ => some (.host n)
  | device n _ => some (.device n)
  | user _ => none

/-- An extent as it was obtained. -/
inductive Loan where
  | host (extent : Extent)
  | device (extent : DeviceExtent)

namespace Loan

def place : Loan → Place
  | host e => .host e.number
  | device e => .device e.number

def obtained : Loan → Event
  | host e => .extentObtained e
  | device e => .deviceObtained e

end Loan

/-- The extent that a call on the collaborators is about. -/
def Event.place? : Event → Option Place
  | .extentObtained e => some (.host e.number)
  | .extentReleased n => some (.host n)
  | .deviceObtained e => some (.device e.number)
  | .deviceReleased n => some (.device n)
  | .registered r | .deregistered r => r.base.place?
  | .valueDropped .. | .blockFreed _ => none

namespace Place

/-- The extent is given back. -/
def released : Place → Event
  | host n => .extentReleased n
  | device n => .deviceReleased n

/-- All that ever happens to an extent that is not in use. -/
inductive Ended (p : Place) : List Event → Prop where
  | unknown : p.Ended []
  | unregistered {m : Loan} (own : m.place = p) : p.Ended [m.obtained, p.released]
  | registered {m : Loan} {r : Region} (own : m.place = p) :
    p.Ended [m.obtained, .registered r, .deregistered r, p.released]

theorem place?_released (p : Place) : p.released.place? = some p := by
  cases p <;> rfl

end Place

theorem Loan.place?_obtained (m : Loan) : m.obtained.place? = some m.place := by
  cases m <;> rfl

/-- How far an extent has come since it was obtained. -/
inductive Stage where
  | bare
  | registered (region : Region)
  | deregistered (region : Region)

def Stage.events : Stage → List Event
  | bare => []
  | registered r => [.registered r]
  | deregistered r => [.registered r, .deregistered r]

/-- The extent is not registered, or not any more. -/
def Stage.Idle : Stage → Prop
  | bare | deregistered _ => True
  | registered _ => False

/-- An extent in use. -/
structure Charge where
  loan : Loan
  stage : Stage

namespace Charge

def place (c : Charge) : Place := c.loan.place

/-- What has happened to the extent, the first thing first. -/
def story (c : Charge) : List Event := c.loan.obtained :: c.stage.events

theorem ended (c : Charge) (idle : c.stage.Idle) :
    c.place.Ended (c.story ++ [c.place.released]) := by
  obtain ⟨m, stage⟩ := c
  cases stage with
  | bare => exact .unregistered rfl
  | registered => cases idle
  | deregistered => exact .registered rfl

end Charge

namespace Backing

/-- The calls about one extent, the first one first. -/
def life (b : Backing) (p : Place) : List Event :=
  (b.journal.filter fun e => e.place? = some p).reverse

/-- The number of the extent is yet to be given. -/
def Fresh (b : Backing) : Place → Prop
  | .host n => b.numa.issued ≤ n
  | .device n => ∀ d ∈ b.device, d.issued ≤ n

/-- A call leaves one event in the journal. -/
structure Logs (b : Backing) (e : Event) (b' : Backing) : Prop where
  journal : b'.journal = e :: b.journal
  ages : ∀ p, b'.Fresh p → b.Fresh p

/-- The extents in use have come as far as `charges` say, and all others to their end. -/
structure Custody (b : Backing) (charges : Multiset Charge) : Prop where
  held : ∀ c ∈ charges, b.life c.place = c.story
  ended : ∀ p ∉ charges.map Charge.place, p.Ended (b.life p)
  fresh : ∀ p, b.Fresh p → b.life p = []
  distinct : (charges.map Charge.place).Nodup

variable {b b' : Backing} {charges : Multiset Charge} {c : Charge} {e : Event} {p : Place}
  {size node device len : Nat} {base : Address} {flags : Flags} {onDevice : Option Nat}
  {cause : HeapError} {r : Region} {m : Loan}

theorem mem_life : e ∈ b.life p ↔ e ∈ b.journal ∧ e.place? = some p := by
  rw [life, List.mem_reverse, List.mem_filter, decide_eq_true_eq]

theorem life_eq_of_journal (same : b'.journal = b.journal) (p : Place) : b'.life p = b.life p := by
  rw [life, same, life]

theorem Logs.life_own (logs : b.Logs e b') (own : e.place? = some p) :
    b'.life p = b.life p ++ [e] := by
  simp [life, logs.journal, own]

theorem Logs.life_other (logs : b.Logs e b') (other : e.place? ≠ some p) :
    b'.life p = b.life p := by
  simp [life, logs.journal, other]

theorem Logs.life_ne {q : Place} (logs : b.Logs e b') (own : e.place? = some q)
    (different : p ≠ q) : b'.life p = b.life p := by
  apply logs.life_other
  rw [own]
  exact fun same => different (Option.some.inj same).symm

/-- As long as no extent is given out, none gets known. -/
theorem Fresh.of_issued (numa : b'.numa.issued = b.numa.issued)
    (device : b'.device.map Device.issued = b.device.map Device.issued) (fresh : b'.Fresh p) :
    b.Fresh p := by
  cases p with
  | host n =>
      rw [Fresh, numa] at fresh
      exact fresh
  | device n =>
      intro d there
      have known : d.issued ∈ b'.device.map Device.issued := by
        rw [device]
        exact Option.mem_map_of_mem _ there
      obtain ⟨d', there', same⟩ := Option.mem_map.mp known
      exact same ▸ fresh d' there'

namespace Logs

theorem log (b : Backing) (e : Event) : b.Logs e (b.log e) := ⟨rfl, fun _ => .of_issued rfl rfl⟩

theorem register (got : b.register base len flags onDevice = (.ok r, b')) :
    b.Logs (.registered r) b' := by
  rcases b.register_cases base len flags onDevice with ⟨cause, failed⟩ | ⟨user, device, done⟩
  · simp [failed] at got
  · simp only [done, Prod.mk.injEq, Except.ok.injEq] at got
    obtain ⟨rfl, rfl⟩ := got
    exact ⟨rfl, fun _ => .of_issued rfl rfl⟩

theorem deregister (b : Backing) (r : Region) : b.Logs (.deregistered r) (b.deregister r) :=
  ⟨rfl, fun _ => .of_issued rfl rfl⟩

theorem release (b : Backing) (e : Extent) : b.Logs (.extentReleased e.number) (b.release e) :=
  ⟨rfl, fun _ => .of_issued rfl rfl⟩

theorem releaseDevice (b : Backing) (e : DeviceExtent) :
    b.Logs (.deviceReleased e.number) (b.releaseDevice e) := by
  refine ⟨rfl, fun _ => .of_issued rfl ?_⟩
  have same (d : Device) : (d.free e.number).issued = d.issued := by
    unfold Device.free
    split <;> rfl
  simp only [Backing.releaseDevice, Backing.log, Option.map_map]
  exact congrArg (Option.map · b.device) (funext same)

end Logs

namespace Custody

theorem congr (custody : b.Custody charges) (life : ∀ p, b'.life p = b.life p)
    (ages : ∀ p, b'.Fresh p → b.Fresh p) : b'.Custody charges where
  held c member := (life c.place).trans (custody.held c member)
  ended p other := life p ▸ custody.ended p other
  fresh p fresh := (life p).trans (custody.fresh p (ages p fresh))
  distinct := custody.distinct

/-- What is about no extent does not matter. -/
theorem logs (custody : b.Custody charges) (logs : b.Logs e b') (nowhere : e.place? = none) :
    b'.Custody charges :=
  custody.congr (fun _ => logs.life_other (nowhere ▸ nofun)) logs.ages

theorem not_fresh (custody : b.Custody charges) (member : c ∈ charges) : ¬ b.Fresh c.place := by
  intro fresh
  have nothing := custody.fresh c.place fresh
  rw [custody.held c member] at nothing
  cases nothing

/-- The first stage of an extent that was unknown. -/
theorem begin (custody : b.Custody charges) (logs : b.Logs m.obtained b') (new : b.Fresh m.place)
    (used : ¬ b'.Fresh m.place) : b'.Custody (⟨m, .bare⟩ ::ₘ charges) := by
  have own := m.place?_obtained
  have unknown : m.place ∉ charges.map Charge.place := by
    intro member
    obtain ⟨c, there, same⟩ := Multiset.mem_map.mp member
    exact custody.not_fresh there (same ▸ new)
  refine ⟨?_, ?_, ?_, ?_⟩
  · intro c member
    rcases Multiset.mem_cons.mp member with rfl | old
    · change b'.life m.place = [m.obtained]
      rw [logs.life_own own, custody.fresh m.place new, List.nil_append]
    · rw [logs.life_ne own fun same => unknown (same ▸ Multiset.mem_map_of_mem _ old)]
      exact custody.held c old
  · intro p unused
    rw [Multiset.map_cons, Multiset.mem_cons, not_or] at unused
    rw [logs.life_ne own unused.1]
    exact custody.ended p unused.2
  · intro p fresh
    rw [logs.life_ne own fun same => used (same ▸ fresh)]
    exact custody.fresh p (logs.ages p fresh)
  · rw [Multiset.map_cons, Multiset.nodup_cons]
    exact ⟨unknown, custody.distinct⟩

/-- No other extent in use is the one at the front. -/
theorem front (custody : b.Custody (c ::ₘ charges)) :
    (∀ d ∈ charges, d.place ≠ c.place) ∧ (charges.map Charge.place).Nodup := by
  have distinct := custody.distinct
  rw [Multiset.map_cons, Multiset.nodup_cons] at distinct
  exact ⟨fun d member same => distinct.1 (same ▸ Multiset.mem_map_of_mem _ member), distinct.2⟩

/-- What happens to an extent in use is nothing to those that are yet to be given out. -/
theorem life_of_fresh (custody : b.Custody charges) (member : c ∈ charges) (logs : b.Logs e b')
    (own : e.place? = some c.place) (fresh : b'.Fresh p) : b'.life p = [] := by
  have old := logs.ages p fresh
  rw [logs.life_ne own fun same => custody.not_fresh member (same ▸ old)]
  exact custody.fresh p old

/-- An extent comes one stage further. -/
theorem advance {stage : Stage} (custody : b.Custody (c ::ₘ charges)) (logs : b.Logs e b')
    (own : e.place? = some c.place) (next : stage.events = c.stage.events ++ [e]) :
    b'.Custody (⟨c.loan, stage⟩ ::ₘ charges) := by
  have first : c ∈ c ::ₘ charges := Multiset.mem_cons_self c charges
  have places : (⟨c.loan, stage⟩ ::ₘ charges).map Charge.place =
      (c ::ₘ charges).map Charge.place := by
    rw [Multiset.map_cons, Multiset.map_cons]
    rfl
  refine ⟨?_, ?_, fun _ => custody.life_of_fresh first logs own, places ▸ custody.distinct⟩
  · intro d member
    rcases Multiset.mem_cons.mp member with rfl | other
    · change b'.life c.place = c.loan.obtained :: stage.events
      rw [logs.life_own own, custody.held c first, next]
      rfl
    · rw [logs.life_ne own (custody.front.1 d other)]
      exact custody.held d (Multiset.mem_cons_of_mem other)
  · intro p unused
    rw [places] at unused
    have different : p ≠ c.place := fun same => unused (same ▸ Multiset.mem_map_of_mem _ first)
    rw [logs.life_ne own different]
    exact custody.ended p unused

/-- The end of an extent. -/
theorem finish (custody : b.Custody (c ::ₘ charges)) (logs : b.Logs c.place.released b')
    (idle : c.stage.Idle) : b'.Custody charges := by
  have first : c ∈ c ::ₘ charges := Multiset.mem_cons_self c charges
  have own := c.place.place?_released
  obtain ⟨apart, distinct⟩ := custody.front
  refine ⟨?_, ?_, fun _ => custody.life_of_fresh first logs own, distinct⟩
  · intro d member
    rw [logs.life_ne own (apart d member)]
    exact custody.held d (Multiset.mem_cons_of_mem member)
  · intro p unused
    by_cases same : p = c.place
    · rw [same, logs.life_own own, custody.held c first]
      exact c.ended idle
    · rw [logs.life_ne own same]
      apply custody.ended
      rw [Multiset.map_cons, Multiset.mem_cons, not_or]
      exact ⟨same, unused⟩

theorem obtain {e : Extent} (custody : b.Custody charges)
    (got : b.obtain size node = (.ok e, b')) : b'.Custody (⟨.host e, .bare⟩ ::ₘ charges) := by
  unfold Backing.obtain at got
  rcases b.numa.allocate_cases size node with ⟨cause, failed⟩ | ⟨bytes, place, contents, done⟩
  · simp [failed] at got
  · simp only [done, Prod.mk.injEq, Except.ok.injEq] at got
    obtain ⟨rfl, rfl⟩ := got
    refine custody.begin ⟨rfl, ?_⟩ (Nat.le_refl b.numa.issued) (Nat.not_succ_le_self b.numa.issued)
    intro p fresh
    cases p with
    | host n => exact (Nat.le_succ _).trans fresh
    | device n => exact fresh

theorem obtain_failed (custody : b.Custody charges)
    (got : b.obtain size node = (.error cause, b')) : b'.Custody charges := by
  unfold Backing.obtain at got
  rcases b.numa.allocate_cases size node with ⟨cause, failed⟩ | ⟨bytes, place, contents, done⟩
  · simp only [failed, Prod.mk.injEq] at got
    exact got.2 ▸ custody
  · simp [done] at got

theorem register (custody : b.Custody (⟨m, .bare⟩ ::ₘ charges)) (place : base.place? = some m.place)
    (got : b.register base len flags onDevice = (.ok r, b')) :
    b'.Custody (⟨m, .registered r⟩ ::ₘ charges) := by
  obtain ⟨rfl, -⟩ := register_region got
  exact custody.advance (.register got) place rfl

/-- Memory of a caller may be registered. -/
theorem enroll (custody : b.Custody charges) (nowhere : base.place? = none)
    (got : b.register base len flags onDevice = (.ok r, b')) : b'.Custody charges := by
  obtain ⟨rfl, -⟩ := register_region got
  exact custody.logs (.register got) nowhere

theorem register_failed (custody : b.Custody charges)
    (got : b.register base len flags onDevice = (.error cause, b')) : b'.Custody charges := by
  rcases b.register_cases base len flags onDevice with ⟨cause, failed⟩ | ⟨user, device, done⟩
  · rw [failed, Prod.mk.injEq] at got
    exact got.2 ▸ custody.congr (life_eq_of_journal rfl) fun _ => .of_issued rfl rfl
  · simp [done] at got

/-- A region that is dropped lies in the extent that it was registered for. -/
theorem deregister (custody : b.Custody (⟨m, .registered r⟩ ::ₘ charges)) :
    (b.deregister r).Custody (⟨m, .deregistered r⟩ ::ₘ charges) := by
  -- That it was registered is part of the life of the extent, so the region lies there.
  have held := custody.held _ (Multiset.mem_cons_self _ _)
  have listed : .registered r ∈ b.life m.place := held ▸ List.mem_cons_of_mem _ List.mem_cons_self
  exact custody.advance (.deregister b r) (mem_life.mp listed).2 rfl

/-- Memory of a caller may be taken back. -/
theorem withdraw (custody : b.Custody charges) (nowhere : r.base.place? = none) :
    (b.deregister r).Custody charges :=
  custody.logs (.deregister b r) nowhere

theorem release {e : Extent} {stage : Stage} (custody : b.Custody (⟨.host e, stage⟩ ::ₘ charges))
    (idle : stage.Idle) : (b.release e).Custody charges :=
  custody.finish (.release b e) idle

theorem obtainDevice {e : DeviceExtent} (custody : b.Custody charges)
    (got : b.obtainDevice size device = (.ok e, b')) :
    b'.Custody (⟨.device e, .bare⟩ ::ₘ charges) := by
  unfold Backing.obtainDevice at got
  cases there : b.device with
  | none => simp [there] at got
  | some d =>
      rcases d.allocate_cases size device with ⟨cause, selected, failed⟩ | done
      · simp [there, failed] at got
      · simp only [there, done, Prod.mk.injEq, Except.ok.injEq] at got
        obtain ⟨rfl, rfl⟩ := got
        refine custody.begin ⟨rfl, ?_⟩ ?_ ?_
        · intro p fresh
          cases p with
          | host n => exact fresh
          | device n =>
              intro d' there'
              rw [there] at there'
              cases there'
              exact (Nat.le_succ _).trans (fresh _ rfl)
        · intro d' there'
          rw [there] at there'
          cases there'
          exact Nat.le_refl _
        · intro fresh
          exact Nat.not_succ_le_self _ (fresh _ rfl)

theorem obtainDevice_failed (custody : b.Custody charges)
    (got : b.obtainDevice size device = (.error cause, b')) : b'.Custody charges := by
  unfold Backing.obtainDevice at got
  cases there : b.device with
  | none =>
      simp only [there, Prod.mk.injEq] at got
      exact got.2 ▸ custody
  | some d =>
      rcases d.allocate_cases size device with ⟨cause, selected, failed⟩ | done
      · simp only [there, failed, Prod.mk.injEq] at got
        rw [← got.2]
        exact custody.congr (life_eq_of_journal rfl) fun _ => .of_issued rfl (by rw [there]; rfl)
      · simp [there, done] at got

theorem releaseDevice {e : DeviceExtent} {stage : Stage}
    (custody : b.Custody (⟨.device e, stage⟩ ::ₘ charges)) (idle : stage.Idle) :
    (b.releaseDevice e).Custody charges :=
  custody.finish (.releaseDevice b e) idle

theorem write (custody : b.Custody charges) (a : Address) (bytes : Array UInt8) :
    (b.write a bytes).Custody charges := by
  cases a with
  | host n start => exact custody.congr (life_eq_of_journal rfl) fun _ => .of_issued rfl rfl
  | device n start =>
      refine custody.congr (life_eq_of_journal rfl) fun _ => .of_issued rfl ?_
      simp only [Backing.write, Option.map_map]
      rfl
  | user v => exact custody

theorem under (custody : b.Custody charges) (c : Conditions) : (b.under c).Custody charges := by
  refine custody.congr (life_eq_of_journal rfl) fun _ => .of_issued rfl ?_
  simp only [Backing.under, Option.map_map]
  rfl

end Custody

/-- Nothing ever happened to any extent. -/
theorem Unused.custody (unused : b.Unused) : b.Custody 0 := by
  have nothing (p : Place) : b.life p = [] := by rw [life, unused.journal]; rfl
  refine ⟨nofun, ?_, fun p _ => nothing p, Multiset.nodup_zero⟩
  intro p _
  rw [nothing]
  exact .unknown

end Backing

def DeviceSide.charge (d : DeviceSide) : Charge := ⟨.device d.extent, .registered d.region⟩

/-- The extent of the copy, if there is one. -/
def DeviceSide.charges (side : Option DeviceSide) : Multiset Charge :=
  (side.map fun d => {d.charge}).getD 0

namespace Segment

def charge (s : Segment) : Charge := ⟨.host s.extent, .registered s.region⟩

/-- The extents of a segment, each registered. -/
def charges (s : Segment) : Multiset Charge := s.charge ::ₘ DeviceSide.charges s.device

theorem custody_release {s : Segment} {b : Backing} {others : Multiset Charge}
    (custody : b.Custody (s.charges + others)) : (s.release b).Custody others := by
  rw [charges, Multiset.cons_add] at custody
  have dropped := custody.deregister
  cases there : s.device with
  | none =>
      rw [there, DeviceSide.charges, Option.map_none, Option.getD_none, zero_add] at dropped
      simp only [release, there]
      exact dropped.release trivial
  | some d =>
      rw [there, DeviceSide.charges, Option.map_some, Option.getD_some, Multiset.singleton_add,
        Multiset.cons_swap] at dropped
      simp only [release, there]
      exact (dropped.deregister.releaseDevice trivial).release trivial

end Segment

namespace Pool

variable {p p' : Pool} {b b' : Backing} {others : Multiset Charge} {cause : HeapError}
  {out : Multiset Block} {rest : Inventory} {r : Except HeapError Block} {x : Block}

/-- The extents of all segments. -/
def charges (p : Pool) : Multiset Charge := (p.segments.map Segment.charges).sum

theorem custody_copy_failed {len : Nat} (custody : b.Custody others)
    (failed : p.obtainDeviceSide len b = (.error cause, b')) : b'.Custody others := by
  cases copying failed with
  | refused _ first => exact custody.obtainDevice_failed first
  | unregistered _ first second =>
      exact ((custody.obtainDevice first).register_failed second).releaseDevice trivial

theorem custody_copy {len : Nat} {side : Option DeviceSide} (custody : b.Custody others)
    (done : p.obtainDeviceSide len b = (.ok side, b')) :
    b'.Custody (DeviceSide.charges side + others) := by
  cases copying done with
  | single => simpa [DeviceSide.charges] using custody
  | made _ first second =>
      rw [DeviceSide.charges, Option.map_some, Option.getD_some, Multiset.singleton_add]
      exact (custody.obtainDevice first).register rfl second

/-- Wherever growth stops, it gives back what it has obtained, in order. -/
theorem custody_growth_failed (custody : b.Custody others)
    (failed : p.obtainSegment b = (.error cause, b')) : b'.Custody others := by
  cases attempt failed with
  | refused first => exact custody.obtain_failed first
  | misplaced first => exact (custody.obtain first).release trivial
  | short first => exact (custody.obtain first).release trivial
  | unregistered first second =>
      exact ((custody.obtain first).register_failed second).release trivial
  | uncopied first second third =>
      have registered := (custody.obtain first).register rfl second
      exact (custody_copy_failed registered third).deregister.release trivial

theorem custody_growth {s : Segment} (custody : b.Custody others)
    (done : p.obtainSegment b = (.ok s, b')) : b'.Custody (s.charges + others) := by
  cases attempt done with
  | made first _ _ second third =>
      have copied := custody_copy ((custody.obtain first).register rfl second) third
      rw [Multiset.add_cons] at copied
      rw [Segment.charges, Multiset.cons_add]
      exact copied

theorem charges_swept (p : Pool) : p.swept.charges = p.charges := by
  rw [charges, swept, collect_segments, List.map_map]
  rfl

theorem charges_addSegment (p : Pool) (s : Segment) :
    (p.addSegment s).charges = s.charges + p.charges := by
  simp only [addSegment, record, charges, List.map_append, List.map_singleton, List.sum_append,
    List.sum_singleton]
  exact add_comm _ _

/-- A pool that gets no block has the extents that it had. -/
theorem Kept.charges_failed (kept : p.Kept b out rest)
    (failed : p.allocate b = (.error cause, p', b')) : p'.charges = p.charges := by
  cases kept.allocation failed with
  | failed => exact charges_swept p

theorem Kept.custody_allocate (kept : p.Kept b out rest) (got : p.allocate b = (r, p', b'))
    (custody : b.Custody (p.charges + others)) : b'.Custody (p'.charges + others) := by
  cases kept.allocation got with
  | ready => exact custody
  | collected =>
      rw [← charges_swept] at custody
      exact custody
  | grown _ _ obtained =>
      have grown := custody_growth custody obtained
      rw [← add_assoc, ← charges_swept, ← charges_addSegment] at grown
      exact grown
  | failed _ _ refused =>
      rw [charges_swept]
      exact custody_growth_failed custody refused

theorem Return.custody (returned : p.Return x b p' b')
    (custody : b.Custody (p.charges + others)) : b'.Custody (p'.charges + others) := by
  cases returned with
  | parked split =>
      rw [charges, split, sum_map_split] at custody
      rw [charges, sum_map_split]
      exact custody
  | released split =>
      rw [charges, split, sum_map_split, add_assoc] at custody
      exact Segment.custody_release custody

theorem custody_releaseAll (custody : b.Custody (p.charges + others)) :
    (p.releaseAll b).Custody others := by
  rw [charges] at custody
  rw [releaseAll]
  generalize p.segments = segments at custody ⊢
  induction segments generalizing b with
  | nil => simpa using custody
  | cons s segments ih =>
      rw [List.map_cons, List.sum_cons, add_assoc] at custody
      exact ih (Segment.custody_release custody)

end Pool

end RegisteredHeap
