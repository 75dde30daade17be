import Mathlib.Data.List.Perm.Basic
import RegisteredHeap.Registrar

/-! # Admissions

A registrar under any sequence of requests and drops, in any order. Its counters tell exactly what
happened, its keys are the numbers of the admissions, and its limit is one on admissions: what is
dropped gives nothing back.
-/

namespace RegisteredHeap

namespace Registrar

variable {r : Registrar} {base : Address} {len : Nat} {flags : Flags} {device : Option Nat}
  {reason : Refusal}

theorem refusal?_eq_none_iff :
    r.refusal? len = none ↔ 0 < len ∧ ∀ n ∈ r.limit, r.registered < n := by
  unfold refusal?
  by_cases empty : len = 0
  · simp [empty]
  · cases r.limit with
    | none => simp [empty, Nat.pos_of_ne_zero empty]
    | some n => simp [empty, Nat.pos_of_ne_zero empty]

/-- The region that the next admission makes. -/
def next (r : Registrar) (base : Address) (len : Nat) (flags : Flags) (device : Option Nat) :
    Region :=
  ⟨r.lastKey + 1, base, len, flags, device⟩

/-- The registrar once it has admitted a region with these properties. -/
def accept (r : Registrar) (flags : Flags) (device : Option Nat) : Registrar :=
  { r with
    lastKey := r.lastKey + 1
    registered := r.registered + 1
    user := r.user + (flags.contains .user).toNat
    device := r.device + device.isSome.toNat }

def reject (r : Registrar) : Registrar := { r with rejected := r.rejected + 1 }

theorem register_of_none (admissible : r.refusal? len = none) :
    r.register base len flags device =
      (.ok (r.next base len flags device), r.accept flags device) := by
  rw [register, admissible]
  rfl

theorem register_of_some (refused : r.refusal? len = some reason) :
    r.register base len flags device = (.error ⟨transport, base, len, reason⟩, r.reject) := by
  rw [register, refused]
  rfl

end Registrar

/-- What became of a request, or of a region. -/
inductive Notice where
  | admitted (region : Region)
  | refused (cause : RegistrationError)
  | dropped (region : Region)

namespace Notice

@[simp]
def admitted? : Notice → Option Region
  | admitted r => some r
  | _ => none

@[simp]
def refused? : Notice → Option RegistrationError
  | refused cause => some cause
  | _ => none

@[simp]
def dropped? : Notice → Option Region
  | dropped r => some r
  | _ => none

end Notice

/-- A registrar with those who use it. -/
structure Office where
  registrar : Registrar
  /-- The regions in use. -/
  live : List Region := []
  /-- What happened, the first first. -/
  history : List Notice := []

namespace Office

/-- What may be asked of an office. Regions in use are named by their places. -/
inductive Act where
  | register (base : Address) (len : Nat) (flags : Flags) (device : Option Nat)
  | drop (place : Nat)

/-- Goes on with a registrar and the regions in use, after one more event. -/
def note (o : Office) (registrar : Registrar) (live : List Region) (n : Notice) : Office where
  registrar := registrar
  live := live
  history := o.history ++ [n]

def step (o : Office) : Act → Office
  | .register base len flags device =>
    match o.registrar.register base len flags device with
    | (.ok region, registrar) => o.note registrar (o.live ++ [region]) (.admitted region)
    | (.error cause, registrar) => o.note registrar o.live (.refused cause)
  | .drop place =>
    match o.live[place]? with
    | some region => o.note o.registrar.deregister (o.live.eraseIdx place) (.dropped region)
    | none => o

def run (o : Office) (acts : List Act) : Office := acts.foldl step o

/-- Nothing has been asked of it yet. -/
def start (limit : Option Nat) : Office := { registrar := { limit } }

def admitted (o : Office) : List Region := o.history.filterMap Notice.admitted?

def refused (o : Office) : List RegistrationError := o.history.filterMap Notice.refused?

def dropped (o : Office) : List Region := o.history.filterMap Notice.dropped?

variable {limit : Option Nat} {o : Office} {base : Address} {len : Nat} {flags : Flags}
  {device : Option Nat} {registrar : Registrar} {live : List Region} {region : Region}
  {cause : RegistrationError} {place : Nat}

@[simp] theorem registrar_note (n : Notice) : (o.note registrar live n).registrar = registrar := rfl

@[simp] theorem live_note (n : Notice) : (o.note registrar live n).live = live := rfl

@[simp] theorem admitted_note (n : Notice) :
    (o.note registrar live n).admitted = o.admitted ++ n.admitted?.toList := by
  cases n <;> simp [admitted, note, Notice.admitted?]

@[simp] theorem refused_note (n : Notice) :
    (o.note registrar live n).refused = o.refused ++ n.refused?.toList := by
  cases n <;> simp [refused, note, Notice.refused?]

@[simp] theorem dropped_note (n : Notice) :
    (o.note registrar live n).dropped = o.dropped ++ n.dropped?.toList := by
  cases n <;> simp [dropped, note, Notice.dropped?]

/-- The counters and the keys are what the history makes them. -/
structure Recorded (limit : Option Nat) (o : Office) : Prop where
  limited : o.registrar.limit = limit
  registered : o.registrar.registered = o.admitted.length
  /-- Keys and admissions are counted apart, and alike. -/
  lastKey : o.registrar.lastKey = o.registrar.registered
  user : o.registrar.user = o.admitted.countP fun r => r.flags.contains .user
  device : o.registrar.device = o.admitted.countP fun r => r.device.isSome
  deregistered : o.registrar.deregistered = o.dropped.length
  rejected : o.registrar.rejected = o.refused.length
  /-- The first region that is admitted has the key 1. -/
  keys : ∀ k r, o.admitted[k]? = some r → r.key = k + 1
  /-- What is admitted is in use or was dropped, each region once. -/
  shares : o.admitted.Perm (o.live ++ o.dropped)

namespace Recorded

theorem countP_single (p : Region → Bool) (region : Region) :
    [region].countP p = (p region).toNat := by
  rw [List.countP_singleton]
  cases p region <;> rfl

theorem admitted (recorded : o.Recorded limit)
    (made : region = o.registrar.next base len flags device) :
    Recorded limit
      (o.note (o.registrar.accept flags device) (o.live ++ [region]) (.admitted region)) where
  limited := recorded.limited
  registered := by simp [Registrar.accept, recorded.registered]
  lastKey := congrArg (· + 1) recorded.lastKey
  user := by
    rw [admitted_note, Notice.admitted?, Option.toList_some, List.countP_append, ← recorded.user,
      countP_single, made]
    rfl
  device := by
    rw [admitted_note, Notice.admitted?, Option.toList_some, List.countP_append,
      ← recorded.device, countP_single, made]
    rfl
  deregistered := by simp [Registrar.accept, recorded.deregistered]
  rejected := by simp [Registrar.accept, recorded.rejected]
  keys k r there := by
    rw [admitted_note, Notice.admitted?, Option.toList_some] at there
    rcases Nat.lt_trichotomy k o.admitted.length with earlier | rfl | later
    · rw [List.getElem?_append_left earlier] at there
      exact recorded.keys k r there
    · rw [List.getElem?_concat_length, Option.some.injEq] at there
      rw [← there, made, Registrar.next, recorded.lastKey, recorded.registered]
    · have beyond := (List.getElem?_eq_some_iff.mp there).1
      rw [List.length_append, List.length_singleton] at beyond
      omega
  shares := by
    simp only [admitted_note, dropped_note, live_note, Notice.admitted?, Notice.dropped?,
      Option.toList_some, Option.toList_none, List.append_nil, List.append_assoc]
    have added := recorded.shares.append_right [region]
    rw [List.append_assoc] at added
    exact added.trans (List.perm_append_comm.append_left _)

theorem refuse (recorded : o.Recorded limit) :
    Recorded limit (o.note o.registrar.reject o.live (.refused cause)) where
  limited := recorded.limited
  registered := by simpa [Registrar.reject] using recorded.registered
  lastKey := recorded.lastKey
  user := by simpa [Registrar.reject] using recorded.user
  device := by simpa [Registrar.reject] using recorded.device
  deregistered := by simpa [Registrar.reject] using recorded.deregistered
  rejected := by simp [Registrar.reject, recorded.rejected]
  keys := by simpa using recorded.keys
  shares := by simpa using recorded.shares

theorem drop (recorded : o.Recorded limit) (there : o.live[place]? = some region) :
    Recorded limit
      (o.note o.registrar.deregister (o.live.eraseIdx place) (.dropped region)) where
  limited := recorded.limited
  registered := by simpa [Registrar.deregister] using recorded.registered
  lastKey := recorded.lastKey
  user := by simpa [Registrar.deregister] using recorded.user
  device := by simpa [Registrar.deregister] using recorded.device
  deregistered := by simp [Registrar.deregister, recorded.deregistered]
  rejected := by simpa [Registrar.deregister] using recorded.rejected
  keys := by simpa using recorded.keys
  shares := by
    obtain ⟨inside, same⟩ := List.getElem?_eq_some_iff.mp there
    have moved : (region :: o.live.eraseIdx place).Perm o.live :=
      same ▸ List.getElem_cons_eraseIdx_perm inside
    simp only [admitted_note, dropped_note, live_note, Notice.admitted?, Notice.dropped?,
      Option.toList_some, Option.toList_none, List.append_nil]
    rw [← List.append_assoc]
    exact (recorded.shares.trans (moved.symm.append_right _)).trans
      (List.perm_append_singleton region _).symm

theorem step (recorded : o.Recorded limit) (act : Act) : (o.step act).Recorded limit := by
  cases act with
  | register base len flags device =>
      cases refusal : o.registrar.refusal? len with
      | none =>
          simp only [Office.step, Registrar.register_of_none refusal]
          exact recorded.admitted rfl
      | some reason =>
          simp only [Office.step, Registrar.register_of_some refusal]
          exact recorded.refuse
  | drop place =>
      simp only [Office.step]
      split
      · rename_i region there
        exact recorded.drop there
      · exact recorded

theorem run (recorded : o.Recorded limit) (acts : List Act) : (o.run acts).Recorded limit := by
  unfold Office.run
  induction acts generalizing o with
  | nil => exact recorded
  | cons act acts ih => exact ih (recorded.step act)

end Recorded

theorem recorded_start (limit : Option Nat) : (start limit).Recorded limit := by
  constructor <;> simp [start, admitted, refused, dropped]

/-- What a registrar tells, and what it has to say to the next request. -/
structure Exact (limit : Option Nat) (o : Office) : Prop where
  recorded : o.Recorded limit
  current : o.registrar.live = o.live.length
  /-- A key is never used again, whether its region was dropped or not. -/
  unique : (o.admitted.map Region.key).Nodup
  distinct : (o.live.map Region.key).Nodup
  accepts : ∀ base len flags device,
    (∃ region r, o.registrar.register base len flags device = (.ok region, r)) ↔
      0 < len ∧ ∀ n ∈ limit, o.admitted.length < n
  admits : ∀ base len flags device region r,
    o.registrar.register base len flags device = (.ok region, r) →
      region = ⟨o.admitted.length + 1, base, len, flags, device⟩
  refuses : ∀ base len flags device cause r,
    o.registrar.register base len flags device = (.error cause, r) →
      r = { o.registrar with rejected := o.registrar.rejected + 1 }

namespace Recorded

theorem map_key (recorded : o.Recorded limit) :
    o.admitted.map Region.key = List.range' 1 o.admitted.length := by
  apply List.ext_getElem
  · rw [List.length_map, List.length_range']
  · intro k inside _
    rw [List.length_map] at inside
    rw [List.getElem_map, List.getElem_range',
      recorded.keys k _ (List.getElem?_eq_getElem inside)]
    omega

theorem unique (recorded : o.Recorded limit) : (o.admitted.map Region.key).Nodup := by
  rw [recorded.map_key]
  exact List.nodup_range'

theorem distinct (recorded : o.Recorded limit) : (o.live.map Region.key).Nodup := by
  have all := (recorded.shares.map Region.key).nodup recorded.unique
  rw [List.map_append] at all
  exact (List.nodup_append.mp all).1

theorem current (recorded : o.Recorded limit) : o.registrar.live = o.live.length := by
  have total := recorded.shares.length_eq
  rw [List.length_append] at total
  rw [Registrar.live, recorded.registered, recorded.deregistered]
  omega

theorem admissible_iff (recorded : o.Recorded limit) :
    o.registrar.refusal? len = none ↔ 0 < len ∧ ∀ n ∈ limit, o.admitted.length < n := by
  rw [Registrar.refusal?_eq_none_iff, recorded.limited, recorded.registered]

theorem exact (recorded : o.Recorded limit) : o.Exact limit where
  recorded := recorded
  current := recorded.current
  unique := recorded.unique
  distinct := recorded.distinct
  accepts base len flags device := by
    rw [← recorded.admissible_iff]
    cases refusal : o.registrar.refusal? len with
    | none => exact iff_of_true ⟨_, _, Registrar.register_of_none refusal⟩ rfl
    | some reason =>
        rw [Registrar.register_of_some refusal]
        exact iff_of_false (by rintro ⟨_, _, ⟨⟩⟩) nofun
  admits base len flags device region r done := by
    cases refusal : o.registrar.refusal? len with
    | none =>
        cases (Registrar.register_of_none refusal).symm.trans done
        rw [Registrar.next, recorded.lastKey, recorded.registered]
    | some reason => cases (Registrar.register_of_some refusal).symm.trans done
  refuses base len flags device cause r failed := by
    cases refusal : o.registrar.refusal? len with
    | none => cases (Registrar.register_of_none refusal).symm.trans failed
    | some reason =>
        cases (Registrar.register_of_some refusal).symm.trans failed
        rfl

end Recorded

/-- Whatever is asked of a registrar, and in whatever order regions are dropped, it is an exact
ledger of that. -/
theorem run_exact (limit : Option Nat) (acts : List Act) : ((start limit).run acts).Exact limit :=
  ((recorded_start limit).run acts).exact

/-- A dropped region gives no room below the limit. -/
example : ((start (some 1)).run [.register (.user 64) 8 .none none, .drop 0,
    .register (.user 64) 8 .user none]).registrar =
    { limit := some 1, lastKey := 1, registered := 1, deregistered := 1, rejected := 1 } := rfl

end Office

end RegisteredHeap
