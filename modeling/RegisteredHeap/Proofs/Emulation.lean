import RegisteredHeap.Proofs.Inventory

/-! # Emulated devices

A device in the hands of threads that start one another and wait for each other. Everything that can
be seen of it follows from the calls so far: which buffers are in use and with how many bytes, what
each of them holds, and which device each thread has selected. A call tells on one buffer at most,
and on the selection of its own thread.
-/

namespace RegisteredHeap

theorem Contents.byteAt_write (c : Contents) (start i : Nat) (bytes : Array UInt8) :
    (c.write start bytes).byteAt i =
      (if start ≤ i then bytes[i - start]? else none).getD (c.byteAt i) := by
  by_cases after : start ≤ i
  · rw [if_pos after]
    by_cases inside : i < start + bytes.size
    · rw [c.byteAt_write_of_mem after inside, Array.getD_eq_getD_getElem?,
        Array.getElem?_eq_getElem (by omega)]
      rfl
    · rw [c.byteAt_write_of_le (by omega), Array.getElem?_eq_none (by omega), Option.getD_none]
  · rw [if_neg after, c.byteAt_write_of_lt (by omega), Option.getD_none]

namespace Device

variable {d : Device} {size device : Nat}

theorem malloc_cases (d : Device) (size : Nat) :
    (∃ n selected, d.malloc size = (.error (.allocationFailed n selected), d)) ∨
      d.malloc size = (.ok d.issued, d.holding size d.selected) := by
  unfold malloc
  split
  · exact .inl ⟨_, _, rfl⟩
  split
  · exact .inl ⟨_, _, rfl⟩
  · exact .inr rfl

theorem allocate_of_le (unknown : d.count ≤ device) :
    d.allocate size device = (.error (.invalidDevice device), d) := by
  rw [allocate, select, if_neg (Nat.not_lt.mpr unknown)]

/-- Once the device is selected it stays so, whether there is memory for the extent or not. -/
theorem allocate_of_lt (known : device < d.count) (size : Nat) :
    (∃ n selected, d.allocate size device =
      (.error (.allocationFailed n selected), { d with selected := device })) ∨
      d.allocate size device = (.ok ⟨d.issued, size, device⟩, d.holding size device) := by
  rw [allocate, select, if_pos known]
  rcases malloc_cases { d with selected := device } size with ⟨n, selected, failed⟩ | done
  · exact .inl ⟨n, selected, by simp only [failed]⟩
  · exact .inr (by simp only [done]; rfl)

theorem buffers_free (d : Device) (number : Nat) :
    (d.free number).buffers = d.buffers.filter fun b => b.number != number := by
  unfold free
  split
  · rfl
  · rename_i unused
    rw [List.find?_eq_none] at unused
    refine (List.filter_eq_self.mpr ?_).symm
    intro b member
    simpa using unused b member

theorem selected_free (d : Device) (number : Nat) : (d.free number).selected = d.selected := by
  unfold free
  split <;> rfl

/-- The contents of a number are those of the one buffer that has it. -/
theorem Orderly.contents?_eq_some_iff {d : Device} (orderly : d.Orderly) {number : Nat}
    {c : Contents} :
    d.contents? number = some c ↔ ∃ b ∈ d.buffers, b.number = number ∧ b.contents = c := by
  rw [Device.contents?, Option.map_eq_some_iff]
  constructor
  · rintro ⟨b, found, same⟩
    obtain ⟨member, own⟩ := Keyed.of_find? found
    exact ⟨b, member, own, same⟩
  · rintro ⟨b, member, rfl, same⟩
    obtain ⟨before, after, split, apart⟩ := Keyed.exists_split orderly.distinct member
    exact ⟨b, split ▸ Keyed.find?_split apart, same⟩

end Device

namespace Emulation

inductive Call where
  | select (device : Nat)
  | malloc (size : Nat)
  | obtain (size device : Nat)
  | free (number : Nat)
  | write (number start : Nat) (bytes : Array UInt8)
  /-- The host has memory for so many bytes from here on, and for so many in one allocation. -/
  | provide (capacity hostLimit : Nat)

/-- The call is about the buffer of that number. -/
def Call.Concerns (number : Nat) : Call → Prop
  | free n | write n _ _ => n = number
  | _ => False

inductive Answer where
  | done
  | allocated (number : Nat)
  | failed (cause : DeviceError)

def perform (d : Device) : Call → Answer × Device
  | .select device =>
    match d.select device with
    | (.ok (), d) => (.done, d)
    | (.error cause, d) => (.failed cause, d)
  | .malloc size =>
    match d.malloc size with
    | (.ok number, d) => (.allocated number, d)
    | (.error cause, d) => (.failed cause, d)
  | .obtain size device =>
    match d.allocate size device with
    | (.ok extent, d) => (.allocated extent.number, d)
    | (.error cause, d) => (.failed cause, d)
  | .free number => (.done, d.free number)
  | .write number start bytes => (.done, d.write number start bytes)
  | .provide capacity hostLimit => (.done, { d with capacity, hostLimit })

/-- What a call can do. -/
inductive Effect (d : Device) : Call → Answer → Device → Prop where
  | selected {device : Nat} (known : device < d.count) :
    Effect d (.select device) .done { d with selected := device }
  | unknown {device : Nat} (unknown : d.count ≤ device) :
    Effect d (.select device) (.failed (.invalidDevice device)) d
  | made {size : Nat} : Effect d (.malloc size) (.allocated d.issued) (d.holding size d.selected)
  | full {size n s : Nat} : Effect d (.malloc size) (.failed (.allocationFailed n s)) d
  | obtained {size device : Nat} (known : device < d.count) :
    Effect d (.obtain size device) (.allocated d.issued) (d.holding size device)
  | short {size device n s : Nat} (known : device < d.count) :
    Effect d (.obtain size device) (.failed (.allocationFailed n s)) { d with selected := device }
  | refused {size device : Nat} (unknown : d.count ≤ device) :
    Effect d (.obtain size device) (.failed (.invalidDevice device)) d
  | freed {number : Nat} : Effect d (.free number) .done (d.free number)
  | written {number start : Nat} {bytes : Array UInt8} :
    Effect d (.write number start bytes) .done (d.write number start bytes)
  | provided {capacity hostLimit : Nat} :
    Effect d (.provide capacity hostLimit) .done { d with capacity, hostLimit }

theorem effect (d : Device) (call : Call) :
    Effect d call (perform d call).1 (perform d call).2 := by
  cases call with
  | select device =>
      rw [perform, Device.select]
      by_cases known : device < d.count
      · rw [if_pos known]
        exact .selected known
      · rw [if_neg known]
        exact .unknown (Nat.le_of_not_lt known)
  | malloc size =>
      rw [perform]
      rcases d.malloc_cases size with ⟨n, s, failed⟩ | done
      · rw [failed]
        exact .full
      · rw [done]
        exact .made
  | obtain size device =>
      rw [perform]
      rcases Nat.lt_or_ge device d.count with known | unknown
      · rcases Device.allocate_of_lt known size with ⟨n, s, failed⟩ | done
        · rw [failed]
          exact .short known
        · rw [done]
          exact .obtained known
      · rw [Device.allocate_of_le unknown]
        exact .refused unknown
  | free number => exact .freed
  | write number start bytes => exact .written
  | provide capacity hostLimit => exact .provided

/-- A call by a thread, with the answer. -/
structure Deed where
  thread : Nat
  call : Call
  answer : Answer

namespace Deed

/-- The device that is selected by the call, also if there was no memory on it. -/
def selects? : Deed → Option Nat
  | ⟨_, .select device, .done⟩ => some device
  | ⟨_, .obtain _ device, .allocated _⟩ => some device
  | ⟨_, .obtain _ device, .failed (.allocationFailed _ _)⟩ => some device
  | _ => none

/-- Number and size of the buffer that the call got. -/
def made? : Deed → Option (Nat × Nat)
  | ⟨_, .malloc size, .allocated number⟩ => some (number, size)
  | ⟨_, .obtain size _, .allocated number⟩ => some (number, size)
  | _ => none

/-- The byte that the call leaves at a place of a buffer. What is new is zero. -/
def puts? (number i : Nat) (x : Deed) : Option UInt8 :=
  match x.call with
  | .write n start bytes => if n = number ∧ start ≤ i then bytes[i - start]? else none
  | _ => if x.made?.map Prod.fst = some number then some 0 else none

end Deed

/-- The device that a thread selected last, 0 if none. The last deed is the first of the list. -/
def selection (thread : Nat) : List Deed → Nat
  | [] => 0
  | x :: older =>
    if x.thread = thread then x.selects?.getD (selection thread older) else selection thread older

/-- The byte written last at a place of a buffer since there is this buffer. -/
def lastByte (number i : Nat) : List Deed → UInt8
  | [] => 0
  | x :: older => (x.puts? number i).getD (lastByte number i older)

/-- Number and size of each buffer that was made and not freed. -/
def inUse : List Deed → List (Nat × Nat)
  | [] => []
  | x :: older =>
    match x.call with
    | .free number => (inUse older).filter fun a => a.1 != number
    | _ => x.made?.toList ++ inUse older

/-- The buffers are those in use, and hold what was written to them. -/
structure Tracked (d : Device) (history : List Deed) : Prop where
  orderly : d.Orderly
  buffers : d.buffers.map (fun b => (b.number, b.size)) = inUse history
  bytes : ∀ b ∈ d.buffers, ∀ i, b.contents.byteAt i = lastByte b.number i history

variable {d d' : Device} {history : List Deed} {thread : Nat} {call : Call} {answer : Answer}

namespace Tracked

theorem liveBytes_eq (tracked : Tracked d history) :
    d.liveBytes = ((inUse history).map fun a => max a.2 1).sum := by
  rw [tracked.orderly.bytes, ← tracked.buffers, List.map_map]
  rfl

theorem map_number (tracked : Tracked d history) :
    d.buffers.map Buffer.number = (inUse history).map Prod.fst := by
  rw [← tracked.buffers, List.map_map]
  rfl

theorem fresh (tracked : Tracked d history) {b : Buffer} (member : b ∈ d.buffers) :
    d.issued ≠ b.number := (tracked.orderly.fresh b member).ne'

/-- The selection and what the host has left are nothing to the buffers. -/
theorem congr (tracked : Tracked d history) (selected capacity hostLimit : Nat) :
    Tracked { d with selected, capacity, hostLimit } history :=
  ⟨⟨tracked.orderly.distinct, tracked.orderly.fresh, tracked.orderly.bytes⟩, tracked.buffers,
    tracked.bytes⟩

theorem idle (tracked : Tracked d history) {x : Deed} (same : inUse (x :: history) = inUse history)
    (nothing : ∀ n i, x.puts? n i = none) : Tracked d (x :: history) where
  orderly := tracked.orderly
  buffers := tracked.buffers.trans same.symm
  bytes b member i := by
    rw [lastByte, nothing]
    exact tracked.bytes b member i

theorem holding (tracked : Tracked d history) {x : Deed} {size device : Nat}
    (made : inUse (x :: history) = (d.issued, size) :: inUse history)
    (zero : ∀ n i, x.puts? n i = if d.issued = n then some 0 else none) :
    Tracked (d.holding size device) (x :: history) where
  orderly := tracked.orderly.holding size device
  buffers := by
    rw [made, ← tracked.buffers]
    rfl
  bytes b member i := by
    rw [lastByte, zero]
    rcases List.mem_cons.mp member with rfl | old
    · rw [if_pos rfl]
      rfl
    · rw [if_neg (tracked.fresh old)]
      exact tracked.bytes b old i

theorem free (tracked : Tracked d history) (thread number : Nat) :
    Tracked (d.free number) (⟨thread, .free number, .done⟩ :: history) where
  orderly := tracked.orderly.free number
  buffers := by
    have kept : inUse (⟨thread, .free number, .done⟩ :: history) =
        (inUse history).filter fun a => a.1 != number := rfl
    rw [Device.buffers_free, kept, ← tracked.buffers, List.filter_map]
    rfl
  bytes b member i := by
    rw [Device.buffers_free] at member
    exact tracked.bytes b (List.mem_of_mem_filter member) i

theorem write (tracked : Tracked d history) (thread number start : Nat) (bytes : Array UInt8) :
    Tracked (d.write number start bytes)
      (⟨thread, .write number start bytes, .done⟩ :: history) where
  orderly := (tracked.orderly.write number start bytes).1
  buffers := (Device.map_write (fun _ _ => rfl) d number start bytes).trans tracked.buffers
  bytes b member i := by
    obtain ⟨old, there, rfl⟩ := List.mem_map.mp member
    have before := tracked.bytes old there i
    rw [lastByte]
    by_cases own : old.number = number
    · simp only [own, beq_self_eq_true, if_true, Contents.byteAt_write, Deed.puts?, true_and]
      rw [before, own]
    · simp only [beq_eq_false_iff_ne.mpr own, Bool.false_eq_true, if_false, Deed.puts?,
        Ne.symm own, false_and, Option.getD_none, before]

end Tracked

theorem Effect.tracked (effect : Effect d call answer d') (tracked : Tracked d history)
    (thread : Nat) : Tracked d' (⟨thread, call, answer⟩ :: history) := by
  cases effect with
  | selected | unknown | full | short | refused | provided =>
      exact (tracked.congr _ _ _).idle rfl fun _ _ => rfl
  | made | obtained =>
      refine tracked.holding rfl fun n i => ?_
      simp [Deed.puts?, Deed.made?]
  | freed => exact tracked.free thread _
  | written => exact tracked.write thread _ _ _

theorem selection_other {x : Deed} (other : x.thread ≠ thread) (older : List Deed) :
    selection thread (x :: older) = selection thread older := if_neg other

theorem selection_own {x : Deed} (own : x.thread = thread) (older : List Deed) :
    selection thread (x :: older) = x.selects?.getD (selection thread older) := if_pos own

theorem selection_of_new (past : ∀ x ∈ history, x.thread < thread) :
    selection thread history = 0 := by
  induction history with
  | nil => rfl
  | cons x older ih =>
      rw [selection_other (past x List.mem_cons_self).ne]
      exact ih fun y member => past y (List.mem_cons_of_mem _ member)

theorem Effect.selects (effect : Effect d call answer d') (thread : Nat) :
    d'.selected = (Deed.selects? ⟨thread, call, answer⟩).getD d.selected := by
  cases effect with
  | freed => exact d.selected_free _
  | _ => rfl

/-- A failure takes nothing and gives nothing back. -/
theorem Effect.failed {cause : DeviceError} (effect : Effect d call (.failed cause) d') :
    d'.liveBytes = d.liveBytes ∧ d'.buffers = d.buffers := by
  cases effect <;> exact ⟨rfl, rfl⟩

/-- A call leaves the contents of every buffer that it is not about. -/
theorem Effect.foreign (effect : Effect d call answer d') (orderly : d.Orderly)
    (orderly' : d'.Orderly) {number : Nat} {c : Contents} (other : ¬ call.Concerns number)
    (there : d.contents? number = some c) : d'.contents? number = some c := by
  have held := orderly.contents?_eq_some_iff.mp there
  obtain ⟨b, member, rfl, same⟩ := held
  cases effect with
  | selected | unknown | full | short | refused | provided => exact there
  | made | obtained =>
      exact orderly'.contents?_eq_some_iff.mpr ⟨b, List.mem_cons_of_mem _ member, rfl, same⟩
  | @freed n =>
      refine orderly'.contents?_eq_some_iff.mpr ⟨b, ?_, rfl, same⟩
      rw [Device.buffers_free, List.mem_filter]
      exact ⟨member, bne_iff_ne.mpr fun own => other own.symm⟩
  | @written n start bytes =>
      refine orderly'.contents?_eq_some_iff.mpr ⟨b, List.mem_map.mpr ⟨b, member, ?_⟩, rfl, same⟩
      rw [if_neg]
      simpa using fun own => other (Eq.symm own)

end Emulation

/-- A device with the threads that use it. -/
structure Emulation where
  device : Device
  /-- The running thread. Threads are numbered as they start. -/
  thread : Nat := 0
  /-- The threads that wait for it to end, the innermost first, and the device as each left it. -/
  waiting : List (Nat × Device) := []
  threads : Nat := 1
  /-- The calls so far, the last one first. -/
  history : List Emulation.Deed := []

namespace Emulation

inductive Step where
  | call (call : Call)
  /-- The running thread starts another one and waits. -/
  | fork
  /-- The running thread ends. -/
  | join

def step (w : Emulation) : Step → Emulation
  | .call call =>
    let (answer, device) := perform w.device call
    { w with device, history := ⟨w.thread, call, answer⟩ :: w.history }
  | .fork =>
    { w with
      device := w.device.enterThread
      thread := w.threads
      waiting := (w.thread, w.device) :: w.waiting
      threads := w.threads + 1 }
  | .join =>
    match w.waiting with
    | (thread, outer) :: waiting =>
      { w with device := w.device.leaveThread outer, thread, waiting }
    | [] => w

def run (w : Emulation) (steps : List Step) : Emulation := steps.foldl step w

/-- Nothing is in use yet, and there is one thread. -/
def start (count capacity : Nat) : Emulation := { device := { count, capacity } }

/-- Threads have numbers of their own, and each knows what it selected. -/
structure Ordered (w : Emulation) : Prop where
  tracked : Tracked w.device w.history
  selected : w.device.selected = selection w.thread w.history
  others : ∀ t outer, (t, outer) ∈ w.waiting → outer.selected = selection t w.history
  distinct : (w.thread :: w.waiting.map Prod.fst).Nodup
  started : ∀ t ∈ w.thread :: w.waiting.map Prod.fst, t < w.threads
  past : ∀ x ∈ w.history, x.thread < w.threads

variable {w : Emulation} {t : Nat}

namespace Ordered

theorem call (ordered : w.Ordered) (call : Call) : (w.step (.call call)).Ordered where
  tracked := (effect w.device call).tracked ordered.tracked w.thread
  selected := by
    have own : selection w.thread (w.step (.call call)).history = _ := selection_own rfl _
    rw [show (w.step (.call call)).thread = w.thread from rfl, own, ← ordered.selected]
    exact (effect w.device call).selects w.thread
  others t outer member := by
    have apart := (List.nodup_cons.mp ordered.distinct).1
    have other : w.thread ≠ t := fun same => apart (same ▸ List.mem_map_of_mem member)
    exact (ordered.others t outer member).trans (selection_other other _).symm
  distinct := ordered.distinct
  started := ordered.started
  past x member := by
    rcases List.mem_cons.mp member with rfl | old
    · exact ordered.started w.thread List.mem_cons_self
    · exact ordered.past x old

theorem fork (ordered : w.Ordered) : (w.step .fork).Ordered where
  tracked := ordered.tracked.congr 0 _ _
  selected := (selection_of_new ordered.past).symm
  others t outer member := by
    rcases List.mem_cons.mp member with same | inner
    · cases same
      exact ordered.selected
    · exact ordered.others t outer inner
  distinct := by
    refine List.nodup_cons.mpr ⟨?_, ordered.distinct⟩
    intro member
    exact (ordered.started _ member).ne rfl
  started t member := by
    rcases List.mem_cons.mp member with rfl | inner
    · exact Nat.lt_succ_self _
    · exact Nat.lt_succ_of_lt (ordered.started t inner)
  past x member := Nat.lt_succ_of_lt (ordered.past x member)

theorem join (ordered : w.Ordered) : (w.step .join).Ordered := by
  simp only [Emulation.step]
  split
  · rename_i thread outer waiting split
    have distinct := ordered.distinct
    have started := ordered.started
    have others := ordered.others
    simp only [split, List.map_cons] at distinct started others
    exact
      { tracked := ordered.tracked.congr outer.selected _ _
        selected := others thread outer List.mem_cons_self
        others := fun t outer member => others t outer (List.mem_cons_of_mem _ member)
        distinct := (List.nodup_cons.mp distinct).2
        started := fun t member => started t (List.mem_cons_of_mem _ member)
        past := ordered.past }
  · exact ordered

theorem step (ordered : w.Ordered) (s : Step) : (w.step s).Ordered := by
  cases s with
  | call call => exact ordered.call call
  | fork => exact ordered.fork
  | join => exact ordered.join

theorem run (ordered : w.Ordered) (steps : List Step) : (w.run steps).Ordered := by
  unfold Emulation.run
  induction steps generalizing w with
  | nil => exact ordered
  | cons s steps ih => exact ih (ordered.step s)

end Ordered

theorem ordered_start (count capacity : Nat) : (start count capacity).Ordered := by
  refine ⟨⟨⟨?_, ?_, ?_⟩, ?_, ?_⟩, ?_, ?_, ?_, ?_, ?_⟩ <;> simp [start, inUse, selection]

/-- All that can be seen of a device follows from the calls so far. -/
structure Behaves (w : Emulation) : Prop where
  liveBytes : w.device.liveBytes = ((inUse w.history).map fun a => max a.2 1).sum
  /-- No two buffers in use have the same number. -/
  isolated : ((inUse w.history).map Prod.fst).Nodup
  readable : ∀ number, (w.device.contents? number).isSome ↔ number ∈ (inUse w.history).map Prod.fst
  reads : ∀ number c start len, w.device.contents? number = some c →
    c.read start len = (List.range' start len).map fun i => lastByte number i w.history
  selected : w.device.selected = selection w.thread w.history
  /-- What waiting threads will find again, whatever was selected since. -/
  others : ∀ t outer, (t, outer) ∈ w.waiting →
    t ≠ w.thread ∧ outer.selected = selection t w.history
  begins : (w.step .fork).device.selected = 0
  failed : ∀ call cause d', perform w.device call = (.failed cause, d') →
    d'.liveBytes = w.device.liveBytes ∧ d'.buffers = w.device.buffers
  foreign : ∀ call number c, ¬ Call.Concerns number call → w.device.contents? number = some c →
    (perform w.device call).2.contents? number = some c

theorem Ordered.behaves (ordered : w.Ordered) : w.Behaves where
  liveBytes := ordered.tracked.liveBytes_eq
  isolated := by
    rw [← ordered.tracked.map_number]
    exact ordered.tracked.orderly.distinct
  readable number := by
    rw [← ordered.tracked.map_number, List.mem_map, Option.isSome_iff_exists]
    simp only [ordered.tracked.orderly.contents?_eq_some_iff]
    constructor
    · rintro ⟨c, b, member, own, -⟩
      exact ⟨b, member, own⟩
    · rintro ⟨b, member, own⟩
      exact ⟨b.contents, b, member, own, rfl⟩
  reads number c start len there := by
    obtain ⟨b, member, rfl, rfl⟩ := ordered.tracked.orderly.contents?_eq_some_iff.mp there
    exact List.map_congr_left fun i _ => ordered.tracked.bytes b member i
  selected := ordered.selected
  others t outer member := by
    have apart := (List.nodup_cons.mp ordered.distinct).1
    exact ⟨fun same => apart (same ▸ List.mem_map_of_mem member), ordered.others t outer member⟩
  begins := rfl
  failed call cause d' failed := by
    have effect := effect w.device call
    rw [failed] at effect
    exact effect.failed
  foreign call number c other there :=
    (effect w.device call).foreign ordered.tracked.orderly (ordered.call call).tracked.orderly other
      there

/-- However threads use a device, start one another and fail, it keeps what it was given and
nothing else. -/
theorem run_behaves (count capacity : Nat) (steps : List Step) :
    ((start count capacity).run steps).Behaves :=
  ((ordered_start count capacity).run steps).behaves

/-- The selection of a thread is gone when it ends, its buffers are not. -/
example :
    let w := (start 4 64).run [.call (.select 3), .fork, .call (.obtain 16 1), .join]
    w.device.selected = 3 ∧ w.device.liveBytes = 16 := by decide

end Emulation

end RegisteredHeap
