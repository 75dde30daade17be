import RegisteredHeap.Proofs.Turns

/-! # Endings

What has an end ahead comes in with an act: a value that is moved into an owner or made for one, and
a block that is handed out. It ends when the holder lets go of it, when there is no storage for it,
or when the row that it is for is given up. So at all times what came in has ended once, or it is
held and will, unless it was forgotten together with a heap.
-/

namespace RegisteredHeap

/-- A value or a block comes to its end. -/
def Event.isEnd : Event → Bool
  | .valueDropped .. | .blockFreed _ => true
  | _ => false

namespace Backing

variable {b b' : Backing}

/-- What came to its end, the first one first. -/
def ends (b : Backing) : List Event := (b.journal.filter Event.isEnd).reverse

theorem ends_log {e : Event} (isEnd : e.isEnd = true) (b : Backing) :
    (b.log e).ends = b.ends ++ [e] := by
  simp [ends, log, isEnd]

theorem ends_obtainDevice {size device : Nat} {r : Except HeapError DeviceExtent}
    (got : b.obtainDevice size device = (r, b')) : b'.ends = b.ends := by
  unfold Backing.obtainDevice at got
  split at got
  · cases got
    rfl
  · split at got <;> cases got <;> rfl

/-- The collaborators have no part in the ends of values and blocks. -/
theorem Dealings.ends (dealings : b.Dealings b') : b'.ends = b.ends := by
  induction dealings with
  | none => rfl
  | obtain _ got ih =>
      unfold Backing.obtain at got
      split at got <;> cases got <;> exact ih
  | release _ _ ih => exact ih
  | register _ got ih =>
      unfold Backing.register at got
      split at got <;> cases got <;> exact ih
  | deregister _ _ ih => exact ih
  | obtainDevice _ got ih => exact (ends_obtainDevice got).trans ih
  | releaseDevice _ _ ih => exact ih

theorem ends_write (b : Backing) (a : Address) (bytes : Array UInt8) :
    (b.write a bytes).ends = b.ends := by
  cases a <;> rfl

end Backing

namespace Memory

def ends (m : Memory) : List Event := m.backing.ends

theorem ends_endValues (m : Memory) (element : Element) (values : List Nat) :
    (m.endValues element values).ends = m.ends ++ values.map (.valueDropped element) := by
  unfold endValues
  induction values generalizing m with
  | nil => simp
  | cons v values ih =>
      have first : (m.log (.valueDropped element v)).ends = m.ends ++ [.valueDropped element v] :=
        Backing.ends_log rfl m.backing
      simp [ih, first]

theorem ends_store (m : Memory) (a : Address) (element : Element) (values : List Nat) :
    (m.store a element values).ends = m.ends :=
  m.backing.ends_write a _

theorem ends_free (m : Memory) (x : Block) :
    (m.free x).ends = m.ends ++ [.blockFreed x.address] := by
  have logged : (m.log (.blockFreed x.address)).ends = m.ends ++ [.blockFreed x.address] :=
    Backing.ends_log rfl m.backing
  simp only [free]
  split
  · exact logged
  split
  · exact logged
  · rename_i h _
    exact (h.lasts_giveBack _ _ x _).2.ends.trans logged

theorem ends_allocate (m : Memory) (heap size node : Nat) (device : Option Nat) :
    (m.allocate heap size node device).2.ends = m.ends := by
  unfold allocate
  split
  · rfl
  · rename_i h _
    exact (h.lasts_allocate size node device m.backing).2.ends

theorem ends_allocateArray (m : Memory) (heap : Nat) (l : Layout) (count node : Nat) :
    (m.allocateArray heap l count node).2.ends = m.ends := by
  rcases m.allocateArray_cases heap l count node with ⟨cause, -, same⟩ | ⟨size, -, same⟩
  · rw [same]
  · rw [same]
    exact m.ends_allocate heap size node none

theorem ends_registerUser (m : Memory) (heap address size : Nat) (device : Option Nat) :
    (m.registerUser heap address size device).2.ends = m.ends := by
  rcases got : m.registerUser heap address size device with ⟨r, m'⟩
  rcases registerUser_cases got with ⟨_, -, rfl⟩ | ⟨_, _, -, rfl, asked⟩ | ⟨_, _, -, rfl, asked⟩
  · rfl
  · exact (Backing.Dealings.none.register asked).ends
  · exact (Backing.Dealings.none.register asked).ends

theorem ends_closeHeap (m : Memory) (heap : Nat) : (m.closeHeap heap).ends = m.ends := by
  unfold closeHeap
  split
  · rfl
  · rename_i h _
    exact (h.lasts_close m.backing).2.ends

theorem ends_arrange (m : Memory) (key : PoolKey) (order : List Nat) :
    (m.arrange key order).ends = m.ends := by
  unfold arrange
  split
  · rfl
  split <;> rfl

end Memory

/-- Places with a value come first. -/
theorem yields_append {init : Nat → Option Nat} {v : Nat → Nat} (k rest i : Nat)
    (given : ∀ j < k, init (i + j) = some (v (i + j))) :
    yields init i (k + rest) = ((List.range' i k).map v ++ (yields init (i + k) rest).1,
      (yields init (i + k) rest).2) := by
  induction k generalizing i with
  | zero => simp
  | succ k ih =>
      have first : init i = some (v i) := given 0 (Nat.succ_pos k)
      have others : ∀ j < k, init (i + 1 + j) = some (v (i + 1 + j)) := by
        intro j inside
        rw [Nat.add_assoc, Nat.add_comm 1]
        exact given (j + 1) (Nat.succ_lt_succ inside)
      rw [Nat.succ_add, yields, first]
      simp only [ih (i + 1) others, List.range'_succ, List.map_cons, List.cons_append,
        Nat.add_assoc, Nat.add_comm 1]

theorem yields_all {init : Nat → Option Nat} {v : Nat → Nat} {len : Nat}
    (given : ∀ i < len, init i = some (v i)) :
    yields init 0 len = ((List.range len).map v, true) := by
  have all := yields_append len 0 0 fun j inside => by simpa using given j inside
  simpa [yields, List.range_eq_range'] using all

theorem yields_none {init : Nat → Option Nat} {v : Nat → Nat} {k len : Nat} (inside : k < len)
    (given : ∀ i < k, init i = some (v i)) (none : init k = none) :
    yields init 0 len = ((List.range k).map v, false) := by
  obtain ⟨rest, rfl⟩ := Nat.exists_eq_add_of_lt inside
  have some := yields_append k (rest + 1) 0 fun j inside => by simpa using given j inside
  simpa [yields, none, List.range_eq_range', Nat.add_assoc] using some

namespace Grip

/-- What comes to its end when the holder lets go: the values of an owner in the order of their
places, and then the block. -/
def endings : Grip → List Event
  | pointer b | erased b => [.blockFreed b.address]
  | owner o => o.values.map (.valueDropped o.element) ++ [.blockFreed o.block.address]

theorem endings_note (g : Grip) (n : Nat) : (g.note n).endings = g.endings := by
  cases g <;> rfl

def owner? : Grip → Option Owner
  | owner o => some o
  | pointer _ | erased _ => none

/-- The block of a plain pointer or an erased handle. -/
def handle? : Grip → Option Block
  | pointer b | erased b => some b
  | owner _ => none

end Grip

/-- The blocks of the pool's segments that are neither ready nor wait to be collected. -/
def Pool.outstanding (p : Pool) : Multiset Block := p.slices - p.stock

namespace Tenancy

variable {w : Tenancy} {act : Act} {heap lease : Nat} {m : Memory} {x : Block}

def ends (w : Tenancy) : List Event := w.memory.ends

/-- What callers hold has these ends ahead. -/
def due (w : Tenancy) : List Event := w.leases.flatMap fun l => l.grip.endings

/-- Nothing happens to a heap that is closed. -/
def during (w : Tenancy) (heap : Nat) (events : List Event) : List Event :=
  if heap ∈ w.closed then [] else events

/-- What comes to its end with an act, the first one first. -/
def ended (w : Tenancy) : Act → List Event
  | .makeOwner heap element node value =>
    w.during heap <|
      match (w.memory.allocateArray heap element.layout 1 node).1 with
      | .error _ => [.valueDropped element value]
      | .ok _ => []
  | .makeRow heap element node len init =>
    w.during heap <|
      match (w.memory.allocateArray heap element.layout len node).1, yields init 0 len with
      | .ok x, (values, false) => values.map (.valueDropped element) ++ [.blockFreed x.address]
      | _, _ => []
  | .free lease =>
    match w.leases[lease]? with
    | none => []
    | some l => w.during l.heap l.grip.endings
  | _ => []

theorem ends_on {next : Tenancy} {events : List Event}
    (after : heap ∉ w.closed → next.ends = w.ends ++ events) :
    (w.on heap next).ends = w.ends ++ w.during heap events := by
  apply on_cases (P := fun v => v.ends = w.ends ++ w.during heap events)
  · intro isClosed
    rw [during, if_pos isClosed, List.append_nil]
  · intro isOpen
    rw [during, if_neg isOpen]
    exact after isOpen

theorem ends_on_same {next : Tenancy} (same : next.ends = w.ends) :
    (w.on heap next).ends = w.ends :=
  on_cases (P := fun v => v.ends = w.ends) (fun _ => rfl) fun _ => same

theorem ends_keep (w : Tenancy) (heap : Nat) (m : Memory) (g : Option Grip) :
    (w.keep heap m g).ends = m.ends := by
  rw [ends, memory_keep]

theorem ends_call {g : Option Grip} (same : m.ends = w.ends) :
    (w.on heap (w.keep heap m g)).ends = w.ends :=
  ends_on_same ((w.ends_keep heap m g).trans same)

theorem Sound.ends_of_frees (sound : w.Sound) (frees : w.Frees act m x) :
    (w.step act).ends = m.ends ++ [.blockFreed x.address] := by
  rw [ends, sound.step_frees frees, Memory.ends_free]

theorem Sound.ends_free (sound : w.Sound) (lease : Nat) :
    (w.step (.free lease)).ends = w.ends ++ w.ended (.free lease) := by
  cases there : w.leases[lease]? with
  | none => simp [Tenancy.step, Tenancy.giveBack, ended, there]
  | some l =>
      by_cases isClosed : l.heap ∈ w.closed
      · simp [Tenancy.step, Tenancy.giveBack, ended, there, Tenancy.on, during, isClosed]
      simp only [ended, there, during, if_neg isClosed]
      cases grip : l.grip with
      | pointer b => exact sound.ends_of_frees (.pointer there isClosed grip)
      | erased b =>
          have back := sound.ends_of_frees (.erased there isClosed grip)
          exact back
      | owner o =>
          rw [sound.ends_of_frees (.owner there isClosed grip), Memory.ends_endValues,
            Grip.endings, List.append_assoc]
          rfl

theorem ends_makeOwner (w : Tenancy) (heap : Nat) (element : Element) (node value : Nat) :
    (w.step (.makeOwner heap element node value)).ends =
      w.ends ++ w.ended (.makeOwner heap element node value) := by
  have quiet := w.memory.ends_allocateArray heap element.layout 1 node
  refine ends_on fun _ => (w.ends_keep heap _ _).trans ?_
  rcases got : w.memory.allocateArray heap element.layout 1 node with ⟨cause | x, m⟩
  · rw [got] at quiet
    simp only [Memory.ends_endValues, quiet]
    rfl
  · rw [got] at quiet
    simp only [Memory.ends_store, quiet, List.append_nil]
    rfl

theorem ends_makeRow (w : Tenancy) (heap : Nat) (element : Element) (node len : Nat)
    (init : Nat → Option Nat) :
    (w.step (.makeRow heap element node len init)).ends =
      w.ends ++ w.ended (.makeRow heap element node len init) := by
  have quiet := w.memory.ends_allocateArray heap element.layout len node
  refine ends_on fun _ => (w.ends_keep heap _ _).trans ?_
  rcases got : w.memory.allocateArray heap element.layout len node with ⟨cause | x, m⟩
  · rw [got] at quiet
    simp only [List.append_nil]
    exact quiet
  rw [got] at quiet
  rcases filled : yields init 0 len with ⟨values, _ | _⟩
  · simp only [Bool.false_eq_true, if_false, Memory.ends_free,
      Memory.ends_endValues, Memory.ends_store, quiet, List.append_assoc]
    rfl
  · simp only [if_true, Memory.ends_store, quiet, List.append_nil]
    rfl

theorem ends_of_quiet (nothing : w.ended act = []) (same : (w.step act).ends = w.ends) :
    (w.step act).ends = w.ends ++ w.ended act := by
  rw [nothing, same, List.append_nil]

/-- Nothing comes to its end but what the act ends, and that in order. -/
theorem Sound.ends_step (sound : w.Sound) (act : Act) :
    (w.step act).ends = w.ends ++ w.ended act := by
  cases act with
  | makeOwner heap element node value => exact w.ends_makeOwner heap element node value
  | makeRow heap element node len init => exact w.ends_makeRow heap element node len init
  | free lease => exact sound.ends_free lease
  | openHeap settings =>
      apply ends_of_quiet rfl
      simp only [Tenancy.step]
      split <;> rfl
  | closeHeap heap =>
      refine ends_of_quiet rfl (ends_on_same ?_)
      unfold Tenancy.close
      split
      · rfl
      · exact w.memory.ends_closeHeap heap
  | allocate heap size node device =>
      exact ends_of_quiet rfl (ends_call (w.memory.ends_allocate heap size node device))
  | allocateErased heap size node =>
      exact ends_of_quiet rfl (ends_call (w.memory.ends_allocate heap size node none))
  | allocateArray heap l count node =>
      exact ends_of_quiet rfl (ends_call (w.memory.ends_allocateArray heap l count node))
  | registerUser heap address size device =>
      exact ends_of_quiet rfl (ends_call (w.memory.ends_registerUser heap address size device))
  | setMessageLength lease len =>
      apply ends_of_quiet rfl
      simp only [Tenancy.step, Tenancy.note]
      split <;> rfl
  | write place bytes => exact ends_of_quiet rfl (w.memory.backing.ends_write place bytes)
  | arrange pool order => exact ends_of_quiet rfl (ends_on_same (w.memory.ends_arrange pool order))
  | change conditions => exact ends_of_quiet rfl rfl

/-- A block that was handed out has its end ahead. -/
def dueFor (r : Except HeapError Block) : List Event :=
  match r with
  | .error _ => []
  | .ok x => [.blockFreed x.address]

/-- What comes in with an act and has an end ahead: values that are moved into an owner or made for
one, and a block. -/
def entered (w : Tenancy) : Act → List Event
  | .allocate heap size node device =>
    w.during heap (dueFor (w.memory.allocate heap size node device).1)
  | .allocateErased heap size node =>
    w.during heap (dueFor (w.memory.allocate heap size node none).1)
  | .allocateArray heap layout count node =>
    w.during heap (dueFor (w.memory.allocateArray heap layout count node).1)
  | .registerUser heap address size device =>
    w.during heap (dueFor (w.memory.registerUser heap address size device).1)
  | .makeOwner heap element node value =>
    w.during heap <| .valueDropped element value ::
      dueFor (w.memory.allocateArray heap element.layout 1 node).1
  | .makeRow heap element node len init =>
    w.during heap <|
      match (w.memory.allocateArray heap element.layout len node).1 with
      | .error _ => []
      | .ok x => (yields init 0 len).1.map (.valueDropped element) ++ [.blockFreed x.address]
  | _ => []

/-- What callers cannot let go of any more, since the heap is closed over it. -/
def forgotten (w : Tenancy) : Act → List Event
  | .closeHeap heap =>
    w.during heap <|
      match w.memory.heaps[heap]? with
      | none => []
      | some _ =>
        (w.leases.filter fun l => !(l.heap != heap || l.grip.block.isUser)).flatMap fun l =>
          l.grip.endings
  | _ => []

theorem due_keep (w : Tenancy) (heap : Nat) (m : Memory) (g : Option Grip) :
    (w.keep heap m g).due = (g.map Grip.endings).getD [] ++ w.due := by
  cases g <;> rfl

/-- The act accounts for what comes in: it ends, is held from then on, or is forgotten. -/
def Balances (w : Tenancy) (act : Act) : Prop :=
  (w.ended act ++ (w.step act).due ++ w.forgotten act).Perm (w.due ++ w.entered act)

theorem balances_call {g : Option Grip} {before after : List Event}
    (step : w.step act = w.on heap (w.keep heap m g)) (ended : w.ended act = w.during heap before)
    (entered : w.entered act = w.during heap after) (forgotten : w.forgotten act = [])
    (busy : (before ++ (g.map Grip.endings).getD []).Perm after) : w.Balances act := by
  rw [Balances, step, ended, entered, forgotten, List.append_nil, Tenancy.on, during, during]
  split
  · simp
  · rw [due_keep, ← List.append_assoc]
    exact (busy.append_right w.due).trans List.perm_append_comm

theorem during_nil (w : Tenancy) (heap : Nat) : w.during heap [] = [] := ite_self _

/-- A block comes in, or nothing does. -/
theorem balances_block {r : Except HeapError Block} {f : Block → Grip}
    (plain : ∀ x, (f x).endings = [.blockFreed x.address])
    (step : w.step act = w.on heap (w.keep heap m (r.toOption.map f))) (ended : w.ended act = [])
    (entered : w.entered act = w.during heap (dueFor r)) (forgotten : w.forgotten act = []) :
    w.Balances act := by
  refine balances_call step (ended.trans (w.during_nil heap).symm) entered forgotten ?_
  cases r with
  | error cause => exact .refl _
  | ok x => exact .of_eq (plain x)

/-- Nothing comes in or goes. -/
theorem balances_idle (due : (w.step act).due = w.due) (ended : w.ended act = [])
    (entered : w.entered act = []) (forgotten : w.forgotten act = []) : w.Balances act := by
  simp [Balances, due, ended, entered, forgotten]

theorem due_note (w : Tenancy) (lease n : Nat) : (w.note lease n).due = w.due := by
  unfold Tenancy.note
  split
  · rfl
  rename_i l there
  rw [due, due, List.flatMap_def, List.flatMap_def]
  exact congrArg List.flatten (Keyed.map_set there (l.grip.endings_note n))

theorem balances_free (w : Tenancy) (lease : Nat) : w.Balances (.free lease) := by
  cases there : w.leases[lease]? with
  | none => simp [Balances, Tenancy.step, Tenancy.giveBack, ended, entered, forgotten, there]
  | some l =>
      obtain ⟨inside, same⟩ := List.getElem?_eq_some_iff.mp there
      have moved : (l :: w.leases.eraseIdx lease).Perm w.leases :=
        same ▸ List.getElem_cons_eraseIdx_perm inside
      have due := moved.flatMap_right fun l => l.grip.endings
      by_cases isClosed : l.heap ∈ w.closed
      · simp [Balances, Tenancy.step, Tenancy.giveBack, ended, entered, forgotten, there,
          Tenancy.on, during, isClosed]
      · simpa [Balances, Tenancy.step, Tenancy.giveBack, ended, entered, forgotten, there,
          Tenancy.on, during, isClosed, Tenancy.due] using due

theorem balances_close (w : Tenancy) (heap : Nat) : w.Balances (.closeHeap heap) := by
  by_cases isClosed : heap ∈ w.closed
  · simp [Balances, Tenancy.step, ended, entered, forgotten, Tenancy.on, during, isClosed]
  cases there : w.memory.heaps[heap]? with
  | none =>
      simp [Balances, Tenancy.step, Tenancy.close, ended, entered, forgotten, there, Tenancy.on,
        during, isClosed]
  | some h =>
      have parts := List.filter_append_perm
        (fun l : Lease => l.heap != heap || l.grip.block.isUser) w.leases
      have due := parts.flatMap_right fun l => l.grip.endings
      rw [List.flatMap_append] at due
      simpa only [Balances, Tenancy.step, Tenancy.close, ended, entered, forgotten, there,
        Tenancy.on, during, isClosed, if_false, Tenancy.due, List.nil_append, List.append_nil]
        using due

theorem balances_makeOwner (w : Tenancy) (heap : Nat) (element : Element) (node value : Nat) :
    w.Balances (.makeOwner heap element node value) := by
  refine balances_call rfl rfl rfl rfl ?_
  rcases got : w.memory.allocateArray heap element.layout 1 node with ⟨cause | x, m⟩
  · exact .refl _
  · exact .refl _

theorem balances_makeRow (w : Tenancy) (heap : Nat) (element : Element) (node len : Nat)
    (init : Nat → Option Nat) : w.Balances (.makeRow heap element node len init) := by
  refine balances_call rfl rfl rfl rfl ?_
  rcases got : w.memory.allocateArray heap element.layout len node with ⟨cause | x, m⟩
  · exact .refl _
  rcases filled : yields init 0 len with ⟨values, _ | _⟩
  · exact .of_eq (List.append_nil _)
  · exact .refl _

theorem balances (w : Tenancy) (act : Act) : w.Balances act := by
  cases act with
  | closeHeap heap => exact w.balances_close heap
  | makeOwner heap element node value => exact w.balances_makeOwner heap element node value
  | makeRow heap element node len init => exact w.balances_makeRow heap element node len init
  | free lease => exact w.balances_free lease
  | allocate | allocateErased | allocateArray | registerUser =>
      exact balances_block (fun _ => rfl) rfl rfl rfl rfl
  | setMessageLength lease len => exact balances_idle (w.due_note lease len) rfl rfl rfl
  | arrange pool order =>
      refine balances_idle ?_ rfl rfl rfl
      simp only [Tenancy.step, Tenancy.on]
      split <;> rfl
  | openHeap settings =>
      refine balances_idle ?_ rfl rfl rfl
      simp only [Tenancy.step]
      split <;> rfl
  | write | change => exact balances_idle rfl rfl rfl rfl

/-- What the acts of a run come to, one after the other. -/
def throughout (w : Tenancy) (part : Tenancy → Act → List Event) : List Act → List Event
  | [] => []
  | act :: acts => part w act ++ (w.step act).throughout part acts

theorem Sound.balances_run (sound : w.Sound) (acts : List Act) :
    ((w.run acts).ends ++ (w.run acts).due ++ w.throughout forgotten acts).Perm
      (w.ends ++ w.due ++ w.throughout entered acts) := by
  induction acts generalizing w with
  | nil => simp [Tenancy.run, throughout]
  | cons act acts ih =>
      have first := w.balances act
      have rest := ih (sound.step act)
      rw [sound.ends_step act] at rest
      rw [Balances] at first
      -- What the act ends stands with the events so far in the rest of the run, and on the left in
      -- the balance of the act, so only the numbers of each event can be compared.
      rw [List.perm_iff_count] at first rest ⊢
      intro e
      have first := first e
      have rest := rest e
      simp only [Tenancy.run, List.foldl_cons, throughout, List.count_append] at first rest ⊢
      omega

/-- The owners that are there. -/
def owners (w : Tenancy) : List Owner := w.leases.filterMap fun l => l.grip.owner?

/-- The plain pointers and erased handles that were not given back. -/
def handles (w : Tenancy) : List Block := w.leases.filterMap fun l => l.grip.handle?

theorem blocks_eq (w : Tenancy) :
    w.blocks = ↑(w.owners.map fun o => o.block.bare) + ↑(w.handles.map Block.bare) := by
  rw [blocks, owners, handles, Multiset.coe_add, Multiset.coe_eq_coe]
  induction w.leases with
  | nil => exact .refl _
  | cons l leases ih =>
      cases grip : l.grip with
      | owner o =>
          simpa [grip, Grip.owner?, Grip.handle?, Grip.block] using ih
      | pointer b | erased b =>
          simpa [grip, Grip.owner?, Grip.handle?, Grip.block] using
            (ih.cons b.bare).trans List.perm_middle.symm

theorem Sound.outstanding {p : Pool} (sound : w.Sound) (listed : p ∈ w.memory.pools) :
    p.outstanding = blocksOf (↑(w.owners.map fun o => o.block.bare) + ↑(w.handles.map Block.bare))
      p.key := by
  rw [← blocks_eq, Pool.outstanding, ← (sound.memory.ledger.sound p listed).balance,
    add_tsub_cancel_left]

/-- Values and blocks come to their end once, and in order. -/
structure EndsOnce (w : Tenancy) (entered forgotten : List Event) : Prop where
  /-- What came in has ended, is held, or is forgotten with a heap: one of these, and once. -/
  accounted : (w.ends ++ w.due ++ forgotten).Perm entered
  /-- An owner ends its values in the order of their places, and then its block. -/
  dropped : ∀ lease l o, w.leases[lease]? = some l → l.heap ∉ w.closed → l.grip = .owner o →
    (w.step (.free lease)).leases = w.leases.eraseIdx lease ∧
    (w.step (.free lease)).ends =
      w.ends ++ (o.values.map (.valueDropped o.element) ++ [.blockFreed o.block.address])
  freed : ∀ lease l b, w.leases[lease]? = some l → l.heap ∉ w.closed →
    l.grip = .pointer b ∨ l.grip = .erased b →
    (w.step (.free lease)).leases = w.leases.eraseIdx lease ∧
    (w.step (.free lease)).ends = w.ends ++ [.blockFreed b.address]
  /-- A value ends at once if there is no storage for it. -/
  refused : ∀ heap element node value cause m, heap ∉ w.closed →
    w.memory.allocateArray heap element.layout 1 node = (.error cause, m) →
    (w.step (.makeOwner heap element node value)).leases = w.leases ∧
    (w.step (.makeOwner heap element node value)).ends = w.ends ++ [.valueDropped element value]
  moved : ∀ heap element node value x m, heap ∉ w.closed →
    w.memory.allocateArray heap element.layout 1 node = (.ok x, m) →
    (w.step (.makeOwner heap element node value)).leases =
      ⟨heap, .owner ⟨element, x, [value], false⟩⟩ :: w.leases ∧
    (w.step (.makeOwner heap element node value)).ends = w.ends
  /-- Without storage an initializer is not asked for anything. -/
  unasked : ∀ heap element node len init cause m, heap ∉ w.closed →
    w.memory.allocateArray heap element.layout len node = (.error cause, m) →
    (w.step (.makeRow heap element node len init)).leases = w.leases ∧
    (w.step (.makeRow heap element node len init)).ends = w.ends ∧
    ∀ init', w.step (.makeRow heap element node len init') =
      w.step (.makeRow heap element node len init)
  filled : ∀ heap element node len init (value : Nat → Nat) x m, heap ∉ w.closed →
    w.memory.allocateArray heap element.layout len node = (.ok x, m) →
    (∀ i < len, init i = some (value i)) →
    (w.step (.makeRow heap element node len init)).leases =
      ⟨heap, .owner ⟨element, x, (List.range len).map value, true⟩⟩ :: w.leases ∧
    (w.step (.makeRow heap element node len init)).ends = w.ends
  /-- An initializer that gives up is not asked for more. What it made until then ends in the order
  of the places, and then the block, which nobody owns. -/
  gaveUp : ∀ heap element node len init (value : Nat → Nat) k x m, heap ∉ w.closed →
    w.memory.allocateArray heap element.layout len node = (.ok x, m) →
    k < len → (∀ i < k, init i = some (value i)) → init k = none →
    (w.step (.makeRow heap element node len init)).leases = w.leases ∧
    (w.step (.makeRow heap element node len init)).ends = w.ends ++
      ((List.range k).map (fun i => .valueDropped element (value i)) ++ [.blockFreed x.address]) ∧
    ∀ init', (∀ i ≤ k, init' i = init i) → w.step (.makeRow heap element node len init') =
      w.step (.makeRow heap element node len init)
  outstanding : ∀ p ∈ w.memory.pools, p.outstanding =
    blocksOf (↑(w.owners.map fun o => o.block.bare) + ↑(w.handles.map Block.bare)) p.key

theorem step_makeRow_congr {element : Element} {node len : Nat} {init init' : Nat → Option Nat}
    (same : yields init' 0 len = yields init 0 len) :
    w.step (.makeRow heap element node len init') =
      w.step (.makeRow heap element node len init) := by
  simp only [Tenancy.step, Memory.makeRow, same]

theorem leases_free {l : Lease} (there : w.leases[lease]? = some l) (isOpen : l.heap ∉ w.closed) :
    (w.step (.free lease)).leases = w.leases.eraseIdx lease := by
  simp only [Tenancy.step, Tenancy.giveBack, there, Tenancy.on, isOpen, if_false]

theorem Sound.endsOnce {entered forgotten : List Event} (sound : w.Sound)
    (accounted : (w.ends ++ w.due ++ forgotten).Perm entered) : w.EndsOnce entered forgotten where
  accounted := accounted
  dropped := by
    intro lease l o there isOpen grip
    refine ⟨leases_free there isOpen, ?_⟩
    simp only [sound.ends_step, ended, there, during, isOpen, if_false, grip, Grip.endings]
  freed := by
    intro lease l b there isOpen grip
    refine ⟨leases_free there isOpen, ?_⟩
    cases grip with
    | inl grip | inr grip =>
        simp only [sound.ends_step, ended, there, during, isOpen, if_false, grip, Grip.endings]
  refused := by
    intro heap element node value cause m isOpen failed
    constructor
    · simp only [Tenancy.step, Tenancy.on, isOpen, if_false, Memory.makeOwner, failed]
      rfl
    · simp only [sound.ends_step, ended, during, isOpen, if_false, failed]
  moved := by
    intro heap element node value x m isOpen got
    constructor
    · simp only [Tenancy.step, Tenancy.on, isOpen, if_false, Memory.makeOwner, got]
      rfl
    · simp only [sound.ends_step, ended, during, isOpen, if_false, got, List.append_nil]
  unasked := by
    intro heap element node len init cause m isOpen failed
    refine ⟨?_, ?_, ?_⟩
    · simp only [Tenancy.step, Tenancy.on, isOpen, if_false, Memory.makeRow, failed]
      rfl
    · simp only [sound.ends_step, ended, during, isOpen, if_false, failed, List.append_nil]
    · intro init'
      simp only [Tenancy.step, Memory.makeRow, failed]
  filled := by
    intro heap element node len init value x m isOpen got given
    have values := yields_all given
    constructor
    · simp only [Tenancy.step, Tenancy.on, isOpen, if_false, Memory.makeRow, got, values, if_true]
      rfl
    · simp only [sound.ends_step, ended, during, isOpen, if_false, got, values, List.append_nil]
  gaveUp := by
    intro heap element node len init value k x m isOpen got inside given none
    have values := yields_none inside given none
    refine ⟨?_, ?_, ?_⟩
    · simp only [Tenancy.step, Tenancy.on, isOpen, if_false, Memory.makeRow, got, values,
        Bool.false_eq_true]
      rfl
    · simp only [sound.ends_step, ended, during, isOpen, if_false, got, values, List.map_map]
      rfl
    · intro init' alike
      -- The other initializer gives up at the same place, so it is not seen where it differs.
      have given' : ∀ i < k, init' i = some (value i) := by
        intro i before
        rw [alike i before.le, given i before]
      exact step_makeRow_congr ((yields_none inside given' ((alike k k.le_refl).trans none)).trans
        values.symm)
  outstanding _ listed := sound.outstanding listed

/-- Whatever callers do who keep to the contract, values and blocks come to their end once. -/
theorem run_endsOnce {b : Backing} (unused : b.Unused) (acts : List Act) :
    ((start b).run acts).EndsOnce ((start b).throughout entered acts)
      ((start b).throughout forgotten acts) := by
  have balances := (sound_start unused).balances_run acts
  have nothing : (start b).ends = [] := by
    simp [ends, start, Memory.ends, Backing.ends, unused.journal]
  rw [nothing] at balances
  exact (sound_run unused acts).endsOnce balances

/-- An owner, a row that is given up and a row that is filled, which is then dropped. -/
def rows : List Act :=
  [opening, .makeOwner 0 .tracked 0 7,
    .makeRow 0 .tracked 0 2 (fun i => if i = 0 then some 8 else none),
    .makeRow 0 .tracked 0 2 (fun i => some (i + 9)), .free 0]

/-- The row that was given up has ended too, and the owner is there still. -/
theorem rows_endsOnce : shelf.Unused ∧
    ((start shelf).run rows).ends =
      [.valueDropped .tracked 8, .blockFreed (.host 1 0), .valueDropped .tracked 9,
        .valueDropped .tracked 10, .blockFreed (.host 2 0)] ∧
    ((start shelf).run rows).due = [.valueDropped .tracked 7, .blockFreed (.host 0 0)] ∧
    ((start shelf).run rows).EndsOnce ((start shelf).throughout entered rows)
      ((start shelf).throughout forgotten rows) :=
  ⟨unused_shelf, rfl, rfl, run_endsOnce unused_shelf _⟩

end Tenancy

end RegisteredHeap
