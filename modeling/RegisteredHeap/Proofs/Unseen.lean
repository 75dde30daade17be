import Mathlib.Data.List.InsertIdx
import RegisteredHeap.Proofs.Coverage
import RegisteredHeap.Proofs.Demands
import RegisteredHeap.Proofs.Resemblance

/-! # Memory of callers and the pools

Where registrations are not limited, memory of callers that is registered or given up does not show
in what the heaps do. A run with all of that left out answers every other act alike and leaves the
same counters, extents and bytes.
-/

namespace RegisteredHeap

open Visible

namespace Filtered

variable {α : Type} {keep : α → Bool} {entries : List α} {i : Nat} {a a' : α}

theorem exists_around (there : entries[i]? = some a) :
    ∃ before after, entries = before ++ a :: after ∧ before.length = i := by
  obtain ⟨inside, rfl⟩ := List.getElem?_eq_some_iff.mp there
  refine ⟨entries.take i, entries.drop (i + 1), ?_, List.length_take_of_le (Nat.le_of_lt inside)⟩
  rw [List.getElem_cons_drop, List.take_append_drop]

/-- The place of a kept entry among those that are kept. -/
theorem getElem?_filter (there : entries[i]? = some a) (kept : keep a) :
    (entries.filter keep)[(entries.take i).countP keep]? = some a := by
  obtain ⟨before, after, rfl, rfl⟩ := exists_around there
  rw [List.take_left, List.countP_eq_length_filter, List.filter_append,
    List.filter_cons_of_pos kept, List.getElem?_append_right (Nat.le_refl _), Nat.sub_self,
    List.getElem?_cons_zero]

theorem filter_eraseIdx (there : entries[i]? = some a) (kept : keep a) :
    (entries.eraseIdx i).filter keep =
      (entries.filter keep).eraseIdx ((entries.take i).countP keep) := by
  obtain ⟨before, after, rfl, rfl⟩ := exists_around there
  rw [List.take_left, List.countP_eq_length_filter, List.filter_append,
    List.filter_cons_of_pos kept, List.eraseIdx_append_of_length_le (Nat.le_refl _),
    List.eraseIdx_append_of_length_le (Nat.le_refl _), Nat.sub_self, Nat.sub_self,
    List.eraseIdx_cons_zero, List.eraseIdx_cons_zero, List.filter_append]

theorem filter_eraseIdx_of_not (there : entries[i]? = some a) (gone : ¬ keep a) :
    (entries.eraseIdx i).filter keep = entries.filter keep := by
  obtain ⟨before, after, rfl, rfl⟩ := exists_around there
  rw [List.eraseIdx_append_of_length_le (Nat.le_refl _), Nat.sub_self, List.eraseIdx_cons_zero,
    List.filter_append, List.filter_append, List.filter_cons_of_neg gone]

theorem filter_set (there : entries[i]? = some a) (kept : keep a) (kept' : keep a') :
    (entries.set i a').filter keep =
      (entries.filter keep).set ((entries.take i).countP keep) a' := by
  obtain ⟨before, after, rfl, rfl⟩ := exists_around there
  rw [List.take_left, List.countP_eq_length_filter, List.filter_append,
    List.filter_cons_of_pos kept, List.set_append_right _ _ (Nat.le_refl _),
    List.set_append_right _ _ (Nat.le_refl _), Nat.sub_self, Nat.sub_self, List.set_cons_zero,
    List.set_cons_zero, List.filter_append, List.filter_cons_of_pos kept']

theorem filter_set_of_not (there : entries[i]? = some a) (gone : ¬ keep a) (gone' : ¬ keep a') :
    (entries.set i a').filter keep = entries.filter keep := by
  obtain ⟨before, after, rfl, rfl⟩ := exists_around there
  rw [List.set_append_right _ _ (Nat.le_refl _), Nat.sub_self, List.set_cons_zero,
    List.filter_append, List.filter_append, List.filter_cons_of_neg gone,
    List.filter_cons_of_neg gone']

end Filtered

instance : Visible Grip where
  visible
    | .pointer x => .pointer (visible x)
    | .erased x => .erased (visible x)
    | .owner o => .owner (visible o)

instance : Visible Lease := ⟨fun l => { l with grip := visible l.grip }⟩

theorem Backing.Dealings.limit {b b' : Backing} (dealings : b.Dealings b') :
    b'.registrar.limit = b.registrar.limit := by
  induction dealings with
  | none => rfl
  | @obtain b' b'' size node r _ got ih =>
      rw [← ih]
      unfold Backing.obtain at got
      split at got <;> cases got <;> rfl
  | release _ e ih => exact ih
  | @register b' b'' base len flags device r _ got ih =>
      rw [← ih]
      rcases b'.register_cases base len flags device with ⟨_, failed⟩ | ⟨_, _, done⟩
      · rw [failed] at got
        cases got
        rfl
      · rw [done] at got
        cases got
        rfl
  | deregister _ r ih => exact ih
  | @obtainDevice b' b'' size device r _ got ih =>
      rw [← ih]
      unfold Backing.obtainDevice at got
      split at got
      · cases got
        rfl
      split at got <;> cases got <;> rfl
  | releaseDevice _ e ih => exact ih

namespace Memory

/-- How many ranges may be registered at all. -/
def limit (m : Memory) : Option Nat := m.backing.registrar.limit

variable {m : Memory} {x : Block}

theorem limit_allocate (m : Memory) (heap size node : Nat) (device : Option Nat) :
    (m.allocate heap size node device).2.limit = m.limit := by
  unfold allocate
  split
  · rfl
  · rename_i h _
    exact (h.lasts_allocate size node device m.backing).2.limit

theorem limit_allocateArray (m : Memory) (heap : Nat) (l : Layout) (count node : Nat) :
    (m.allocateArray heap l count node).2.limit = m.limit := by
  rcases m.allocateArray_cases heap l count node with ⟨_, -, failed⟩ | ⟨size, -, asked⟩
  · rw [failed]
  · rw [asked, limit_allocate]

theorem limit_endValues (m : Memory) (element : Element) (values : List Nat) :
    (m.endValues element values).limit = m.limit :=
  endValues_induction (P := fun m' => m'.limit = m.limit) element values rfl fun _ _ same => same

theorem limit_store (m : Memory) (a : Address) (element : Element) (values : List Nat) :
    (m.store a element values).limit = m.limit := by
  cases a <;> rfl

theorem limit_free (m : Memory) (x : Block) : (m.free x).limit = m.limit := by
  simp only [free]
  split
  · rfl
  split
  · rfl
  · rename_i h _
    exact (h.lasts_giveBack _ _ x _).2.limit

theorem limit_freeErased (m : Memory) (e : ErasedBlock) : (m.freeErased e).limit = m.limit := by
  unfold freeErased
  split
  · exact limit_free m _
  · rfl

theorem limit_giveBack (m : Memory) (g : Grip) : (g.giveBack m).limit = m.limit := by
  cases g with
  | pointer x => exact limit_free m x
  | erased x => exact limit_freeErased m x.erase
  | owner o => exact (limit_free _ o.block).trans (limit_endValues m o.element o.values)

theorem limit_makeOwner (m : Memory) (heap : Nat) (element : Element) (node value : Nat) :
    (m.makeOwner heap element node value).2.limit = m.limit := by
  rw [← m.limit_allocateArray heap element.layout 1 node]
  rcases asked : m.allocateArray heap element.layout 1 node with ⟨_ | x, m'⟩
  · simp only [makeOwner, asked, limit_endValues]
  · simp only [makeOwner, asked, limit_store]

theorem limit_makeRow (m : Memory) (heap : Nat) (element : Element) (node len : Nat)
    (init : Nat → Option Nat) : (m.makeRow heap element node len init).2.limit = m.limit := by
  rw [← m.limit_allocateArray heap element.layout len node]
  rcases asked : m.allocateArray heap element.layout len node with ⟨_ | x, m'⟩
  · simp only [makeRow, asked]
  · simp only [makeRow, asked]
    split
    · exact limit_store m' _ _ _
    · rw [limit_free, limit_endValues, limit_store]

theorem limit_registerUser (m : Memory) (heap address size : Nat) (device : Option Nat) :
    (m.registerUser heap address size device).2.limit = m.limit := by
  rcases got : m.registerUser heap address size device with ⟨r, m'⟩
  rcases registerUser_cases got with ⟨_, -, rfl⟩ | ⟨_, _, -, rfl, asked⟩ | ⟨_, _, -, rfl, asked⟩
  · rfl
  · exact (Backing.Dealings.none.register asked).limit
  · exact (Backing.Dealings.none.register asked).limit

theorem limit_closeHeap (m : Memory) (heap : Nat) : (m.closeHeap heap).limit = m.limit := by
  unfold closeHeap
  split
  · rfl
  · rename_i h _
    exact (h.lasts_close m.backing).2.limit

theorem limit_arrange (m : Memory) (key : PoolKey) (order : List Nat) :
    (m.arrange key order).limit = m.limit := by
  unfold arrange
  split
  · rfl
  split <;> rfl

end Memory

namespace Tenancy

variable {w v : Tenancy} {act act' : Act} {heap lease : Nat}

/-- Only a change around the callers sets another limit. -/
theorem limit_step (free : w.memory.limit = none) (act : Act)
    (stays : ∀ c, act = .change c → c.limit = none) : (w.step act).memory.limit = none := by
  have on {heap : Nat} {next : Tenancy} (after : next.memory.limit = w.memory.limit) :
      (w.on heap next).memory.limit = none :=
    on_cases (P := fun v => v.memory.limit = none) (fun _ => free) fun _ => after.trans free
  have call {heap : Nat} {m : Memory} {g : Option Grip} (after : m.limit = w.memory.limit) :
      (w.on heap (w.keep heap m g)).memory.limit = none := by
    apply on
    rw [memory_keep]
    exact after
  cases act with
  | openHeap settings =>
      simp only [Tenancy.step]
      split <;> exact free
  | closeHeap heap =>
      refine on ?_
      unfold Tenancy.close
      split
      · rfl
      · exact w.memory.limit_closeHeap heap
  | allocate heap size node device => exact call (w.memory.limit_allocate heap size node device)
  | allocateErased heap size node => exact call (w.memory.limit_allocate heap size node none)
  | allocateArray heap layout count node =>
      exact call (w.memory.limit_allocateArray heap layout count node)
  | makeOwner heap element node value =>
      exact call (w.memory.limit_makeOwner heap element node value)
  | makeRow heap element node len init =>
      exact call (w.memory.limit_makeRow heap element node len init)
  | registerUser heap address size device =>
      exact call (w.memory.limit_registerUser heap address size device)
  | setMessageLength lease len =>
      simp only [Tenancy.step, Tenancy.note]
      split <;> exact free
  | free lease =>
      simp only [Tenancy.step, Tenancy.giveBack]
      split
      · exact free
      · exact on (w.memory.limit_giveBack _)
  | write place bytes => cases place <;> exact free
  | arrange pool order => exact on (w.memory.limit_arrange pool order)
  | change conditions => exact stays conditions rfl

/-- Nothing is answered for a heap that is closed. -/
def reply (w : Tenancy) (heap : Nat) (r : Except HeapError (Option Grip)) :
    Except HeapError (Option Grip) :=
  if heap ∈ w.closed then .ok none else r

/-- What an act answers: an error, or what the caller holds now, if anything. -/
def answer (w : Tenancy) : Act → Except HeapError (Option Grip)
  | .openHeap settings =>
    match Config.ofSettings settings with
    | .error cause => .error (.configuration cause)
    | .ok _ => .ok none
  | .allocate heap size node device =>
    w.reply heap ((w.memory.allocate heap size node device).1.map fun x => some (.pointer x))
  | .allocateErased heap size node =>
    w.reply heap ((w.memory.allocate heap size node none).1.map fun x => some (.erased x))
  | .allocateArray heap layout count node =>
    w.reply heap ((w.memory.allocateArray heap layout count node).1.map fun x => some (.pointer x))
  | .makeOwner heap element node value =>
    w.reply heap ((w.memory.makeOwner heap element node value).1.map fun o => some (.owner o))
  | .makeRow heap element node len init =>
    w.reply heap ((w.memory.makeRow heap element node len init).1.map (Option.map .owner))
  | .registerUser heap address size device =>
    w.reply heap ((w.memory.registerUser heap address size device).1.map
      fun x => some (.pointer x))
  | _ => .ok none

/-- What can be told of a memory from outside. -/
structure View where
  stats : List Stats
  numHuge : List Nat
  numa : Numa
  device : Option Device

def view (w : Tenancy) : View where
  stats := w.memory.heaps.map Heap.stats
  numHuge := w.memory.heaps.map Heap.numHuge
  numa := w.memory.backing.numa
  device := w.memory.backing.device

/-- What each act of a run answers and leaves, without the keys. -/
def trace (w : Tenancy) : List Act → List (Except HeapError (Option Grip) × View)
  | [] => []
  | act :: acts => (visible (w.answer act), (w.step act).view) :: (w.step act).trace acts

/-- The place of a lease among those that are not of memory of a caller, if it is one of them. -/
def place? (w : Tenancy) (lease : Nat) : Option Nat :=
  match w.leases[lease]? with
  | none => some lease
  | some l =>
    if l.grip.block.isUser then none
    else some ((w.leases.take lease).countP fun l => !l.grip.block.isUser)

/-- The act where memory of callers is left out. It is not there any more if it is about such
memory, and names its lease by another place otherwise. -/
def pooled? (w : Tenancy) : Act → Option Act
  | .registerUser .. => none
  | .free lease => (w.place? lease).map .free
  | .setMessageLength lease len => (w.place? lease).map (.setMessageLength · len)
  | act => some act

/-- The acts of a run that are about no memory of callers. -/
def pooledActs (w : Tenancy) : List Act → List Act
  | [] => []
  | act :: acts => (w.pooled? act).toList ++ (w.step act).pooledActs acts

/-- What these acts answer and leave in the whole run. -/
def pooledTrace (w : Tenancy) : List Act → List (Except HeapError (Option Grip) × View)
  | [] => []
  | act :: acts =>
    if (w.pooled? act).isSome then
      (visible (w.answer act), (w.step act).view) :: (w.step act).pooledTrace acts
    else (w.step act).pooledTrace acts

/-- The leases that are not of memory of a caller. -/
def pooledLeases (w : Tenancy) : List Lease := w.leases.filter fun l => !l.grip.block.isUser

/-- The second run holds what the first one does, without keys and without memory of callers. -/
structure Hides (w v : Tenancy) : Prop where
  memory : Resembles w.memory v.memory
  leases : Resembles w.pooledLeases v.leases
  closed : w.closed = v.closed

theorem Hides.leases_visible (hides : w.Hides v) :
    w.pooledLeases.map visible = v.leases.map visible := hides.leases

theorem isUser_visible (l : Lease) : (visible l).grip.block.isUser = l.grip.block.isUser := by
  obtain ⟨heap, grip⟩ := l
  have block (x : Block) : (visible x).isUser = x.isUser := by
    obtain ⟨origin, _, _, _, _⟩ := x
    cases origin <;> rfl
  cases grip with
  | pointer x | erased x => exact block x
  | owner o => exact block o.block

theorem Hides.on {next next' : Tenancy} (hides : w.Hides v)
    (after : heap ∉ w.closed → next.Hides next') : (w.on heap next).Hides (v.on heap next') := by
  unfold Tenancy.on
  rw [← hides.closed]
  split
  · exact hides
  · rename_i isOpen
    exact after isOpen

theorem Hides.reply {r r' : Except HeapError (Option Grip)} (hides : w.Hides v)
    (same : Resembles r r') : Resembles (w.reply heap r) (v.reply heap r') := by
  unfold Tenancy.reply
  rw [← hides.closed]
  split
  · rfl
  · exact same

/-- A call that gives both the same, keys apart. -/
theorem Hides.keep {g g' : Option Grip} {m m' : Memory} (hides : w.Hides v)
    (memory : Resembles m m') (grip : Resembles g g')
    (pooled : ∀ x, g = some x → x.block.isUser = false) :
    (w.keep heap m g).Hides (v.keep heap m' g') := by
  rcases grip.option with ⟨rfl, rfl⟩ | ⟨x, y, rfl, rfl, same⟩
  · exact ⟨memory, hides.leases, hides.closed⟩
  · refine ⟨memory, ?_, hides.closed⟩
    have new : (⟨heap, x⟩ :: w.leases).filter (fun l => !l.grip.block.isUser) =
        ⟨heap, x⟩ :: w.pooledLeases :=
      List.filter_cons_of_pos (by rw [pooled x rfl]; rfl)
    have leases := hides.leases_visible
    change ((⟨heap, x⟩ :: w.leases).filter (fun l => !l.grip.block.isUser)).map visible =
      (⟨heap, y⟩ :: v.leases).map visible
    rw [new, List.map_cons, List.map_cons, leases]
    exact congrArg (fun g => Lease.mk heap g :: v.leases.map visible) same

/-- What comes of a call on an open heap, for the caller and for the run. -/
theorem Hides.call {α : Type} [Visible α] {r r' : Except HeapError α} {f : α → Option Grip}
    {g g' : Option Grip} {m m' : Memory} (hides : w.Hides v) (same : Resembles (r, m) (r', m'))
    (grip : g = r.toOption.bind f) (grip' : g' = r'.toOption.bind f)
    (blind : ∀ a, visible (f a) = f (visible a))
    (pooled : heap ∉ w.closed → ∀ a x, r = .ok a → f a = some x → x.block.isUser = false) :
    (w.on heap (w.keep heap m g)).Hides (v.on heap (v.keep heap m' g')) ∧
      Resembles (w.reply heap (r.map f)) (v.reply heap (r'.map f)) := by
  rcases same.outcome with
    ⟨cause, m, m', first, second, memory⟩ | ⟨a, a', m, m', first, second, result, memory⟩
  · cases first
    cases second
    subst grip grip'
    exact ⟨hides.on fun _ => ⟨memory, hides.leases, hides.closed⟩, hides.reply rfl⟩
  · cases first
    cases second
    subst grip grip'
    have given : Resembles (f a) (f a') := result.map blind
    exact ⟨hides.on fun isOpen => hides.keep memory given fun x gets => pooled isOpen a x rfl gets,
      hides.reply (.ok given)⟩

theorem pooled_of_allocate (sound : w.Sound) (isOpen : heap ∉ w.closed) {size node : Nat}
    {device : Option Nat} {x : Block}
    (got : (w.memory.allocate heap size node device).1 = .ok x) : x.isUser = false := by
  obtain ⟨h, n, -, -, own⟩ := sound.memory.granted isOpen (Prod.ext got rfl)
  exact isUser_of_pool? own

theorem pooled_of_allocateArray (sound : w.Sound) (isOpen : heap ∉ w.closed) {l : Layout}
    {count node : Nat} {x : Block}
    (got : (w.memory.allocateArray heap l count node).1 = .ok x) : x.isUser = false := by
  rcases w.memory.allocateArray_cases heap l count node with ⟨_, -, failed⟩ | ⟨size, -, asked⟩
  · rw [failed] at got
    cases got
  · rw [asked] at got
    exact pooled_of_allocate sound isOpen got

theorem pooled_of_makeOwner (sound : w.Sound) (isOpen : heap ∉ w.closed) {element : Element}
    {node value : Nat} {o : Owner} (got : (w.memory.makeOwner heap element node value).1 = .ok o) :
    o.block.isUser = false := by
  obtain ⟨block, -, -⟩ := w.memory.makeOwner_storage heap element node value
  rw [got] at block
  cases asked : (w.memory.allocateArray heap element.layout 1 node).1 with
  | error cause =>
      rw [asked] at block
      cases block
  | ok x =>
      rw [asked] at block
      cases block
      exact pooled_of_allocateArray sound isOpen asked

theorem pooled_of_makeRow (sound : w.Sound) (isOpen : heap ∉ w.closed) {element : Element}
    {node len : Nat} {init : Nat → Option Nat} {o : Owner}
    (got : (w.memory.makeRow heap element node len init).1 = .ok (some o)) :
    o.block.isUser = false := by
  rcases asked : w.memory.allocateArray heap element.layout len node with ⟨_ | x, m⟩
  · simp only [Memory.makeRow, asked] at got
    cases got
  · have pooled := pooled_of_allocateArray sound isOpen (congrArg Prod.fst asked)
    simp only [Memory.makeRow, asked] at got
    split at got
    · cases got
      exact pooled
    · cases got

theorem Hides.openHeap (hides : w.Hides v) (settings : Settings) :
    (w.step (.openHeap settings)).Hides (v.step (.openHeap settings)) := by
  simp only [Tenancy.step]
  split
  · exact hides
  · exact ⟨Memory.resembles_addHeap hides.memory _, hides.leases, hides.closed⟩

theorem Hides.closeHeap (hides : w.Hides v) (heap : Nat) :
    (w.step (.closeHeap heap)).Hides (v.step (.closeHeap heap)) := by
  refine hides.on fun _ => ?_
  unfold Tenancy.close
  rcases (Memory.resembles_heap? hides.memory heap).option with
    ⟨none, none'⟩ | ⟨h, g, some, some', -⟩
  · simp only [none, none']
    exact hides
  simp only [some, some']
  refine ⟨Memory.resembles_closeHeap hides.memory heap, ?_, congrArg (heap :: ·) hides.closed⟩
  have leases := hides.leases_visible
  -- Which leases go with the heap can be told without the keys.
  have visibly (ls : List Lease) :
      (ls.filter fun l => l.heap != heap || l.grip.block.isUser).map visible =
        (ls.map visible).filter fun l => l.heap != heap || l.grip.block.isUser := by
    rw [List.filter_map]
    congr 1
    apply List.filter_congr
    intro l _
    rw [Function.comp_apply, isUser_visible]
    rfl
  change ((w.leases.filter _).filter _).map visible = (v.leases.filter _).map visible
  rw [List.filter_comm, visibly, visibly]
  exact congrArg (List.filter _) leases

/-- The lease in the second run that a lease not of memory of a caller stands for. -/
theorem Hides.counterpart (hides : w.Hides v) {l : Lease} (there : w.leases[lease]? = some l)
    (pooled : l.grip.block.isUser = false) :
    ∃ l', v.leases[(w.leases.take lease).countP fun l => !l.grip.block.isUser]? = some l' ∧
      Resembles l l' := by
  have leases := hides.leases_visible
  have kept : w.pooledLeases[(w.leases.take lease).countP fun l => !l.grip.block.isUser]? =
      some l :=
    Filtered.getElem?_filter there (by rw [pooled]; rfl)
  have found := congrArg (·[(w.leases.take lease).countP fun l => !l.grip.block.isUser]?) leases
  simp only [List.getElem?_map] at found
  rw [kept, Option.map_some] at found
  obtain ⟨l', there', same⟩ := Option.map_eq_some_iff.mp found.symm
  exact ⟨l', there', same.symm⟩

/-- Both runs hold the lease, each at its own place, or neither does. -/
theorem Hides.place_cases {place : Nat} (hides : w.Hides v) (kept : w.place? lease = some place) :
    (w.leases[lease]? = none ∧ v.leases[place]? = none) ∨
      ∃ l l', w.leases[lease]? = some l ∧ v.leases[place]? = some l' ∧ Resembles l l' ∧
        l.grip.block.isUser = false ∧
          place = (w.leases.take lease).countP fun l => !l.grip.block.isUser := by
  unfold place? at kept
  split at kept
  · rename_i nobody
    cases kept
    have fewer : v.leases.length ≤ w.leases.length := by
      rw [← List.length_map (f := visible), ← hides.leases_visible, List.length_map]
      exact List.length_filter_le _ _
    refine .inl ⟨nobody, ?_⟩
    rw [List.getElem?_eq_none_iff] at nobody ⊢
    exact Nat.le_trans fewer nobody
  · rename_i l there
    split at kept
    · cases kept
    rename_i pooled
    cases kept
    rw [Bool.not_eq_true] at pooled
    obtain ⟨l', there', same⟩ := hides.counterpart there pooled
    exact .inr ⟨l, l', there, there', same, pooled, rfl⟩

theorem resembles_giveBack {g g' : Grip} {m m' : Memory} (grip : Resembles g g')
    (memory : Resembles m m') : Resembles (g.giveBack m) (g'.giveBack m') := by
  cases g with
  | pointer x =>
      cases g' with
      | pointer y => exact Memory.resembles_free memory (Grip.pointer.inj grip)
      | erased y | owner o => cases grip
  | erased x =>
      cases g' with
      | erased y => exact Memory.resembles_freeErased memory (Grip.erased.inj grip)
      | pointer y | owner o => cases grip
  | owner o =>
      cases g' with
      | owner o' => exact Memory.resembles_dropOwner memory (Grip.owner.inj grip)
      | pointer y | erased y => cases grip

theorem visible_note (g : Grip) (n : Nat) : visible (g.note n) = (visible g).note n := by
  cases g <;> rfl

theorem Hides.free {place : Nat} (hides : w.Hides v) (kept : w.place? lease = some place) :
    (w.step (.free lease)).Hides (v.step (.free place)) := by
  have leases := hides.leases_visible
  rcases hides.place_cases kept with
    ⟨nobody, nobody'⟩ | ⟨l, l', there, there', same, pooled, rfl⟩
  · simp only [Tenancy.step, Tenancy.giveBack, nobody, nobody']
    exact hides
  · have heap : l.heap = l'.heap := same.tells fun _ => rfl
    simp only [Tenancy.step, Tenancy.giveBack, there, there']
    rw [← heap]
    refine hides.on fun _ => ⟨resembles_giveBack (same.map fun _ => rfl) hides.memory, ?_,
      hides.closed⟩
    change ((w.leases.eraseIdx lease).filter _).map visible = (v.leases.eraseIdx _).map visible
    rw [Filtered.filter_eraseIdx there (by rw [pooled]; rfl), ← List.eraseIdx_map,
      ← List.eraseIdx_map, show (w.leases.filter _).map visible = _ from leases]

theorem Hides.note {place : Nat} (hides : w.Hides v) (kept : w.place? lease = some place)
    (len : Nat) :
    (w.step (.setMessageLength lease len)).Hides (v.step (.setMessageLength place len)) := by
  have leases := hides.leases_visible
  rcases hides.place_cases kept with
    ⟨nobody, nobody'⟩ | ⟨l, l', there, there', same, pooled, rfl⟩
  · simp only [Tenancy.step, Tenancy.note, nobody, nobody']
    exact hides
  · have noted : (l.grip.note len).block.isUser = false := by
      rw [← pooled]
      cases l.grip <;> rfl
    have marked : Resembles { l with grip := l.grip.note len }
        { l' with grip := l'.grip.note len } :=
      same.map (f := fun l : Lease => { l with grip := l.grip.note len })
        fun l => congrArg (Lease.mk l.heap) (visible_note l.grip len)
    simp only [Tenancy.step, Tenancy.note, there, there']
    refine ⟨hides.memory, ?_, hides.closed⟩
    change ((w.leases.set lease _).filter _).map visible = (v.leases.set _ _).map visible
    rw [Filtered.filter_set there (by rw [pooled]; rfl) (by rw [noted]; rfl), List.map_set,
      List.map_set, show (w.leases.filter _).map visible = _ from leases,
      show visible _ = _ from marked]

/-- An act that is about no memory of callers does the same in both runs. -/
theorem Hides.step (hides : w.Hides v) (sound : w.Sound) (kept : w.pooled? act = some act')
    (free : ∀ c, act = .change c → c.limit = none) :
    (w.step act).Hides (v.step act') ∧ Resembles (w.answer act) (v.answer act') := by
  have memory := hides.memory
  have join (r : Option (Option Owner)) :
      r.join.map Grip.owner = r.bind (Option.map Grip.owner) := by
    cases r <;> rfl
  cases act with
  | openHeap settings =>
      cases kept
      exact ⟨hides.openHeap settings, rfl⟩
  | closeHeap heap =>
      cases kept
      exact ⟨hides.closeHeap heap, rfl⟩
  | allocate heap size node device =>
      cases kept
      exact hides.call (f := fun x => some (.pointer x))
        (Memory.resembles_allocate memory heap size node device) (Option.map_eq_bind ..)
        (Option.map_eq_bind ..) (fun _ => rfl)
        fun isOpen a x got gets => by cases gets; exact pooled_of_allocate sound isOpen got
  | allocateErased heap size node =>
      cases kept
      exact hides.call (f := fun x => some (.erased x))
        (Memory.resembles_allocate memory heap size node none) Option.map_eq_bind
        Option.map_eq_bind (fun _ => rfl)
        fun isOpen a x got gets => by cases gets; exact pooled_of_allocate sound isOpen got
  | allocateArray heap layout count node =>
      cases kept
      exact hides.call (f := fun x => some (.pointer x))
        (Memory.resembles_allocateArray memory heap layout count node) Option.map_eq_bind
        Option.map_eq_bind (fun _ => rfl)
        fun isOpen a x got gets => by cases gets; exact pooled_of_allocateArray sound isOpen got
  | makeOwner heap element node value =>
      cases kept
      exact hides.call (f := fun o => some (.owner o))
        (Memory.resembles_makeOwner memory heap element node value) Option.map_eq_bind
        Option.map_eq_bind (fun _ => rfl)
        fun isOpen a x got gets => by cases gets; exact pooled_of_makeOwner sound isOpen got
  | makeRow heap element node len init =>
      cases kept
      refine hides.call (f := Option.map .owner)
        (Memory.resembles_makeRow memory heap element node len init) (join _) (join _) ?_ ?_
      · intro o
        cases o <;> rfl
      · intro isOpen a x got gets
        cases a with
        | none => cases gets
        | some o =>
            cases gets
            exact pooled_of_makeRow sound isOpen got
  | registerUser heap address size device => cases kept
  | setMessageLength lease len =>
      obtain ⟨place, placed, rfl⟩ := Option.map_eq_some_iff.mp kept
      exact ⟨hides.note placed len, rfl⟩
  | free lease =>
      obtain ⟨place, placed, rfl⟩ := Option.map_eq_some_iff.mp kept
      exact ⟨hides.free placed, rfl⟩
  | write place bytes =>
      cases kept
      exact ⟨⟨Memory.resembles_rebase memory (Backing.resembles_write
        (Memory.resembles_iff.mp memory).1 place bytes), hides.leases, hides.closed⟩, rfl⟩
  | arrange pool order =>
      cases kept
      exact ⟨hides.on fun _ => ⟨Memory.resembles_arrange memory pool order, hides.leases,
        hides.closed⟩, rfl⟩
  | change conditions =>
      cases kept
      -- Both registrars are set to the new conditions, and count on from different numbers.
      have unlimited := free conditions rfl
      obtain ⟨numa, device, -⟩ := Backing.resembles_iff.mp (Memory.resembles_iff.mp memory).1
      have under : Resembles (w.memory.backing.under conditions)
          (v.memory.backing.under conditions) :=
        Backing.resembles_iff.mpr ⟨by rw [Backing.under, Backing.under, numa],
          by rw [Backing.under, Backing.under, device],
          Registrar.resembles_of_unlimited unlimited unlimited⟩
      exact ⟨⟨Memory.resembles_rebase memory under, hides.leases, hides.closed⟩, rfl⟩

theorem resembles_register {b b' : Backing} {base : Address} {len : Nat} {flags : Flags}
    {device : Option Nat} {r : Except HeapError Region} (free : b.registrar.limit = none)
    (asked : b.register base len flags device = (r, b')) : Resembles b' b := by
  have free' := (Backing.Dealings.none.register asked).limit.trans free
  refine Backing.resembles_iff.mpr ⟨?_, ?_, Registrar.resembles_of_unlimited free' free⟩
  all_goals
    rcases b.register_cases base len flags device with ⟨_, failed⟩ | ⟨_, _, done⟩
    · rw [failed] at asked
      cases asked
      rfl
    · rw [done] at asked
      cases asked
      rfl

theorem resembles_free_user {m : Memory} {x : Block} (user : x.isUser) (free : m.limit = none) :
    Resembles (m.free x) m := by
  cases origin : x.origin with
  | segment pool extent => simp [Block.isUser, origin] at user
  | user r =>
      simp only [Memory.free, origin]
      exact Memory.resembles_iff.mpr ⟨Backing.resembles_iff.mpr
        ⟨rfl, rfl, Registrar.resembles_of_unlimited free free⟩, rfl⟩

theorem resembles_giveBack_user {m : Memory} {g : Grip} (user : g.block.isUser)
    (free : m.limit = none) : Resembles (g.giveBack m) m := by
  cases g with
  | pointer x => exact resembles_free_user user free
  | erased x =>
      cases origin : x.origin with
      | segment pool extent => simp [Grip.block, Block.isUser, origin] at user
      | user r =>
          simp only [Grip.giveBack, Memory.freeErased, Memory.restore?, Block.erase, origin]
          exact resembles_free_user rfl free
  | owner o =>
      have ended := Memory.resembles_endValues m o.element o.values
      have free' := (m.limit_endValues o.element o.values).trans free
      exact (resembles_free_user user free').trans ended

theorem user_of_place? (gone : w.place? lease = none) :
    ∃ l, w.leases[lease]? = some l ∧ l.grip.block.isUser := by
  unfold place? at gone
  split at gone
  · cases gone
  · rename_i l there
    split at gone
    · exact ⟨l, there, ‹_›⟩
    · cases gone

/-- An act that is about memory of a caller leaves nothing that shows. -/
theorem Hides.skip (hides : w.Hides v) (free : w.memory.limit = none)
    (gone : w.pooled? act = none) : (w.step act).Hides v := by
  have leave {heap : Nat} {next : Tenancy} (after : next.Hides v) : (w.on heap next).Hides v :=
    on_cases (P := (Hides · v)) (fun _ => hides) fun _ => after
  cases act with
  | registerUser heap address size device =>
      have enlisted {flags : Flags} {r : Except HeapError Region} {b : Backing}
          (asked : w.memory.backing.register (.user address) size flags device = (r, b)) :
          Resembles ({ w.memory with backing := b } : Memory) w.memory :=
        Memory.resembles_iff.mpr ⟨resembles_register free asked, rfl⟩
      have enrolled (r : Except HeapError Block) (m : Memory)
          (got : w.memory.registerUser heap address size device = (r, m)) :
          (w.keep heap m (r.toOption.map .pointer)).Hides v := by
        rcases Memory.registerUser_cases got with
          ⟨cause, rfl, rfl⟩ | ⟨cause, b, rfl, rfl, asked⟩ | ⟨region, b, rfl, rfl, asked⟩
        · exact hides
        · exact ⟨(enlisted asked).trans hides.memory, hides.leases, hides.closed⟩
        · exact ⟨(enlisted asked).trans hides.memory, hides.leases, hides.closed⟩
      exact leave (enrolled _ _ rfl)
  | free lease =>
      obtain ⟨l, there, user⟩ := user_of_place? (Option.map_eq_none_iff.mp gone)
      simp only [Tenancy.step, Tenancy.giveBack, there]
      refine leave ⟨(resembles_giveBack_user user free).trans hides.memory, ?_, hides.closed⟩
      have others : (w.leases.eraseIdx lease).filter (fun l => !l.grip.block.isUser) =
          w.pooledLeases :=
        Filtered.filter_eraseIdx_of_not there (by simp [user])
      exact (congrArg visible others).trans hides.leases
  | setMessageLength lease len =>
      obtain ⟨l, there, user⟩ := user_of_place? (Option.map_eq_none_iff.mp gone)
      have user' : (l.grip.note len).block.isUser := by
        cases grip : l.grip <;> rw [grip] at user <;> exact user
      simp only [Tenancy.step, Tenancy.note, there]
      refine ⟨hides.memory, ?_, hides.closed⟩
      have others : (w.leases.set lease { l with grip := l.grip.note len }).filter
          (fun l => !l.grip.block.isUser) = w.pooledLeases :=
        Filtered.filter_set_of_not there (by simp [user]) (by simp [user'])
      exact (congrArg visible others).trans hides.leases
  | _ => cases gone

theorem Hides.view (hides : w.Hides v) : w.view = v.view := by
  obtain ⟨backing, heaps⟩ := Memory.resembles_iff.mp hides.memory
  obtain ⟨numa, device, -⟩ := Backing.resembles_iff.mp backing
  have stats : w.memory.heaps.map Heap.stats = v.memory.heaps.map Heap.stats :=
    heaps.tells (f := List.map Heap.stats) fun hs => by
      change (hs.map visible).map Heap.stats = _
      rw [List.map_map]
      exact List.map_congr_left fun h _ => h.stats_visible
  have numHuge : w.memory.heaps.map Heap.numHuge = v.memory.heaps.map Heap.numHuge :=
    heaps.tells (f := List.map Heap.numHuge) fun hs => by
      change (hs.map visible).map Heap.numHuge = _
      rw [List.map_map]
      rfl
  rw [Tenancy.view, Tenancy.view, stats, numHuge, numa, device]

/-- Side by side, the run without memory of callers answers the acts that it has in the same way. -/
theorem Hides.run {acts : List Act} (hides : w.Hides v) (sound : w.Sound)
    (free : w.memory.limit = none) (stays : ∀ c, .change c ∈ acts → c.limit = none) :
    w.pooledTrace acts = v.trace (w.pooledActs acts) ∧
      (w.run acts).Hides (v.run (w.pooledActs acts)) := by
  induction acts generalizing w v with
  | nil => exact ⟨rfl, hides⟩
  | cons act acts ih =>
      have here : ∀ c, act = .change c → c.limit = none :=
        fun c same => stays c (same ▸ List.mem_cons_self)
      have later : ∀ c, .change c ∈ acts → c.limit = none :=
        fun c member => stays c (List.mem_cons_of_mem _ member)
      have sound' := sound.step act
      have free' := limit_step free act here
      cases kept : w.pooled? act with
      | none =>
          obtain ⟨traces, rest⟩ := ih (hides.skip free kept) sound' free' later
          rw [pooledTrace, pooledActs, kept]
          exact ⟨traces, rest⟩
      | some act' =>
          obtain ⟨next, answers⟩ := hides.step sound kept here
          obtain ⟨traces, rest⟩ := ih next sound' free' later
          rw [pooledTrace, pooledActs, kept]
          refine ⟨?_, rest⟩
          rw [Option.isSome_some, if_pos rfl, Option.toList_some, List.singleton_append, trace,
            traces, next.view, show visible (w.answer act) = _ from answers]

end Tenancy

/-- The block is memory of a caller on its own, and the region is its registration. -/
structure Block.Private (x : Block) (r : Region) (start len : Nat) (device : Option Nat) :
    Prop where
  origin : x.origin = .user r
  isUser : x.isUser
  address : x.address = .user start
  size : x.size = len
  /-- Memory on a device is its own copy there. -/
  copy : x.copy.map DeviceCopy.address = device.map fun _ => .user start
  region : r.base = .user start ∧ r.len = len ∧ r.device = device

theorem Block.private_of_bare {x : Block} {r : Region} {start : Nat} (same : x.bare = .ofUser r)
    (base : r.base = .user start) : x.Private r start r.len r.device := by
  obtain ⟨origin, place, size, copy, -⟩ := Block.of_bare same
  have user : x.isUser := by
    rw [isUser, origin]
    rfl
  refine ⟨origin, user, place.trans base, size, ?_, base, rfl, rfl⟩
  rw [copy]
  cases device : r.device with
  | none => simp [ofUser, inRegion, device]
  | some d => simp [ofUser, inRegion, device, base]

/-- The memory is as it was, but for the regions that are registered. -/
structure Memory.ButRegions (m m' : Memory) (regions : Multiset Region) : Prop where
  heaps : m'.heaps = m.heaps
  numa : m'.backing.numa = m.backing.numa
  device : m'.backing.device = m.backing.device
  regions : m'.backing.regions = regions

namespace Memory

variable {m m' : Memory} {x : Block} {r : Region}

theorem butRegions_free (origin : x.origin = .user r) :
    m.ButRegions (m.free x) (m.backing.regions.erase r) := by
  simp only [free, origin]
  exact ⟨rfl, rfl, rfl, rfl⟩

theorem butRegions_freeErased (origin : x.origin = .user r) :
    m.ButRegions (m.freeErased x.erase) (m.backing.regions.erase r) := by
  simp only [freeErased, restore?, Block.erase, origin]
  exact butRegions_free rfl

theorem butRegions_giveBack {g : Grip} (origin : g.block.origin = .user r) :
    m.ButRegions (g.giveBack m) (m.backing.regions.erase r) := by
  cases g with
  | pointer x => exact butRegions_free origin
  | erased x => exact butRegions_freeErased origin
  | owner o =>
      have ended : m.ButRegions (m.endValues o.element o.values) m.backing.regions :=
        endValues_induction (P := fun m' => m.ButRegions m' m.backing.regions) o.element o.values
          ⟨rfl, rfl, rfl, rfl⟩ fun _ _ same => ⟨same.heaps, same.numa, same.device, same.regions⟩
      have freed := butRegions_free (m := m.endValues o.element o.values) origin
      exact ⟨freed.heaps.trans ended.heaps, freed.numa.trans ended.numa,
        freed.device.trans ended.device, by rw [← ended.regions]; exact freed.regions⟩

theorem butRegions_registerUser {heap address size : Nat} {device : Option Nat}
    (got : m.registerUser heap address size device = (.ok x, m')) :
    ∃ r, x.Private r address size device ∧ r.key = m.backing.registrar.lastKey + 1 ∧
      m.ButRegions m' (r ::ₘ m.backing.regions) := by
  rcases registerUser_cases got with
    ⟨_, failed, -⟩ | ⟨_, _, failed, -⟩ | ⟨r, b, done, rfl, asked⟩
  · cases failed
  · cases failed
  cases done
  obtain ⟨base, len, -, devices⟩ := Backing.register_region asked
  rcases m.backing.register_cases (.user address) size .user device with
    ⟨_, failed⟩ | ⟨_, _, done⟩
  · rw [failed] at asked
    cases asked
  · have mine := Block.private_of_bare (x := .ofUser r) rfl base
    rw [len, devices] at mine
    rw [done] at asked
    cases asked
    exact ⟨_, mine, rfl, rfl, rfl, rfl, rfl⟩

end Memory

namespace Tenancy

variable {w : Tenancy}

/-- Memory of callers is theirs alone, and so is its registration. -/
structure Separate (w : Tenancy) : Prop where
  distinct : (w.memory.backing.regions.map Region.key).Nodup
  registers : ∀ heap address size device x m,
    w.memory.registerUser heap address size device = (.ok x, m) →
      ∃ r, x.Private r address size device ∧
        (∀ r' ∈ w.memory.backing.regions, r'.key ≠ r.key) ∧
          w.memory.ButRegions m (r ::ₘ w.memory.backing.regions)
  holds : ∀ l ∈ w.leases, l.grip.block.isUser → ∃ r ∈ w.memory.backing.regions, ∃ address,
    l.grip.block.Private r address r.len r.device
  /-- To give it back drops its own region and nothing else, also through an erased handle. -/
  frees : ∀ lease l r, w.leases[lease]? = some l → l.grip.block.origin = .user r →
    w.memory.ButRegions (w.memory.freeErased l.grip.block.erase)
        (w.memory.backing.regions.erase r) ∧
      (l.heap ∉ w.closed → w.memory.ButRegions (w.step (.free lease)).memory
        (w.memory.backing.regions.erase r))

theorem Sound.separate (sound : w.Sound) : w.Separate where
  distinct := sound.memory.ledger.holds.orderly.keys
  registers heap address size device x m got := by
    obtain ⟨r, mine, key, others⟩ := Memory.butRegions_registerUser got
    refine ⟨r, mine, ?_, others⟩
    intro r' member
    have known := sound.memory.ledger.holds.orderly.known r' member
    have agree := sound.memory.ledger.holds.orderly.lastKey
    omega
  holds l member user := by
    rcases sound.memory.ledger.homes _ (bare_mem_blocks member) with
      ⟨p, -, own⟩ | ⟨r, same, -, address, base⟩
    · rw [Block.bare_pool?] at own
      rw [isUser_of_pool? own] at user
      cases user
    · exact ⟨r, (sound.user_of_lease member same).1, address, Block.private_of_bare same base⟩
  frees lease l r there origin := by
    refine ⟨Memory.butRegions_freeErased origin, fun isOpen => ?_⟩
    simp only [Tenancy.step, Tenancy.giveBack, there, Tenancy.on, isOpen, if_false]
    exact Memory.butRegions_giveBack origin

/-- Memory of callers does not show in a run. -/
structure Unseen (b : Backing) (acts : List Act) : Prop where
  /-- The other acts answer and leave what they do where memory of callers is left out. -/
  trace : (start b).pooledTrace acts = (start b).trace ((start b).pooledActs acts)
  view : ((start b).run acts).view = ((start b).run ((start b).pooledActs acts)).view
  leases : Resembles ((start b).run acts).pooledLeases
    ((start b).run ((start b).pooledActs acts)).leases
  separate : ((start b).run acts).Separate

/-- Whatever callers register and give up of their own, on a registrar without a limit, the heaps do
what they would without it. -/
theorem run_unseen {b : Backing} (unused : b.Unused) (unlimited : b.registrar.limit = none)
    (acts : List Act) (stays : ∀ c, .change c ∈ acts → c.limit = none) : Unseen b acts := by
  have same : (start b).Hides (start b) := ⟨.refl _, .refl _, rfl⟩
  obtain ⟨trace, after⟩ := same.run (sound_start unused) unlimited stays
  exact ⟨trace, after.view, after.leases, (sound_run unused acts).separate⟩

/-- Memory of a caller on a device comes and goes around a block of the same device. -/
theorem visiting_unseen : shelf.Unused ∧ shelf.registrar.limit = none ∧
    (start shelf).pooledActs [opening, .registerUser 0 4096 64 (some 0), .allocate 0 8 0 (some 0),
        .free 1, .free 0] = [opening, .allocate 0 8 0 (some 0), .free 0] ∧
      Unseen shelf [opening, .registerUser 0 4096 64 (some 0), .allocate 0 8 0 (some 0),
        .free 1, .free 0] := by
  refine ⟨unused_shelf, rfl, rfl, run_unseen unused_shelf rfl _ ?_⟩
  intro c member
  simp [opening] at member

end Tenancy

end RegisteredHeap
