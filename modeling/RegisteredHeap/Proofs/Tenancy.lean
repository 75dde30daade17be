import RegisteredHeap.Proofs.Calls

/-! # Tenancy

Callers who keep to the contract of a memory: what a heap issued they give back at most once, and
only as long as the heap is there. Whatever they ask for, in whatever order and under whatever
conditions, the memory stays sound for the blocks they hold.
-/

namespace RegisteredHeap

/-- How a caller holds a block. -/
inductive Grip where
  | pointer (block : Block)
  /-- The caller has no more than the erased handle of the block. -/
  | erased (block : Block)
  | owner (owner : Owner)
  deriving DecidableEq

namespace Grip

def block : Grip → Block
  | pointer b | erased b => b
  | owner o => o.block

/-- Sets the note of a handle. An owner does not let its handle be changed. -/
def note (n : Nat) : Grip → Grip
  | pointer b => pointer (b.setMessageLength n)
  | erased b => erased (b.setMessageLength n)
  | owner o => owner o

def giveBack (m : Memory) : Grip → Memory
  | pointer b => m.free b
  | erased b => m.freeErased b.erase
  | owner o => m.dropOwner o

theorem bare_note (g : Grip) (n : Nat) : (g.note n).block.bare = g.block.bare := by
  cases g <;> rfl

end Grip

structure Lease where
  /-- The heap that issued the block. -/
  heap : Nat
  grip : Grip
  deriving DecidableEq

structure Tenancy where
  memory : Memory
  leases : List Lease := []
  /-- Heaps that were closed. -/
  closed : List Nat := []

/-- What callers may do, and what may happen around them. Leases are named by their places. -/
inductive Act where
  | openHeap (settings : Settings)
  | closeHeap (heap : Nat)
  | allocate (heap size node : Nat) (device : Option Nat)
  | allocateErased (heap size node : Nat)
  | allocateArray (heap : Nat) (layout : Layout) (count node : Nat)
  | makeOwner (heap : Nat) (element : Element) (node value : Nat)
  | makeRow (heap : Nat) (element : Element) (node len : Nat) (init : Nat → Option Nat)
  | registerUser (heap address size : Nat) (device : Option Nat)
  | setMessageLength (lease len : Nat)
  | free (lease : Nat)
  | write (place : Address) (bytes : Array UInt8)
  /-- The segments of a pool come in another order from here on. -/
  | arrange (pool : PoolKey) (order : List Nat)
  | change (conditions : Conditions)

namespace Tenancy

/-- Nobody has asked for anything yet. -/
def start (b : Backing) : Tenancy := { memory := { backing := b, heaps := [] } }

/-- The blocks that callers hold, without their notes. -/
def blocks (w : Tenancy) : Multiset Block := ↑(w.leases.map fun l => l.grip.block.bare)

/-- What concerns a heap does not happen any more once it is closed. -/
def on (w : Tenancy) (heap : Nat) (next : Tenancy) : Tenancy := if heap ∈ w.closed then w else next

/-- Goes on with a memory, and keeps what a heap issued. -/
def keep (w : Tenancy) (heap : Nat) (m : Memory) : Option Grip → Tenancy
  | none => { w with memory := m }
  | some g => { w with memory := m, leases := ⟨heap, g⟩ :: w.leases }

def note (w : Tenancy) (lease n : Nat) : Tenancy :=
  match w.leases[lease]? with
  | none => w
  | some l => { w with leases := w.leases.set lease { l with grip := l.grip.note n } }

def giveBack (w : Tenancy) (lease : Nat) : Tenancy :=
  match w.leases[lease]? with
  | none => w
  | some l =>
    w.on l.heap
      { w with memory := l.grip.giveBack w.memory, leases := w.leases.eraseIdx lease }

/-- The blocks of the heap's pools are void from here on; what it registered for users stays. -/
def close (w : Tenancy) (heap : Nat) : Tenancy :=
  match w.memory.heaps[heap]? with
  | none => w
  | some _ =>
    { memory := w.memory.closeHeap heap
      leases := w.leases.filter fun l => l.heap != heap || l.grip.block.isUser
      closed := heap :: w.closed }

def step (w : Tenancy) : Act → Tenancy
  | .openHeap settings =>
    match Config.ofSettings settings with
    | .error _ => w
    | .ok c => { w with memory := w.memory.addHeap c }
  | .closeHeap heap => w.on heap (w.close heap)
  | .allocate heap size node device =>
    let (r, m) := w.memory.allocate heap size node device
    w.on heap (w.keep heap m (r.toOption.map .pointer))
  | .allocateErased heap size node =>
    let (r, m) := w.memory.allocate heap size node none
    w.on heap (w.keep heap m (r.toOption.map .erased))
  | .allocateArray heap layout count node =>
    let (r, m) := w.memory.allocateArray heap layout count node
    w.on heap (w.keep heap m (r.toOption.map .pointer))
  | .makeOwner heap element node value =>
    let (r, m) := w.memory.makeOwner heap element node value
    w.on heap (w.keep heap m (r.toOption.map .owner))
  | .makeRow heap element node len init =>
    let (r, m) := w.memory.makeRow heap element node len init
    w.on heap (w.keep heap m (r.toOption.join.map .owner))
  | .registerUser heap address size device =>
    let (r, m) := w.memory.registerUser heap address size device
    w.on heap (w.keep heap m (r.toOption.map .pointer))
  | .setMessageLength lease len => w.note lease len
  | .free lease => w.giveBack lease
  | .write place bytes => { w with memory.backing := w.memory.backing.write place bytes }
  | .arrange pool order => w.on pool.heap { w with memory := w.memory.arrange pool order }
  | .change conditions => { w with memory.backing := w.memory.backing.under conditions }

def run (w : Tenancy) (acts : List Act) : Tenancy := acts.foldl step w

/-- The act gives a block back while the memory is `m`. An erased handle stands for the block without
its note, and an initializer that gives up gives back what was allocated for it. -/
inductive Frees (w : Tenancy) : Act → Memory → Block → Prop where
  | pointer {lease : Nat} {l : Lease} {b : Block} (there : w.leases[lease]? = some l)
      (isOpen : l.heap ∉ w.closed) (grip : l.grip = .pointer b) :
    w.Frees (.free lease) w.memory b
  | erased {lease : Nat} {l : Lease} {b : Block} (there : w.leases[lease]? = some l)
      (isOpen : l.heap ∉ w.closed) (grip : l.grip = .erased b) :
    w.Frees (.free lease) w.memory b.bare
  | owner {lease : Nat} {l : Lease} {o : Owner} (there : w.leases[lease]? = some l)
      (isOpen : l.heap ∉ w.closed) (grip : l.grip = .owner o) :
    w.Frees (.free lease) (w.memory.endValues o.element o.values) o.block
  | row {heap node len : Nat} {element : Element} {init : Nat → Option Nat} {b : Block} {m : Memory}
      {values : List Nat} (isOpen : heap ∉ w.closed)
      (got : w.memory.allocateArray heap element.layout len node = (.ok b, m))
      (gaveUp : yields init 0 len = (values, false)) :
    w.Frees (.makeRow heap element node len init)
      ((m.store b.address element values).endValues element values) b

/-- The memory is sound for the blocks that callers hold, and leases name the heaps that issued
their blocks. -/
structure Sound (w : Tenancy) : Prop where
  memory : w.memory.Sound w.closed w.blocks
  issuers : ∀ l ∈ w.leases, ∀ key, l.grip.block.pool? = some key → key.heap = l.heap

variable {w : Tenancy} {b : Backing} {m : Memory} {heap lease : Nat}

/-- A heap that is closed leaves everything as it is. -/
theorem on_cases {P : Tenancy → Prop} {next : Tenancy} (idle : heap ∈ w.closed → P w)
    (busy : heap ∉ w.closed → P next) : P (w.on heap next) := by
  unfold Tenancy.on
  split
  · rename_i isClosed
    exact idle isClosed
  · rename_i isOpen
    exact busy isOpen

theorem memory_keep (w : Tenancy) (heap : Nat) (m : Memory) (g : Option Grip) :
    (w.keep heap m g).memory = m := by
  cases g <;> rfl

theorem closed_keep (w : Tenancy) (heap : Nat) (m : Memory) (g : Option Grip) :
    (w.keep heap m g).closed = w.closed := by
  cases g <;> rfl

/-- Only to close a heap adds to those that are closed. -/
theorem closed_step {act : Act} (other : ∀ heap, act ≠ .closeHeap heap) :
    (w.step act).closed = w.closed := by
  have on {heap : Nat} {next : Tenancy} (same : next.closed = w.closed) :
      (w.on heap next).closed = w.closed :=
    on_cases (P := fun v => v.closed = w.closed) (fun _ => rfl) fun _ => same
  cases act with
  | openHeap settings =>
      simp only [Tenancy.step]
      split <;> rfl
  | closeHeap heap => exact absurd rfl (other heap)
  | setMessageLength lease len =>
      simp only [Tenancy.step, Tenancy.note]
      split <;> rfl
  | free lease =>
      simp only [Tenancy.step, Tenancy.giveBack]
      split
      · rfl
      · exact on rfl
  | write | change => rfl
  | arrange => exact on rfl
  | _ => exact on (w.closed_keep ..)

theorem Sound.on {next : Tenancy} (sound : w.Sound) (after : heap ∉ w.closed → next.Sound) :
    (w.on heap next).Sound :=
  on_cases (fun _ => sound) after

/-- Of a call that may fail: it leaves the blocks as they are, or one more of the heap is held. -/
theorem Sound.keep {α : Type} {r : Except HeapError α} {f : α → Grip} (sound : w.Sound)
    (failed : ∀ cause, r = .error cause → m.Sound w.closed w.blocks)
    (done : ∀ a, r = .ok a → m.Sound w.closed ((f a).block.bare ::ₘ w.blocks) ∧
      ∀ key, (f a).block.pool? = some key → key.heap = heap) :
    (w.keep heap m (r.toOption.map f)).Sound := by
  cases r with
  | error cause => exact ⟨failed cause rfl, sound.issuers⟩
  | ok a =>
      obtain ⟨memory, home⟩ := done a rfl
      refine ⟨memory, ?_⟩
      intro l member
      rcases List.mem_cons.mp member with rfl | old
      · exact home
      · exact sound.issuers l old

theorem Sound.note (sound : w.Sound) (lease n : Nat) : (w.note lease n).Sound := by
  unfold Tenancy.note
  split
  · exact sound
  rename_i l there
  have blocks : (w.leases.set lease { l with grip := l.grip.note n }).map
      (fun l => l.grip.block.bare) = w.leases.map fun l => l.grip.block.bare :=
    Keyed.map_set there (l.grip.bare_note n)
  refine ⟨?_, ?_⟩
  · have memory := sound.memory
    rw [Tenancy.blocks] at memory ⊢
    rw [blocks]
    exact memory
  · intro l' member key own
    rcases List.mem_or_eq_of_mem_set member with old | rfl
    · exact sound.issuers l' old key own
    · rw [← Block.bare_pool?, Grip.bare_note, Block.bare_pool?] at own
      exact sound.issuers l (List.mem_of_getElem? there) key own

theorem Grip.sound_giveBack {g : Grip} {closed : List Nat} {out : Multiset Block}
    (sound : m.Sound closed (g.block.bare ::ₘ out)) : (g.giveBack m).Sound closed out := by
  cases g with
  | pointer b => exact Memory.Sound.free sound
  | erased b => exact Memory.Sound.freeErased sound
  | owner o => exact Memory.Sound.dropOwner sound

theorem blocks_eraseIdx {l : Lease} (there : w.leases[lease]? = some l) :
    w.blocks =
      l.grip.block.bare ::ₘ ↑((w.leases.eraseIdx lease).map fun l => l.grip.block.bare) := by
  obtain ⟨inside, same⟩ := List.getElem?_eq_some_iff.mp there
  have moved : (l :: w.leases.eraseIdx lease).Perm w.leases :=
    same ▸ List.getElem_cons_eraseIdx_perm inside
  rw [Multiset.cons_coe]
  exact Multiset.coe_eq_coe.mpr (moved.map fun l => l.grip.block.bare).symm

theorem Sound.giveBack (sound : w.Sound) (lease : Nat) : (w.giveBack lease).Sound := by
  unfold Tenancy.giveBack
  split
  · exact sound
  rename_i l there
  apply sound.on
  intro _
  have memory := sound.memory
  rw [blocks_eraseIdx there] at memory
  refine ⟨Grip.sound_giveBack memory, ?_⟩
  intro l' member
  exact sound.issuers l' (List.mem_of_mem_eraseIdx member)

theorem blocks_close (sound : w.Sound) (heap : Nat) :
    (↑((w.leases.filter fun l => l.heap != heap || l.grip.block.isUser).map
      fun l => l.grip.block.bare) : Multiset Block) = Ledger.outside heap w.blocks := by
  rw [Ledger.outside, Tenancy.blocks, Multiset.filter_coe, List.filter_map]
  congr 2
  apply List.filter_congr
  intro l member
  have issuer := sound.issuers l member
  simp only [Function.comp_apply, Block.bare_pool?]
  cases origin : l.grip.block.origin with
  | user r => simp [Block.isUser, Block.pool?, origin]
  | segment key n =>
      have own : l.grip.block.pool? = some key := by rw [Block.pool?, origin]
      have same := issuer key own
      by_cases mine : l.heap = heap
      · simp [Block.isUser, origin, own, same, mine]
      · simp [Block.isUser, origin, own, same, mine]

theorem Sound.close (sound : w.Sound) (heap : Nat) : (w.close heap).Sound := by
  unfold Tenancy.close
  split
  · exact sound
  rename_i h there
  refine ⟨?_, ?_⟩
  · rw [Tenancy.blocks, blocks_close sound heap]
    exact sound.memory.closeHeap there
  · intro l member
    exact sound.issuers l (List.mem_of_mem_filter member)

theorem Sound.makeRow {element : Element} {node len : Nat} {init : Nat → Option Nat}
    (sound : w.Sound) : (w.step (.makeRow heap element node len init)).Sound := by
  have memory := sound.memory
  rcases got : w.memory.makeRow heap element node len init with ⟨cause | none | o, m⟩
  · simp only [Tenancy.step, got]
    exact sound.on fun isOpen => ⟨memory.makeRow_none isOpen got (by simp), sound.issuers⟩
  · simp only [Tenancy.step, got]
    exact sound.on fun isOpen => ⟨memory.makeRow_none isOpen got (by simp), sound.issuers⟩
  · simp only [Tenancy.step, got]
    refine sound.on fun isOpen => sound.keep (r := .ok o) nofun ?_
    intro o' same
    cases same
    exact memory.makeRow_some isOpen got

theorem Sound.step (sound : w.Sound) (act : Act) : (w.step act).Sound := by
  have memory := sound.memory
  cases act with
  | openHeap settings =>
      simp only [Tenancy.step]
      split
      · exact sound
      · rename_i c accepted
        exact ⟨memory.addHeap accepted, sound.issuers⟩
  | closeHeap heap => exact sound.on fun _ => sound.close heap
  | allocate heap size node device =>
      exact sound.on fun isOpen => sound.keep
        (fun _ failed => memory.allocate_failed isOpen (Prod.ext failed rfl))
        fun _ done => memory.allocate_ok isOpen (Prod.ext done rfl)
  | allocateErased heap size node =>
      exact sound.on fun isOpen => sound.keep
        (fun _ failed => memory.allocate_failed isOpen (Prod.ext failed rfl))
        fun _ done => memory.allocate_ok isOpen (Prod.ext done rfl)
  | allocateArray heap layout count node =>
      exact sound.on fun isOpen => sound.keep
        (fun _ failed => memory.allocateArray_failed isOpen (Prod.ext failed rfl))
        fun _ done => memory.allocateArray_ok isOpen (Prod.ext done rfl)
  | makeOwner heap element node value =>
      exact sound.on fun isOpen => sound.keep
        (fun _ failed => memory.makeOwner_failed isOpen (Prod.ext failed rfl))
        fun _ done => memory.makeOwner_ok isOpen (Prod.ext done rfl)
  | makeRow heap element node len init => exact sound.makeRow
  | registerUser heap address size device =>
      exact sound.on fun _ => sound.keep
        (fun _ failed => memory.registerUser_failed (Prod.ext failed rfl))
        fun _ done => memory.registerUser_ok (Prod.ext done rfl)
  | setMessageLength lease len => exact sound.note lease len
  | free lease => exact sound.giveBack lease
  | write place bytes => exact ⟨memory.write place bytes, sound.issuers⟩
  | arrange pool order =>
      exact sound.on fun isOpen => ⟨memory.arrange isOpen order, sound.issuers⟩
  | change conditions => exact ⟨memory.under conditions, sound.issuers⟩

variable {act : Act} {block : Block}

theorem Sound.frees (sound : w.Sound) (frees : w.Frees act m block) :
    ∃ out, m.Sound w.closed (block.bare ::ₘ out) := by
  have memory := sound.memory
  cases frees with
  | pointer there _ grip =>
      rw [blocks_eraseIdx there, grip] at memory
      exact ⟨_, memory⟩
  | erased there _ grip =>
      rw [blocks_eraseIdx there, grip] at memory
      exact ⟨_, memory⟩
  | owner there _ grip =>
      rw [blocks_eraseIdx there, grip] at memory
      exact ⟨_, memory.endValues _ _⟩
  | @row _ _ _ element _ _ _ values isOpen got _ =>
      exact ⟨_, ((memory.allocateArray_ok isOpen got).1.store _ element values).endValues _ _⟩

theorem Sound.step_frees (sound : w.Sound) (frees : w.Frees act m block) :
    (w.step act).memory = m.free block := by
  cases frees with
  | pointer there isOpen grip =>
      simp only [Tenancy.step, Tenancy.giveBack, there, Tenancy.on, isOpen, if_false, grip,
        Grip.giveBack]
  | @erased _ _ b there isOpen grip =>
      have memory := sound.memory
      rw [blocks_eraseIdx there, grip] at memory
      have restored : w.memory.restore? b.erase = some b.bare := Memory.Sound.restore memory
      simp only [Tenancy.step, Tenancy.giveBack, there, Tenancy.on, isOpen, if_false, grip,
        Grip.giveBack, Memory.freeErased, restored]
  | owner there isOpen grip =>
      simp only [Tenancy.step, Tenancy.giveBack, there, Tenancy.on, isOpen, if_false, grip,
        Grip.giveBack, Memory.dropOwner]
  | row isOpen got gaveUp =>
      simp [Tenancy.step, Memory.makeRow, got, gaveUp, Tenancy.on, isOpen, Tenancy.keep,
        Except.toOption]

theorem sound_start (unused : b.Unused) : (start b).Sound where
  memory :=
    { formed := by
        intro i h there
        cases there
      ledger :=
        { keys := List.nodup_nil
          sound := by simp [Memory.pools, start]
          holds := unused.holds
          homes := by simp [blocks, start]
          counted := by simp [Memory.pools, start]
          closed := by simp [Memory.pools, start] } }
  issuers := by simp [start]

theorem Sound.run (sound : w.Sound) (acts : List Act) : (w.run acts).Sound := by
  unfold Tenancy.run
  induction acts generalizing w with
  | nil => exact sound
  | cons act acts ih => exact ih (sound.step act)

/-- However callers who keep to the contract use a memory, it stays sound. -/
theorem sound_run (unused : b.Unused) (acts : List Act) : ((start b).run acts).Sound :=
  (sound_start unused).run acts

/-- A store of a few pages, and one device. -/
def shelf : Backing where
  numa := { pageSize := 16, supply := .store 256 none 0 }
  device := some { count := 1, capacity := 256 }

/-- The smallest classes; a segment of blocks of 8 bytes has two of them, and none is reserved. -/
def opening : Act :=
  .openHeap
    { reserveSegments := 0, tinyLimit := 8, smallLimit := 16, largeLimit := 32,
      tinySegmentSize := 16, smallSegmentSize := 16, largeSegmentSize := 32 }

theorem unused_shelf : shelf.Unused := by
  constructor <;> simp [shelf]

end Tenancy

end RegisteredHeap
