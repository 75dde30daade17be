import RegisteredHeap.Proofs.Fixtures
import RegisteredHeap.Proofs.Release

/-! # Demands

An act asks for at most one block, of one pool, and gives at most one back. What is asked for is met
by that pool alone, or refused without it.
-/

namespace RegisteredHeap

/-- The size to ask for, so that `count` values of the layout fit. -/
def Layout.sizeFor (l : Layout) (count pageSize : Nat) : Except HeapError Nat :=
  match l.array count with
  | .error e => .error e
  | .ok whole => whole.request pageSize

/-- A block that is asked for. -/
structure Demand where
  heap : Nat
  size : Nat
  node : Nat
  device : Option Nat

namespace Act

/-- Storage for `count` values, if there is a size for it. -/
def storage? (pageSize heap : Nat) (l : Layout) (count node : Nat) : Option Demand :=
  (l.sizeFor count pageSize).toOption.map fun size => ⟨heap, size, node, none⟩

def demand? (pageSize : Nat) : Act → Option Demand
  | .allocate heap size node device => some ⟨heap, size, node, device⟩
  | .allocateErased heap size node => some ⟨heap, size, node, none⟩
  | .allocateArray heap l count node => storage? pageSize heap l count node
  | .makeOwner heap element node _ => storage? pageSize heap element.layout 1 node
  | .makeRow heap element node len _ => storage? pageSize heap element.layout len node
  | _ => none

end Act

/-- The pool that a request is routed to, which may just have been made for it. -/
def Heap.asked? (h : Heap) (size node : Nat) (device : Option Nat) : Option Pool :=
  match h.classOf size with
  | (.error _, _) => none
  | (.ok k, wide) =>
    match wide.keyOf k node device with
    | .error _ => none
    | .ok key => wide.pool? key

namespace Memory

def answer (m : Memory) (d : Demand) : Except HeapError Block × Memory :=
  m.allocate d.heap d.size d.node d.device

def asked? (m : Memory) (d : Demand) : Option Pool :=
  match m.heaps[d.heap]? with
  | none => none
  | some h => h.asked? d.size d.node d.device

end Memory

/-- The block as the pool gets it back: an erased handle stands for the block without its note. -/
def Grip.returned : Grip → Block
  | pointer b => b
  | erased b => b.bare
  | owner o => o.block

namespace Tenancy

/-- What the act asks of a heap that is there. -/
def demand? (w : Tenancy) (act : Act) : Option Demand :=
  (act.demand? w.memory.backing.numa.pageSize).filter fun d => d.heap ∉ w.closed

/-- The pool that the act asks for a block. -/
def asked? (w : Tenancy) (act : Act) : Option Pool := (w.demand? act).bind w.memory.asked?

/-- The block that the act gets. -/
def issued? (w : Tenancy) (act : Act) : Option Block :=
  (w.demand? act).bind fun d => (w.memory.answer d).1.toOption

/-- The block that the act gives back: that of a lease, or that of a row which is given up. -/
def returned? (w : Tenancy) : Act → Option Block
  | .free lease =>
    match w.leases[lease]? with
    | none => none
    | some l => if l.heap ∈ w.closed then none else some l.grip.returned
  | .makeRow heap element node len init =>
    if (yields init 0 len).2 then none else w.issued? (.makeRow heap element node len init)
  | _ => none

end Tenancy

namespace Heap

variable {h : Heap} {size node : Nat} {device : Option Nat} {p : Pool}

/-- A request is refused without a pool, or answered by the pool that it asks. -/
theorem asked_cases (h : Heap) (size node : Nat) (device : Option Nat) :
    (h.asked? size node device = none ∧ ∃ cause, ∀ b,
      h.allocate size node device b = (.error cause, (h.classOf size).2, b)) ∨
    ∃ p, h.asked? size node device = some p ∧ h.Reaches size node device (h.classOf size).2 p := by
  rcases routed : h.classOf size with ⟨cause | k, wide⟩
  · exact .inl ⟨by simp only [asked?, routed], cause, fun b => by simp only [allocate, routed]⟩
  cases key : wide.keyOf k node device with
  | error cause =>
      exact .inl ⟨by simp only [asked?, routed, key], cause,
        fun b => by simp only [allocate, routed, key]⟩
  | ok place =>
      cases found : wide.pool? place with
      | none =>
          exact .inl ⟨by simp only [asked?, routed, key, found], .unknownNode place.node,
            fun b => by simp only [allocate, routed, key, allocateFrom, found]⟩
      | some p =>
          have same : p.key = place := by simpa using List.find?_some found
          subst same
          exact .inr ⟨p, by simp only [asked?, routed, key, found], ⟨k, routed, key⟩, found⟩

theorem Reaches.asked {wide : Heap} (reaches : h.Reaches size node device wide p) :
    h.asked? size node device = some p := by
  obtain ⟨k, routed, key⟩ := reaches.routed
  simp only [asked?, routed, key, reaches.found]

end Heap

namespace Memory

variable {m m' : Memory} {closed : List Nat} {out : Multiset Block} {d : Demand} {p : Pool}
  {heap size node : Nat} {device : Option Nat} {x : Block}

theorem allocateArray_cases (m : Memory) (heap : Nat) (l : Layout) (count node : Nat) :
    (∃ cause, l.sizeFor count m.backing.numa.pageSize = .error cause ∧
      m.allocateArray heap l count node = (.error cause, m)) ∨
    ∃ size, l.sizeFor count m.backing.numa.pageSize = .ok size ∧
      m.allocateArray heap l count node = m.allocate heap size node none := by
  cases whole : l.array count with
  | error cause =>
      exact .inl ⟨cause, by simp only [Layout.sizeFor, whole], by simp only [allocateArray, whole]⟩
  | ok whole' =>
      cases asked : whole'.request m.backing.numa.pageSize with
      | error cause =>
          exact .inl ⟨cause, by simp only [Layout.sizeFor, whole, asked],
            by simp only [allocateArray, whole, asked]⟩
      | ok size =>
          exact .inr ⟨size, by simp only [Layout.sizeFor, whole, asked],
            by simp only [allocateArray, whole, asked]⟩

/-- An owner takes its block from storage, and nothing else. -/
theorem makeOwner_storage (m : Memory) (heap : Nat) (element : Element) (node value : Nat) :
    (m.makeOwner heap element node value).1.toOption.map Owner.block =
        (m.allocateArray heap element.layout 1 node).1.toOption ∧
      (m.makeOwner heap element node value).2.pools =
        (m.allocateArray heap element.layout 1 node).2.pools ∧
      (m.allocateArray heap element.layout 1 node).2.backing.Lasts
        (m.makeOwner heap element node value).2.backing := by
  rcases asked : m.allocateArray heap element.layout 1 node with ⟨cause | x, m'⟩
  · simp only [makeOwner, asked]
    exact ⟨rfl, pools_endValues _ _ _, (m'.lasts_endValues element [value]).backing⟩
  · simp only [makeOwner, asked]
    exact ⟨rfl, rfl, (m'.lasts_store x.address element [value]).backing⟩

/-- A row that is filled or given up leaves what lasts of its storage. -/
theorem makeRow_storage (m : Memory) (heap : Nat) (element : Element) (node len : Nat)
    (init : Nat → Option Nat) :
    (m.allocateArray heap element.layout len node).2.backing.Lasts
      (m.makeRow heap element node len init).2.backing := by
  rcases asked : m.allocateArray heap element.layout len node with ⟨cause | x, m'⟩
  · simp only [makeRow, asked]
    exact .refl _
  have stored := m'.lasts_store x.address element (yields init 0 len).1
  simp only [makeRow, asked]
  split
  · exact stored.backing
  · exact ((stored.trans (lasts_endValues _ _ _)).trans (lasts_free _ x)).backing

theorem Reaches.asked (reaches : m.Reaches d.heap d.size d.node d.device p) :
    m.asked? d = some p := by
  obtain ⟨h, wide, there, reaches⟩ := reaches
  simp only [asked?, there, reaches.asked]

/-- How a demand is met: new pools at most, or one pool that answers. -/
inductive Met (m : Memory) (closed : List Nat) (out : Multiset Block) (d : Demand) : Prop where
  | refused {cause : HeapError} {fresh : List Pool} (nobody : m.asked? d = none)
      (failed : (m.answer d).1 = .error cause) (backing : (m.answer d).2.backing = m.backing)
      (pools : (m.answer d).2.pools.Perm (fresh ++ m.pools)) (blank : ∀ p ∈ fresh, p.blank = p)
  | served {p : Pool} (asked : m.asked? d = some p)
      (reaches : m.Reaches d.heap d.size d.node d.device p)
      (answers : m.Answers closed out d.heap d.size d.node d.device p)

theorem Sound.met (sound : m.Sound closed out) (d : Demand) : m.Met closed out d := by
  cases there : m.heaps[d.heap]? with
  | none =>
      have failed : m.answer d = (.error (.unknownNode d.node), m) := by
        simp only [answer, allocate, there]
      have nobody : m.asked? d = none := by simp only [asked?, there]
      have perm : (m.answer d).2.pools.Perm ([] ++ m.pools) := by
        rw [failed]
        exact .refl _
      exact .refused nobody (congrArg Prod.fst failed) (by rw [failed]) perm (by simp)
  | some h =>
      rcases h.asked_cases d.size d.node d.device with ⟨nobody, cause, failed⟩ | ⟨p, asked, reaches⟩
      · rcases routed : h.classOf d.size with ⟨r, wide⟩
        have wider := ((sound.formed d.heap h there).classOf routed).2
        obtain ⟨fresh, perm, blank⟩ := widens_perm there wider
        have failed : m.answer d = (.error cause, ⟨m.backing, m.heaps.set d.heap wide⟩) := by
          simp only [answer, allocate, there, failed, routed]
        have nobody : m.asked? d = none := by simp only [asked?, there, nobody]
        refine .refused nobody (congrArg Prod.fst failed) (by rw [failed]) ?_ blank
        rw [failed]
        exact perm
      · have reaches : m.Reaches d.heap d.size d.node d.device p := ⟨h, _, there, reaches⟩
        exact .served reaches.asked reaches (sound.answers reaches)

/-- A block that is handed out is of the pool for its size, node and device. -/
theorem Sound.granted (sound : m.Sound closed out) (isOpen : heap ∉ closed)
    (got : m.allocate heap size node device = (.ok x, m')) :
    ∃ h n, m.heaps[heap]? = some h ∧ h.config.sizeClass size = .ok n ∧
      x.pool? = some ⟨heap, n, node, device⟩ := by
  obtain ⟨h, p, there, reaches, size', -⟩ := sound.formed.reaches_of_ok got
  refine ⟨h, p.key.blockSize, there, size', ?_⟩
  have place : p.key = ⟨heap, p.key.blockSize, node, device⟩ := by
    obtain ⟨h', wide, there', reaches⟩ := reaches
    obtain ⟨k, routed, key⟩ := reaches.routed
    have index := ((sound.formed heap h' there').classOf routed).1.index
    rw [(Heap.keyOf_ok key).1, index]
  rw [← place]
  obtain ⟨-, -, ledger, own, went, result, -⟩ := sound.answers reaches
  rw [result, Prod.mk.injEq] at got
  obtain ⟨rfl, rfl⟩ := got
  exact (ledger.allocate_ok (own ▸ isOpen) went).2

end Memory

end RegisteredHeap
