import RegisteredHeap.Proofs.Demands
import RegisteredHeap.Proofs.Peak

/-! # The pools around an act

A pool that is not asked for a block has what it had before, possibly in another order; one that
gets nothing back keeps it, unless its heap is closed. Whatever is said about single pools over a run
is derived from these two halves of an act.
-/

namespace RegisteredHeap

namespace Tenancy

variable {w : Tenancy} {act : Act} {heap : Nat} {m : Memory} {p p' q : Pool} {x : Block}
  {wide fresh : List Pool}

/-- What an act comes to until its crest. -/
inductive Upturn (w : Tenancy) (act : Act) : Prop where
  | asks {d : Demand} (wanted : w.demand? act = some d)
      (pools : (w.crest act).memory.pools = (w.memory.answer d).2.pools)
      (lasts : (w.memory.answer d).2.backing.Lasts (w.crest act).memory.backing)
  | widens {fresh : List Pool} (nothing : w.demand? act = none)
      (pools : (w.crest act).memory.pools.Perm (fresh ++ w.memory.pools))
      (blank : ∀ p ∈ fresh, p.blank = p)
  | arranges {p : Pool} {order : List Nat} {before after : List Pool}
      (same : act = .arrange p.key order) (split : w.memory.pools = before ++ p :: after)
      (pools : (w.crest act).memory.pools = before ++ p.arrange order :: after)

theorem Upturn.level (nothing : w.demand? act = none)
    (pools : (w.crest act).memory.pools = w.memory.pools) : w.Upturn act := by
  have same : (w.crest act).memory.pools.Perm ([] ++ w.memory.pools) := by
    rw [pools]
    exact .refl _
  exact .widens nothing same nofun

theorem demand?_of_none (nothing : act.demand? w.memory.backing.numa.pageSize = none) :
    w.demand? act = none := by
  rw [Tenancy.demand?, nothing, Option.filter_none]

theorem demand?_of_some {d : Demand} (wanted : act.demand? w.memory.backing.numa.pageSize = some d)
    (isOpen : d.heap ∉ w.closed) : w.demand? act = some d := by
  rw [Tenancy.demand?, wanted, Option.filter_some, if_pos (by simpa using isOpen)]

theorem demand?_of_closed {d : Demand}
    (wanted : act.demand? w.memory.backing.numa.pageSize = some d) (isClosed : d.heap ∈ w.closed) :
    w.demand? act = none := by
  rw [Tenancy.demand?, wanted, Option.filter_some, if_neg (by simpa using isClosed)]

/-- An act that asks for a block, and then possibly writes to it. -/
theorem upturn_asks {d : Demand} {g : Option Grip}
    (crest : w.crest act = w.on d.heap (w.keep d.heap m g))
    (wanted : act.demand? w.memory.backing.numa.pageSize = some d)
    (pools : m.pools = (w.memory.answer d).2.pools)
    (lasts : (w.memory.answer d).2.backing.Lasts m.backing) : w.Upturn act := by
  by_cases isClosed : d.heap ∈ w.closed
  · apply Upturn.level (demand?_of_closed wanted isClosed)
    rw [crest, Tenancy.on, if_pos isClosed]
  · have memory : (w.crest act).memory = m := by
      rw [crest, Tenancy.on, if_neg isClosed, memory_keep]
    exact .asks (demand?_of_some wanted isClosed) (memory ▸ pools) (memory ▸ lasts)

/-- An act on a heap that asks for nothing. -/
theorem upturn_calls {g : Option Grip} (crest : w.crest act = w.on heap (w.keep heap m g))
    (nothing : act.demand? w.memory.backing.numa.pageSize = none)
    (pools : m.pools = w.memory.pools) : w.Upturn act := by
  apply Upturn.level (demand?_of_none nothing)
  rw [crest, Tenancy.on]
  split
  · rfl
  · rw [memory_keep, pools]

theorem upturn_storage {l : Layout} {count node : Nat} {g : Option Grip}
    (crest : w.crest act = w.on heap (w.keep heap m g))
    (wanted : act.demand? w.memory.backing.numa.pageSize =
      Act.storage? w.memory.backing.numa.pageSize heap l count node)
    (pools : m.pools = (w.memory.allocateArray heap l count node).2.pools)
    (lasts : (w.memory.allocateArray heap l count node).2.backing.Lasts m.backing) :
    w.Upturn act := by
  rcases w.memory.allocateArray_cases heap l count node with ⟨cause, none, same⟩ | ⟨size, some, same⟩
  · rw [same] at pools
    rw [Act.storage?, none] at wanted
    exact upturn_calls crest wanted pools
  · rw [same] at pools lasts
    rw [Act.storage?, some] at wanted
    exact upturn_asks (d := ⟨heap, size, node, Option.none⟩) crest wanted pools lasts

theorem Sound.upturn (sound : w.Sound) (act : Act) : w.Upturn act := by
  have formed := sound.memory.formed
  cases act with
  | openHeap settings =>
      cases accepted : Config.ofSettings settings with
      | error cause =>
          refine .level (demand?_of_none rfl) ?_
          simp only [Tenancy.crest, Tenancy.step, accepted]
      | ok c =>
          have added : (w.crest (.openHeap settings)).memory.pools.Perm
              ((Heap.ofConfig w.memory.heaps.length c w.memory.backing.numa.nodes
                (w.memory.backing.device.map Device.count)).pools ++ w.memory.pools) := by
            simp only [Tenancy.crest, Tenancy.step, accepted, Memory.addHeap, Memory.pools,
              List.flatMap_append, List.flatMap_singleton]
            exact List.perm_append_comm
          refine .widens (demand?_of_none rfl) added ?_
          intro p member
          obtain ⟨k, -, inside⟩ := List.mem_flatMap.mp member
          exact Heap.blank_of_mem_poolsOf inside
  | closeHeap | free | write | change => exact Upturn.level (demand?_of_none (by rfl)) rfl
  | allocate heap size node device =>
      exact upturn_asks (d := ⟨heap, size, node, device⟩) rfl rfl rfl (.refl _)
  | allocateErased heap size node =>
      exact upturn_asks (d := ⟨heap, size, node, none⟩) rfl rfl rfl (.refl _)
  | allocateArray heap layout count node => exact upturn_storage rfl rfl rfl (.refl _)
  | makeOwner heap element node value =>
      obtain ⟨-, pools, lasts⟩ := w.memory.makeOwner_storage heap element node value
      exact upturn_storage rfl rfl pools lasts
  | makeRow heap element node len init => exact upturn_storage rfl rfl rfl (.refl _)
  | registerUser heap address size device =>
      have pools : (w.memory.registerUser heap address size device).2.pools = w.memory.pools := by
        unfold Memory.registerUser
        split <;> rfl
      exact upturn_calls rfl rfl pools
  | setMessageLength lease len =>
      refine Upturn.level (demand?_of_none rfl) ?_
      simp only [Tenancy.crest, Tenancy.step, Tenancy.note]
      split <;> rfl
  | arrange pool order =>
      by_cases isClosed : pool.heap ∈ w.closed
      · refine .level (demand?_of_none rfl) ?_
        simp only [Tenancy.crest, Tenancy.step, Tenancy.on, isClosed, if_true]
      · have crest : (w.crest (.arrange pool order)).memory = w.memory.arrange pool order := by
          simp only [Tenancy.crest, Tenancy.step, Tenancy.on, isClosed, if_false]
        rcases formed.arrange_split pool order with same | ⟨p, _, _, own, split, -, -, pools⟩
        · exact .level (demand?_of_none rfl) (by rw [crest, same])
        · exact .arranges (own ▸ rfl) split (crest ▸ pools)

/-- A pool that is there, or is made in the course of an act. -/
def Offers (w : Tenancy) (p : Pool) : Prop :=
  p ∈ w.memory.pools ∨ p.blank = p ∧ ∀ q ∈ w.memory.pools, q.key ≠ p.key

/-- What becomes of a pool until the crest of an act. -/
inductive Supplies (w : Tenancy) (act : Act) (p p' : Pool) : Prop where
  | idle (other : ∀ q, w.asked? act = some q → q.key ≠ p.key) (same : p' = p)
  | arranged {order : List Nat} (act : act = .arrange p.key order) (same : p' = p.arrange order)
  | asked {r : Except HeapError Block} {rest : Inventory} {b' : Backing}
      (asked : w.asked? act = some p) (issued : w.issued? act = r.toOption)
      (kept : p.Kept w.memory.backing (blocksOf w.blocks p.key) rest)
      (went : p.allocate w.memory.backing = (r, p', b'))
      (lasts : b'.Lasts (w.crest act).memory.backing)

theorem key_ne_of_nobody {key : PoolKey} (nobody : w.asked? act = none) :
    ∀ q, w.asked? act = some q → q.key ≠ key := by
  intro q same
  rw [nobody] at same
  cases same

theorem Supplies.of_nobody (nobody : w.asked? act = none) (p : Pool) : w.Supplies act p p :=
  .idle (key_ne_of_nobody nobody) rfl

theorem Supplies.alike (supplies : w.Supplies act p p') : p.Alike p' := by
  cases supplies with
  | idle _ same => exact same ▸ .refl p
  | arranged _ same => exact same ▸ ⟨rfl, rfl, rfl⟩
  | asked _ _ _ went => exact .of_allocate went

theorem offers_of_mem (perm : wide.Perm (fresh ++ w.memory.pools))
    (keys : (wide.map Pool.key).Nodup) (blank : ∀ p ∈ fresh, p.blank = p) (member : p ∈ wide) :
    w.Offers p := by
  rcases List.mem_append.mp (perm.mem_iff.mp member) with new | old
  · refine .inr ⟨blank p new, ?_⟩
    intro q listed same
    have distinct := (perm.map Pool.key).nodup_iff.mp keys
    rw [List.map_append, List.nodup_append] at distinct
    exact distinct.2.2 _ (List.mem_map_of_mem new) _ (List.mem_map_of_mem listed) same.symm
  · exact .inl old

theorem asked?_of_nothing (nothing : w.demand? act = none) : w.asked? act = none := by
  rw [Tenancy.asked?, nothing, Option.bind_none]

theorem Sound.supplies (sound : w.Sound) (listed : p' ∈ (w.crest act).memory.pools) :
    ∃ p, w.Offers p ∧ w.Supplies act p p' := by
  have keys := (sound.crest act).memory.ledger.keys
  cases sound.upturn act with
  | widens nothing pools blank =>
      exact ⟨p', offers_of_mem pools keys blank listed, .of_nobody (asked?_of_nothing nothing) p'⟩
  | arranges same split pools =>
      have nobody : w.asked? act = none := asked?_of_nothing (demand?_of_none (same ▸ rfl))
      rw [pools] at listed
      rcases Keyed.mem_split.mp listed with rfl | other
      · exact ⟨_, .inl (split ▸ List.mem_append_cons_self), .arranged same rfl⟩
      · exact ⟨p', .inl (split ▸ Keyed.mem_split.mpr (.inr other)), .of_nobody nobody p'⟩
  | @asks d wanted pools lasts =>
      have asks : w.asked? act = w.memory.asked? d := by rw [Tenancy.asked?, wanted, Option.bind_some]
      have gets : w.issued? act = (w.memory.answer d).1.toOption := by
        rw [Tenancy.issued?, wanted, Option.bind_some]
      cases sound.memory.met d with
      | refused nobody _ _ perm blank =>
          exact ⟨p', offers_of_mem (pools ▸ perm) keys blank listed,
            .of_nobody (asks.trans nobody) p'⟩
      | @served p asked reaches answers =>
          obtain ⟨perm, blank, ledger, own, went, result, after⟩ := answers
          have answered := result
          rw [← Memory.answer] at answered
          rw [answered] at gets
          rw [pools, answered, after] at listed
          rw [answered] at lasts
          rcases Keyed.mem_split.mp listed with rfl | other
          · have offers : w.Offers p :=
              offers_of_mem perm ledger.keys blank List.mem_append_cons_self
            exact ⟨p, offers, .asked (asks.trans asked) gets ledger.kept went lasts⟩
          · refine ⟨p', offers_of_mem perm ledger.keys blank (Keyed.mem_split.mpr (.inr other)),
              .idle ?_ rfl⟩
            intro q same
            rw [asks, asked, Option.some.injEq] at same
            subst same
            exact fun key => ledger.apart p' other key.symm

/-- The pool that an act asks is there at its crest. -/
theorem Sound.listed_of_asked (sound : w.Sound) (asked : w.asked? act = some p) :
    ∃ p' ∈ (w.crest act).memory.pools, p'.key = p.key := by
  cases sound.upturn act with
  | widens nothing =>
      rw [asked?_of_nothing nothing] at asked
      cases asked
  | arranges same =>
      rw [asked?_of_nothing (demand?_of_none (same ▸ rfl))] at asked
      cases asked
  | @asks d wanted pools =>
      rw [Tenancy.asked?, wanted, Option.bind_some] at asked
      cases sound.memory.met d with
      | refused nobody =>
          rw [nobody] at asked
          cases asked
      | @served q asked' _ answers =>
          rw [asked', Option.some.injEq] at asked
          subst asked
          obtain ⟨-, -, -, -, went, result, after⟩ := answers
          rw [pools, Memory.answer, result, after]
          exact ⟨_, List.mem_append_cons_self, (Pool.Alike.of_allocate went).key⟩

/-- What an act comes to from its crest on. -/
inductive Downturn (w : Tenancy) (act : Act) : Prop where
  | frees {m : Memory} {x : Block} (frees : w.Frees act m x) (back : w.returned? act = some x)
      (pools : m.pools = (w.crest act).memory.pools)
  | closes {heap : Nat} {h : Heap} (nothing : w.returned? act = none) (same : act = .closeHeap heap)
      (isOpen : heap ∉ w.closed) (there : w.memory.heaps[heap]? = some h)
  | stays (nothing : w.returned? act = none)
      (pools : (w.step act).memory.pools = (w.crest act).memory.pools)

theorem issued?_of_some {d : Demand}
    (wanted : act.demand? w.memory.backing.numa.pageSize = some d) :
    w.issued? act = if d.heap ∈ w.closed then none else (w.memory.answer d).1.toOption := by
  split
  · rename_i isClosed
    rw [Tenancy.issued?, demand?_of_closed wanted isClosed, Option.bind_none]
  · rename_i isOpen
    rw [Tenancy.issued?, demand?_of_some wanted isOpen, Option.bind_some]

theorem issued?_of_storage {l : Layout} {count node : Nat}
    (wanted : act.demand? w.memory.backing.numa.pageSize =
      Act.storage? w.memory.backing.numa.pageSize heap l count node) :
    w.issued? act = if heap ∈ w.closed then none
      else (w.memory.allocateArray heap l count node).1.toOption := by
  rcases w.memory.allocateArray_cases heap l count node with ⟨cause, none, same⟩ | ⟨size, some, same⟩
  · rw [Act.storage?, none] at wanted
    rw [Tenancy.issued?, demand?_of_none wanted, Option.bind_none, same]
    exact (ite_self _).symm
  · rw [Act.storage?, some] at wanted
    rw [issued?_of_some wanted, same]
    rfl

theorem returned?_free {lease : Nat} {l : Lease} (there : w.leases[lease]? = some l)
    (isOpen : l.heap ∉ w.closed) : w.returned? (.free lease) = some l.grip.returned := by
  simp only [returned?, there, isOpen, if_false]

theorem downturn_free (w : Tenancy) (lease : Nat) : w.Downturn (.free lease) := by
  cases there : w.leases[lease]? with
  | none =>
      exact .stays (by simp only [returned?, there])
        (by simp only [Tenancy.crest, Tenancy.step, Tenancy.giveBack, there])
  | some l =>
      by_cases isClosed : l.heap ∈ w.closed
      · refine .stays (by simp only [returned?, there, isClosed, if_true]) ?_
        simp only [Tenancy.crest, Tenancy.step, Tenancy.giveBack, there, Tenancy.on, isClosed,
          if_true]
      · have back := returned?_free there isClosed
        cases grip : l.grip with
        | pointer b =>
            rw [grip] at back
            exact .frees (.pointer there isClosed grip) back rfl
        | erased b =>
            rw [grip] at back
            exact .frees (.erased there isClosed grip) back rfl
        | owner o =>
            rw [grip] at back
            exact .frees (.owner there isClosed grip) back (Memory.pools_endValues _ _ _)

theorem downturn_makeRow (w : Tenancy) (heap : Nat) (element : Element) (node len : Nat)
    (init : Nat → Option Nat) : w.Downturn (.makeRow heap element node len init) := by
  have gets : w.issued? (.makeRow heap element node len init) = if heap ∈ w.closed then none
      else (w.memory.allocateArray heap element.layout len node).1.toOption :=
    issued?_of_storage rfl
  by_cases isClosed : heap ∈ w.closed
  · rw [if_pos isClosed] at gets
    refine .stays ?_ ?_
    · rw [returned?, gets, ite_self]
    · simp only [Tenancy.crest, Tenancy.step, Tenancy.on, isClosed, if_true]
  rw [if_neg isClosed] at gets
  rcases got : w.memory.allocateArray heap element.layout len node with ⟨cause | x, m⟩
  · rw [got] at gets
    refine .stays ?_ ?_
    · rw [returned?, gets]
      exact ite_self _
    · simp only [Tenancy.crest, Tenancy.step, Memory.makeRow, Tenancy.on, isClosed, if_false, got]
      rfl
  rw [got] at gets
  rcases filled : yields init 0 len with ⟨values, _ | _⟩
  · refine .frees (.row isClosed got filled) ?_ ?_
    · rw [returned?, gets, filled]
      rfl
    · simp only [Tenancy.crest, Tenancy.step, Tenancy.on, isClosed, if_false, got]
      exact Memory.pools_endValues _ _ _
  · refine .stays ?_ ?_
    · rw [returned?, filled]
      rfl
    · simp only [Tenancy.crest, Tenancy.step, Memory.makeRow, Tenancy.on, isClosed, if_false, got,
        filled, if_true]
      rfl

theorem downturn_closeHeap (w : Tenancy) (heap : Nat) : w.Downturn (.closeHeap heap) := by
  by_cases isClosed : heap ∈ w.closed
  · refine .stays rfl ?_
    simp only [Tenancy.crest, Tenancy.step, Tenancy.on, isClosed, if_true]
  cases there : w.memory.heaps[heap]? with
  | none =>
      refine .stays rfl ?_
      simp only [Tenancy.crest, Tenancy.step, Tenancy.on, isClosed, if_false, Tenancy.close, there]
  | some h => exact .closes rfl rfl isClosed there

theorem downturn (w : Tenancy) (act : Act) : w.Downturn act := by
  cases act with
  | closeHeap heap => exact w.downturn_closeHeap heap
  | free lease => exact w.downturn_free lease
  | makeRow heap element node len init => exact w.downturn_makeRow heap element node len init
  | _ => exact .stays rfl rfl

/-- What becomes of a pool from the crest of an act on, unless its heap is closed. -/
inductive Receives (w : Tenancy) (act : Act) (p p' : Pool) : Prop where
  | idle (other : ∀ x, w.returned? act = some x → x.pool? ≠ some p.key) (same : p' = p)
  | back {x : Block} {n : Nat} {out : Multiset Block} {rest : Inventory} {b b' : Backing}
      (back : w.returned? act = some x) (origin : x.origin = .segment p.key n)
      (kept : p.Kept b (x.bare ::ₘ out) rest) (went : p.giveBack n x b = (p', b'))

theorem Receives.of_nothing (nothing : w.returned? act = none) (p : Pool) : w.Receives act p p := by
  refine .idle ?_ rfl
  intro x same
  rw [nothing] at same
  cases same

theorem Receives.alike (receives : w.Receives act p p') : p.Alike p' := by
  cases receives with
  | idle _ same => exact same ▸ .refl p
  | back _ _ _ went => exact .of_giveBack went

theorem Sound.receives (sound : w.Sound) (listed : p' ∈ (w.step act).memory.pools)
    (stays : p'.key.heap ∈ (w.step act).closed → p'.key.heap ∈ w.closed) :
    ∃ p ∈ (w.crest act).memory.pools, w.Receives act p p' := by
  cases w.downturn act with
  | stays nothing pools => exact ⟨p', pools ▸ listed, .of_nothing nothing p'⟩
  | @closes heap h nothing same heapOpen there =>
      subst same
      simp only [Tenancy.step, Tenancy.on, heapOpen, if_false, Tenancy.close, there]
        at listed stays
      obtain ⟨before, after, split, pools⟩ := Memory.pools_closeHeap there
      have other : p' ∉ h.pools.map Pool.emptied := by
        intro member
        obtain ⟨q, inside, rfl⟩ := List.mem_map.mp member
        have own : q.emptied.key.heap = heap := ((sound.memory.formed heap h there).of_mem inside).1
        rw [own] at stays
        exact heapOpen (stays List.mem_cons_self)
      refine ⟨p', ?_, .of_nothing nothing p'⟩
      change p' ∈ w.memory.pools
      rw [pools, List.mem_append, List.mem_append] at listed
      rw [split, List.mem_append, List.mem_append]
      rcases listed with left | mine | right
      · exact .inl left
      · exact absurd mine other
      · exact .inr (.inr right)
  | @frees m x frees back pools =>
      obtain ⟨out, memory⟩ := sound.frees frees
      rw [sound.step_frees frees] at listed
      rw [← pools]
      cases memory.freed with
      | @pooled p q n before after split origin _ went after' =>
          have there : p ∈ m.pools := split ▸ List.mem_append_cons_self
          have own : x.bare.pool? = some p.key := Block.pool?_eq_some.mpr ⟨n, origin⟩
          rw [after'] at listed
          rcases Keyed.mem_split.mp listed with rfl | other
          · obtain ⟨_, kept⟩ := (memory.logged x.address).exists_kept_cons there own
            exact ⟨p, there, .back back origin kept went⟩
          · refine ⟨p', split ▸ Keyed.mem_split.mpr (.inr other), .idle ?_ rfl⟩
            intro y same own'
            rw [back, Option.some.injEq] at same
            subst same
            rw [← Block.bare_pool?, own, Option.some.injEq] at own'
            exact (split ▸ memory.ledger).apart p' other own'.symm
      | ended same freed =>
          have user : x.pool? = none := by
            rw [← Block.bare_pool?, same]
            rfl
          rw [freed] at listed
          refine ⟨p', listed, .idle ?_ rfl⟩
          intro y same own'
          rw [back, Option.some.injEq] at same
          subst same
          rw [user] at own'
          cases own'

/-- From the crest on the backing lasts. -/
theorem crest_lasts (w : Tenancy) (act : Act) :
    (w.crest act).memory.backing.Lasts (w.step act).memory.backing := by
  cases act with
  | closeHeap heap => exact w.backing_lasts_step (.closeHeap heap)
  | free lease => exact w.backing_lasts_step (.free lease)
  | makeRow heap element node len init =>
      have lasts := w.memory.makeRow_storage heap element node len init
      simp only [Tenancy.crest, Tenancy.step, Tenancy.on]
      split
      · exact .refl _
      · rw [memory_keep, memory_keep]
        exact lasts
  | _ => exact .refl _

/-- The block that an act gets is one of the pool that it asks. -/
theorem Sound.asked_of_issued (sound : w.Sound) (gets : w.issued? act = some x) :
    ∃ p, w.asked? act = some p ∧ x.pool? = some p.key := by
  cases wanted : w.demand? act with
  | none =>
      rw [Tenancy.issued?, wanted] at gets
      cases gets
  | some d =>
      have isOpen : d.heap ∉ w.closed := by
        have kept := wanted
        rw [Tenancy.demand?, Option.filter_eq_some_iff] at kept
        simpa using kept.2
      rw [Tenancy.issued?, wanted, Option.bind_some] at gets
      cases sound.memory.met d with
      | refused _ failed =>
          rw [failed] at gets
          cases gets
      | @served p asked _ answers =>
          refine ⟨p, by rw [Tenancy.asked?, wanted, Option.bind_some, asked], ?_⟩
          cases answers with
          | @intro _ _ _ _ r _ _ _ ledger own went result _ =>
              rw [Memory.answer, result] at gets
              cases r with
              | error cause => cases gets
              | ok y =>
                  cases gets
                  exact (ledger.allocate_ok (own ▸ isOpen) went).2

theorem lease_of_call {α : Type} {r : Except HeapError α} {f : α → Grip} {y : Option Block}
    (gets : w.issued? act = some x)
    (same : w.issued? act = if heap ∈ w.closed then none else y)
    (block : r.toOption.map (fun a => (f a).block) = y)
    (crest : w.crest act = w.on heap (w.keep heap m (r.toOption.map f))) :
    ∃ l, (w.crest act).leases = l :: w.leases ∧ l.grip.block = x := by
  rw [gets] at same
  split at same
  · cases same
  · rename_i isOpen
    subst block
    cases r with
    | error cause => cases same
    | ok a =>
        cases same
        exact ⟨⟨heap, f a⟩, by rw [crest, Tenancy.on, if_neg isOpen]; rfl, rfl⟩

/-- What an act gets is held, until the act gives it up. -/
theorem lease_of_issued (gets : w.issued? act = some x) :
    ∃ l, (w.crest act).leases = l :: w.leases ∧ l.grip.block = x := by
  have whole {r : Except HeapError Block} {f : Block → Grip} (own : ∀ b, (f b).block = b) :
      r.toOption.map (fun b => (f b).block) = r.toOption := by
    simp only [own, Option.map_id']
  cases act with
  | allocate heap size node device =>
      exact lease_of_call gets (issued?_of_some (d := ⟨heap, size, node, device⟩) rfl)
        (whole fun _ => rfl) (f := .pointer) rfl
  | allocateErased heap size node =>
      exact lease_of_call gets (issued?_of_some (d := ⟨heap, size, node, none⟩) rfl)
        (whole fun _ => rfl) (f := .erased) rfl
  | allocateArray heap l count node =>
      exact lease_of_call gets (issued?_of_storage rfl) (whole fun _ => rfl) (f := .pointer) rfl
  | makeOwner heap element node value =>
      obtain ⟨block, -, -⟩ := w.memory.makeOwner_storage heap element node value
      exact lease_of_call gets (issued?_of_storage rfl) block (f := .owner) rfl
  | makeRow heap element node len init =>
      exact lease_of_call gets (issued?_of_storage rfl) (whole fun _ => rfl) (f := .pointer) rfl
  | _ => cases gets

/-- A row that is given up gives back the block that it got. -/
theorem issued_of_returned {element : Element} {node len : Nat} {init : Nat → Option Nat}
    (back : w.returned? (.makeRow heap element node len init) = some x) :
    w.issued? (.makeRow heap element node len init) = some x := by
  rw [returned?] at back
  split at back
  · cases back
  · exact back

theorem returned?_of_frees (frees : w.Frees act m x) : w.returned? act = some x := by
  cases frees with
  | pointer there isOpen grip | erased there isOpen grip | owner there isOpen grip =>
      rw [returned?_free there isOpen, grip]
      rfl
  | row isOpen got gaveUp =>
      rw [returned?, gaveUp, issued?_of_storage rfl, if_neg isOpen, got]
      rfl

/-- What an act gives back was held until then. -/
theorem held_of_returned (back : w.returned? act = some x) : x.bare ∈ (w.crest act).blocks := by
  have held (v : Tenancy) {l : Lease} (member : l ∈ v.leases) : l.grip.block.bare ∈ v.blocks :=
    Multiset.mem_coe.mpr (List.mem_map_of_mem member)
  cases act with
  | free lease =>
      rw [returned?] at back
      split at back
      · cases back
      rename_i l there
      split at back
      · cases back
      have returned : x.bare = l.grip.block.bare := by
        cases back
        cases l.grip <;> rfl
      rw [returned]
      exact held w (List.mem_of_getElem? there)
  | makeRow heap element node len init =>
      obtain ⟨l, leases, rfl⟩ := lease_of_issued (issued_of_returned back)
      exact held _ (leases ▸ List.mem_cons_self)
  | _ => cases back

/-- The pool that an act gets a block from, or brings one back to. -/
def touched? (w : Tenancy) (act : Act) : Option PoolKey :=
  match w.asked? act with
  | some p => some p.key
  | none => (w.returned? act).bind Block.pool?

theorem Sound.touched_of_issued (sound : w.Sound) (gets : w.issued? act = some x) :
    ∃ key, w.touched? act = some key ∧ x.pool? = some key := by
  obtain ⟨p, asked, own⟩ := sound.asked_of_issued gets
  exact ⟨p.key, by rw [touched?, asked], own⟩

theorem Sound.touched_of_returned (sound : w.Sound) (back : w.returned? act = some x) :
    w.touched? act = x.pool? := by
  cases asked : w.asked? act with
  | none => rw [touched?, asked, back, Option.bind_some]
  | some p =>
      -- Of the acts that ask for a block only a row gives one back, and that is the one it got.
      have gets : w.issued? act = some x := by
        cases act with
        | free => cases asked
        | makeRow => exact issued_of_returned back
        | _ => cases back
      obtain ⟨q, asked', own⟩ := sound.asked_of_issued gets
      rw [asked, Option.some.injEq] at asked'
      subst asked'
      rw [touched?, asked, own]

end Tenancy

end RegisteredHeap
