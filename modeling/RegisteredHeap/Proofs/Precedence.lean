import RegisteredHeap.Proofs.Refusal

/-! # What is wrong with a request

Sizes are judged first, then device support, the node and the device, and the first thing that is
wrong is the answer. The tables in which pools are looked up reach up to the largest node and have
holes; none of that shows. A request that nothing is wrong with is answered by its pool alone.

The length of the tables is a word, and one more than the largest node. If the largest word is a
node, that wraps to nothing: the tables are empty and no node and no device is found.
-/

namespace RegisteredHeap

namespace HeapError

variable {nodes : List Nat} {devices : Option Nat} {size node d : Nat} {device : Option Nat}
  {cause : HeapError}

/-- What is wrong with a node, and with a device if one is asked for. -/
def ofPlace? (nodes : List Nat) (devices : Option Nat) (node : Nat) : Option Nat → Option HeapError
  | none => if node ∈ nodes then none else some (.unknownNode node)
  | some d =>
    match devices with
    | none => some .deviceSupportDisabled
    | some count =>
      if node ∉ nodes then some (.unknownNode node)
      else if count ≤ d then some (.unknownDevice node d)
      else none

/-- What is wrong with a request. -/
def ofRequest? (nodes : List Nat) (devices : Option Nat) (size node : Nat) (device : Option Nat) :
    Option HeapError :=
  if 2 ^ 63 < size then some (.invalidSize size) else ofPlace? nodes devices node device

/-- What a heap without slots answers to a request. -/
def ofStranded (size node : Nat) (device : Option Nat) : HeapError :=
  if 2 ^ 63 < size then .invalidSize size
  else device.elim (.unknownNode node) fun _ => .deviceSupportDisabled

/-- What is wrong with a device that memory of a caller lies on. -/
def ofDevice? (devices : Option Nat) (localNode d : Nat) : Option HeapError :=
  match devices with
  | none => some .deviceSupportDisabled
  | some count => if count ≤ d then some (.unknownDevice localNode d) else none

theorem ofRequest?_eraseDups : ofRequest? nodes.eraseDups devices size node device =
    ofRequest? nodes devices size node device := by
  cases device with
  | none => simp only [ofRequest?, ofPlace?, List.mem_eraseDups]
  | some d => simp only [ofRequest?, ofPlace?, List.mem_eraseDups]

end HeapError

namespace Heap

variable {h : Heap} {size node : Nat} {device : Option Nat}

/-- If there are nodes and each has its slot, the tables tell what is wrong with a place. -/
theorem keyOf_eq (nodes : h.nodes ≠ []) (slotted : Slotted h.nodes) (k : SizeClass) (node : Nat)
    (device : Option Nat) :
    h.keyOf k node device =
      match HeapError.ofPlace? h.nodes h.devices node device with
      | some cause => .error cause
      | none => .ok ⟨h.index, k.blockSize, node, device⟩ := by
  cases device with
  | none =>
      simp only [keyOf_host, slotted.mem_served, HeapError.ofPlace?]
      split <;> rfl
  | some d =>
      rw [keyOf_device]
      cases support : h.devices with
      | none => rfl
      | some count =>
          obtain ⟨n, offered⟩ := List.exists_mem_of_ne_nil _ nodes
          have slots : slots h.nodes ≠ 0 := Nat.ne_zero_of_lt (slotted.lt_slots offered)
          simp only [HeapError.ofPlace?, slots, slotted.mem_served, if_false]
          by_cases known : node ∈ h.nodes
          · by_cases beyond : count ≤ d <;> simp [known, beyond]
          · simp [known]

/-- Without slots a node is unknown, and devices are taken to be unsupported. -/
theorem keyOf_of_slots_eq_zero (none : slots h.nodes = 0) (k : SizeClass) (node : Nat)
    (device : Option Nat) : h.keyOf k node device =
      .error (device.elim (.unknownNode node) fun _ => .deviceSupportDisabled) := by
  cases device with
  | none =>
      rw [keyOf_host, if_neg (by simp [mem_served, none])]
      rfl
  | some d =>
      rw [keyOf_device]
      cases h.devices <;> simp [none]

/-- One more than the largest word is a word again, and it is zero. -/
theorem slots_of_last {nodes : List Nat} (words : ∀ n ∈ nodes, n < Word.limit)
    (last : Word.limit - 1 ∈ nodes) : slots nodes = 0 := by
  have largest : nodes.max? = some (Word.limit - 1) :=
    List.max?_eq_some_iff.mpr ⟨last, fun n member => Nat.le_sub_one_of_lt (words n member)⟩
  rw [slots, largest]
  rfl

theorem slotted_of_words {nodes : List Nat} (words : ∀ n ∈ nodes, n < Word.limit)
    (last : Word.limit - 1 ∉ nodes) : Slotted nodes := by
  intro n member
  have word := words n member
  have other : n ≠ Word.limit - 1 := fun same => last (same ▸ member)
  omega

end Heap

namespace Memory

variable {m : Memory} {closed : List Nat} {out : Multiset Block} {h : Heap}
  {heap size node address d : Nat} {device : Option Nat} {cause : HeapError}

/-- The pool of the class, the node and the device answers, and takes its place again. -/
structure Served (m : Memory) (heap size node : Nat) (device : Option Nat) (h : Heap) (p : Pool) :
    Prop where
  reaches : h.Reaches size node device (h.classOf size).2 p
  key : ∃ n, h.config.sizeClass size = .ok n ∧ p.key = ⟨heap, n, node, device⟩
  answer : m.allocate heap size node device =
    ((p.allocate m.backing).1,
      { backing := (p.allocate m.backing).2.2
        heaps := m.heaps.set heap ((h.classOf size).2.setPool (p.allocate m.backing).2.1) })

/-- The answers of a heap to the registration of memory of a caller on a device. -/
structure Enrolls (m : Memory) (devices : Option Nat) (heap : Nat) : Prop where
  astray : ∀ address size d cause,
    HeapError.ofDevice? devices m.backing.numa.localNode d = some cause →
      m.registerUser heap address size (some d) = (.error cause, m)
  enrolled : ∀ address size d, HeapError.ofDevice? devices m.backing.numa.localNode d = none →
    m.registerUser heap address size (some d) =
      match m.backing.register (.user address) size .user (some d) with
      | (.error e, b) => (.error e, { m with backing := b })
      | (.ok region, b) => (.ok (.ofUser region), { m with backing := b })
  /-- The registrar gives no answer of the heap. -/
  toldDevice : ∀ address size d cause, (∀ e, cause ≠ .registration e) →
    ((m.registerUser heap address size (some d)).1 = .error cause ↔
      HeapError.ofDevice? devices m.backing.numa.localNode d = some cause)

/-- The answers of a heap to all requests, on the nodes and with the devices that are there. -/
structure Directs (m : Memory) (nodes : List Nat) (devices : Option Nat) (heap : Nat)
    (h : Heap) : Prop extends m.Enrolls devices heap where
  /-- What is wrong is answered before the backing is asked. -/
  refused : ∀ size node device cause,
    HeapError.ofRequest? nodes devices size node device = some cause →
      m.allocate heap size node device =
        (.error cause, { m with heaps := m.heaps.set heap (h.classOf size).2 })
  served : ∀ size node device, HeapError.ofRequest? nodes devices size node device = none →
    ∃ p, m.Served heap size node device h p
  /-- No pool gives an answer of routing. -/
  told : ∀ size node device cause, cause.Misrouted size →
    ((m.allocate heap size node device).1 = .error cause ↔
      HeapError.ofRequest? nodes devices size node device = some cause)

/-- The answers of a heap whose tables wrapped to nothing: whatever node and device are there, no
request gets as far as a pool. -/
structure Strands (m : Memory) (devices : Option Nat) (heap : Nat) (h : Heap) : Prop
    extends m.Enrolls devices heap where
  refused : ∀ size node device, m.allocate heap size node device =
    (.error (HeapError.ofStranded size node device),
      { m with heaps := m.heaps.set heap (h.classOf size).2 })

theorem Sound.tooLarge (sound : m.Sound closed out) (there : m.heaps[heap]? = some h)
    (large : 2 ^ 63 < size) (node : Nat) (device : Option Nat) :
    m.allocate heap size node device =
      (.error (.invalidSize size), { m with heaps := m.heaps.set heap (h.classOf size).2 }) := by
  have one : max size 1 = size := by omega
  have routed := (sound.formed heap h there).classOf_of_lt (one.symm ▸ large)
  rw [one] at routed
  simp only [Memory.allocate, there, Heap.allocate, routed]

/-- A place where no class has a pool is refused, once the size has its class. -/
theorem Sound.unplaced (sound : m.Sound closed out) (there : m.heaps[heap]? = some h)
    (small : ¬ 2 ^ 63 < size)
    (nowhere : ∀ k, (h.classOf size).2.keyOf k node device = .error cause) :
    m.allocate heap size node device =
      (.error cause, { m with heaps := m.heaps.set heap (h.classOf size).2 }) := by
  have fits : max size 1 ≤ 2 ^ 63 := by omega
  obtain ⟨k, wide, routed, -⟩ := (sound.formed heap h there).classOf_of_le fits
  rw [routed] at nowhere
  simp only [Memory.allocate, there, Heap.allocate, routed, nowhere]

/-- A pool that answers does not say what routing says. -/
theorem Served.obstacle {p : Pool} (served : m.Served heap size node device h p)
    (sound : m.Sound closed out) (furnished : m.Furnished) (there : m.heaps[heap]? = some h)
    (failed : (m.allocate heap size node device).1 = .error cause) : p.key.Obstacle cause := by
  have found : m.Reaches heap size node device p := ⟨h, _, there, served.reaches⟩
  cases sound.answers found with
  | intro wide blank ledger _ went result =>
      rw [result] at failed
      subst failed
      exact (ledger.kept.failed went).2.2.2 fun d wanted => furnished.device_of_reaches found wanted

theorem registerUser_device (there : m.heaps[heap]? = some h) (address size d : Nat) :
    m.registerUser heap address size (some d) =
      match HeapError.ofDevice? h.devices m.backing.numa.localNode d with
      | some cause => (.error cause, m)
      | none =>
        match m.backing.register (.user address) size .user (some d) with
        | (.error e, b) => (.error e, { m with backing := b })
        | (.ok region, b) => (.ok (.ofUser region), { m with backing := b }) := by
  cases support : h.devices with
  | none => simp only [Memory.registerUser, there, Heap.registerUser, support, HeapError.ofDevice?]
  | some count =>
      by_cases beyond : count ≤ d
      · simp only [Memory.registerUser, there, Heap.registerUser, support, HeapError.ofDevice?,
          beyond, if_true]
      · simp only [Memory.registerUser, there, Heap.registerUser, support, HeapError.ofDevice?,
          beyond, if_false, Heap.registerUser.enroll]
        rcases m.backing.register (.user address) size .user (some d) with ⟨e | region, b⟩ <;> rfl

theorem registerUser_told (there : m.heaps[heap]? = some h)
    (other : ∀ e, cause ≠ .registration e) :
    (m.registerUser heap address size (some d)).1 = .error cause ↔
      HeapError.ofDevice? h.devices m.backing.numa.localNode d = some cause := by
  rw [registerUser_device there]
  cases HeapError.ofDevice? h.devices m.backing.numa.localNode d with
  | some wrong => simp
  | none =>
      rcases asked : m.backing.register (.user address) size .user (some d) with ⟨e | region, b⟩
      · obtain ⟨e, rfl⟩ := Backing.register_cause asked
        simpa using (other e).symm
      · simp

theorem enrolls (there : m.heaps[heap]? = some h) : m.Enrolls h.devices heap where
  astray _ _ _ _ wrong := by rw [registerUser_device there, wrong]
  enrolled _ _ _ right := by rw [registerUser_device there, right]
  toldDevice _ _ _ _ other := registerUser_told there other

section Slotted

variable (sound : m.Sound closed out) (there : m.heaps[heap]? = some h) (nodes : h.nodes ≠ [])
  (slotted : Heap.Slotted h.nodes)

include sound there nodes slotted

theorem Sound.refused
    (wrong : HeapError.ofRequest? h.nodes h.devices size node device = some cause) :
    m.allocate heap size node device =
      (.error cause, { m with heaps := m.heaps.set heap (h.classOf size).2 }) := by
  unfold HeapError.ofRequest? at wrong
  split at wrong
  · rename_i large
    cases wrong
    exact sound.tooLarge there large node device
  · rename_i small
    refine sound.unplaced there small fun k => ?_
    have lasts := h.lasts_classOf size
    rw [Heap.keyOf_eq (lasts.nodes ▸ nodes) (lasts.nodes ▸ slotted), lasts.nodes, lasts.devices,
      wrong]

theorem Sound.served
    (right : HeapError.ofRequest? h.nodes h.devices size node device = none) :
    ∃ p, m.Served heap size node device h p := by
  have formed := sound.formed heap h there
  unfold HeapError.ofRequest? at right
  split at right
  · cases right
  rename_i small
  have fits : max size 1 ≤ 2 ^ 63 := by omega
  obtain ⟨k, wide, routed, picks, sized, -⟩ := formed.classOf_of_le fits
  have lasts := h.lasts_classOf size
  rw [routed] at lasts
  have key := wide.keyOf_eq (lasts.nodes ▸ nodes) (lasts.nodes ▸ slotted) k node device
  rw [lasts.nodes, lasts.devices, right] at key
  obtain ⟨wideFormed, -⟩ := formed.classOf routed
  obtain ⟨p, same, found⟩ := wideFormed.exists_pool picks.mem_classes key
  have widened : (h.classOf size).2 = wide := congrArg Prod.snd routed
  have reaches : h.Reaches size node device wide p := ⟨⟨k, routed, same ▸ key⟩, found⟩
  refine ⟨p, widened ▸ reaches, ⟨k.blockSize, sized, ?_⟩, ?_⟩
  · rw [same, wideFormed.index]
  · simp only [Memory.allocate, there, reaches.allocate, widened]

theorem Sound.told (furnished : m.Furnished) (misrouted : cause.Misrouted size) :
    (m.allocate heap size node device).1 = .error cause ↔
      HeapError.ofRequest? h.nodes h.devices size node device = some cause := by
  constructor
  · intro failed
    cases wrong : HeapError.ofRequest? h.nodes h.devices size node device with
    | some other =>
        rw [sound.refused there nodes slotted wrong] at failed
        cases failed
        rfl
    | none =>
        obtain ⟨p, served⟩ := sound.served there nodes slotted wrong
        have large := (served.obstacle sound furnished there failed).lt_of_misrouted misrouted
        rw [HeapError.ofRequest?, if_pos large] at wrong
        cases wrong
  · intro wrong
    rw [sound.refused there nodes slotted wrong]

theorem Sound.directs (furnished : m.Furnished) : m.Directs h.nodes h.devices heap h where
  toEnrolls := enrolls there
  refused _ _ _ _ wrong := sound.refused there nodes slotted wrong
  served _ _ _ right := sound.served there nodes slotted right
  told _ _ _ _ misrouted := sound.told there nodes slotted furnished misrouted

end Slotted

theorem Sound.strands (sound : m.Sound closed out) (there : m.heaps[heap]? = some h)
    (none : Heap.slots h.nodes = 0) : m.Strands h.devices heap h where
  toEnrolls := enrolls there
  refused size node device := by
    unfold HeapError.ofStranded
    split
    · rename_i large
      exact sound.tooLarge there large node device
    · rename_i small
      exact sound.unplaced there small fun k =>
        Heap.keyOf_of_slots_eq_zero ((h.lasts_classOf size).nodes ▸ none) k node device

/-- A node that is listed twice is the same node. -/
theorem Directs.of_eraseDups {nodes : List Nat} {devices : Option Nat}
    (directs : m.Directs nodes.eraseDups devices heap h) : m.Directs nodes devices heap h where
  toEnrolls := directs.toEnrolls
  refused size node device cause wrong :=
    directs.refused size node device cause (HeapError.ofRequest?_eraseDups.trans wrong)
  served size node device right :=
    directs.served size node device (HeapError.ofRequest?_eraseDups.trans right)
  told size node device cause misrouted := by
    rw [directs.told size node device cause misrouted, HeapError.ofRequest?_eraseDups]

end Memory

namespace Tenancy

variable {heap : Nat} {h : Heap}

/-- Whatever callers did before, a heap that has nodes answers all requests in one way, which is the
one for its nodes and devices unless the largest word is a node. -/
theorem run_directs {b : Backing} (unused : b.Unused) (acts : List Act)
    (offers : b.numa.nodes ≠ []) (words : ∀ n ∈ b.numa.nodes, n < Word.limit)
    (there : ((start b).run acts).memory.heaps[heap]? = some h) :
    (Word.limit - 1 ∉ b.numa.nodes → ((start b).run acts).memory.Directs b.numa.nodes
        (b.device.map Device.count) heap h) ∧
      (Word.limit - 1 ∈ b.numa.nodes → ((start b).run acts).memory.Strands
        (b.device.map Device.count) heap h) := by
  have furnished := furnished_run b acts
  have sound := (sound_run unused acts).memory
  obtain ⟨nodes, devices⟩ := furnished h (List.mem_of_getElem? there)
  have lasts := (start b).backing_lasts_run acts
  rw [lasts.nodes] at nodes
  rw [lasts.devices] at devices
  have listed (n : Nat) : n ∈ h.nodes ↔ n ∈ b.numa.nodes := nodes ▸ List.mem_eraseDups
  have words' : ∀ n ∈ h.nodes, n < Word.limit := fun n member => words n ((listed n).mp member)
  constructor
  · intro last
    have known : h.nodes ≠ [] := by
      obtain ⟨n, member⟩ := List.exists_mem_of_ne_nil _ offers
      exact List.ne_nil_of_mem ((listed n).mpr member)
    have slotted : Heap.Slotted h.nodes :=
      Heap.slotted_of_words words' fun member => last ((listed _).mp member)
    have directs := sound.directs there known slotted furnished
    rw [nodes, devices] at directs
    exact directs.of_eraseDups
  · intro last
    exact devices ▸ sound.strands there (Heap.slots_of_last words' ((listed _).mpr last))

/-- A store whose nodes are far apart, and one device. -/
def gapped : Backing where
  numa := { pageSize := 16, nodes := [4, 1], allowed := [1, 4], supply := .store 256 none 0 }
  device := some { count := 1, capacity := 256 }

/-- Node 2 is between the nodes and device 1 behind the last one; the node is named first. -/
theorem gapped_directs : gapped.Unused ∧ gapped.numa.nodes ≠ [] ∧
    (∀ n ∈ gapped.numa.nodes, n < Word.limit) ∧
    ∃ h, ((start gapped).run [opening]).memory.heaps[0]? = some h ∧
      (((start gapped).run [opening]).memory.allocate 0 8 2 (some 1)).1 = .error (.unknownNode 2) ∧
      (((start gapped).run [opening]).memory.allocate 0 8 4 (some 1)).1 =
        .error (.unknownDevice 4 1) ∧
      ((start gapped).run [opening]).memory.Directs [4, 1] (some 1) 0 h := by
  have unused : gapped.Unused := by constructor <;> simp [gapped]
  have offers : gapped.numa.nodes ≠ [] := List.cons_ne_nil 4 [1]
  have words : ∀ n ∈ gapped.numa.nodes, n < Word.limit := by decide
  exact ⟨unused, offers, words, _, rfl, rfl, rfl,
    (run_directs unused _ offers words rfl).1 (by decide)⟩

/-- A store whose only node is the largest word, and one device. -/
def farthest : Backing where
  numa :=
    { pageSize := 16, nodes := [Word.limit - 1], allowed := [Word.limit - 1]
      supply := .store 256 none 0 }
  device := some { count := 1, capacity := 256 }

/-- The node and the device are there, and so nothing is wrong with the requests; yet the one is
told that there is no such node and the other that devices are not supported. -/
theorem farthest_strands : farthest.Unused ∧ farthest.numa.nodes = [Word.limit - 1] ∧
    HeapError.ofRequest? farthest.numa.nodes (farthest.device.map Device.count) 8 (Word.limit - 1)
      none = none ∧
    HeapError.ofRequest? farthest.numa.nodes (farthest.device.map Device.count) 8 (Word.limit - 1)
      (some 0) = none ∧
    (((start farthest).run [opening]).memory.allocate 0 8 (Word.limit - 1) none).1 =
      .error (.unknownNode (Word.limit - 1)) ∧
    (((start farthest).run [opening]).memory.allocate 0 8 (Word.limit - 1) (some 0)).1 =
      .error .deviceSupportDisabled :=
  ⟨by constructor <;> simp [farthest], rfl, rfl, rfl, rfl, rfl⟩

end Tenancy

end RegisteredHeap
