import RegisteredHeap.DefaultHeap
import RegisteredHeap.Proofs.HugeClasses

/-! # First use

A program that calls for the default heap, now and then with another environment, and uses the heap
in between. Calls report what is wrong with the environment until one finds a configuration. From
then on there is a single heap with this configuration, in the state that its uses have left, and
what becomes of the environment no longer matters.
-/

namespace RegisteredHeap

/-- The configuration that the variables describe. -/
def Environment.config (env : Environment) : Except ConfigError Config :=
  Config.ofSettings (Settings.override {} env)

/-- The act is on heaps that are there and remain there. -/
def Act.Remains : Act → Prop
  | .openHeap _ | .closeHeap _ => False
  | _ => True

namespace Act.Remains

variable {act : Act}

theorem not_openHeap (remains : act.Remains) (settings : Settings) : act ≠ .openHeap settings := by
  rintro rfl
  exact remains

theorem not_closeHeap (remains : act.Remains) (heap : Nat) : act ≠ .closeHeap heap := by
  rintro rfl
  exact remains

end Act.Remains

namespace Tenancy

variable {w : Tenancy} {h : Heap}

theorem heaps_step {act : Act} (remains : act.Remains) (alone : w.memory.heaps = [h]) :
    ∃ h', (w.step act).memory.heaps = [h'] ∧ h.Extends h' := by
  have there : w.memory.heaps[0]? = some h := by rw [alone]; rfl
  have absent : w.memory.heaps[1]? = none := by rw [alone]; rfl
  obtain ⟨h', there', larger⟩ := w.extends_step act there
  refine ⟨h', ?_, larger⟩
  have none' := List.getElem?_eq_none_iff.mp (absent_step remains.not_openHeap absent)
  obtain ⟨inside, same⟩ := List.getElem?_eq_some_iff.mp there'
  rw [List.eq_getElem_of_length_eq_one (w.step act).memory.heaps (by omega), same]

theorem heaps_run {acts : List Act} (remain : ∀ act ∈ acts, act.Remains)
    (alone : w.memory.heaps = [h]) :
    ∃ h', (w.run acts).memory.heaps = [h'] ∧ h.Extends h' := by
  unfold Tenancy.run
  induction acts generalizing w h with
  | nil => exact ⟨h, alone, .refl h⟩
  | cons act acts ih =>
      obtain ⟨h₁, alone₁, first⟩ := heaps_step (remain act List.mem_cons_self) alone
      obtain ⟨h₂, alone₂, second⟩ :=
        ih (fun act member => remain act (List.mem_cons_of_mem _ member)) alone₁
      exact ⟨h₂, alone₂, first.trans second⟩

end Tenancy

/-- A program, in the eyes of its default heap. -/
structure Program where
  /-- What a heap is made on. -/
  backing : Backing
  environment : Environment
  cell : DefaultHeap := {}
  /-- What was issued by the heap and is not given back. -/
  leases : List Lease := []

namespace Program

inductive Move where
  | setEnvironment (env : Environment)
  | call
  /-- The default heap is never closed, and no other heap is in its memory. -/
  | use (act : Act) (remains : act.Remains)

/-- What a call answers. -/
def answer (p : Program) : Except ConfigError (Config × Memory) :=
  (p.cell.get p.backing p.environment).1

def step (p : Program) : Move → Program
  | .setEnvironment env => { p with environment := env }
  | .call => { p with cell := (p.cell.get p.backing p.environment).2 }
  | .use act _ =>
    match p.cell.made with
    | none => p
    | some (c, m) =>
      let w := Tenancy.step { memory := m, leases := p.leases } act
      { p with cell := ⟨some (c, w.memory)⟩, leases := w.leases }

def run (p : Program) (moves : List Move) : Program := moves.foldl step p

/-- Nobody has called for the heap yet. -/
def start (b : Backing) (env : Environment) : Program := { backing := b, environment := env }

/-- What is done with the heap in the course of the moves. -/
def uses : List Move → List Act
  | [] => []
  | .use act _ :: moves => act :: uses moves
  | .setEnvironment _ :: moves | .call :: moves => uses moves

/-- None of the calls finds a configuration. -/
def InVain (p : Program) (moves : List Move) : Prop :=
  ∀ before later, moves = before ++ .call :: later →
    ∃ cause, (p.run before).environment.config = .error cause

variable {p : Program} {c : Config} {m : Memory} {moves : List Move} {move : Move}

theorem run_cons (p : Program) (move : Move) (moves : List Move) :
    p.run (move :: moves) = (p.step move).run moves := rfl

theorem run_append (p : Program) (before later : List Move) :
    p.run (before ++ later) = (p.run before).run later := List.foldl_append

theorem backing_run (p : Program) (moves : List Move) : (p.run moves).backing = p.backing := by
  induction moves generalizing p with
  | nil => rfl
  | cons move moves ih =>
      have kept : (p.step move).backing = p.backing := by
        cases move with
        | use act _ => cases made : p.cell.made <;> simp only [step, made]
        | setEnvironment | call => rfl
      rw [run_cons, ih, kept]

theorem remains_of_uses {act : Act} (member : act ∈ uses moves) : act.Remains := by
  induction moves with
  | nil => cases member
  | cons move moves ih =>
      cases move with
      | use act' remains =>
          rcases List.mem_cons.mp member with rfl | later
          · exact remains
          · exact ih later
      | setEnvironment | call => exact ih member

theorem answer_of_error {cause : ConfigError} (nothing : p.cell.made = none)
    (wrong : p.environment.config = .error cause) :
    p.answer = .error cause ∧ p.step .call = p := by
  have get : p.cell.get p.backing p.environment = (.error cause, p.cell) := by
    rw [Environment.config] at wrong
    simp only [DefaultHeap.get, nothing, wrong]
  rw [answer, step, get]
  exact ⟨rfl, rfl⟩

theorem answer_of_ok (nothing : p.cell.made = none) (accepted : p.environment.config = .ok c) :
    p.answer = .ok (c, .ofConfigs p.backing [c]) ∧
      p.step .call = { p with cell := ⟨some (c, .ofConfigs p.backing [c])⟩ } := by
  have get : p.cell.get p.backing p.environment =
      (.ok (c, .ofConfigs p.backing [c]), ⟨some (c, .ofConfigs p.backing [c])⟩) := by
    rw [Environment.config] at accepted
    simp only [DefaultHeap.get, nothing, accepted]
  rw [answer, step, get]
  exact ⟨rfl, rfl⟩

/-- A heap that is there is found before the environment is looked at. -/
theorem answer_of_made (made : p.cell.made = some (c, m)) :
    p.answer = .ok (c, m) ∧ p.step .call = p := by
  have get : p.cell.get p.backing p.environment = (.ok (c, m), p.cell) := by
    simp only [DefaultHeap.get, made]
  rw [answer, step, get]
  exact ⟨rfl, rfl⟩

namespace InVain

theorem nil (p : Program) : p.InVain [] := by
  intro before later split
  cases before <;> cases split

theorem cons (head : move = .call → ∃ cause, p.environment.config = .error cause)
    (tail : (p.step move).InVain moves) : p.InVain (move :: moves) := by
  intro before later split
  cases before with
  | nil => exact head (List.cons.inj split).1
  | cons first before =>
      obtain ⟨rfl, rest⟩ := List.cons.inj split
      exact tail before later rest

theorem head (vain : p.InVain (.call :: moves)) : ∃ cause, p.environment.config = .error cause :=
  vain [] moves rfl

theorem tail (vain : p.InVain (move :: moves)) : (p.step move).InVain moves := by
  intro before later split
  exact vain (move :: before) later (congrArg (move :: ·) split)

/-- Calls in vain leave nothing, so there is nothing that could be used. -/
theorem run (vain : p.InVain moves) (nothing : p.cell.made = none) :
    (p.run moves).cell.made = none ∧ (p.run moves).leases = p.leases := by
  induction moves generalizing p with
  | nil => exact ⟨nothing, rfl⟩
  | cons move moves ih =>
      have later := vain.tail
      cases move with
      | setEnvironment env => exact ih later nothing
      | call =>
          obtain ⟨cause, wrong⟩ := vain.head
          rw [(answer_of_error nothing wrong).2] at later
          rw [run_cons, (answer_of_error nothing wrong).2]
          exact ih later nothing
      | use act remains =>
          have same : p.step (.use act remains) = p := by simp only [step, nothing]
          rw [same] at later
          rw [run_cons, same]
          exact ih later nothing

end InVain

/-- All calls are in vain, or there is a first one that is not. -/
theorem inVain_or_first (p : Program) (moves : List Move) :
    p.InVain moves ∨ ∃ before later c, moves = before ++ .call :: later ∧ p.InVain before ∧
      (p.run before).environment.config = .ok c := by
  induction moves generalizing p with
  | nil => exact .inl (.nil p)
  | cons move moves ih =>
      by_cases now : move = .call ∧ ∃ c, p.environment.config = .ok c
      · obtain ⟨rfl, c, accepted⟩ := now
        exact .inr ⟨[], moves, c, rfl, .nil p, accepted⟩
      have wrong : move = .call → ∃ cause, p.environment.config = .error cause := by
        intro called
        cases found : p.environment.config with
        | error cause => exact ⟨cause, rfl⟩
        | ok c => exact absurd ⟨called, c, found⟩ now
      rcases ih (p.step move) with vain | ⟨before, later, c, rfl, vain, accepted⟩
      · exact .inl (.cons wrong vain)
      · exact .inr ⟨move :: before, later, c, rfl, .cons wrong vain, accepted⟩

/-- The uses of the heap as those of a memory by itself. -/
theorem run_made (made : p.cell.made = some (c, m)) (moves : List Move) :
    let w := Tenancy.run { memory := m, leases := p.leases } (uses moves)
    (p.run moves).cell.made = some (c, w.memory) ∧ (p.run moves).leases = w.leases := by
  induction moves generalizing p m with
  | nil => exact ⟨made, rfl⟩
  | cons move moves ih =>
      cases move with
      | setEnvironment env => exact ih made
      | call =>
          rw [run_cons, (answer_of_made made).2]
          exact ih made
      | use act remains =>
          let w : Tenancy := Tenancy.step { memory := m, leases := p.leases } act
          have isOpen : w.closed = [] := Tenancy.closed_step remains.not_closeHeap
          have whole : ({ memory := w.memory, leases := w.leases } : Tenancy) = w := by
            rw [← isOpen]
          have step : p.step (.use act remains) =
              { p with cell := ⟨some (c, w.memory)⟩, leases := w.leases } := by
            simp only [Program.step, made, w]
          have later := ih (p := p.step (.use act remains)) (by rw [step])
          rw [step, whole] at later
          rw [run_cons, step]
          exact later

/-- The default heap after some uses. -/
def used (b : Backing) (c : Config) (acts : List Act) : Tenancy :=
  Tenancy.run { memory := .ofConfigs b [c] } acts

/-- The heap is used as a memory is in which it was opened first. -/
theorem used_eq {env : Environment} (b : Backing) (accepted : env.config = .ok c)
    (acts : List Act) :
    used b c acts = (Tenancy.start b).run (.openHeap (Settings.override {} env) :: acts) := by
  have opened : (Tenancy.start b).step (.openHeap (Settings.override {} env)) =
      { memory := .ofConfigs b [c] } := by
    rw [Environment.config] at accepted
    simp only [Tenancy.step, accepted]
    rfl
  rw [used, Tenancy.run, Tenancy.run, List.foldl_cons, opened]

theorem sound_used {b : Backing} {env : Environment} (unused : b.Unused)
    (accepted : env.config = .ok c) (acts : List Act) : (used b c acts).Sound := by
  rw [used_eq b accepted]
  exact Tenancy.sound_run unused _

theorem heaps_used (b : Backing) (c : Config) {acts : List Act}
    (remain : ∀ act ∈ acts, act.Remains) :
    ∃ h, (used b c acts).memory.heaps = [h] ∧ h.config = c := by
  obtain ⟨h, alone, larger⟩ := Tenancy.heaps_run (w := { memory := .ofConfigs b [c] }) remain rfl
  exact ⟨h, alone, larger.config⟩

/-- The program has the heap of a configuration, in the state after these uses. -/
structure Has (p : Program) (c : Config) (acts : List Act) : Prop where
  answer : p.answer = .ok (c, (used p.backing c acts).memory)
  /-- To call once more changes nothing. -/
  again : p.step .call = p
  leases : p.leases = (used p.backing c acts).leases
  /-- No second heap was made, and the one that is there is still the same. -/
  alone : ∃ h, (used p.backing c acts).memory.heaps = [h] ∧ h.config = c
  sound : p.backing.Unused → (used p.backing c acts).Sound

/-- What calls for the default heap come to in a program that starts in an environment,
with `b` to make a heap on. -/
structure Settles (b : Backing) (env : Environment) : Prop where
  nothing : ∀ moves, (start b env).InVain moves → ((start b env).run moves).cell.made = none
  refused : ∀ before cause, (start b env).InVain before →
    ((start b env).run before).environment.config = .error cause →
      ((start b env).run before).answer = .error cause ∧
        ((start b env).run before).step .call = (start b env).run before
  made : ∀ before c, (start b env).InVain before →
    ((start b env).run before).environment.config = .ok c →
      ((start b env).run before).answer = .ok (c, .ofConfigs b [c])
  kept : ∀ before c later, (start b env).InVain before →
    ((start b env).run before).environment.config = .ok c →
      ((start b env).run (before ++ .call :: later)).Has c (uses later)
  /-- There are no other runs than these two kinds. -/
  first : ∀ moves, (start b env).InVain moves ∨
    ∃ before later c, moves = before ++ .call :: later ∧ (start b env).InVain before ∧
      ((start b env).run before).environment.config = .ok c

theorem has_of_first (nothing : p.cell.made = none) (unused : p.leases = [])
    (accepted : p.environment.config = .ok c) (later : List Move) :
    (p.run (.call :: later)).Has c (uses later) := by
  have called := (answer_of_ok nothing accepted).2
  have leases : (p.step .call).leases = [] := by
    rw [called]
    exact unused
  obtain ⟨there, held⟩ := run_made (p := p.step .call) (by rw [called]) later
  rw [leases] at there held
  obtain ⟨answer, again⟩ := answer_of_made there
  have backing := p.backing_run (.call :: later)
  constructor
  · rw [backing]
    exact answer
  · exact again
  · rw [backing]
    exact held
  · exact heaps_used _ c fun _ => remains_of_uses
  · exact fun unused => sound_used unused accepted _

/-- The first call whose environment describes a configuration makes the default heap, for good. -/
theorem call_settles (b : Backing) (env : Environment) : Settles b env where
  nothing moves vain := (vain.run rfl).1
  refused before cause vain wrong := answer_of_error (vain.run rfl).1 wrong
  made before c vain accepted := by
    rw [(answer_of_ok (vain.run rfl).1 accepted).1, backing_run]
    rfl
  kept before c later vain accepted := by
    obtain ⟨nothing, unused⟩ := vain.run rfl
    rw [run_append]
    exact has_of_first nothing unused accepted later
  first := inVain_or_first (start b env)

/-- A limit of nothing is refused, but only as long as there is no heap. -/
example :
    let broken := Environment.ofList [("RMAHEAP_TINY_LIMIT", "0".toUTF8)]
    let p := (start {} broken).run [.call]
    p.answer.toOption.isNone ∧
      (p.run [.setEnvironment .empty, .call, .setEnvironment broken]).answer.toOption.isSome := by
  decide

end Program

end RegisteredHeap
