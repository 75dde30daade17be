/-! # Slots

Named places of a session, each with at most one thing in it.
-/

namespace RegisteredHeap

structure Slots (α : Type) where
  /-- At most one entry for a name. -/
  entries : List (String × α) := []

namespace Slots

variable {α : Type}

def get? (s : Slots α) (name : String) : Option α := s.entries.lookup name

def erase (s : Slots α) (name : String) : Slots α := ⟨s.entries.filter (·.1 != name)⟩

def put (s : Slots α) (name : String) (a : α) : Slots α := ⟨(name, a) :: (s.erase name).entries⟩

/-- What is in the slots, in the order of their names. -/
def contents (s : Slots α) : List α :=
  (s.entries.mergeSort fun a b => decide (a.1 ≤ b.1)).map Prod.snd

def map (f : α → α) (s : Slots α) : Slots α := ⟨s.entries.map fun (name, a) => (name, f a)⟩

@[simp] theorem get?_put (s : Slots α) (name : String) (a : α) :
    (s.put name a).get? name = some a := by
  simp [get?, put]

theorem lookup_filter_ne (entries : List (String × α)) {name other : String} (h : other ≠ name) :
    (entries.filter (·.1 != name)).lookup other = entries.lookup other := by
  induction entries with
  | nil => rfl
  | cons e rest ih =>
    obtain ⟨k, a⟩ := e
    by_cases hk : k = name
    · subst hk
      have : (other == k) = false := by simpa using h
      simp [List.lookup_cons, this, ih]
    · simp [List.lookup_cons, hk, ih]

theorem get?_erase_of_ne (s : Slots α) {name other : String} (h : other ≠ name) :
    (s.erase name).get? other = s.get? other := lookup_filter_ne s.entries h

theorem get?_put_of_ne (s : Slots α) {name other : String} (a : α) (h : other ≠ name) :
    (s.put name a).get? other = s.get? other := by
  have : (other == name) = false := by simpa using h
  simpa [get?, put, List.lookup_cons, this] using get?_erase_of_ne s h

end Slots

end RegisteredHeap
