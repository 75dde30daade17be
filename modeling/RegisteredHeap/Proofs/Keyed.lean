import Mathlib.Data.List.Nodup

/-! # Lists with distinct keys

Extents, buffers, segments and pools are looked up, replaced and removed by a key that no other
entry has. Splitting the list around the entry turns all three into facts about `++`.
-/

namespace RegisteredHeap.Keyed

variable {α κ : Type} {key : α → κ} {a : α} {before after : List α}

/-- No entry on either side has the key of the one in the middle. -/
def Apart (key : α → κ) (before : List α) (a : α) (after : List α) : Prop :=
  ∀ x ∈ before ++ after, key x ≠ key a

theorem mem_split {x : α} : x ∈ before ++ a :: after ↔ x = a ∨ x ∈ before ++ after :=
  List.perm_middle.mem_iff.trans List.mem_cons

theorem apart_of_nodup (distinct : ((before ++ a :: after).map key).Nodup) :
    Apart key before a after := by
  intro x member same
  have moved : ((a :: (before ++ after)).map key).Nodup :=
    ((List.perm_middle.map key).nodup_iff).mp distinct
  rw [List.map_cons, List.nodup_cons] at moved
  exact moved.1 (same ▸ List.mem_map_of_mem member)

/-- A list with distinct keys, split around one of its entries. -/
theorem exists_split {entries : List α} (distinct : (entries.map key).Nodup)
    (member : a ∈ entries) :
    ∃ before after, entries = before ++ a :: after ∧ Apart key before a after := by
  obtain ⟨before, after, rfl⟩ := List.append_of_mem member
  exact ⟨before, after, rfl, apart_of_nodup distinct⟩

/-- Parts whose entries carry distinct labels have none in common. -/
theorem nodup_flatMap {β : Type} (key : α → κ) (tag : β → κ) {entries : List α}
    {part : α → List β} (distinct : (entries.map key).Nodup) (each : ∀ a ∈ entries, (part a).Nodup)
    (own : ∀ a ∈ entries, ∀ b ∈ part a, tag b = key a) : (entries.flatMap part).Nodup := by
  rw [List.Nodup, List.pairwise_flatMap]
  refine ⟨each, (List.pairwise_map.mp distinct).imp_of_mem ?_⟩
  intro a a' member member' different b inside b' inside' same
  subst same
  exact different ((own a member b inside).symm.trans (own a' member' b inside'))

/-- What changes no entry changes nothing. -/
theorem map_fixed {f : α → α} {entries : List α} (fixed : ∀ x ∈ entries, f x = x) :
    entries.map f = entries :=
  (List.map_congr_left fixed).trans (List.map_id entries)

/-- An entry in the place of one with the same key leaves the keys as they are. -/
theorem map_set {entries : List α} {i : Nat} {a' : α} (there : entries[i]? = some a)
    (same : key a' = key a) : (entries.set i a').map key = entries.map key := by
  obtain ⟨inside, rfl⟩ := List.getElem?_eq_some_iff.mp there
  rw [List.map_set, same, ← List.getElem_map key (h := by simpa using inside),
    List.set_getElem_self]

variable [DecidableEq κ]

theorem find?_split (apart : Apart key before a after) :
    (before ++ a :: after).find? (fun x => key x == key a) = some a := by
  have none : before.find? (fun x => key x == key a) = none := by
    rw [List.find?_eq_none]
    intro x member
    simpa using apart x (List.mem_append_left _ member)
  simp [none]

theorem filter_split (apart : Apart key before a after) :
    (before ++ a :: after).filter (fun x => key x != key a) = before ++ after := by
  have left : before.filter (fun x => key x != key a) = before := by
    rw [List.filter_eq_self]
    intro x member
    simpa using apart x (List.mem_append_left _ member)
  have right : after.filter (fun x => key x != key a) = after := by
    rw [List.filter_eq_self]
    intro x member
    simpa using apart x (List.mem_append_right _ member)
  rw [List.filter_append, List.filter_cons_of_neg (by simp), left, right]

theorem map_split (apart : Apart key before a after) (b : α) :
    (before ++ a :: after).map (fun x => if key x = key a then b else x) =
      before ++ b :: after := by
  have keep (side : List α) (other : ∀ x ∈ side, key x ≠ key a) :
      side.map (fun x => if key x = key a then b else x) = side :=
    map_fixed fun x member => if_neg (other x member)
  rw [List.map_append, List.map_cons, if_pos rfl,
    keep before (fun x member => apart x (List.mem_append_left _ member)),
    keep after (fun x member => apart x (List.mem_append_right _ member))]

/-- What is found by a key is an entry with that key. -/
theorem of_find? {entries : List α} {k : κ} (found : entries.find? (fun x => key x == k) = some a) :
    a ∈ entries ∧ key a = k :=
  ⟨List.mem_of_find?_eq_some found, by simpa using List.find?_some found⟩

theorem nodup_eraseDups (keys : List κ) : keys.eraseDups.Nodup := by
  induction size : keys.length using Nat.strongRecOn generalizing keys with
  | _ n ih =>
      cases keys with
      | nil => simp
      | cons k rest =>
          rw [List.eraseDups_cons, List.nodup_cons]
          constructor
          · simp [List.mem_eraseDups]
          · refine ih _ ?_ _ rfl
            rw [← size, List.length_cons]
            exact Nat.lt_succ_of_le (List.length_filter_le _ _)

end RegisteredHeap.Keyed
