import Mathlib.Data.List.Intervals
import RegisteredHeap.IdList
import RegisteredHeap.Proofs.Numerals

/-! # Id lists as a language

A list is read part by part between its commas, and a part speaks for itself: it is one id or one
range in decimal with blanks around it, or it stands for nothing. So lists that are joined by a
comma read as one after the other, and what is written down is read back whatever stands in between.

All this goes for lists that have room for their ids. A short text can name more of them, such as
the range of all words, and then there is no answer.
-/

namespace RegisteredHeap.IdList

open Text

section Separators

variable {sep : Char} {s a b : List Char}

theorem pieces_ne_nil (sep : Char) (s : List Char) : pieces sep s ≠ [] := by
  fun_induction pieces sep s <;> simp

theorem pieces_of_not_mem (none : sep ∉ s) : pieces sep s = [s] := by
  induction s with
  | nil => rfl
  | cons c s ih =>
      have other : c ≠ sep := (List.ne_of_not_mem_cons none).symm
      rw [pieces, if_neg other, ih (List.not_mem_of_not_mem_cons none)]

theorem pieces_append (sep : Char) (a b : List Char) :
    pieces sep (a ++ sep :: b) = pieces sep a ++ pieces sep b := by
  induction a with
  | nil => simp only [List.nil_append, pieces, if_true, List.singleton_append]
  | cons c a ih =>
      rw [List.cons_append, pieces, pieces, ih]
      split
      · rfl
      · obtain ⟨p, ps, split⟩ := List.exists_cons_of_ne_nil (pieces_ne_nil sep a)
        rw [split]
        rfl

theorem cut?_eq_some_iff : cut? sep s = some (a, b) ↔ s = a ++ sep :: b ∧ sep ∉ a := by
  induction s generalizing a with
  | nil => simp [cut?]
  | cons c s ih =>
      rw [cut?]
      split
      · rename_i same
        subst same
        constructor
        · rintro ⟨⟩
          exact ⟨rfl, List.not_mem_nil⟩
        · rintro ⟨whole, first⟩
          cases a with
          | nil => cases whole; rfl
          | cons d a =>
              cases whole
              exact absurd List.mem_cons_self first
      · rename_i other
        simp only [Option.map_eq_some_iff, Prod.exists, Prod.mk.injEq]
        constructor
        · rintro ⟨a', b', found, rfl, rfl⟩
          obtain ⟨rfl, first⟩ := ih.mp found
          exact ⟨rfl, List.not_mem_cons_of_ne_of_not_mem (Ne.symm other) first⟩
        · rintro ⟨whole, first⟩
          cases a with
          | nil =>
              cases whole
              exact absurd rfl other
          | cons d a =>
              cases whole
              exact ⟨a, b, ih.mpr ⟨rfl, List.not_mem_of_not_mem_cons first⟩, rfl, rfl⟩

theorem cut?_of_not_mem (none : sep ∉ s) : cut? sep s = .none := by
  rw [Option.eq_none_iff_forall_ne_some]
  rintro ⟨a, b⟩ found
  obtain ⟨rfl, -⟩ := cut?_eq_some_iff.mp found
  exact none (List.mem_append_right _ List.mem_cons_self)

end Separators

/-- What a part of a list can be. -/
inductive Entry where
  | single (id : Nat)
  /-- All ids from the first to the last, none if the last comes first. -/
  | range (first last : Nat)

namespace Entry

def ids : Entry → List Nat
  | single n => [n]
  | range m n => List.Ico m (n + 1)

/-- The numbers are words. -/
def Fits : Entry → Prop
  | single n => n < 2 ^ 64
  | range m n => m < 2 ^ 64 ∧ n < 2 ^ 64

/-- The entry in decimal. -/
def text : Entry → List Char
  | single n => Nat.toDigits 10 n
  | range m n => Nat.toDigits 10 m ++ '-' :: Nat.toDigits 10 n

end Entry

/-- The word is the entry, as one numeral or as two around a dash. -/
inductive Denotes : List Char → Entry → Prop where
  | single {word : List Char} {n : Nat} (numeral : Numeral word n) : Denotes word (.single n)
  | range {first last : List Char} {m n : Nat} (numeral : Numeral first m)
      (numeral' : Numeral last n) : Denotes (first ++ '-' :: last) (.range m n)

variable {s word before after : List Char} {e : Entry} {es : List Entry} {parts : List (List Char)}

theorem denotes_text (fits : e.Fits) : Denotes e.text e := by
  cases e with
  | single n => exact .single (numeral_toDigits fits)
  | range m n => exact .range (numeral_toDigits fits.1) (numeral_toDigits fits.2)

theorem Denotes.bounds {c : Char} (denotes : Denotes word e) (member : c ∈ word) :
    c.toNat = 45 ∨ c.toNat = 43 ∨ (48 ≤ c.toNat ∧ c.toNat ≤ 57) := by
  cases denotes with
  | single numeral => exact .inr (numeral.bounds member)
  | range numeral numeral' =>
      rcases List.mem_append.mp member with left | right
      · exact .inr (numeral.bounds left)
      rcases List.mem_cons.mp right with rfl | right
      · exact .inl rfl
      · exact .inr (numeral'.bounds right)

theorem Denotes.not_isBlank {c : Char} (denotes : Denotes word e) (member : c ∈ word) :
    ¬ isBlank c := by
  apply not_isBlank_of_bounds
  have bounds := denotes.bounds member
  omega

theorem Denotes.ne_nil (denotes : Denotes word e) : word ≠ [] := by
  cases denotes with
  | single numeral => exact numeral.ne_nil
  | range => simp

/-- The ids of one part that has been trimmed. -/
def part (s : List Char) : List Nat := (span? s).elim [] Span.ids

theorem part_of_denotes (denotes : Denotes word e) : part word = e.ids := by
  cases denotes with
  | @single _ n numeral =>
      rw [part, span?, cut?_of_not_mem numeral.dash, word?_eq_some_iff.mpr numeral]
      rfl
  | @range first last m n numeral numeral' =>
      have cut : cut? '-' (first ++ '-' :: last) = some (first, last) :=
        cut?_eq_some_iff.mpr ⟨rfl, numeral.dash⟩
      rw [part, span?, cut]
      simp only [word?_eq_some_iff.mpr numeral, word?_eq_some_iff.mpr numeral']
      rfl

theorem part_of_not_denotes (other : ∀ e, ¬ Denotes word e) : part word = [] := by
  unfold part span?
  split
  · rename_i first last cut
    obtain ⟨rfl, -⟩ := cut?_eq_some_iff.mp cut
    split
    · rename_i m n left right
      have denotes := Denotes.range (word?_eq_some_iff.mp left) (word?_eq_some_iff.mp right)
      exact absurd denotes (other _)
    · rfl
  · cases read : word? word with
    | none => rfl
    | some n => exact absurd (Denotes.single (word?_eq_some_iff.mp read)) (other _)

theorem comma_of_blank (blank : Blank s) : ',' ∉ s := by
  intro member
  have wrong := blank ',' member
  revert wrong
  decide

/-- A part that is the entry but for blanks around it. -/
def Stands (s : List Char) (e : Entry) : Prop := ∃ word, Trims s word ∧ Denotes word e

theorem stands_of_denotes (left : Blank before) (denotes : Denotes word e) (right : Blank after) :
    Stands (before ++ word ++ after) e := by
  refine ⟨word, ⟨⟨before, after, rfl, ?_⟩, ?_, ?_⟩, denotes⟩
  · intro c member
    rcases List.mem_append.mp member with front | back
    · exact left c front
    · exact right c back
  · exact fun c first => denotes.not_isBlank (List.mem_of_mem_head? first)
  · exact fun c final => denotes.not_isBlank (List.mem_of_mem_getLast? final)

theorem Stands.comma (stands : Stands s e) : ',' ∉ s := by
  obtain ⟨word, ⟨⟨before, after, rfl, blank⟩, -, -⟩, denotes⟩ := stands
  have around : ',' ∉ before ++ after := comma_of_blank blank
  have inside : ',' ∉ word := by
    intro member
    have bounds := denotes.bounds member
    revert bounds
    decide
  simp only [List.mem_append, not_or] at around ⊢
  exact ⟨⟨around.1, inside⟩, around.2⟩

theorem not_stands_of_blank (blank : Blank s) : ¬ Stands s e := by
  rintro ⟨word, ⟨⟨before, after, rfl, -⟩, -, -⟩, denotes⟩
  have empty : word = [] := by
    rw [List.eq_nil_iff_forall_not_mem]
    exact fun c member => denotes.not_isBlank member
      (blank c (List.mem_append_left _ (List.mem_append_right _ member)))
  exact denotes.ne_nil empty

theorem part_of_stands (stands : Stands s e) : part (trim s) = e.ids := by
  obtain ⟨word, trims, denotes⟩ := stands
  rw [trim_eq_iff.mpr trims, part_of_denotes denotes]

theorem part_of_not_stands (other : ∀ e, ¬ Stands s e) : part (trim s) = [] :=
  part_of_not_denotes fun e denotes => other e ⟨trim s, trims_trim s, denotes⟩

/-- The ids of all parts of a list that is not trimmed as a whole. -/
def partwise (s : List Char) : List Nat := (pieces ',' s).flatMap fun p => part (trim p)

theorem partwise_append (a b : List Char) :
    partwise (a ++ ',' :: b) = partwise a ++ partwise b := by
  rw [partwise, pieces_append, List.flatMap_append]
  rfl

theorem partwise_of_not_mem (single : ',' ∉ s) : partwise s = part (trim s) := by
  rw [partwise, pieces_of_not_mem single, List.flatMap_singleton]

/-- Blanks in front of a list belong to what stands before the first comma. -/
theorem partwise_before (blank : Blank before) (s : List Char) :
    partwise (before ++ s) = partwise s := by
  have first (p : List Char) (single : ',' ∉ p) : partwise (before ++ p) = partwise p := by
    have single' : ',' ∉ before ++ p := by simp [comma_of_blank blank, single]
    have trimmed := @trim_surrounded p before [] blank nofun
    rw [List.append_nil] at trimmed
    rw [partwise_of_not_mem single', partwise_of_not_mem single, trimmed]
  by_cases comma : ',' ∈ s
  · obtain ⟨p, rest, rfl, single⟩ := List.eq_append_cons_of_mem comma
    rw [← List.append_assoc, partwise_append, partwise_append, first p single]
  · exact first s comma

/-- Blanks behind a list belong to what stands after the last comma. -/
theorem partwise_after (blank : Blank after) (s : List Char) :
    partwise (s ++ after) = partwise s := by
  have last (p : List Char) (single : ',' ∉ p) : partwise (p ++ after) = partwise p := by
    have single' : ',' ∉ p ++ after := by simp [comma_of_blank blank, single]
    have trimmed := @trim_surrounded p [] after nofun blank
    rw [List.nil_append] at trimmed
    rw [partwise_of_not_mem single', partwise_of_not_mem single, trimmed]
  by_cases comma : ',' ∈ s
  · obtain ⟨p, rest, reversed, single⟩ := List.eq_append_cons_of_mem (List.mem_reverse.mpr comma)
    have split : s = rest.reverse ++ ',' :: p.reverse := by
      rw [← List.reverse_reverse s, reversed]
      simp
    rw [split, List.append_assoc, List.cons_append, partwise_append, partwise_append,
      last p.reverse (by simpa using single)]
  · exact last s comma

/-- Each part is trimmed, so it does not matter that the list is trimmed as a whole. -/
theorem partwise_trim (s : List Char) : partwise (trim s) = partwise s := by
  obtain ⟨before, after, split, left, right⟩ := exists_trim s
  conv_rhs => rw [split, partwise_after right, partwise_before left]

/-- Texts with a comma between each two. -/
def join (parts : List (List Char)) : List Char := [','].intercalate parts

theorem partwise_join (parts : List (List Char)) :
    partwise (join parts) = parts.flatMap partwise := by
  induction parts with
  | nil => rfl
  | cons p parts ih =>
      cases parts with
      | nil => simp [join]
      | cons q parts =>
          rw [List.flatMap_cons, ← ih, ← partwise_append]
          simp [join]

theorem partwise_of_stands (stands : Stands s e) : partwise s = e.ids := by
  rw [partwise_of_not_mem stands.comma, part_of_stands stands]

theorem partwise_of_not_stands (single : ',' ∉ s) (other : ∀ e, ¬ Stands s e) :
    partwise s = [] := by
  rw [partwise_of_not_mem single, part_of_not_stands other]

/-- The ids, if a list has room for them. -/
def kept (ids : List Nat) : Option (List Nat) := if ids.length ≤ room then some ids else none

/-- Whether the ids have room depends on all of them, not on the one that is put behind last. -/
theorem foldlM_extend (spans : List Span) {front : List Nat} (fits : front.length ≤ room) :
    spans.foldlM extend front = kept (front ++ spans.flatMap Span.ids) := by
  induction spans generalizing front with
  | nil => simp [kept, fits]
  | cons s spans ih =>
      have length : (front ++ s.ids).length = front.length + s.count := by simp [Span.ids]
      rw [List.foldlM_cons, List.flatMap_cons, ← List.append_assoc, extend]
      by_cases more : front.length + s.count ≤ room
      · rw [if_pos more, Option.bind_eq_bind, Option.bind_some, ih (length ▸ more)]
      · rw [if_neg more, kept, if_neg]
        · rfl
        · rw [List.length_append, length]
          omega

theorem flatMap_spans (parts : List (List Char)) :
    (parts.filterMap fun p => span? (trim p)).flatMap Span.ids =
      parts.flatMap fun p => part (trim p) := by
  induction parts with
  | nil => rfl
  | cons p parts ih =>
      rw [List.flatMap_cons, ← ih, part]
      cases read : span? (trim p) <;> simp [read]

/-- A list is read if there is room for the ids of its parts. -/
theorem parse_eq (s : List Char) : parse s = kept (partwise s) := by
  rw [parse, foldlM_extend _ (Nat.zero_le _), List.nil_append, flatMap_spans, ← partwise_trim s]
  rfl

/-- Parts that write entries down: one for each of them in turn, between blanks, and any others that
are blank or malformed. -/
inductive Writes : List Entry → List (List Char) → Prop where
  | nil : Writes [] []
  | entry {e : Entry} {before word after : List Char} {es : List Entry} {parts : List (List Char)}
      (left : Blank before) (denotes : Denotes word e) (right : Blank after)
      (more : Writes es parts) : Writes (e :: es) ((before ++ word ++ after) :: parts)
  | blank {s : List Char} {es : List Entry} {parts : List (List Char)} (blank : Blank s)
      (more : Writes es parts) : Writes es (s :: parts)
  | malformed {s : List Char} {es : List Entry} {parts : List (List Char)} (single : ',' ∉ s)
      (other : ∀ e, ¬ Stands s e) (more : Writes es parts) : Writes es (s :: parts)

theorem Writes.partwise (writes : Writes es parts) :
    IdList.partwise (join parts) = es.flatMap Entry.ids := by
  rw [partwise_join]
  induction writes with
  | nil => rfl
  | entry left denotes right _ ih =>
      rw [List.flatMap_cons, List.flatMap_cons, ih,
        partwise_of_stands (stands_of_denotes left denotes right)]
  | blank blank _ ih =>
      have nothing :=
        partwise_of_not_stands (comma_of_blank blank) fun _ => not_stands_of_blank blank
      rw [List.flatMap_cons, ih, nothing, List.nil_append]
  | malformed single other _ ih =>
      rw [List.flatMap_cons, ih, partwise_of_not_stands single other, List.nil_append]

/-- What it is to tell the ids of lists. -/
structure Reads (read : List Char → List Nat) : Prop where
  comma : ∀ a b, read (a ++ ',' :: b) = read a ++ read b
  entry : ∀ s e, Stands s e → read s = e.ids
  malformed : ∀ s, ',' ∉ s → (∀ e, ¬ Stands s e) → read s = []
  /-- Every entry of words can be written down. -/
  expressible : ∀ e : Entry, e.Fits → Denotes e.text e
  /-- What is written down is read back, in its order and as often as it stands there. -/
  written : ∀ es parts rest, Writes es parts → Blank rest →
    read (join parts ++ rest) = es.flatMap Entry.ids
  undisturbed : ∀ front s back, ',' ∉ s → (∀ e, ¬ Stands s e) →
    read (join (front ++ s :: back)) = read (join (front ++ back))

theorem partwise_reads : Reads partwise where
  comma := partwise_append
  entry _ _ stands := partwise_of_stands stands
  malformed _ single other := partwise_of_not_stands single other
  expressible _ fits := denotes_text fits
  written es parts rest writes blank := by
    rw [partwise_after blank, writes.partwise]
  undisturbed front s back single other := by
    simp only [partwise_join, List.flatMap_append, List.flatMap_cons,
      partwise_of_not_stands single other, List.nil_append]

/-- Between commas a list is one entry or none, so there is no other way to tell its ids. -/
theorem Reads.eq_partwise {read : List Char → List Nat} (reads : Reads read) (s : List Char) :
    read s = partwise s := by
  have part (p : List Char) (single : ',' ∉ p) : read p = partwise p := by
    by_cases entry : ∃ e, Stands p e
    · obtain ⟨e, stands⟩ := entry
      rw [reads.entry p e stands, partwise_of_stands stands]
    · have other := not_exists.mp entry
      rw [reads.malformed p single other, partwise_of_not_stands single other]
  by_cases comma : ',' ∈ s
  · obtain ⟨p, rest, split, single⟩ := List.eq_append_cons_of_mem comma
    rw [split, reads.comma, partwise_append, part p single, reads.eq_partwise rest]
  · exact part s comma
termination_by s.length
decreasing_by
  rw [split, List.length_append, List.length_cons]
  omega

/-- Whatever the text, it is read by this grammar and no other if there is room for its ids, and
there is no answer if there is not. -/
theorem parse_reads (s : List Char) :
    Reads partwise ∧ (∀ read, Reads read → read = partwise) ∧
      parse s = if (partwise s).length ≤ room then some (partwise s) else none :=
  ⟨partwise_reads, fun _ reads => funext reads.eq_partwise, parse_eq s⟩

example : parse " 0-3, x,,8 ,5-4,10-11
".toList = some [0, 1, 2, 3, 8, 10, 11] := by decide

/-- The range of all words is one of words and well written, but there is no list of its ids. -/
theorem parse_everyWord :
    Stands "0-18446744073709551615".toList (.range 0 (2 ^ 64 - 1)) ∧
      (Entry.range 0 (2 ^ 64 - 1)).Fits ∧ parse "0-18446744073709551615".toList = none := by
  have first : Numeral "0".toList 0 := word?_eq_some_iff.mp (by decide)
  have last : Numeral "18446744073709551615".toList (2 ^ 64 - 1) :=
    word?_eq_some_iff.mp (by decide)
  have none : Blank [] := fun _ member => absurd member List.not_mem_nil
  have stands := stands_of_denotes none (.range first last) none
  exact ⟨stands, ⟨by decide, by decide⟩, by decide⟩

end RegisteredHeap.IdList
