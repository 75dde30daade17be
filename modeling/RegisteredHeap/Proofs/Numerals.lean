import Mathlib.Data.List.Induction
import Mathlib.Data.List.TakeWhile
import Mathlib.Data.Nat.Digits.Defs
import RegisteredHeap.Text.Blank
import RegisteredHeap.Text.Numeral

/-! # Trimmed texts and numerals

What is left of a text without the blanks around it, and which texts are words in decimal. Both are
told without the functions that trim and read.
-/

namespace RegisteredHeap.Text

variable {s word before after : List Char} {c : Char} {n : Nat}

/-- The word is the text without the blanks before and after it. -/
structure Trims (s word : List Char) : Prop where
  around : ∃ before after, s = before ++ word ++ after ∧ ∀ c ∈ before ++ after, isBlank c
  head : ∀ c ∈ word.head?, ¬ isBlank c
  last : ∀ c ∈ word.getLast?, ¬ isBlank c

theorem trimStart_append (blank : ∀ c ∈ before, isBlank c)
    (head : ∀ c ∈ word.head?, ¬ isBlank c) : trimStart (before ++ word) = word := by
  rw [trimStart, List.dropWhile_append_of_pos blank]
  cases word with
  | nil => rfl
  | cons c rest => exact List.dropWhile_cons_of_neg (head c rfl)

theorem trimEnd_eq (s : List Char) : trimEnd s = (trimStart s.reverse).reverse := rfl

theorem trimEnd_append (blank : ∀ c ∈ after, isBlank c)
    (last : ∀ c ∈ word.getLast?, ¬ isBlank c) : trimEnd (word ++ after) = word := by
  have whole : trimStart (after.reverse ++ word.reverse) = word.reverse := by
    apply trimStart_append
    · simpa using blank
    · simpa using last
  rw [trimEnd_eq, List.reverse_append, whole, List.reverse_reverse]

theorem exists_trimStart (s : List Char) : ∃ before, s = before ++ trimStart s ∧
    (∀ c ∈ before, isBlank c) ∧ ∀ c ∈ (trimStart s).head?, ¬ isBlank c := by
  refine ⟨s.takeWhile isBlank, List.takeWhile_append_dropWhile.symm, ?_, ?_⟩
  · exact fun c member => List.mem_takeWhile_imp member
  · intro c first
    have stops := List.head?_dropWhile_not isBlank s
    rw [show s.dropWhile isBlank = trimStart s from rfl, first] at stops
    simpa using stops

theorem trims_trim (s : List Char) : Trims s (trim s) := by
  obtain ⟨before, whole, blank, head⟩ := exists_trimStart s
  obtain ⟨after, whole', blank', last⟩ := exists_trimStart (trimStart s).reverse
  have rest : trimStart s = trim s ++ after.reverse := by
    have back := congrArg List.reverse whole'
    rwa [List.reverse_reverse, List.reverse_append] at back
  refine ⟨⟨before, after.reverse, ?_, ?_⟩, ?_, ?_⟩
  · rw [List.append_assoc, ← rest]
    exact whole
  · intro c member
    rcases List.mem_append.mp member with left | right
    · exact blank c left
    · exact blank' c (List.mem_reverse.mp right)
  · intro c first
    apply head
    rw [rest, List.head?_append, first]
    rfl
  · intro c final
    apply last
    rw [← List.getLast?_reverse]
    exact final

/-- There is one way to trim a text. -/
theorem trim_eq_iff : trim s = word ↔ Trims s word := by
  constructor
  · rintro rfl
    exact trims_trim s
  · rintro ⟨⟨before, after, rfl, blank⟩, head, last⟩
    have left : ∀ c ∈ before, isBlank c := fun c member => blank c (List.mem_append_left _ member)
    have right : ∀ c ∈ after, isBlank c := fun c member => blank c (List.mem_append_right _ member)
    cases word with
    | nil =>
        -- Of a text of blanks nothing is left for the other end.
        have nothing : trimStart (before ++ after) = [] := List.dropWhile_eq_nil_iff.mpr blank
        rw [List.append_nil, trim, nothing]
        rfl
    | cons c rest =>
        rw [List.append_assoc, trim, trimStart_append left (by simpa using head c rfl),
          trimEnd_append right last]

/-- Nothing but blanks. -/
def Blank (s : List Char) : Prop := ∀ c ∈ s, isBlank c

theorem exists_trim (s : List Char) :
    ∃ before after, s = before ++ trim s ++ after ∧ Blank before ∧ Blank after := by
  obtain ⟨⟨before, after, whole, blank⟩, -, -⟩ := trims_trim s
  exact ⟨before, after, whole, fun c member => blank c (List.mem_append_left _ member),
    fun c member => blank c (List.mem_append_right _ member)⟩

theorem trim_surrounded (left : Blank before) (right : Blank after) :
    trim (before ++ s ++ after) = trim s := by
  obtain ⟨⟨before', after', whole, blank⟩, head, last⟩ := trims_trim s
  rw [trim_eq_iff]
  refine ⟨⟨before ++ before', after' ++ after, ?_, ?_⟩, head, last⟩
  · conv_lhs => rw [whole]
    simp only [List.append_assoc]
  · intro c member
    simp only [List.mem_append] at member blank
    rcases member with (outer | inner) | (inner | outer)
    · exact left c outer
    · exact blank c (.inl inner)
    · exact blank c (.inr inner)
    · exact right c outer

theorem not_isBlank_of_bounds (bounds : 33 ≤ c.toNat ∧ c.toNat ≤ 126) : ¬ isBlank c := by
  simp only [isBlank, Bool.or_eq_true, Bool.and_eq_true, decide_eq_true_eq, beq_iff_eq]
  omega

theorem digit_bounds (digit : c.isDigit) : 48 ≤ c.toNat ∧ c.toNat ≤ 57 := by
  simpa [Char.isDigit, UInt32.le_iff_toNat_le] using digit

/-- The value of decimal digits, the first one counting most. -/
def valueOf (digits : List Char) : Nat := Nat.ofDigits 10 (digits.reverse.map decimalDigit)

theorem valueFrom_eq (s : List Char) : valueFrom 10 decimalDigit 0 s = valueOf s := by
  induction s using List.reverseRecOn with
  | nil => rfl
  | append_singleton s c ih =>
      rw [valueFrom] at ih
      rw [valueFrom, List.foldl_append, ih, valueOf, valueOf, List.reverse_append,
        List.reverse_singleton, List.singleton_append, List.map_cons, Nat.ofDigits_cons]
      exact Nat.add_comm _ _

theorem valueOf_toDigits (n : Nat) : valueOf (Nat.toDigits 10 n) = n := by
  rw [← valueFrom_eq]
  exact Nat.ofDigitChars_ten_toDigits

/-- One digit or more. -/
theorem natural?_eq_some_iff :
    natural? s = some n ↔ s ≠ [] ∧ (∀ c ∈ s, c.isDigit) ∧ n = valueOf s := by
  simp only [natural?, valueFrom_eq, List.all_eq_true]
  split
  · rename_i digits
    rw [Option.some.injEq]
    exact ⟨fun value => ⟨digits.1, digits.2, value.symm⟩, fun shape => shape.2.2.symm⟩
  · rename_i wrong
    exact ⟨nofun, fun shape => absurd ⟨shape.1, shape.2.1⟩ wrong⟩

/-- An optional plus sign and decimal digits with the value `n`, which fits a word. -/
structure Numeral (s : List Char) (n : Nat) : Prop where
  parts : ∃ sign digits, s = sign ++ digits ∧ (sign = [] ∨ sign = ['+']) ∧ digits ≠ [] ∧
    (∀ c ∈ digits, c.isDigit) ∧ n = valueOf digits
  fits : n < 2 ^ 64

theorem word?_eq_some_iff : word? s = some n ↔ Numeral s n := by
  have plus : ¬ '+'.isDigit := by decide
  constructor
  · intro read
    simp only [word?, Option.filter_eq_some_iff, decide_eq_true_eq] at read
    obtain ⟨read, fits⟩ := read
    refine ⟨?_, fits⟩
    split at read
    · rename_i rest
      exact ⟨['+'], rest, rfl, .inr rfl, natural?_eq_some_iff.mp read⟩
    · exact ⟨[], s, rfl, .inl rfl, natural?_eq_some_iff.mp read⟩
  · rintro ⟨⟨sign, digits, rfl, shape, filled, all, rfl⟩, fits⟩
    have read := natural?_eq_some_iff.mpr ⟨filled, all, rfl⟩
    simp only [word?, Option.filter_eq_some_iff, decide_eq_true_eq]
    refine ⟨?_, fits⟩
    rcases shape with rfl | rfl
    · rw [List.nil_append]
      split
      · exact absurd (all '+' List.mem_cons_self) plus
      · exact read
    · exact read

/-- Every word has a numeral. -/
theorem numeral_toDigits (fits : n < 2 ^ 64) : Numeral (Nat.toDigits 10 n) n where
  parts := ⟨[], Nat.toDigits 10 n, rfl, .inl rfl, Nat.toDigits_ne_nil,
    fun _ member => Nat.isDigit_of_mem_toDigits (by decide) (by decide) member,
    (valueOf_toDigits n).symm⟩
  fits := fits

namespace Numeral

theorem ne_nil (numeral : Numeral s n) : s ≠ [] := by
  obtain ⟨⟨sign, digits, rfl, -, filled, -⟩, -⟩ := numeral
  exact fun empty => filled (List.append_eq_nil_iff.mp empty).2

/-- A numeral is made of digits and plus signs. -/
theorem bounds (numeral : Numeral s n) (member : c ∈ s) :
    c.toNat = 43 ∨ (48 ≤ c.toNat ∧ c.toNat ≤ 57) := by
  obtain ⟨⟨sign, digits, rfl, shape, -, all, -⟩, -⟩ := numeral
  rcases List.mem_append.mp member with front | digit
  · rcases shape with rfl | rfl
    · cases front
    · cases List.mem_singleton.mp front
      exact .inl rfl
  · exact .inr (digit_bounds (all c digit))

theorem dash (numeral : Numeral s n) : '-' ∉ s := by
  intro member
  have bounds := numeral.bounds member
  revert bounds
  decide

end Numeral

end RegisteredHeap.Text
