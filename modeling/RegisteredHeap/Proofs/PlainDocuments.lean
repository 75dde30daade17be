import Mathlib.Algebra.BigOperators.Group.List.Basic
import Mathlib.Data.List.Forall2
import RegisteredHeap.Proofs.Numerals
import RegisteredHeap.Proofs.Readers

/-! # Plain documents

A document of lines that give plain keys their values, with numbers in decimal and switches as
words. What such a document says is its lines, in their order.
-/

namespace RegisteredHeap.Toml

open Reader

/-- Decimal digits without a leading zero. -/
structure Canonical (ds : List Char) : Prop where
  some : ds ≠ []
  digits : ∀ c ∈ ds, c.isDigit
  leading : ds.head? = Option.some '0' → ds = ['0']

variable {c : Char} {ds : List Char} {s rest : Place}

theorem ne_of_isDigit {d : Char} (digit : c.isDigit) (other : d.toNat < 48 ∨ 57 < d.toNat) :
    c ≠ d := by
  rintro rfl
  have bounds := Text.digit_bounds digit
  omega

/-- What follows digits on a line that ends with them. -/
theorem head_of_digits (digits : ∀ c ∈ ds, c.isDigit) {d : Char}
    (first : d ∈ (ds ++ '\n' :: s).head?) : d.isDigit ∨ d = '\n' := by
  cases ds with
  | nil =>
      cases first
      exact .inr rfl
  | cons e ds =>
      cases first
      exact .inl (digits d List.mem_cons_self)

/-- Digits of a fixed number are taken off a longer run, or there are not as many. -/
theorem numberOf_cases (digits : ∀ c ∈ ds, c.isDigit) (n least most : Nat) :
    numberOf n least most (ds ++ '\n' :: s) = .refused (ds ++ '\n' :: s) ∨
      ∃ v, numberOf n least most (ds ++ '\n' :: s) = .done v (ds.drop n ++ '\n' :: s) := by
  have newline : ('\n').isDigit = false := by decide
  simp only [numberOf, sift, exactly]
  by_cases long : n ≤ ds.length
  · have whole : ((ds ++ '\n' :: s).take n).takeWhile Char.isDigit = ds.take n := by
      rw [List.take_append_of_le_length long]
      exact List.takeWhile_eq_self_iff.mpr fun c member => digits c (List.mem_of_mem_take member)
    rw [whole, List.length_take, Nat.min_eq_left long, if_pos rfl,
      List.drop_append_of_le_length long]
    simp only
    split
    · rename_i v fits
      split at fits
      · exact .inr ⟨v, rfl⟩
      · cases fits
    · exact .inl rfl
  · have short : ((ds ++ '\n' :: s).take n).takeWhile Char.isDigit = ds := by
      obtain ⟨k, more⟩ := Nat.exists_eq_add_of_lt (Nat.not_le.mp long)
      rw [List.take_append, List.take_of_length_le (Nat.le_of_not_le long), more,
        List.takeWhile_append_of_pos digits]
      simp [Nat.add_assoc, newline]
    rw [short, if_neg (by omega)]
    exact .inl rfl

/-- A run of digits is no date and no time, which have other characters between their digits. -/
theorem numberOf_refused {β : Type} (digits : ∀ c ∈ ds, c.isDigit) (n least most : Nat) {x : Char}
    (other : ¬ x.isDigit ∧ x ≠ '\n') (k : Nat → Reader β) : ∃ rest,
      (do let v ← numberOf n least most; let _ ← char x; k v) (ds ++ '\n' :: s) =
        .refused rest := by
  rcases numberOf_cases (s := s) digits n least most with short | ⟨v, taken⟩
  · exact ⟨_, bind_refused short⟩
  · rw [bind_done taken]
    refine ⟨_, bind_refused (satisfy_refused fun d first => ?_)⟩
    rw [beq_eq_false_iff_ne]
    rintro rfl
    rcases head_of_digits (fun c member => digits c (List.mem_of_mem_drop member)) first with h | h
    · exact other.1 h
    · exact other.2 h

theorem moment_refused (digits : ∀ c ∈ ds, c.isDigit) :
    ∃ rest, moment (ds ++ '\n' :: s) = .refused rest := by
  obtain ⟨_, noDate⟩ : ∃ rest, date (ds ++ '\n' :: s) = .refused rest :=
    numberOf_refused digits 4 0 9999 (by decide) _
  obtain ⟨_, noTime⟩ : ∃ rest, time 23 (ds ++ '\n' :: s) = .refused rest :=
    numberOf_refused digits 2 0 23 (by decide) _
  have noDated : dated (time 23) (offset 23 59) (ds ++ '\n' :: s) = .refused _ :=
    bind_refused noDate
  exact ⟨_, (orElse_refused noDated).trans noTime⟩

/-- A digit is no sign. -/
theorem sign_none (digit : c.isDigit) :
    optional (satisfy isSign) (c :: s) = .done none (c :: s) := by
  refine optional_refused (satisfy_refused fun d first => ?_)
  cases first
  simp [isSign, ne_of_isDigit digit (d := '+') (by decide),
    ne_of_isDigit digit (d := '-') (by decide)]

theorem decimal_done (canonical : Canonical ds) :
    decimal (ds ++ '\n' :: s) = .done (false, ds) ('\n' :: s) := by
  obtain ⟨some, digits, leading⟩ := canonical
  obtain ⟨c, more, rfl⟩ := List.exists_cons_of_ne_nil some
  have digit := digits c List.mem_cons_self
  refine (bind_done (sign_none digit)).trans ?_
  by_cases zero : c = '0'
  · subst zero
    cases leading rfl
    rfl
  · have first : orElse (satisfy fun c => c.isDigit && c != '0') (char '0')
        (c :: (more ++ '\n' :: s)) = .done c (more ++ '\n' :: s) :=
      orElse_done (satisfy_done (by simp [digit, zero]))
    have others : moreDigits Char.isDigit (more ++ '\n' :: s) = .done more ('\n' :: s) := by
      apply many_chars
      · exact fun d member s =>
          orElse_done (satisfy_done (digits d (List.mem_cons_of_mem _ member)))
      · rw [orElse_refused (satisfy_refused fun d first => by cases first; decide)]
        exact bind_refused (satisfy_refused fun d first => by cases first; decide)
    refine (bind_done first).trans ?_
    rw [if_neg (by simpa using zero)]
    exact bind_done others

theorem real_refused (canonical : Canonical ds) :
    ∃ rest, real (ds ++ '\n' :: s) = .refused rest := by
  have noExponent : exponent ('\n' :: s) = .refused ('\n' :: s) :=
    bind_refused (satisfy_refused fun d first => by cases first; decide)
  have noFraction : fraction ('\n' :: s) = .refused ('\n' :: s) :=
    bind_refused (satisfy_refused fun d first => by cases first; decide)
  have noPlain : plainReal (ds ++ '\n' :: s) = .refused ('\n' :: s) := by
    apply settle_refused
    rw [bind_done (decimal_done canonical)]
    exact (orElse_refused (bind_refused noExponent)).trans (bind_refused noFraction)
  obtain ⟨some, digits, -⟩ := canonical
  obtain ⟨c, more, rfl⟩ := List.exists_cons_of_ne_nil some
  have digit := digits c List.mem_cons_self
  have noInfinity : infinity (c :: (more ++ '\n' :: s)) = .refused (c :: (more ++ '\n' :: s)) :=
    bind_refused (literal_refused (by simpa using (ne_of_isDigit digit (by decide)).symm)
      (by decide))
  have noNumber : notANumber (c :: (more ++ '\n' :: s)) = .refused (c :: (more ++ '\n' :: s)) :=
    bind_refused (literal_refused (by simpa using (ne_of_isDigit digit (by decide)).symm)
      (by decide))
  have noSpecial : specialReal (c :: (more ++ '\n' :: s)) = .refused (c :: (more ++ '\n' :: s)) :=
    (bind_done (sign_none digit)).trans
      (bind_refused ((orElse_refused noInfinity).trans noNumber))
  exact ⟨_, (orElse_refused noPlain).trans noSpecial⟩

theorem integer_done (canonical : Canonical ds) (fits : Text.valueOf ds < 2 ^ 63) :
    integer (ds ++ '\n' :: s) = .done (Text.valueOf ds) ('\n' :: s) := by
  have plain : decimalInteger (ds ++ '\n' :: s) = .done (Text.valueOf ds : Int) ('\n' :: s) := by
    refine settle_done (decimal_done canonical) ?_
    simp only
    rw [Text.valueFrom_eq, signed, if_neg Bool.false_ne_true, fitsSigned, if_pos]
    rw [Nat.one_shiftLeft]
    omega
  -- A zero stands alone, so what looks for another base finds the end of the line.
  have stops (x : Char) (rest' : Place) (other : x ≠ '\n') :
      ds ++ '\n' :: s ≠ '0' :: x :: rest' := by
    intro same
    obtain ⟨some, digits, leading⟩ := canonical
    obtain ⟨c, more, rfl⟩ := List.exists_cons_of_ne_nil some
    rw [List.cons_append, List.cons.injEq] at same
    obtain ⟨rfl, same⟩ := same
    cases leading rfl
    exact other (List.cons.inj same).1.symm
  unfold integer
  split
  · exact absurd ‹_› (stops 'x' _ (by decide))
  · exact absurd ‹_› (stops 'o' _ (by decide))
  · exact absurd ‹_› (stops 'b' _ (by decide))
  · exact plain

theorem scalar_digits (canonical : Canonical ds) (fits : Text.valueOf ds < 2 ^ 63) :
    scalar (ds ++ '\n' :: s) = .done (.integer (Text.valueOf ds)) ('\n' :: s) := by
  obtain ⟨_, noMoment⟩ := moment_refused (s := s) canonical.digits
  obtain ⟨_, noReal⟩ := real_refused (s := s) canonical
  have whole := integer_done (s := s) canonical fits
  obtain ⟨c, more, rfl⟩ := List.exists_cons_of_ne_nil canonical.some
  have digit := canonical.digits c List.mem_cons_self
  -- With a digit in front there are three kinds of scalars to try, and the last one is right.
  have noQuote : ¬ (c == '"' || c == '\'') := by
    simp [ne_of_isDigit digit (d := '"') (by decide), ne_of_isDigit digit (d := '\'') (by decide)]
  rw [List.cons_append] at noMoment noReal whole ⊢
  rw [scalar, if_neg noQuote, if_pos (by rw [digit, Bool.true_or]),
    orElse_refused (map_refused noMoment), orElse_refused (map_refused noReal), map_done whole]

/-- Only zero is written with a zero in front. -/
theorem eq_zero_of_head_toDigits (n : Nat) (zero : (Nat.toDigits 10 n).head? = some '0') :
    n = 0 := by
  induction n using Nat.strongRecOn with
  | ind n ih =>
      by_cases small : n < 10
      · rw [Nat.toDigits_of_lt_base small, List.head?_singleton, Option.some.injEq] at zero
        revert zero
        exact (by decide : ∀ n < 10, n.digitChar = '0' → n = 0) n small
      · rw [Nat.toDigits_of_base_le (by decide) (Nat.le_of_not_lt small),
          List.head?_append_of_ne_nil _ Nat.toDigits_ne_nil] at zero
        have front := ih (n / 10) (by omega) zero
        omega

theorem canonical_toDigits (n : Nat) : Canonical (Nat.toDigits 10 n) where
  some := Nat.toDigits_ne_nil
  digits _ member := Nat.isDigit_of_mem_toDigits (by decide) (by decide) member
  leading zero := by
    rw [eq_zero_of_head_toDigits n zero]
    rfl

theorem scalar_truth (b : Bool) :
    scalar ((if b then "true" else "false").toList ++ s) = .done (.boolean b) s := by
  cases b with
  | true =>
      change commit (do literal "true"; return Value.boolean true) ("true".toList ++ s) = _
      exact commit_done (bind_done (literal_done "true"))
  | false =>
      change commit (do literal "false"; return Value.boolean false) ("false".toList ++ s) = _
      exact commit_done (bind_done (literal_done "false"))

/-- A key and the word for its value. -/
structure Line where
  name : String
  word : List Char
  value : Value

namespace Line

def text (l : Line) : List Char := l.name.toList ++ ' ' :: '=' :: ' ' :: (l.word ++ ['\n'])

def entry (l : Line) : String × Value := (l.name, l.value)

/-- The key needs no quotes, and the word stands for the value in one line. -/
structure Plain (l : Line) : Prop where
  named : l.name.toList ≠ []
  bare : ∀ c ∈ l.name.toList, isBareKeyChar c
  means : ∀ s, scalar (l.word ++ '\n' :: s) = .done l.value ('\n' :: s)

end Line

theorem ne_of_isBareKeyChar {d : Char} (bare : isBareKeyChar c) (other : isBareKeyChar d = false) :
    c ≠ d := by
  rintro rfl
  rw [bare] at other
  exact Bool.noConfusion other

theorem isSpace_eq_false (bare : isBareKeyChar c) : isSpace c = false := by
  simp [isSpace, ne_of_isBareKeyChar bare (d := ' ') (by decide),
    ne_of_isBareKeyChar bare (d := '\t') (by decide)]

variable {l : Line} {lines before : List Line} {d : Draft}

/-- A word does not begin with a blank or a bracket, where no scalar begins. -/
theorem Line.Plain.word_cons (plain : l.Plain) : ∃ c more, l.word = c :: more ∧
    isSpace c = false ∧ c ≠ '[' ∧ c ≠ '\x7b' := by
  have means := plain.means []
  cases word : l.word with
  | nil =>
      rw [word] at means
      cases means
  | cons c more =>
      rw [word] at means
      refine ⟨c, more, rfl, ?_, ?_, ?_⟩
      · rw [isSpace, Bool.or_eq_false_iff, beq_eq_false_iff_ne, beq_eq_false_iff_ne]
        constructor <;> rintro rfl <;> cases means
      · rintro rfl
        cases means
      · rintro rfl
        cases means

theorem value_line (plain : l.Plain) :
    value (l.word ++ '\n' :: s) =
      .done (.value l.value (l.word ++ '\n' :: s)) ('\n' :: s) := by
  have means := plain.means s
  obtain ⟨c, more, word, -, noArray, noTable⟩ := plain.word_cons
  change valueWith (some (valueWithin (depthLimit - 2))) _ = _
  rw [word, List.cons_append] at means ⊢
  unfold valueWith
  split
  · rename_i same _
    exact absurd (List.cons.inj same).1 noArray
  · rename_i same _
    exact absurd (List.cons.inj same).1 noTable
  · rename_i same _
    exact absurd (List.cons.inj same).1 noArray
  · rename_i same _
    exact absurd (List.cons.inj same).1 noTable
  · exact bind_done means

theorem key_line (plain : l.Plain) : ∃ place,
    key (l.name.toList ++ ' ' :: '=' :: s) = .done ([], ⟨l.name, place⟩) ('=' :: s) := by
  have after : takeWhile1 isBareKeyChar (l.name.toList ++ ' ' :: '=' :: s) =
      .done l.name.toList (' ' :: '=' :: s) :=
    takeWhile1_append plain.named plain.bare fun c first => by cases first; decide
  have last : space (' ' :: '=' :: s) = .done () ('=' :: s) :=
    space_blank fun c first => by cases first; decide
  have noDot : char '.' ('=' :: s) = .refused ('=' :: s) :=
    satisfy_refused fun c first => by cases first; decide
  obtain ⟨c, more, name⟩ := List.exists_cons_of_ne_nil plain.named
  have bare := plain.bare c (by rw [name]; exact List.mem_cons_self)
  have before : space (l.name.toList ++ ' ' :: '=' :: s) =
      .done () (l.name.toList ++ ' ' :: '=' :: s) := by
    rw [name]
    exact space_nothing fun c first => by cases first; exact isSpace_eq_false bare
  have part : keyPart (l.name.toList ++ ' ' :: '=' :: s) =
      .done ⟨l.name, l.name.toList ++ ' ' :: '=' :: s⟩ (' ' :: '=' :: s) := by
    have whole : String.ofList (c :: more) = l.name := by
      rw [← name, String.ofList_toList]
    rw [name, List.cons_append] at after ⊢
    unfold keyPart
    split
    · rename_i same
      exact absurd (List.cons.inj same).1 (ne_of_isBareKeyChar bare (by decide))
    · rename_i same
      exact absurd (List.cons.inj same).1 (ne_of_isBareKeyChar bare (by decide))
    · refine (bind_done rfl).trans ((bind_done after).trans ?_)
      rw [whole]
      rfl
  refine ⟨l.name.toList ++ ' ' :: '=' :: s, sift_done (separated1_single ?_ noDot) rfl⟩
  exact (bind_done before).trans ((bind_done part).trans (bind_done last))

theorem Line.text_append (l : Line) (s : List Char) :
    l.text ++ s = l.name.toList ++ ' ' :: '=' :: ' ' :: (l.word ++ '\n' :: s) := by
  simp [Line.text]

/-- A text of lines does not begin with a blank. -/
theorem Line.Plain.text_cons (plain : l.Plain) : ∃ c more, l.text = c :: more ∧
    isBareKeyChar c := by
  obtain ⟨c, more, name⟩ := List.exists_cons_of_ne_nil plain.named
  exact ⟨c, _, by rw [Line.text, name]; rfl, plain.bare c (by rw [name]; exact List.mem_cons_self)⟩

/-- The entry is what a line says. -/
def Stands (e : Key × Node) (l : Line) : Prop :=
  e.1.name = l.name ∧ ∃ place, e.2 = .value l.value place

variable {es : List (Key × Node)}

theorem names_of_stands (entries : List.Forall₂ Stands es lines) :
    es.map (·.1.name) = lines.map (·.name) := by
  induction entries with
  | nil => rfl
  | cons first _ ih => rw [List.map_cons, List.map_cons, first.1, ih]

theorem entryValues_of_stands (entries : List.Forall₂ Stands es lines) :
    entryValues es = .ok (lines.map Line.entry) := by
  induction entries with
  | nil => rfl
  | @cons e l es lines first _ ih =>
      obtain ⟨k, n⟩ := e
      obtain ⟨name, place, rfl⟩ := first
      rw [entryValues, Node.toValue, ih, name]
      rfl

/-- The draft is the lines, and no header names another table. -/
structure Draft.Holds (d : Draft) (lines : List Line) : Prop where
  header : d.header = none
  standing : d.current.standing = .named
  entries : List.Forall₂ Stands d.current.entries lines

theorem put_of_fresh {k : Key} {n : Node} (fresh : ∀ e ∈ es, e.1.name ≠ k.name) :
    Branch.put k n es = es ++ [(k, n)] := by
  induction es with
  | nil => rfl
  | cons e es ih =>
      have other := fresh e List.mem_cons_self
      rw [Branch.put, if_neg (by simpa using other),
        ih fun e member => fresh e (List.mem_cons_of_mem _ member), List.cons_append]

/-- A line under a new key is added to the document. -/
theorem Draft.Holds.add (holds : d.Holds before) (fresh : l.name ∉ before.map (·.name))
    (place place' : Place) : ∃ d', d.add [] ⟨l.name, place⟩ (.value l.value place') = some d' ∧
      d'.Holds (before ++ [l]) := by
  obtain ⟨header, standing, entries⟩ := holds
  have apart : ∀ e ∈ d.current.entries, e.1.name ≠ l.name := by
    intro e member same
    rw [← names_of_stands entries, ← same] at fresh
    exact fresh (List.mem_map_of_mem member)
  have free : d.current.find? ⟨l.name, place⟩ = none := by
    rw [Branch.find?, Option.map_eq_none_iff, List.find?_eq_none]
    simpa using apart
  refine ⟨{ d with current := d.current.insert ⟨l.name, place⟩ (.value l.value place') },
    ?_, header, standing, ?_⟩
  · rw [Draft.add, Branch.add, Branch.descend, standing, free]
    rfl
  · simp only [Branch.insert, put_of_fresh (k := ⟨l.name, place⟩) apart]
    exact List.rel_append entries (.cons ⟨rfl, place', rfl⟩ .nil)

/-- One statement reads one line. -/
theorem statement_line (plain : l.Plain) (holds : d.Holds before)
    (fresh : l.name ∉ before.map (·.name)) (stops : ∀ c ∈ s.head?, isSpace c = false) :
    ∃ d', statement d (l.text ++ s) = .done d' s ∧ d'.Holds (before ++ [l]) := by
  obtain ⟨place, named⟩ := key_line (s := ' ' :: (l.word ++ '\n' :: s)) plain
  obtain ⟨d', added, holds'⟩ := holds.add fresh place (l.word ++ '\n' :: s)
  have gap : space (' ' :: (l.word ++ '\n' :: s)) = .done () (l.word ++ '\n' :: s) := by
    obtain ⟨c, more, word, noBlank, -⟩ := plain.word_cons
    rw [word]
    exact space_blank fun c first => by cases first; exact noBlank
  have assigned : (do let _ ← char '='; space; let n ← value; lineRest; return n : Reader Node)
      ('=' :: ' ' :: (l.word ++ '\n' :: s)) = .done (.value l.value (l.word ++ '\n' :: s)) s :=
    (bind_done (satisfy_done rfl)).trans ((bind_done gap).trans
      ((bind_done (value_line plain)).trans (bind_done (lineRest_newline s))))
  have given : keyValue d (l.text ++ s) = .done d' s := by
    rw [l.text_append]
    unfold keyValue sift
    rw [bind_done named, bind_done (commit_done assigned)]
    simp only [pure_done, added]
  refine ⟨d', ?_, holds'⟩
  have space := space_nothing stops
  obtain ⟨c, more, text, bare⟩ := plain.text_cons
  rw [text, List.cons_append] at given ⊢
  unfold statement
  split
  · rename_i same
    cases same
  · rename_i same
    exact absurd (List.cons.inj same).1 (ne_of_isBareKeyChar bare (by decide))
  · rename_i same
    exact absurd (List.cons.inj same).1 (ne_of_isBareKeyChar bare (by decide))
  · rename_i same
    exact absurd (List.cons.inj same).1 (ne_of_isBareKeyChar bare (by decide))
  · rename_i same
    exact absurd (List.cons.inj same).1 (ne_of_isBareKeyChar bare (by decide))
  · exact (bind_done (commit_done given)).trans (bind_done space)

/-- The text of lines begins with a key, if it begins at all. -/
theorem bare_head (plain : ∀ l ∈ lines, l.Plain) :
    ∀ c ∈ (lines.flatMap Line.text).head?, isBareKeyChar c := by
  intro c first
  cases lines with
  | nil => cases first
  | cons l lines =>
      obtain ⟨c', more, text, bare⟩ := (plain l List.mem_cons_self).text_cons
      rw [List.flatMap_cons, text] at first
      cases first
      exact bare

/-- Statement after statement reads line after line. -/
theorem statements_lines (plain : ∀ l ∈ lines, l.Plain) (holds : d.Holds before)
    (distinct : ((before ++ lines).map (·.name)).Nodup) {n : Nat} (room : lines.length ≤ n) :
    ∃ d', statements n d (lines.flatMap Line.text) = .done d' [] ∧ d'.Holds (before ++ lines) := by
  -- What was read is in the draft, and the lines to come give other names.
  induction lines generalizing d before n with
  | nil =>
      rw [List.append_nil]
      refine ⟨d, ?_, holds⟩
      cases n <;> rfl
  | cons l lines ih =>
      obtain ⟨n, rfl⟩ := Nat.exists_eq_add_of_le' (Nat.le_trans (Nat.le_add_left 1 _) room)
      have rest : ∀ l ∈ lines, l.Plain := fun l member => plain l (List.mem_cons_of_mem _ member)
      have fresh : l.name ∉ before.map (·.name) := by
        rw [List.map_append, List.map_cons, List.nodup_append] at distinct
        exact fun member => distinct.2.2 _ member _ List.mem_cons_self rfl
      obtain ⟨d', read, holds'⟩ := statement_line (plain l List.mem_cons_self) holds fresh
        fun c first => isSpace_eq_false (bare_head rest c first)
      rw [List.append_cons] at distinct ⊢
      rw [List.flatMap_cons, statements, read]
      exact ih rest holds' distinct (Nat.le_of_succ_le_succ room)

/-- A key that needs no quotes is not the one that stands for a date-time. -/
theorem momentOf?_of_stands (plain : ∀ l ∈ lines, l.Plain)
    (entries : List.Forall₂ Stands es lines) : momentOf? es = none := by
  cases entries with
  | nil => rfl
  | @cons e l es lines first _ =>
      have other : e.1.name ≠ momentKey := by
        intro same
        have bare := (plain l List.mem_cons_self).bare '$'
        rw [← first.1, same] at bare
        exact absurd (bare (by decide)) (by decide)
      obtain ⟨k, n⟩ := e
      rw [momentOf?, if_pos (by simpa using other)]

/-- A document of plain lines with a key for each says what its lines say. -/
theorem parse_lines (plain : ∀ l ∈ lines, l.Plain) (distinct : (lines.map (·.name)).Nodup) :
    parse (lines.flatMap Line.text) = .ok (.entries (lines.map Line.entry)) := by
  have bare := bare_head plain
  have room : lines.length ≤ (lines.flatMap Line.text).length := by
    rw [List.length_flatMap, ← List.length_map (f := fun l => l.text.length)]
    refine List.length_le_sum_of_one_le _ fun n member => ?_
    obtain ⟨l, among, rfl⟩ := List.mem_map.mp member
    obtain ⟨c, more, text, -⟩ := (plain l among).text_cons
    rw [text]
    exact Nat.le_add_left 1 _
  obtain ⟨d, read, header, standing, entries⟩ :=
    @statements_lines lines [] {} plain ⟨rfl, rfl, .nil⟩ distinct _ room
  rw [List.nil_append] at entries
  have noMark : optional (char '\ufeff') (lines.flatMap Line.text) =
      .done none (lines.flatMap Line.text) := by
    refine optional_refused (satisfy_refused fun c first => ?_)
    rw [beq_eq_false_iff_ne]
    exact ne_of_isBareKeyChar (bare c first) (by decide)
  have closed : d.close = some d.current := by
    rw [Draft.close, header]
  have whole : document (lines.flatMap Line.text) = .done d.current [] := by
    refine (bind_done noMark).trans ((bind_done (space_nothing fun c first =>
      isSpace_eq_false (bare c first))).trans ((bind_done read).trans ((bind_done rfl).trans ?_)))
    rw [closed]
    rfl
  rw [parse, whole]
  simp only [Branch.content, momentOf?_of_stands plain entries, entryValues_of_stands entries]
  rfl

end RegisteredHeap.Toml
