import RegisteredHeap.Toml.Document

/-! # What readers do

One law for each way to put readers together, and what the readers of blank space and numerals take
off a text that begins with what they look for.
-/

namespace RegisteredHeap.Toml

namespace Reader

variable {α β : Type} {p q : Reader α} {f : α → Reader β} {a : α} {s rest : Place}

theorem pure_done (a : α) (s : Place) : (pure a : Reader α) s = .done a s := rfl

theorem bind_done (first : p s = .done a rest) : (p >>= f) s = f a rest := by
  change Reader.bind p f s = _
  simp only [Reader.bind, first]

theorem bind_refused (first : p s = .refused rest) : (p >>= f) s = .refused rest := by
  change Reader.bind p f s = _
  simp only [Reader.bind, first]

theorem map_done {g : α → β} (first : p s = .done a rest) : (g <$> p) s = .done (g a) rest :=
  bind_done first

theorem map_refused {g : α → β} (first : p s = .refused rest) : (g <$> p) s = .refused rest :=
  bind_refused first

theorem commit_done (first : p s = .done a rest) : commit p s = .done a rest := by
  simp only [commit, first]

theorem orElse_done (first : p s = .done a rest) : orElse p q s = .done a rest := by
  simp only [orElse, first]

theorem orElse_refused (first : p s = .refused rest) : orElse p q s = q s := by
  simp only [orElse, first]

theorem optional_refused (first : p s = .refused rest) : optional p s = .done none s := by
  simp only [optional, first]

theorem sift_done {g : α → Option β} {b : β} (first : p s = .done a rest) (fits : g a = some b) :
    sift g p s = .done b rest := by
  simp only [sift, first, fits]

theorem settle_done {g : α → Option β} {b : β} (first : p s = .done a rest) (fits : g a = some b) :
    settle g p s = .done b rest := by
  simp only [settle, first, fits]

theorem settle_refused {g : α → Option β} (first : p s = .refused rest) :
    settle g p s = .refused rest := by
  simp only [settle, first]

theorem many_refused (first : p s = .refused rest) : many p s = .done [] s := by
  unfold many
  cases s.length with
  | zero => rfl
  | succ n => simp only [upTo, first]

/-- Single characters are taken up to the first one that is refused. -/
theorem many_chars {p : Reader Char} {ds : List Char}
    (takes : ∀ c ∈ ds, ∀ s, p (c :: s) = .done c s) (stops : p s = .refused rest) :
    many p (ds ++ s) = .done ds s := by
  have enough (n : Nat) (room : ds.length ≤ n) : upTo p n (ds ++ s) = .done ds s := by
    induction ds generalizing n with
    | nil =>
        cases n with
        | zero => rfl
        | succ n => simp only [List.nil_append, upTo, stops]
    | cons c ds ih =>
        obtain ⟨n, rfl⟩ := Nat.exists_eq_add_of_le' room
        have more := ih (fun c member => takes c (List.mem_cons_of_mem _ member))
          (n + ds.length) (Nat.le_add_left _ _)
        have first := takes c List.mem_cons_self (ds ++ s)
        simp only [List.cons_append, List.length_cons, ← Nat.add_assoc, upTo, first, more]
  exact enough _ (by simp)

theorem separated1_single {sep : Reader β} {rest' : Place} (first : p s = .done a rest)
    (stops : sep rest = .refused rest') : separated1 p sep s = .done [a] rest := by
  have ended : many (do let _ ← sep; p) rest = .done [] rest := many_refused (bind_refused stops)
  unfold separated1
  rw [bind_done first, bind_done ended]
  rfl

theorem satisfy_done {g : Char → Bool} {c : Char} (holds : g c = true) :
    satisfy g (c :: s) = .done c s := by
  simp only [satisfy, holds, if_true]

theorem satisfy_refused {g : Char → Bool} (head : ∀ c ∈ s.head?, g c = false) :
    satisfy g s = .refused s := by
  cases s with
  | nil => rfl
  | cons c s => simp only [satisfy, head c rfl, Bool.false_eq_true, if_false]

theorem takeWhile_append {g : Char → Bool} {ds : List Char} (all : ∀ c ∈ ds, g c = true)
    (stops : ∀ c ∈ s.head?, g c = false) : takeWhile g (ds ++ s) = .done ds s := by
  have ends : s.takeWhile g = [] ∧ s.dropWhile g = s := by
    cases s with
    | nil => exact ⟨rfl, rfl⟩
    | cons c s => simp [stops c rfl]
  rw [takeWhile, List.takeWhile_append_of_pos all, List.dropWhile_append_of_pos all, ends.1, ends.2,
    List.append_nil]

theorem takeWhile1_append {g : Char → Bool} {ds : List Char} (some : ds ≠ [])
    (all : ∀ c ∈ ds, g c = true) (stops : ∀ c ∈ s.head?, g c = false) :
    takeWhile1 g (ds ++ s) = .done ds s := by
  have taken := takeWhile_append all stops
  simp only [takeWhile, Outcome.done.injEq] at taken
  rw [takeWhile1, taken.1, taken.2, if_neg (by simpa using some)]

theorem literal_done (word : String) : literal word (word.toList ++ s) = .done () s := by
  have start : word.toList.isPrefixOf (word.toList ++ s) := by
    simp
  rw [literal, if_pos start, ← String.length_toList, List.drop_left]

/-- Another first character is no beginning of the word. -/
theorem literal_refused {word : String} {c : Char} (other : ∀ d ∈ word.toList.head?, d ≠ c)
    (some : word ≠ "") : literal word (c :: s) = .refused (c :: s) := by
  have start : ¬ word.toList.isPrefixOf (c :: s) := by
    cases letters : word.toList with
    | nil => simp_all
    | cons d ds =>
        have apart := other d (by rw [letters]; rfl)
        simp [apart]
  rw [literal, if_neg start]

end Reader

open Reader

variable {s rest : Place}

theorem space_done (ds : List Char) (blank : ∀ c ∈ ds, isSpace c = true)
    (stops : ∀ c ∈ s.head?, isSpace c = false) : space (ds ++ s) = .done () s :=
  bind_done (takeWhile_append blank stops)

theorem space_blank (stops : ∀ c ∈ s.head?, isSpace c = false) : space (' ' :: s) = .done () s :=
  space_done [' '] (List.forall_mem_singleton.mpr rfl) stops

theorem space_nothing (stops : ∀ c ∈ s.head?, isSpace c = false) : space s = .done () s :=
  space_done [] (by simp) stops

theorem lineRest_newline (s : Place) : lineRest ('\n' :: s) = .done () s := by
  have blank : space ('\n' :: s) = .done () ('\n' :: s) :=
    space_nothing fun c first => by cases first; decide
  have silent : comment ('\n' :: s) = .refused ('\n' :: s) :=
    bind_refused (satisfy_refused fun c first => by cases first; decide)
  unfold lineRest
  rw [bind_done blank, bind_done (optional_refused silent)]
  rfl

end RegisteredHeap.Toml
