import RegisteredHeap.Proofs.Overrides
import RegisteredHeap.Proofs.PlainDocuments
import RegisteredHeap.SettingsFile

/-! # Settings through files

What is written is read back, line by line. The switch is the key without a number, `none`.
-/

namespace RegisteredHeap

open Toml (Line Value)

namespace Text

variable {c : Char} {s : List Char}

/-- No capital stands between those of the first block and those with an accent. -/
theorem small?_eq_none (low : 0x5a < c.toNat) (high : c.toNat < 0xc0) : small? c = none := by
  have apart : ∀ run ∈ capitalRuns, run.2.1 ≤ 0x5a ∨ 0xc0 ≤ run.1 := by
    decide +kernel
  rw [small?, Option.map_eq_none_iff, Array.find?_eq_none]
  rintro ⟨first, last, step, small⟩ member inside
  have outside := apart _ member
  simp only [Bool.and_eq_true, decide_eq_true_eq] at inside outside
  omega

theorem lowerCase_eq_self (plain : ∀ c ∈ s, 0x5a < c.toNat ∧ c.toNat < 0xc0) :
    lowerCase s = s := by
  rw [lowerCase]
  -- What stands behind a letter shows with a capital sigma alone, which is not in the range.
  generalize [] = behind
  induction s generalizing behind with
  | nil => rfl
  | cons c s ih =>
      obtain ⟨low, high⟩ := plain c List.mem_cons_self
      rw [lowerAfter, ih fun c member => plain c (List.mem_cons_of_mem _ member),
        small?_eq_none low high]
      · rfl
      · rintro rfl
        exact absurd high (by decide)
      · rintro rfl
        exact absurd high (by decide)

end Text

namespace Settings

/-- The keys of a settings file, in their order. -/
def keys : List (Option Setting) := none :: Setting.all.map some

def keyName : Option Setting → String
  | none => switchName
  | some k => k.name

/-- The line of a key, as it is written. -/
def keyLine (s : Settings) : Option Setting → String
  | none => SettingsFile.line switchName (if s.neverFree then "true" else "false")
  | some k => SettingsFile.line k.name (toString (s.get k))

/-- The text of the lines that are kept. -/
def keptText (s : Settings) (keep : Option Setting → Bool) : String :=
  String.join ((keys.filter keep).map s.keyLine)

/-- The settings of the lines that are kept, and the defaults for the others. -/
def kept (s : Settings) (keep : Option Setting → Bool) : Settings :=
  .of (if keep none then s.neverFree else ({} : Settings).neverFree)
    fun k => if keep (some k) then s.get k else ({} : Settings).get k

/-- The numbers are not above the largest signed one. -/
def Writable (s : Settings) : Prop := ∀ k, s.get k ≤ 2 ^ 63 - 1

variable {s : Settings} {keep : Option Setting → Bool} {env : Environment}

theorem mem_keys (o : Option Setting) : o ∈ keys := by
  cases o with
  | none => exact List.mem_cons_self
  | some k => cases k <;> decide

theorem nodup_keyName : (keys.map keyName).Nodup := by
  decide

theorem keyName_inj {o o' : Option Setting} (same : keyName o = keyName o') : o = o' :=
  List.inj_on_of_nodup_map nodup_keyName (mem_keys o) (mem_keys o') same

@[simp] theorem kept_all (s : Settings) : (s.kept fun _ => true) = s := rfl

/-- Without variables there are no overrides. -/
theorem override_of_unset (switch : env switchOverride = none)
    (numbers : ∀ k : Setting, env k.overrideName = none) : s.override env = s := by
  apply ext_get
  · rw [neverFree_override, switch]
    rfl
  · intro k
    rw [get_override, numbers k]
    rfl

def keyValue (s : Settings) : Option Setting → Value
  | none => .boolean s.neverFree
  | some k => .integer (s.get k)

/-- The word that stands for the value. -/
def keyWord (s : Settings) : Option Setting → List Char
  | none => (if s.neverFree then "true" else "false").toList
  | some k => Nat.toDigits 10 (s.get k)

def fileLine (s : Settings) (o : Option Setting) : Line :=
  ⟨keyName o, s.keyWord o, s.keyValue o⟩

theorem toList_keyLine (s : Settings) (o : Option Setting) :
    (s.keyLine o).toList = (s.fileLine o).text := by
  cases o with
  | none => simp [keyLine, fileLine, keyName, keyWord, SettingsFile.line, Line.text]
  | some k => simp [keyLine, fileLine, keyName, keyWord, SettingsFile.line, Line.text]

theorem bare_keyName (o : Option Setting) :
    (keyName o).toList ≠ [] ∧ (keyName o).toList.all Toml.isBareKeyChar := by
  cases o with
  | none => decide
  | some k => cases k <;> decide

theorem plain_fileLine (writable : s.Writable) (o : Option Setting) : (s.fileLine o).Plain where
  named := (bare_keyName o).1
  bare := List.all_eq_true.mp (bare_keyName o).2
  means rest := by
    cases o with
    | none => exact Toml.scalar_truth s.neverFree
    | some k =>
        have fits : Text.valueOf (Nat.toDigits 10 (s.get k)) < 2 ^ 63 := by
          rw [Text.valueOf_toDigits]
          exact Nat.lt_of_le_of_lt (writable k) (by decide)
        have read := Toml.scalar_digits (s := rest) (Toml.canonical_toDigits (s.get k)) fits
        rwa [Text.valueOf_toDigits] at read

end Settings

namespace SettingsFile

open Settings

variable {s : Settings} {keep : Option Setting → Bool}

/-- A word of letters is no path. -/
theorem subject_word {word : List Char} (some : word ≠ [])
    (all : ∀ c ∈ word, isNameChar c) : subject word = (word, .whole) := by
  have name := Toml.Reader.takeWhile1_append (s := []) some all nofun
  have noMore : Toml.Reader.many selector [] = .done [] [] := rfl
  have path : keyPath word = .done (word, .whole) [] := by
    rw [List.append_nil] at name
    exact (Toml.Reader.bind_done name).trans ((Toml.Reader.bind_done noMore).trans rfl)
  rw [subject, path]

/-- A key names what it is written for, whatever case matters to a reader. -/
theorem subject_keyName (o : Option Setting) :
    subject (Text.lowerCase (keyName o).toList) = ((keyName o).toList, .whole) := by
  have letters : (keyName o).toList.all fun c =>
      decide (0x5a < c.toNat) && decide (c.toNat < 0xc0) && isNameChar c := by
    cases o with
    | none => decide
    | some k => cases k <;> decide
  simp only [List.all_eq_true, Bool.and_eq_true, decide_eq_true_eq] at letters
  rw [Text.lowerCase_eq_self fun c member => (letters c member).1]
  exact subject_word (bare_keyName o).1 fun c member => (letters c member).2

theorem merge_keyValue (s : Settings) (o : Option Setting) (old : Option Entry) :
    Entry.merge old .whole (s.keyValue o) = .value (s.keyValue o) := by
  cases o <;> rfl

/-- What lines say about a name is the value on its line. -/
theorem find?_lines (s : Settings) (os : List (Option Setting)) (o : Option Setting) :
    find? ((os.map s.fileLine).map Line.entry) (keyName o) =
      if o ∈ os then some (.value (s.keyValue o)) else none := by
  rw [find?]
  -- A line on the name replaces what was found before, and any other one leaves it.
  generalize (none : Option Entry) = old
  induction os generalizing old with
  | nil => rfl
  | cons o' os ih =>
      simp only [List.map_cons, List.foldl_cons, Line.entry, fileLine, subject_keyName,
        String.ofList_toList, merge_keyValue] at ih ⊢
      rw [ih]
      by_cases same : keyName o' = keyName o
      · cases keyName_inj same
        rw [if_pos rfl, if_pos List.mem_cons_self, ite_self]
      · have apart : o ≠ o' := fun eq => same (by rw [eq])
        simp only [same, if_false, List.mem_cons, apart, false_or]

theorem setting_lines {α : Type} {convert : String → Entry → Except FileFault α} {absent a : α}
    {o : Option Setting} (reads : convert (keyName o) (.value (s.keyValue o)) = .ok a) :
    setting (((keys.filter keep).map s.fileLine).map Line.entry) (keyName o) absent convert =
      .ok (if keep o then a else absent) := by
  rw [setting, find?_lines]
  by_cases kept : keep o
  · rw [if_pos (List.mem_filter.mpr ⟨mem_keys o, kept⟩), if_pos kept]
    exact reads
  · rw [if_neg fun member => kept (List.mem_filter.mp member).2, if_neg kept]

theorem ofEntries_lines (s : Settings) (keep : Option Setting → Bool) :
    ofEntries (((keys.filter keep).map s.fileLine).map Line.entry) = .ok (s.kept keep) := by
  have switched : setting (((keys.filter keep).map s.fileLine).map Line.entry) switchName false
      switch = .ok (if keep none then s.neverFree else false) :=
    setting_lines (o := none) rfl
  have numbered (k : Setting) : setting (((keys.filter keep).map s.fileLine).map Line.entry) k.name
      (({} : Settings).get k) number =
        .ok (if keep (some k) then s.get k else ({} : Settings).get k) := by
    refine setting_lines (o := some k) ?_
    simp [number, keyValue]
  simp only [ofEntries, numbered, switched]
  rfl

theorem load_keptText (writable : s.Writable) (path : String) (env : Environment) :
    load path (some (s.keptText keep).toUTF8) env = .ok ((s.kept keep).override env) := by
  have text : (s.keptText keep).toList = ((keys.filter keep).map s.fileLine).flatMap Line.text := by
    simp only [keptText, String.toList_join, List.flatMap_map, toList_keyLine]
  have plain : ∀ l ∈ (keys.filter keep).map s.fileLine, l.Plain := by
    intro l member
    obtain ⟨o, -, rfl⟩ := List.mem_map.mp member
    exact plain_fileLine writable o
  have distinct : (((keys.filter keep).map s.fileLine).map (·.name)).Nodup := by
    rw [List.map_map]
    exact nodup_keyName.sublist (List.filter_sublist.map keyName)
  simp only [load, read, Override.fromUTF8?_eq_some_iff.mpr rfl, text,
    Toml.parse_lines plain distinct, ofEntries_lines]

theorem write_eq_ok_iff {text : String} :
    write s = .ok text ↔ s.Writable ∧ s.keptText (fun _ => true) = text := by
  have fits : (Setting.all.all fun k => s.get k < 1 <<< 63) ↔ s.Writable := by
    simp only [List.all_eq_true, decide_eq_true_eq, Nat.one_shiftLeft]
    constructor
    · intro small k
      have bound := small k (by cases k <;> decide)
      omega
    · intro writable k _
      have bound := writable k
      omega
  have whole : line switchName (if s.neverFree then "true" else "false") ++
      String.join (Setting.all.map fun k => line k.name (toString (s.get k))) =
        s.keptText fun _ => true := by
    rw [keptText, List.filter_true, keys, List.map_cons, String.join_cons, List.map_map]
    rfl
  rw [write, whole]
  split
  · rename_i small
    rw [Except.ok.injEq]
    exact (and_iff_right (fits.mp small)).symm
  · rename_i large
    exact ⟨nofun, fun written => absurd (fits.mpr written.1) large⟩

end SettingsFile

/-- What a file holds of settings. -/
structure Settings.Filed (s : Settings) : Prop where
  writes : (∃ text, SettingsFile.write s = .ok text) ↔ ∀ k, s.get k ≤ 2 ^ 63 - 1
  reads : ∀ text, SettingsFile.write s = .ok text → ∀ path env,
    SettingsFile.load path (some text.toUTF8) env = .ok (s.override env)
  unset : ∀ text, SettingsFile.write s = .ok text → ∀ path (env : Environment),
    env switchOverride = none → (∀ k : Setting, env k.overrideName = none) →
      SettingsFile.load path (some text.toUTF8) env = .ok s
  /-- The text is eight lines, and any of them can be read without the others. -/
  lines : ∀ text, SettingsFile.write s = .ok text → text = String.join (keys.map s.keyLine) ∧
    ∀ keep path env, SettingsFile.load path (some (s.keptText keep).toUTF8) env =
      .ok ((s.kept keep).override env)

/-- For all settings, what is written is read back. -/
theorem Settings.write_filed (s : Settings) : s.Filed where
  writes := by
    constructor
    · rintro ⟨text, written⟩
      exact (SettingsFile.write_eq_ok_iff.mp written).1
    · exact fun writable => ⟨_, SettingsFile.write_eq_ok_iff.mpr ⟨writable, rfl⟩⟩
  reads text written path env := by
    obtain ⟨writable, rfl⟩ := SettingsFile.write_eq_ok_iff.mp written
    exact SettingsFile.load_keptText writable path env
  unset text written path env switch numbers := by
    obtain ⟨writable, rfl⟩ := SettingsFile.write_eq_ok_iff.mp written
    rw [SettingsFile.load_keptText writable path env, kept_all, override_of_unset switch numbers]
  lines text written := by
    obtain ⟨writable, rfl⟩ := SettingsFile.write_eq_ok_iff.mp written
    refine ⟨by rw [keptText, List.filter_true], fun keep path env => ?_⟩
    exact SettingsFile.load_keptText writable path env

end RegisteredHeap
