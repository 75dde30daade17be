import Mathlib
import RegisteredHeap.Override
import RegisteredHeap.Proofs.Numerals

/-! # What overrides do

Which bytes of a variable stand for a number or for a switch, as a grammar beside the functions that
read them. A setting is replaced where its variable has such bytes, and by nothing else.
-/

namespace RegisteredHeap

namespace Override

variable {raw : ByteArray} {word : List Char} {n : Nat} {b : Bool}

/-- The bytes are a text in UTF-8 that is the word once it is trimmed. -/
def Holds (raw : ByteArray) (word : List Char) : Prop :=
  ∃ s : String, raw = s.toUTF8 ∧ Text.Trims s.toList word

theorem fromUTF8?_eq_some_iff {s : String} : String.fromUTF8? raw = some s ↔ raw = s.toUTF8 := by
  unfold String.fromUTF8?
  constructor
  · intro read
    split at read
    · cases read
      rfl
    · cases read
  · rintro rfl
    rw [String.toUTF8_eq_toByteArray, dif_pos s.isValidUTF8]
    rfl

theorem content?_eq_some_iff : content? raw = some word ↔ Holds raw word := by
  simp only [content?, Option.map_eq_some_iff, fromUTF8?_eq_some_iff, Text.trim_eq_iff]
  rfl

/-- The bytes stand for a number that fits a word. -/
def Number (raw : ByteArray) (n : Nat) : Prop := ∃ word, Holds raw word ∧ Text.Numeral word n

theorem number?_eq_some_iff : number? raw = some n ↔ Number raw n := by
  simp only [number?, Option.bind_eq_some_iff, content?_eq_some_iff, Text.word?_eq_some_iff, Number]

/-- The words for a position of a switch, in lower case. -/
def words : Bool → List String
  | true => ["1", "true", "yes", "on"]
  | false => ["0", "false", "no", "off"]

/-- The word is the name letter by letter, with some letters as capitals. -/
def Spells (word : List Char) (name : String) : Prop :=
  List.Forall₂ (fun c l => c = l ∨ c = l.toUpper) word name.toList

/-- The bytes stand for a position of a switch. -/
def Switch (raw : ByteArray) (b : Bool) : Prop :=
  ∃ word, Holds raw word ∧ ∃ name ∈ words b, Spells word name

theorem toLower_eq_iff {c l : Char} (low : ¬ l.isUpper) :
    c.toLower = l ↔ c = l ∨ c = l.toUpper := by
  constructor
  · rintro rfl
    by_cases capital : c.isUpper
    · right
      rw [Char.toUpper_toLower_eq_toUpper,
        Char.toUpper_eq_of_not_isLower (Char.not_isLower_of_isUpper capital)]
    · left
      rw [Char.toLower_eq_of_not_isUpper capital]
  · rintro (rfl | rfl)
    · exact Char.toLower_eq_of_not_isUpper low
    · rw [Char.toLower_toUpper_eq_toLower, Char.toLower_eq_of_not_isUpper low]

theorem map_toLower_eq_iff {name : String} (low : ∀ l ∈ name.toList, ¬ l.isUpper) :
    String.ofList (word.map Char.toLower) = name ↔ Spells word name := by
  rw [← String.toList_inj, String.toList_ofList, Spells]
  generalize name.toList = letters at low
  induction letters generalizing word with
  | nil => simp
  | cons l letters ih =>
      cases word with
      | nil => simp
      | cons c word =>
          rw [List.map_cons, List.cons.injEq, List.forall₂_cons,
            toLower_eq_iff (low l List.mem_cons_self),
            ih fun l' member => low l' (List.mem_cons_of_mem _ member)]

theorem switchOf?_eq_some_iff :
    switchOf? word = some b ↔ ∃ name ∈ words b, Spells word name := by
  have low : ∀ b, ∀ name ∈ words b, ∀ l ∈ name.toList, ¬ l.isUpper := by
    simp [words]
  have spelled : ∀ b, (∃ name ∈ words b, Spells word name) ↔
      String.ofList (word.map Char.toLower) ∈ words b := by
    intro b
    constructor
    · rintro ⟨name, member, spells⟩
      rwa [(map_toLower_eq_iff (low b name member)).mpr spells]
    · intro member
      exact ⟨_, member, (map_toLower_eq_iff (low b _ member)).mp rfl⟩
  -- No word is for both positions, so it does not matter which ones are tried first.
  have apart : ∀ name ∈ words true, name ∉ words false := by decide
  rw [spelled]
  simp only [switchOf?]
  split
  · rename_i on
    cases b with
    | true => exact ⟨fun _ => on, fun _ => rfl⟩
    | false => exact ⟨nofun, fun off => absurd off (apart _ on)⟩
  split
  · rename_i notOn off
    cases b with
    | true => exact ⟨nofun, fun on => absurd on notOn⟩
    | false => exact ⟨fun _ => off, fun _ => rfl⟩
  · rename_i notOn notOff
    cases b with
    | true => exact ⟨nofun, fun on => absurd on notOn⟩
    | false => exact ⟨nofun, fun off => absurd off notOff⟩

theorem switch?_eq_some_iff : switch? raw = some b ↔ Switch raw b := by
  simp only [switch?, Option.bind_eq_some_iff, content?_eq_some_iff, switchOf?_eq_some_iff, Switch]

end Override

/-- What the overrides of an environment make of settings. -/
structure Settings.Overridden (s : Settings) (env : Environment) (r : Settings) : Prop where
  /-- A number is that of its variable, if the variable holds one. -/
  number : ∀ k raw n, env k.overrideName = some raw → Override.Number raw n → r.get k = n
  numberKept : ∀ k, (∀ raw n, env k.overrideName = some raw → ¬ Override.Number raw n) →
    r.get k = s.get k
  switch : ∀ raw b, env switchOverride = some raw → Override.Switch raw b → r.neverFree = b
  switchKept : (∀ raw b, env switchOverride = some raw → ¬ Override.Switch raw b) →
    r.neverFree = s.neverFree
  /-- Each setting has a variable of its own, and nothing else has a say. -/
  names : (switchOverride :: Setting.all.map Setting.overrideName).Nodup
  ownNumber : ∀ (s' : Settings) (env' : Environment) k, s'.get k = s.get k →
    env' k.overrideName = env k.overrideName → (s'.override env').get k = r.get k
  ownSwitch : ∀ (s' : Settings) (env' : Environment), s'.neverFree = s.neverFree →
    env' switchOverride = env switchOverride → (s'.override env').neverFree = r.neverFree
  again : r.override env = r

namespace Settings

variable {s s' : Settings} {env env' : Environment}

@[simp] theorem get_override (s : Settings) (env : Environment) (k : Setting) :
    (s.override env).get k = ((env k.overrideName).bind Override.number?).getD (s.get k) :=
  get_of _ _ k

@[simp] theorem neverFree_override (s : Settings) (env : Environment) :
    (s.override env).neverFree =
      ((env switchOverride).bind Override.switch?).getD s.neverFree := rfl

theorem ext_get (switch : s.neverFree = s'.neverFree) (numbers : ∀ k, s.get k = s'.get k) :
    s = s' := by
  rw [← of_get s, ← of_get s', switch, funext numbers]

/-- For all settings and all bytes, overrides do what they say and no more. -/
theorem override_overridden (s : Settings) (env : Environment) :
    s.Overridden env (s.override env) where
  number k raw n set holds := by
    rw [get_override, set, Option.bind_some, Override.number?_eq_some_iff.mpr holds]
    rfl
  numberKept k kept := by
    have nothing : (env k.overrideName).bind Override.number? = none := by
      rw [Option.bind_eq_none_iff]
      intro raw set
      rw [Option.eq_none_iff_forall_ne_some]
      exact fun n read => kept raw n set (Override.number?_eq_some_iff.mp read)
    rw [get_override, nothing]
    rfl
  switch raw b set holds := by
    rw [neverFree_override, set, Option.bind_some, Override.switch?_eq_some_iff.mpr holds]
    rfl
  switchKept kept := by
    have nothing : (env switchOverride).bind Override.switch? = none := by
      rw [Option.bind_eq_none_iff]
      intro raw set
      rw [Option.eq_none_iff_forall_ne_some]
      exact fun b read => kept raw b set (Override.switch?_eq_some_iff.mp read)
    rw [neverFree_override, nothing]
    rfl
  names := by decide
  ownNumber s' env' k base set := by
    rw [get_override, get_override, base, set]
  ownSwitch s' env' base set := by
    rw [neverFree_override, neverFree_override, base, set]
  again := by
    apply ext_get
    · rw [neverFree_override, neverFree_override]
      cases (env switchOverride).bind Override.switch? <;> rfl
    · intro k
      rw [get_override, get_override]
      cases (env k.overrideName).bind Override.number? <;> rfl

end Settings

end RegisteredHeap
