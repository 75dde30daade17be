/-! # Readers

A reader takes a value off the front of a text. One that does not find its value refuses, and
another may try from the start; one that finds its value begun and then broken off ends the whole
reading. Either way it says where it stopped, as the text that was left: the place of an error is
where the last reader stopped.
-/

namespace RegisteredHeap.Toml

/-- A place in a text, as what is left of the text from there on. -/
abbrev Place := List Char

inductive Outcome (α : Type) where
  | done (value : α) (rest : Place)
  | refused (rest : Place)
  | broken (rest : Place)

def Reader (α : Type) := List Char → Outcome α

namespace Reader

variable {α β : Type}

protected def pure (a : α) : Reader α := fun s => .done a s

protected def bind (p : Reader α) (f : α → Reader β) : Reader β := fun s =>
  match p s with
  | .done a rest => f a rest
  | .refused rest => .refused rest
  | .broken rest => .broken rest

instance : Monad Reader where
  pure := Reader.pure
  bind := Reader.bind

def here : Reader Place := fun s => .done s s

/-- Refuses where it stands. -/
def refuse : Reader α := fun s => .refused s

/-- Makes a refusal of `p` final. -/
def commit (p : Reader α) : Reader α := fun s =>
  match p s with
  | .refused rest => .broken rest
  | o => o

/-- Tries `q` from the start if `p` refuses. -/
def orElse (p q : Reader α) : Reader α := fun s =>
  match p s with
  | .refused _ => q s
  | o => o

/-- Takes nothing if `p` refuses. -/
def optional (p : Reader α) : Reader (Option α) := fun s =>
  match p s with
  | .done a rest => .done (some a) rest
  | .refused _ => .done none s
  | .broken rest => .broken rest

/-- Refuses at the start of `p` where `f` has no value for what `p` read. -/
def sift (f : α → Option β) (p : Reader α) : Reader β := fun s =>
  match p s with
  | .done a rest =>
    match f a with
    | some b => .done b rest
    | none => .refused s
  | .refused rest => .refused rest
  | .broken rest => .broken rest

/-- Ends the reading at the start of `p` where `f` has no value for what `p` read. -/
def settle (f : α → Option β) (p : Reader α) : Reader β := fun s =>
  match p s with
  | .done a rest =>
    match f a with
    | some b => .done b rest
    | none => .broken s
  | .refused rest => .refused rest
  | .broken rest => .broken rest

/-- Reads with `p` and takes nothing. -/
def ahead (p : Reader α) : Reader Unit := fun s =>
  match p s with
  | .done _ _ => .done () s
  | .refused _ => .refused s
  | .broken rest => .broken rest

def upTo (p : Reader α) : Nat → Reader (List α)
  | 0, s => .done [] s
  | n + 1, s =>
    match p s with
    | .done a rest =>
      match upTo p n rest with
      | .done as rest => .done (a :: as) rest
      | .refused rest => .refused rest
      | .broken rest => .broken rest
    | .refused _ => .done [] s
    | .broken rest => .broken rest

/-- Repeats `p`, which takes at least a character, until it refuses. -/
def many (p : Reader α) : Reader (List α) := fun s => upTo p s.length s

def many1 (p : Reader α) : Reader (List α) := do
  let a ← p
  let as ← many p
  return a :: as

/-- One `p` or more with `sep` between them; a separator that no `p` follows is left. -/
def separated1 (p : Reader α) (sep : Reader β) : Reader (List α) := do
  let a ← p
  let as ← many (do let _ ← sep; p)
  return a :: as

def separated (p : Reader α) (sep : Reader β) : Reader (List α) := fun s =>
  match separated1 p sep s with
  | .refused _ => .done [] s
  | o => o

def finish : Reader Unit := fun s =>
  match s with
  | [] => .done () []
  | _ => .refused s

def satisfy (f : Char → Bool) : Reader Char := fun s =>
  match s with
  | c :: rest => if f c then .done c rest else .refused s
  | [] => .refused s

def char (c : Char) : Reader Char := satisfy (· == c)

def takeWhile (f : Char → Bool) : Reader (List Char) := fun s =>
  .done (s.takeWhile f) (s.dropWhile f)

def takeWhile1 (f : Char → Bool) : Reader (List Char) := fun s =>
  if (s.takeWhile f).isEmpty then .refused s else .done (s.takeWhile f) (s.dropWhile f)

/-- Exactly `n` characters with the property. -/
def exactly (n : Nat) (f : Char → Bool) : Reader (List Char) := fun s =>
  let word := (s.take n).takeWhile f
  if word.length = n then .done word (s.drop n) else .refused s

def literal (word : String) : Reader Unit := fun s =>
  if word.toList.isPrefixOf s then .done () (s.drop word.length) else .refused s

end Reader

end RegisteredHeap.Toml
