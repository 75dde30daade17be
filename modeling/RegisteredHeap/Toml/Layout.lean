import RegisteredHeap.Toml.Reader

/-! # Blank space, line ends and comments -/

namespace RegisteredHeap.Toml

open Reader

def isSpace (c : Char) : Bool := c == ' ' || c == '\t'

/-- Characters outside the first block count as text everywhere. -/
def isBeyondAscii (c : Char) : Bool := 0x80 ≤ c.toNat

def isCommentChar (c : Char) : Bool :=
  c == '\t' || (0x20 ≤ c.toNat && c.toNat ≤ 0x7E) || isBeyondAscii c

def space : Reader Unit := do
  let _ ← takeWhile isSpace

/-- A refusal has stepped over the character that is no line end. -/
def newline : Reader Unit := fun s =>
  match s with
  | '\n' :: rest | '\x0d' :: '\n' :: rest => .done () rest
  | _ :: rest => .refused rest
  | [] => .refused []

def comment : Reader Unit := do
  let _ ← char '#'
  let _ ← takeWhile isCommentChar

def lineEnd : Reader Unit := orElse newline finish

/-- What may follow a statement on its line. -/
def lineRest : Reader Unit := do
  space
  let _ ← optional comment
  lineEnd

def gapWithin : Nat → Reader Unit
  | 0 => pure ()
  | n + 1 => do
    space
    fun s =>
      match s with
      | '#' :: _ => (do comment; newline; gapWithin n : Reader Unit) s
      | '\n' :: _ | '\x0d' :: _ => (do newline; gapWithin n : Reader Unit) s
      | _ => .done () s

/-- Space, comments and line ends between the items of an array. A comment has to end with its line,
and a carriage return has to begin a line end. -/
def gap : Reader Unit := fun s => gapWithin s.length s

end RegisteredHeap.Toml
