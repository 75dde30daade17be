import RegisteredHeap.Toml.Moment
import RegisteredHeap.Toml.Quote
import RegisteredHeap.Toml.Tree

/-! # Keys and values

Arrays and inline tables may be nested seventy-nine deep, and a key has fewer than eighty parts.
-/

namespace RegisteredHeap.Toml

open Reader

def isBareKeyChar (c : Char) : Bool := c.isAlphanum || c == '-' || c == '_'

def keyPart : Reader Key := fun s =>
  let word : Reader (List Char) :=
    match s with
    | '"' :: _ => basicText
    | '\'' :: _ => literalText
    | _ => takeWhile1 isBareKeyChar
  (do
    let place ← here
    let w ← word
    return ⟨String.ofList w, place⟩ : Reader Key) s

def depthLimit : Nat := 80

/-- The parts of a key between its dots, the last part apart. -/
def key : Reader (List Key × Key) :=
  sift (fun parts =>
      if parts.length < depthLimit then parts.getLast?.map fun last => (parts.dropLast, last)
      else none)
    (separated1 (do space; let k ← keyPart; space; return k) (char '.'))

def arrayOf (item : Reader Node) : Reader (List Node) := do
  let _ ← char '['
  commit do
    let items ← optional do
      let items ← separated1 (do gap; let n ← item; gap; return n) (char ',')
      let _ ← optional (char ',')
      return items
    gap
    let _ ← char ']'
    return items.getD []

/-- A key with its value, as it stands between the braces. -/
def inlineEntry (item : Reader Node) : Reader ((List Key × Key) × Node) := do
  let k ← key
  commit do
    let _ ← char '='
    space
    let n ← item
    space
    return (k, n)

def gather : List ((List Key × Key) × Node) → Branch → Option Branch
  | [], b => some b
  | ((path, k), n) :: rest, b => (b.add path k n).bind (gather rest)

def inlineTableOf (item : Reader Node) : Reader Branch := do
  let _ ← char '\x7b'
  commit do
    let b ← sift (fun entries => gather entries {})
      (do let entries ← separated (inlineEntry item) (char ','); space; return entries)
    let _ ← char '\x7d'
    return b

/-- A value that nothing else stands in. -/
def scalar : Reader Value := fun s =>
  match s with
  | [] => .refused s
  | c :: _ =>
    if c == '"' || c == '\'' then (Value.text <$> quotedText) s
    else if c.isDigit || isSign c then
      orElse (Value.moment <$> moment) (orElse (Value.real <$> real) (Value.integer <$> integer)) s
    else if c == '_' then (Value.integer <$> integer) s
    else if c == '.' then (Value.real <$> real) s
    else if c == 't' then commit (do literal "true"; return Value.boolean true) s
    else if c == 'f' then commit (do literal "false"; return Value.boolean false) s
    else if c == 'i' then (Value.real <$> infinity) s
    else if c == 'n' then (Value.real <$> notANumber) s
    else .refused s

/-- A value; what stands in brackets is read by `nested`, and there is no such value without it. -/
def valueWith (nested : Option (Reader Node)) : Reader Node := fun s =>
  match s, nested with
  | '[' :: _, some item => (do return .array (← arrayOf item) s : Reader Node) s
  | '\x7b' :: _, some item =>
    (do return { ← inlineTableOf item with standing := .braced, place := some s }.toNode :
      Reader Node) s
  | '[' :: _, none | '\x7b' :: _, none => .broken s
  | _, _ => (do return .value (← scalar) s : Reader Node) s

def valueWithin : Nat → Reader Node
  | 0 => valueWith none
  | n + 1 => valueWith (some (valueWithin n))

def value : Reader Node := valueWithin (depthLimit - 1)

end RegisteredHeap.Toml
