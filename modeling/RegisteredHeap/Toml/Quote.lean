import RegisteredHeap.Text.Numeral
import RegisteredHeap.Toml.Layout

/-! # Quoted text

Basic text stands between double quotes and has escapes; literal text stands between apostrophes and
has none. Three quotes in place of one allow line ends, and a line end right after them is dropped.
-/

namespace RegisteredHeap.Toml

open Reader

def isBasicChar (c : Char) : Bool := isCommentChar c && c != '"' && c != '\\'

def isLiteralChar (c : Char) : Bool := isCommentChar c && c != '\''

def threeQuotes : Reader Unit := literal "\"\"\""

def threeApostrophes : Reader Unit := literal "'''"

/-- A character by its code point, in so many hexadecimal digits. -/
def codePoint (digits : Nat) : Reader Char :=
  sift (fun word =>
      let n := Text.valueFrom 16 Text.hexDigit 0 word
      if n.isValidChar then some (Char.ofNat n) else none)
    (exactly digits Text.isHexDigit)

/-- An unknown escape is an error after its letter; a letter beyond the first block is not stepped
over. -/
def escapeEnd : Reader Char := fun s =>
  match s with
  | 'b' :: rest => .done '\x08' rest
  | 'f' :: rest => .done '\x0c' rest
  | 'n' :: rest => .done '\n' rest
  | 'r' :: rest => .done '\r' rest
  | 't' :: rest => .done '\t' rest
  | '\\' :: rest => .done '\\' rest
  | '"' :: rest => .done '"' rest
  | 'u' :: rest => commit (codePoint 4) rest
  | 'U' :: rest => commit (codePoint 8) rest
  | c :: rest => if isBeyondAscii c then .broken s else .broken rest
  | [] => .refused s

def escape : Reader Char := do
  let _ ← char '\\'
  escapeEnd

def escapedPiece : Reader (List Char) := do
  let c ← escape
  return [c]

def basicPiece : Reader (List Char) := orElse (takeWhile1 isBasicChar) escapedPiece

def basicText : Reader (List Char) := do
  let _ ← char '"'
  let parts ← many basicPiece
  let _ ← commit (char '"')
  return parts.flatten

def literalText : Reader (List Char) := do
  let _ ← char '\''
  let word ← takeWhile isLiteralChar
  let _ ← commit (char '\'')
  return word

/-- A backslash at the end of a line hides the line end and all space after it. -/
def hiddenLineEnd : Reader Unit := do
  let _ ← many1 do
    let _ ← char '\\'
    space
    newline
    let _ ← many (orElse newline (do let _ ← takeWhile1 isSpace))

def longBasicPiece : Reader (List Char) :=
  orElse (takeWhile1 isBasicChar)
    (orElse (do hiddenLineEnd; return [])
      (orElse escapedPiece (do newline; return ['\n'])))

def longLiteralPiece : Reader (List Char) :=
  orElse (takeWhile1 isLiteralChar) (do newline; return ['\n'])

/-- One or two quotes, as many as possible, that `next` follows. -/
def fewQuotes (quote : Char) (next : Reader Unit) : Reader (List Char) :=
  orElse (do let _ ← char quote; let _ ← char quote; ahead next; return [quote, quote])
    (do let _ ← char quote; ahead next; return [quote])

def longBody (quote : Char) (piece : Reader (List Char)) (stray : Reader Unit)
    (close : Reader Unit) : Reader (List Char) := do
  let first ← many piece
  let more ← many do
    let quotes ← fewQuotes quote (do let _ ← satisfy (· != quote))
    let parts ← many1 piece
    return quotes ++ parts.flatten
  stray
  let last ← optional (fewQuotes quote close)
  return first.flatten ++ more.flatten ++ last.getD []

/-- Quotes stand alone or in pairs inside long text, and up to two more may stand right before the
three that close it. -/
def longText (quote : Char) (piece : Reader (List Char)) (stray : Reader Unit)
    (delimiter : Reader Unit) : Reader (List Char) := do
  delimiter
  let _ ← optional newline
  let body ← commit (longBody quote piece stray delimiter)
  commit delimiter
  return body

/-- Quotes before a character that no text may hold are stepped over, so that the character is the
place of the error. -/
def longBasicText : Reader (List Char) :=
  longText '"' longBasicPiece
    (do let _ ← optional (fewQuotes '"' (do let _ ← satisfy (· != '"')))) threeQuotes

def longLiteralText : Reader (List Char) :=
  longText '\'' longLiteralPiece (pure ()) threeApostrophes

def quotedText : Reader String := do
  let word ← orElse longBasicText (orElse basicText (orElse longLiteralText literalText))
  return String.ofList word

end RegisteredHeap.Toml
