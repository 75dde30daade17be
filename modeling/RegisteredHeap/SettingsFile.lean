import RegisteredHeap.Override
import RegisteredHeap.Error
import RegisteredHeap.Text.LowerCase
import RegisteredHeap.Toml.Document

/-! # Settings files

Settings as a TOML document with one key for each. Reading is generous: the case of a key does not
matter, a key may be missing, unknown keys are passed over, and switches and numbers may be written
as each other or as text. Writing gives the plain form.
-/

namespace RegisteredHeap.SettingsFile

open Toml (Value)

/-- What a key says about the value of its first name. -/
inductive KeyForm where
  /-- The key is the name and its value the value. -/
  | whole
  /-- The value is a table with at least the named member. -/
  | member
  /-- The value is an array with at least the numbered element. -/
  | element
  deriving DecidableEq, Repr

def isNameChar (c : Char) : Bool := c.isAlphanum || c == ' ' || c == '_' || c == '-'

def isSpaceChar (c : Char) : Bool := c == ' ' || c == '\t'

def index : Toml.Reader Unit := do
  let _ ← Toml.Reader.takeWhile isSpaceChar
  let sign ← Toml.Reader.optional (Toml.Reader.char '-')
  let _ ← Toml.Reader.sift (fun ds =>
      let n := Text.valueFrom 10 Text.decimalDigit 0 ds
      if n < 1 <<< 63 ∨ (n = 1 <<< 63 ∧ sign.isSome) then some n else none)
    (Toml.Reader.takeWhile1 Char.isDigit)
  let _ ← Toml.Reader.takeWhile isSpaceChar

def selector : Toml.Reader KeyForm :=
  Toml.Reader.orElse
    (do
      let _ ← Toml.Reader.char '.'
      let _ ← Toml.Reader.takeWhile1 isNameChar
      return .member)
    (do
      let _ ← Toml.Reader.char '['
      index
      let _ ← Toml.Reader.char ']'
      return .element)

def keyPath : Toml.Reader (List Char × KeyForm) := do
  let name ← Toml.Reader.takeWhile1 isNameChar
  let selectors ← Toml.Reader.many selector
  Toml.Reader.finish
  return (name, selectors.head?.getD .whole)

/-- The name that a key in lower case is about. A key that is no path is a name as it stands. -/
def subject (key : List Char) : List Char × KeyForm :=
  match keyPath key with
  | .done p _ => p
  | _ => (key, .whole)

/-- A value that stands in the file, or the kind of one that came about from several keys. -/
inductive Entry where
  | value (v : Value)
  | made (found : Found)

/-- What is said of a name once a key has its say as well. An empty table adds nothing to what is
there, an element goes into an array that is there, and all else takes the place of what is there.
-/
def Entry.merge (old : Option Entry) (form : KeyForm) (v : Value) : Entry :=
  match form, v with
  | .whole, .table [] => old.getD (.made .map)
  | .whole, .table (_ :: _) | .member, _ => .made .map
  | .whole, v => .value v
  | .element, _ =>
    match old with
    | some (.value (.array items)) => .value (.array items)
    | _ => .made .sequence

/-- What the entries say about a name. -/
def find? (entries : Toml.Entries) (name : String) : Option Entry :=
  entries.foldl (fun old (key, v) =>
    let (s, form) := subject (Text.lowerCase key.toList)
    if String.ofList s = name then some (Entry.merge old form v) else old) none

/-- The whole number nearest to a real, a half away from zero, kept within a word. -/
def wordOfReal (x : Float) : Nat := x.round.toUInt64.toNat

def switchWord? (word : String) : Option Bool :=
  if word ∈ ["true", "on", "yes"] then some true
  else if word ∈ ["false", "off", "no"] then some false
  else none

def numberOfText? (s : String) : Option Nat :=
  match switchWord? (String.ofList (Text.lowerCase s.toList)) with
  | some b => some b.toNat
  | none => Text.word? s.toList

def number (key : String) : Entry → Except FileFault Nat
  | .made found => .error (.wrongType found .integer key false)
  | .value v =>
    match v with
    | .integer i =>
      if 0 ≤ i then .ok i.toNat else .error (.wrongType (.integer i) .unsigned key true)
    | .real x => .ok (wordOfReal x)
    | .boolean b => .ok b.toNat
    | .text s | .moment s =>
      match numberOfText? s with
      | some n => .ok n
      | none => .error (.wrongType (.text s) .integer key true)
    | .array _ => .error (.wrongType .sequence .integer key true)
    | .table _ => .error (.wrongType .map .integer key true)

def switchOfWord? (word : String) : Option Bool :=
  if word = "1" then some true else if word = "0" then some false else switchWord? word

def switch (key : String) : Entry → Except FileFault Bool
  | .made found => .error (.wrongType found .boolean key false)
  | .value v =>
    match v with
    | .integer i => .ok (i != 0)
    | .real x => .ok (x != 0)
    | .boolean b => .ok b
    | .text s | .moment s =>
      let word := String.ofList (Text.lowerCase s.toList)
      match switchOfWord? word with
      | some b => .ok b
      | none => .error (.wrongType (.text word) .boolean key true)
    | .array _ => .error (.wrongType .sequence .boolean key true)
    | .table _ => .error (.wrongType .map .boolean key true)

def setting {α : Type} (entries : Toml.Entries) (name : String) (absent : α)
    (convert : String → Entry → Except FileFault α) : Except FileFault α :=
  match find? entries name with
  | some e => convert name e
  | none => .ok absent

/-- The settings that the entries of a document hold, with the defaults where they hold none. -/
def ofEntries (entries : Toml.Entries) : Except FileFault Settings := do
  let base : Settings := {}
  let neverFree ← setting entries Settings.switchName base.neverFree switch
  let number (k : Setting) := setting entries k.name (base.get k) number
  return {
    neverFree
    reserveSegments := ← number .reserveSegments
    tinyLimit := ← number .tinyLimit
    smallLimit := ← number .smallLimit
    largeLimit := ← number .largeLimit
    tinySegmentSize := ← number .tinySegmentSize
    smallSegmentSize := ← number .smallSegmentSize
    largeSegmentSize := ← number .largeSegmentSize }

/-- The settings in the bytes of a file, if there is such a file. -/
def read (content : Option ByteArray) : Except FileFault Settings :=
  match content with
  | none => .error .missing
  | some bytes =>
    match String.fromUTF8? bytes with
    | none => .error .notUtf8
    | some text =>
      match Toml.parse text.toList with
      | .ok (.entries es) => ofEntries es
      | .ok (.moment m) => .error (.moment m)
      | .error (line, column) => .error (.malformed line column)

/-- The settings of a file with the overrides of the environment. -/
def load (path : String) (content : Option ByteArray) (env : Environment) :
    Except ConfigError Settings :=
  match read content with
  | .ok s => .ok (s.override env)
  | .error fault => .error (.file path fault)

def line (key value : String) : String := key ++ " = " ++ value ++ "\n"

/-- One line for each setting. The format holds no number above the largest signed one. -/
def write (s : Settings) : Except ConfigError String :=
  if Setting.all.all fun k => s.get k < 1 <<< 63 then
    .ok (line Settings.switchName (if s.neverFree then "true" else "false") ++
      String.join (Setting.all.map fun k => line k.name (toString (s.get k))))
  else .error .unwritable

end RegisteredHeap.SettingsFile
