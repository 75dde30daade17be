import RegisteredHeap.Toml.Expression

/-! # Documents

A document is a sequence of statements: keys with their values, and headers that name the table for
what follows. Main definition: `parse`, what a text says or the place of its first error.
-/

namespace RegisteredHeap.Toml

open Reader

/-- What has been read of a document. -/
structure Draft where
  root : Branch := {}
  /-- The table of the last header. -/
  current : Branch := {}
  /-- Path, name and place of that table; before the first header it is the document itself. -/
  header : Option (List Key × Key × Place) := none
  repeated : Bool := false

namespace Draft

/-- The document with the current table put into its place. -/
def close (d : Draft) : Option Branch :=
  match d.header with
  | none => some d.current
  | some (path, name, place) =>
    (Branch.descend false (fun parent =>
      if d.repeated then
        match parent.find? name with
        | some (.tables first elements) =>
          some (parent.insert name (.tables first (elements ++ [d.current.entries])), ())
        | _ => none
      else some (parent.insert name { d.current with place }.toNode, ())) path d.root).map (·.1)

/-- A header continues a table that only stood on the way so far; any other table of its name is a
second definition. -/
def startTable (d : Draft) (path : List Key) (name : Key) (place : Place) : Option Draft := do
  let root ← d.close
  let (root, entries) ← Branch.descend false (fun parent =>
    match parent.find? name with
    | none => some (parent, [])
    | some (.table .passing _ entries) => some (parent.erase name, entries)
    | some _ => none) path root
  return { root, current := { entries }, header := some (path, name, place) }

/-- A repeated header adds a table to those of its name, and to nothing else. -/
def startRepeated (d : Draft) (path : List Key) (name : Key) (place : Place) : Option Draft := do
  let root ← d.close
  let (root, _) ← Branch.descend false (fun parent =>
    match parent.find? name with
    | none => some (parent.insert name (.tables place []), ())
    | some (.tables _ _) => some (parent, ())
    | some _ => none) path root
  return { root, header := some (path, name, place), repeated := true }

def add (d : Draft) (path : List Key) (name : Key) (n : Node) : Option Draft :=
  (d.current.add path name n).map fun current => { d with current }

end Draft

def headerLine (opening closing : Reader Unit) : Reader (List Key × Key) := do
  opening
  let k ← commit key
  commit closing
  commit lineRest
  return k

def header (d : Draft) : Reader Draft := fun s =>
  match s with
  | '[' :: '[' :: _ =>
    sift (fun (path, name) => d.startRepeated path name s)
      (headerLine (literal "[[") (literal "]]")) s
  | '[' :: _ :: _ =>
    sift (fun (path, name) => d.startTable path name s) (headerLine (literal "[") (literal "]")) s
  | _ => .refused s

def keyValue (d : Draft) : Reader Draft :=
  sift (fun ((path, name), n) => d.add path name n)
    do
      let k ← key
      let n ← commit do
        let _ ← char '='
        space
        let n ← value
        lineRest
        return n
      return (k, n)

/-- One statement, or an empty line, with the space after it. -/
def statement (d : Draft) : Reader Draft := fun s =>
  let body : Reader Draft :=
    match s with
    | [] => refuse
    | '#' :: _ => commit (do comment; lineEnd; return d)
    | '[' :: _ => commit (header d)
    | '\n' :: _ | '\x0d' :: _ => do newline; return d
    | _ => commit (keyValue d)
  (do let d ← body; space; return d : Reader Draft) s

def statements : Nat → Draft → Reader Draft
  | 0, d, s => .done d s
  | n + 1, d, s =>
    match statement d s with
    | .done d rest => statements n d rest
    | .refused _ => .done d s
    | .broken rest => .broken rest

/-- A mark of the byte order may stand in front. -/
def document : Reader Branch := fun s =>
  (do
    let _ ← optional (char '\ufeff')
    space
    let d ← statements s.length {}
    finish
    match d.close with
    | some root => return root
    | none => refuse : Reader Branch) s

/-- Line and column, counted from 1, of the place where `rest` is left of `text`. Columns count
characters, but bytes up to a character beyond the first block. Behind the last line end a place
still counts to the line that it ends. -/
def placeOf (text rest : List Char) : Nat × Nat :=
  let offset := text.length - rest.length
  let before := text.take (min offset (text.length - 1))
  let lineStart := before.length - (before.reverse.takeWhile (· != '\n')).length
  let inLine := (text.take offset).drop lineStart
  let column :=
    match rest with
    | c :: _ =>
      if isBeyondAscii c then inLine.foldl (fun n c => n + c.utf8Size) 0 else inLine.length
    | [] => inLine.length
  (before.count '\n' + 1, column + 1)

/-- What a text says, or line and column of the first error. -/
def parse (text : List Char) : Except (Nat × Nat) Content :=
  match document text with
  | .done root _ => root.content.mapError (placeOf text)
  | .refused rest | .broken rest => .error (placeOf text rest)

end RegisteredHeap.Toml
