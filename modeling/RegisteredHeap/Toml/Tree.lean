import RegisteredHeap.Toml.Moment
import RegisteredHeap.Toml.Value

/-! # Building tables

Values reach their tables one key path at a time. While a table is built it remembers how it came
about, because that decides who may add to it. Keys and values remember their places until the whole
document stands, because only then its date-time tables are read.
-/

namespace RegisteredHeap.Toml

structure Key where
  name : String
  place : Place

/-- How a table came about. -/
inductive Standing where
  /-- It only stands on the way to a table of a header, and a header may still name it. -/
  | passing
  /-- Dotted keys made it, and only they add values to it. -/
  | dotted
  /-- A header names it, or it is the document itself. -/
  | named
  /-- It stands between braces, and nothing adds to it. -/
  | braced
  deriving DecidableEq, Repr

inductive Node where
  | value (v : Value) (place : Place)
  | array (items : List Node) (place : Place)
  /-- A table that no text stands for has no place. -/
  | table (standing : Standing) (place : Option Place) (entries : List (Key × Node))
  /-- The tables of one repeated header, each with its entries, and the place of the first. -/
  | tables (place : Place) (elements : List (List (Key × Node)))

def Node.place? : Node → Option Place
  | .value _ place | .array _ place | .tables place _ => some place
  | .table _ place _ => place

structure Branch where
  standing : Standing := .named
  place : Option Place := none
  entries : List (Key × Node) := []

namespace Branch

def toNode (b : Branch) : Node := .table b.standing b.place b.entries

def find? (b : Branch) (key : Key) : Option Node :=
  (b.entries.find? fun e => e.1.name == key.name).map (·.2)

def put (key : Key) (n : Node) : List (Key × Node) → List (Key × Node)
  | [] => [(key, n)]
  | e :: es => if e.1.name == key.name then (e.1, n) :: es else e :: put key n es

/-- Replaces the entry of the key, or adds one at the end. -/
def insert (b : Branch) (key : Key) (n : Node) : Branch :=
  { b with entries := put key n b.entries }

def erase (b : Branch) (key : Key) : Branch :=
  { b with entries := b.entries.filter (·.1.name != key.name) }

/-- Headers pass through any table but one in braces, dotted keys through those that no header
names. -/
def mayPass (dotted : Bool) : Standing → Bool
  | .passing | .dotted => true
  | .named => !dotted
  | .braced => false

/-- Changes the table at the end of a path and takes something from it, with the tables on the way
made where they are missing. A repeated header stands for its last table. -/
def descend {α : Type} (dotted : Bool) (act : Branch → Option (Branch × α)) :
    List Key → Branch → Option (Branch × α)
  | [], b => act b
  | key :: path, b =>
    match b.find? key with
    | none =>
      (descend dotted act path { standing := if dotted then .dotted else .passing }).map
        fun (c, a) => (b.insert key c.toNode, a)
    | some (.value _ _) | some (.array _ _) => none
    | some (.table standing place entries) =>
      if mayPass dotted standing then
        (descend dotted act path ⟨standing, place, entries⟩).map fun (c, a) =>
          (b.insert key c.toNode, a)
      else none
    | some (.tables place elements) =>
      match elements.reverse with
      | [] => none
      | last :: before =>
        (descend dotted act path { entries := last }).map fun (c, a) =>
          (b.insert key (.tables place (before.reverse ++ [c.entries])), a)

/-- Adds a node under a key that is free. A dotted key ends in a table made by dotted keys, a plain
one in any other. -/
def add (path : List Key) (key : Key) (n : Node) (b : Branch) : Option Branch :=
  (descend true (fun c =>
    if (c.standing == .dotted) == path.isEmpty || (c.find? key).isSome then none
    else some (c.insert key n, ())) path b).map (·.1)

end Branch

/-- A table whose first key is this one stands for the date-time in that key's text, whatever else
it holds. -/
def momentKey : String := "$__toml_private_datetime"

/-- The date-time that the entries of a table stand for, if they stand for one, or the place of what
is no date-time. -/
def momentOf? : List (Key × Node) → Option (Except Place String)
  | [] => none
  | (key, n) :: _ =>
    if key.name != momentKey then none
    else
      let fault := n.place?.getD key.place
      match n with
      | .value (.text s) _ =>
        match momentText s.toList with
        | .done m _ => some (.ok m)
        | _ => some (.error fault)
      | _ => some (.error fault)

mutual

/-- The value of a node, or the place of the first fault in it. -/
def Node.toValue : Node → Except Place Value
  | .value v _ => .ok v
  | .array items _ => Value.array <$> itemValues items
  | .table _ _ entries =>
    match momentOf? entries with
    | some m => Value.moment <$> m
    | none => Value.table <$> entryValues entries
  | .tables _ elements => Value.array <$> elementValues elements

def itemValues : List Node → Except Place (List Value)
  | [] => .ok []
  | n :: rest => do
    let v ← n.toValue
    return v :: (← itemValues rest)

def entryValues : List (Key × Node) → Except Place Entries
  | [] => .ok []
  | (key, n) :: rest => do
    let v ← n.toValue
    return (key.name, v) :: (← entryValues rest)

def elementValues : List (List (Key × Node)) → Except Place (List Value)
  | [] => .ok []
  | entries :: rest => do
    let v ← match momentOf? entries with
      | some m => Value.moment <$> m
      | none => Value.table <$> entryValues entries
    return v :: (← elementValues rest)

end

/-- What a document says: its entries, or the date-time that they stand for. -/
inductive Content where
  | entries (es : Entries)
  | moment (s : String)

def Branch.content (b : Branch) : Except Place Content :=
  match momentOf? b.entries with
  | some m => Content.moment <$> m
  | none => Content.entries <$> entryValues b.entries

end RegisteredHeap.Toml
