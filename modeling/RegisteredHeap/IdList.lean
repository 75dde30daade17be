import RegisteredHeap.Text.Blank
import RegisteredHeap.Text.Numeral
import RegisteredHeap.Word

/-! # Id lists

Lists such as `0-3,8,10-11`: single ids and inclusive ranges between commas. A part that is neither
adds nothing. The ids are put behind one another as they are read, and a list that would be longer
than any layout ends the program.
-/

namespace RegisteredHeap.IdList

open Text

/-- The pieces between separators, empty ones included. -/
def pieces (sep : Char) : List Char → List (List Char)
  | [] => [[]]
  | c :: s =>
    if c = sep then [] :: pieces sep s
    else match pieces sep s with
      | p :: ps => (c :: p) :: ps
      | [] => [[c]]

/-- What stands before and after the first separator. -/
def cut? (sep : Char) : List Char → Option (List Char × List Char)
  | [] => none
  | c :: s => if c = sep then some ([], s) else (cut? sep s).map fun (a, b) => (c :: a, b)

/-- So many ids from the first on. -/
structure Span where
  first : Nat
  count : Nat
  deriving DecidableEq, Repr

def Span.ids (s : Span) : List Nat := List.range' s.first s.count

/-- What one part stands for that has been trimmed. -/
def span? (s : List Char) : Option Span :=
  match cut? '-' s with
  | some (first, last) =>
    match word? first, word? last with
    | some m, some n => some ⟨m, n + 1 - m⟩
    | _, _ => none
  | none => (word? s).map (⟨·, 1⟩)

/-- The most ids in a list, at eight bytes each. -/
def room : Nat := Word.maxLayout / 8

/-- Puts ids behind a list, if there is room for them. -/
def extend (ids : List Nat) (s : Span) : Option (List Nat) :=
  if ids.length + s.count ≤ room then some (ids ++ s.ids) else none

/-- The ids of a list, or `none` if they do not fit into one, which ends the program. -/
def parse (s : List Char) : Option (List Nat) :=
  ((pieces ',' (trim s)).filterMap fun p => span? (trim p)).foldlM extend []

end RegisteredHeap.IdList
