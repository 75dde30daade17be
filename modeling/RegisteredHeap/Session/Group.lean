import RegisteredHeap.Block

/-! # Groups

Blocks of one call, held together in the order of their addresses.
-/

namespace RegisteredHeap

/-- Extent and offset of a block. -/
def Block.position (b : Block) : Nat × Nat :=
  match b.address with
  | .host e o | .device e o => (e, o)
  | .user v => (0, v)

/-- A block that lies on an earlier extent, or lower on the same one, comes first. -/
def Block.before (a b : Block) : Bool :=
  decide (a.position.1 < b.position.1) ||
    a.position.1 == b.position.1 && decide (a.position.2 ≤ b.position.2)

namespace Group

def inOrder (blocks : List Block) : List Block := blocks.mergeSort Block.before

/-- What a group holds of one extent. -/
structure Share where
  extent : Nat
  count : Nat
  lowest : Nat
  highest : Nat
  deriving DecidableEq, Repr

/-- The share of the extent that a run of positions lies on. -/
def shareOf (run : List (Nat × Nat)) : Option Share :=
  match run, run.getLast? with
  | (extent, lowest) :: _, some (_, highest) => some ⟨extent, run.length, lowest, highest⟩
  | _, _ => none

/-- The shares of the extents in a group that is in order. -/
def shares (blocks : List Block) : List Share :=
  ((blocks.map Block.position).splitBy fun a b => a.1 == b.1).filterMap shareOf

/-- A number of blocks from one end, and the rest in order. -/
def split (blocks : List Block) (count : Nat) (fromTop : Bool) : List Block × List Block :=
  if fromTop then (blocks.reverse.take count, blocks.take (blocks.length - count))
  else (blocks.take count, blocks.drop count)

end Group

end RegisteredHeap
