/-! # Ranges of characters

A class of characters by its code points, as the first and the last of each run of them.
-/

namespace RegisteredHeap.Text

abbrev Ranges := Array (Nat × Nat)

/-- The character lies in one of the ranges. -/
def Ranges.holds (ranges : Ranges) (c : Char) : Bool :=
  ranges.any fun (first, last) => first ≤ c.toNat && c.toNat ≤ last

end RegisteredHeap.Text
