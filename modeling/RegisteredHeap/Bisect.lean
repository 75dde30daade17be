/-! # Search by halving -/

namespace RegisteredHeap

/-- Halves the window of `size` entries from `base` on until one is left; `fuel` bounds the
halvings. -/
def narrow (xs : Array Nat) (x : Nat) : Nat → Nat → Nat → Nat
  | 0, base, _ => base
  | fuel + 1, base, size =>
    if size ≤ 1 then base
    else
      let half := size / 2
      let base := if x < xs.getD (base + half) 0 then base else base + half
      narrow xs x fuel base (size - half)

/-- Whether an increasing list holds `x`. -/
def bisect (xs : Array Nat) (x : Nat) : Bool :=
  xs[narrow xs x xs.size 0 xs.size]? == some x

end RegisteredHeap
