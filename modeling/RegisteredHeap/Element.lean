import RegisteredHeap.Layout
import RegisteredHeap.Word

/-! # Elements

The kinds of values that owners hold, and the bytes that stand for a value.
-/

namespace RegisteredHeap

/-- Kinds of values that owners hold. -/
inductive Element where
  /-- A number whose end is reported; the second half of 16 bytes. -/
  | tracked
  /-- A number of 32 bits. -/
  | word
  /-- A byte, repeated over an aligned run: it starts at a multiple of two to the power `shift`, and
  is `units` times as long. -/
  | wide {units shift : Nat}
  deriving DecidableEq, Repr

namespace Element

def layout : Element → Layout
  | tracked => ⟨16, 8⟩
  | word => ⟨4, 4⟩
  | @wide units shift => ⟨units <<< shift, 1 <<< shift⟩

/-- How many values there are of the kind. -/
def range : Element → Nat
  | tracked => Word.limit
  | word => 1 <<< 32
  | @wide units _ => if units = 0 then 1 else 1 <<< 8

/-- The bytes of a number, the lowest first. -/
def littleEndian (count n : Nat) : List UInt8 :=
  (List.range count).map fun i => UInt8.ofNat (n >>> (8 * i))

def ofLittleEndian (bytes : List UInt8) : Nat := bytes.foldr (fun b n => b.toNat + 256 * n) 0

def encode : Element → Nat → List UInt8
  | tracked, v => List.replicate 8 0 ++ littleEndian 8 v
  | word, v => littleEndian 4 v
  | @wide units shift, v => List.replicate (units <<< shift) (UInt8.ofNat v)

def decode : Element → List UInt8 → Nat
  | tracked, bytes => ofLittleEndian (bytes.drop 8)
  | word, bytes => ofLittleEndian bytes
  | wide, bytes => ofLittleEndian (bytes.take 1)

theorem ofLittleEndian_littleEndian (count n : Nat) :
    ofLittleEndian (littleEndian count n) = n % (1 <<< (8 * count)) := by
  induction count generalizing n with
  | zero => simp [ofLittleEndian, littleEndian, Nat.mod_one]
  | succ count ih =>
    have rest : (List.range count).map (fun i => UInt8.ofNat (n >>> (8 * (i + 1)))) =
        littleEndian count (n >>> 8) := by
      simp [littleEndian, Nat.mul_add, Nat.add_comm, Nat.shiftRight_add]
    have step : ofLittleEndian (littleEndian (count + 1) n) =
        n % 256 + 256 * ofLittleEndian (littleEndian count (n >>> 8)) := by
      rw [← rest]
      simp [ofLittleEndian, littleEndian, List.range_succ_eq_map, Function.comp_def]
    rw [step, ih, Nat.one_shiftLeft, Nat.one_shiftLeft, Nat.mul_succ, Nat.add_comm (8 * count),
      Nat.pow_add, Nat.mod_mul, Nat.shiftRight_eq_div_pow]

theorem decode_encode (e : Element) {v : Nat} (h : v < e.range) : e.decode (e.encode v) = v := by
  cases e with
  | tracked =>
    simpa [decode, encode, ofLittleEndian_littleEndian, range, Word.limit] using h
  | word => simpa [decode, encode, ofLittleEndian_littleEndian, range] using h
  | @wide units shift =>
    cases units with
    | zero =>
      have none : v = 0 := by simpa [range] using h
      simp [decode, encode, ofLittleEndian, none]
    | succ units =>
      have length : 1 ≤ (units + 1) <<< shift := by
        rw [Nat.shiftLeft_eq]
        exact Nat.mul_pos (Nat.succ_pos units) (Nat.two_pow_pos shift)
      have first : min 1 ((units + 1) <<< shift) = 1 := Nat.min_eq_left length
      simpa [decode, encode, ofLittleEndian, range, List.take_replicate, first] using h

end Element

end RegisteredHeap
