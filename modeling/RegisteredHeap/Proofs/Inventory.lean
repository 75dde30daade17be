import Mathlib.Algebra.BigOperators.Group.Multiset.Basic
import Mathlib.Algebra.Group.Prod
import Mathlib.Tactic.Abel
import RegisteredHeap.Backing
import RegisteredHeap.Proofs.Keyed

/-! # Inventory

What the collaborators have given out and not got back, as three multisets: extents of the host,
extents of the devices by number and size, and regions. A call on a backing adds one item, takes
one away, or leaves the inventory as it is.
-/

namespace RegisteredHeap

abbrev Inventory := Multiset Extent × Multiset (Nat × Nat) × Multiset Region

namespace Inventory

def ofExtent (e : Extent) : Inventory := ({e}, 0, 0)

def ofMirror (e : DeviceExtent) : Inventory := (0, {(e.number, e.size)}, 0)

def ofRegion (r : Region) : Inventory := (0, 0, {r})

end Inventory

namespace Numa

def extents (n : Numa) : Multiset Extent := ↑(n.live.map Prod.fst)

/-- Numbers are given once, in increasing order. -/
structure Orderly (n : Numa) : Prop where
  distinct : (n.live.map fun entry => entry.1.number).Nodup
  fresh : ∀ entry ∈ n.live, entry.1.number < n.issued

theorem fromStore_cases (n : Numa) (capacity : Nat) (misplace : Option Nat)
    (shortPages pages node : Nat) :
    (∃ e, n.fromStore capacity misplace shortPages pages node = (.error e, n)) ∨
      ∃ size place contents, n.fromStore capacity misplace shortPages pages node =
        (.ok (n.issue size place contents).1, (n.issue size place contents).2) := by
  simp only [fromStore]
  split
  · exact .inl ⟨_, rfl⟩
  · split
    · exact .inl ⟨_, rfl⟩
    · exact .inr ⟨_, _, _, rfl⟩

theorem fromAllocator_cases (n : Numa) (grants : Nat → Bool) (pages node : Nat) :
    (∃ e, n.fromAllocator grants pages node = (.error e, n)) ∨
      ∃ size place contents, n.fromAllocator grants pages node =
        (.ok (n.issue size place contents).1, (n.issue size place contents).2) := by
  simp only [fromAllocator]
  split
  · exact .inl ⟨_, rfl⟩
  split
  · exact .inl ⟨_, rfl⟩
  split
  · exact .inl ⟨_, rfl⟩
  split
  · exact .inl ⟨_, rfl⟩
  · exact .inr ⟨_, _, _, rfl⟩

/-- Either nothing happens, or one extent with a new number is in use. -/
theorem allocate_cases (n : Numa) (size node : Nat) :
    (∃ e, n.allocate size node = (.error e, n)) ∨
      ∃ bytes place contents, n.allocate size node =
        (.ok (n.issue bytes place contents).1, (n.issue bytes place contents).2) := by
  unfold allocate
  split
  · exact .inl ⟨_, rfl⟩
  · unfold allocatePages
    split
    · exact fromStore_cases ..
    · exact fromAllocator_cases ..

theorem Orderly.issue {n : Numa} (orderly : n.Orderly) (size node : Nat) (contents : Contents) :
    (n.issue size node contents).2.Orderly where
  distinct := by
    simp only [Numa.issue, List.map_cons, List.nodup_cons]
    refine ⟨?_, orderly.distinct⟩
    intro member
    obtain ⟨entry, inside, same⟩ := List.mem_map.mp member
    have older := orderly.fresh entry inside
    omega
  fresh := by
    intro entry member
    simp only [Numa.issue, List.mem_cons] at member ⊢
    rcases member with rfl | member
    · exact Nat.lt_succ_self _
    · exact Nat.lt_succ_of_lt (orderly.fresh entry member)

theorem Orderly.free {n : Numa} (orderly : n.Orderly) (number : Nat) :
    (n.free number).Orderly where
  distinct := orderly.distinct.sublist (List.filter_sublist.map _)
  fresh entry member := orderly.fresh entry (List.mem_of_mem_filter member)

/-- Freeing takes exactly the extent of that number away. -/
theorem extents_free {n : Numa} (orderly : n.Orderly) {e : Extent} (used : e ∈ n.extents) :
    e ::ₘ (n.free e.number).extents = n.extents := by
  obtain ⟨entry, member, rfl⟩ := List.mem_map.mp (Multiset.mem_coe.mp used)
  obtain ⟨before, after, split, apart⟩ := Keyed.exists_split orderly.distinct member
  have rest : (n.free entry.1.number).live = before ++ after := by
    simp only [Numa.free, split]
    exact Keyed.filter_split apart
  simp only [extents, rest, split, List.map_append, List.map_cons, Multiset.cons_coe]
  exact Multiset.coe_eq_coe.mpr List.perm_middle.symm

/-- What is written to an extent leaves the extent as it is. -/
theorem Orderly.write {n : Numa} (orderly : n.Orderly) (number start : Nat)
    (bytes : Array UInt8) :
    (n.write number start bytes).Orderly ∧ (n.write number start bytes).extents = n.extents := by
  have same : (n.write number start bytes).live.map Prod.fst = n.live.map Prod.fst := by
    simp only [Numa.write, List.map_map]
    apply List.map_congr_left
    intro entry _
    simp only [Function.comp_apply]
    split <;> rfl
  refine ⟨⟨?_, ?_⟩, congrArg Multiset.ofList same⟩
  · have distinct : ((n.live.map Prod.fst).map Extent.number).Nodup := by
      rw [List.map_map]
      exact orderly.distinct
    rw [← same, List.map_map] at distinct
    exact distinct
  · intro entry member
    have there : entry.1 ∈ n.live.map Prod.fst := same ▸ List.mem_map_of_mem member
    obtain ⟨old, inside, number⟩ := List.mem_map.mp there
    exact number ▸ orderly.fresh old inside

end Numa

namespace Device

def extents (d : Device) : Multiset (Nat × Nat) := ↑(d.buffers.map fun b => (b.number, b.size))

/-- Numbers are given once, and the bytes in use are those of the buffers in use. -/
structure Orderly (d : Device) : Prop where
  distinct : (d.buffers.map Buffer.number).Nodup
  fresh : ∀ b ∈ d.buffers, b.number < d.issued
  bytes : d.liveBytes = (d.buffers.map Buffer.bytes).sum

/-- The device with one more buffer, on the device selected by `device`. -/
def holding (d : Device) (size device : Nat) : Device :=
  { d with
    selected := device
    issued := d.issued + 1
    liveBytes := d.liveBytes + max size 1
    buffers := { number := d.issued, size } :: d.buffers }

/-- Either at most the selection changes, or one buffer with a new number is in use. -/
theorem allocate_cases (d : Device) (size device : Nat) :
    (∃ e selected, d.allocate size device = (.error e, { d with selected })) ∨
      d.allocate size device = (.ok ⟨d.issued, size, device⟩, d.holding size device) := by
  by_cases known : device < d.count
  · simp only [allocate, select, known, if_true, malloc]
    split
    · rename_i failed
      split at failed
      · cases failed
        exact .inl ⟨_, _, rfl⟩
      · split at failed
        · cases failed
          exact .inl ⟨_, _, rfl⟩
        · cases failed
    · rename_i done
      split at done
      · cases done
      · split at done
        · cases done
        · cases done
          exact .inr rfl
  · simp only [allocate, select, known, if_false]
    exact .inl ⟨_, d.selected, rfl⟩

theorem Orderly.holding {d : Device} (orderly : d.Orderly) (size device : Nat) :
    (d.holding size device).Orderly where
  distinct := by
    simp only [Device.holding, List.map_cons, List.nodup_cons]
    refine ⟨?_, orderly.distinct⟩
    intro member
    obtain ⟨b, inside, same⟩ := List.mem_map.mp member
    have older := orderly.fresh b inside
    omega
  fresh := by
    intro b member
    simp only [Device.holding, List.mem_cons] at member ⊢
    rcases member with rfl | member
    · exact Nat.lt_succ_self _
    · exact Nat.lt_succ_of_lt (orderly.fresh b member)
  bytes := by
    simp only [Device.holding, List.map_cons, List.sum_cons, orderly.bytes, Buffer.bytes]
    omega

theorem free_split {d : Device} {b : Buffer} {before after : List Buffer}
    (split : d.buffers = before ++ b :: after)
    (apart : Keyed.Apart Buffer.number before b after) :
    d.free b.number =
      { d with liveBytes := d.liveBytes - b.bytes, buffers := before ++ after } := by
  have found : d.buffers.find? (fun x => x.number == b.number) = some b := by
    rw [split]
    exact Keyed.find?_split apart
  have rest : d.buffers.filter (fun x => x.number != b.number) = before ++ after := by
    rw [split]
    exact Keyed.filter_split apart
  simp only [free, found, rest]

theorem Orderly.free {d : Device} (orderly : d.Orderly) (number : Nat) :
    (d.free number).Orderly := by
  cases found : d.buffers.find? (fun x => x.number == number) with
  | none => simpa only [Device.free, found] using orderly
  | some b =>
      obtain ⟨member, rfl⟩ := Keyed.of_find? found
      obtain ⟨before, after, split, apart⟩ := Keyed.exists_split orderly.distinct member
      have distinct := orderly.distinct
      have bytes := orderly.bytes
      rw [free_split split apart]
      rw [split] at distinct bytes
      refine ⟨?_, ?_, ?_⟩
      · exact distinct.sublist ((List.sublist_append_right [b] after |>.append_left before).map _)
      · intro x inside
        apply orderly.fresh x
        rw [split]
        rcases List.mem_append.mp inside with left | right
        · exact List.mem_append_left _ left
        · exact List.mem_append_right _ (List.mem_cons_of_mem _ right)
      · simp only [List.map_append, List.map_cons, List.sum_append, List.sum_cons] at bytes ⊢
        omega

/-- Freeing takes exactly the buffer of that number away. -/
theorem extents_free {d : Device} (orderly : d.Orderly) {number size : Nat}
    (used : (number, size) ∈ d.extents) :
    (number, size) ::ₘ (d.free number).extents = d.extents := by
  obtain ⟨b, member, same⟩ := List.mem_map.mp (Multiset.mem_coe.mp used)
  cases same
  obtain ⟨before, after, split, apart⟩ := Keyed.exists_split orderly.distinct member
  rw [free_split split apart]
  simp only [extents, split, List.map_append, List.map_cons, Multiset.cons_coe]
  exact Multiset.coe_eq_coe.mpr List.perm_middle.symm

/-- What is written to a buffer changes nothing of the buffers but contents. -/
theorem map_write {α : Type} {f : Buffer → α} (blind : ∀ b c, f { b with contents := c } = f b)
    (d : Device) (number start : Nat) (bytes : Array UInt8) :
    (d.write number start bytes).buffers.map f = d.buffers.map f := by
  simp only [Device.write, List.map_map]
  apply List.map_congr_left
  intro b _
  simp only [Function.comp_apply]
  split
  · exact blind b _
  · rfl

theorem Orderly.write {d : Device} (orderly : d.Orderly) (number start : Nat)
    (bytes : Array UInt8) :
    (d.write number start bytes).Orderly ∧ (d.write number start bytes).extents = d.extents := by
  have numbers := map_write (f := Buffer.number) (fun _ _ => rfl) d number start bytes
  refine ⟨⟨?_, ?_, ?_⟩, congrArg Multiset.ofList (map_write (fun _ _ => rfl) d number start bytes)⟩
  · rw [numbers]
    exact orderly.distinct
  · intro b member
    have there : b.number ∈ d.buffers.map Buffer.number := numbers ▸ List.mem_map_of_mem member
    obtain ⟨old, inside, same⟩ := List.mem_map.mp there
    exact same ▸ orderly.fresh old inside
  · rw [map_write (f := Buffer.bytes) (fun _ _ => rfl)]
    exact orderly.bytes

end Device

end RegisteredHeap
