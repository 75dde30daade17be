import RegisteredHeap.Proofs.Growth

/-! # Balance of a pool

A pool is sound for a multiset of outstanding blocks when these, the free list and the deferred
lists together are the blocks of its segments, each once. Allocation and freeing move one block at a
time between the three; growth and release add and take away a segment with all of its blocks.
-/

namespace RegisteredHeap

theorem mem_sum_map {α β : Type} {f : α → Multiset β} {entries : List α} {b : β} :
    b ∈ (entries.map f).sum ↔ ∃ a ∈ entries, b ∈ f a := by
  induction entries with
  | nil => simp
  | cons a rest ih => simp [ih]

theorem sum_map_split {α β : Type} [AddCommMonoid β] (f : α → β) (before : List α) (a : α)
    (after : List α) :
    ((before ++ a :: after).map f).sum = f a + ((before ++ after).map f).sum := by
  simp only [List.map_append, List.map_cons, List.sum_append, List.sum_cons]
  abel

namespace Pool

/-- The blocks that the pool has at hand: ready, or waiting to be collected. -/
def stock (p : Pool) : Multiset Block :=
  ↑(p.free.map Block.bare) + (p.segments.map Segment.parked).sum

/-- The blocks of all segments. -/
def slices (p : Pool) : Multiset Block := (p.segments.map Segment.slices).sum

def inventory (p : Pool) : Inventory := (p.segments.map Segment.inventory).sum

/-- The blocks `out` are outstanding, and every block is accounted for. -/
structure Sound (p : Pool) (out : Multiset Block) : Prop where
  size : 0 < p.key.blockSize
  formed : ∀ s ∈ p.segments, s.Formed p.key
  parked : ∀ s ∈ p.segments, s.Parked
  balance : p.stock + out = p.slices
  /-- A segment that waits as a whole is kept for the reserve. -/
  kept : p.retention.neverFree = false →
    (∃ s ∈ p.segments, s.deferred.length = s.capacity) → p.segments.length ≤ p.retention.reserve

/-- Segments lie on extents of their own. -/
def Distinct (p : Pool) : Prop := (p.segments.map fun s => s.extent.number).Nodup

variable {p : Pool} {out : Multiset Block} {b : Backing} {rest : Inventory} {s : Segment}
  {block : Block}

theorem inventory_extents (segments : List Segment) :
    (segments.map Segment.inventory).sum.1 = ↑(segments.map Segment.extent) := by
  induction segments with
  | nil => rfl
  | cons s segments ih =>
      have own : s.inventory.1 = {s.extent} := by
        cases there : s.device <;>
          simp [Segment.inventory, there, Inventory.ofExtent, Inventory.ofRegion,
            DeviceSide.inventory, Inventory.ofMirror]
      rw [List.map_cons, List.sum_cons, Prod.fst_add, ih, own]
      rfl

/-- The numbers of extents in use are distinct, so those of segments that have them are. -/
theorem nodup_numbers {segments : List Segment}
    (holds : b.Holds ((segments.map Segment.inventory).sum + rest)) :
    (segments.map fun s => s.extent.number).Nodup := by
  have numbers : (b.numa.extents.map Extent.number).Nodup := by
    have distinct := holds.orderly.numa.distinct
    simpa only [Numa.extents, Multiset.map_coe, List.map_map, Multiset.coe_nodup,
      Function.comp_def] using distinct
  have split : b.numa.extents = ↑(segments.map Segment.extent) + rest.1 := by
    rw [← inventory_extents]
    exact congrArg Prod.fst holds.inventory
  rw [split, Multiset.map_add] at numbers
  have left := (Multiset.nodup_add.mp numbers).1
  simpa only [Multiset.map_coe, List.map_map, Multiset.coe_nodup, Function.comp_def] using left

theorem distinct_of_holds (holds : b.Holds (p.inventory + rest)) : p.Distinct :=
  nodup_numbers holds

theorem origin_ne_of_apart {before after : List Segment} {t : Segment}
    (apart : Keyed.Apart (fun s => s.extent.number) before s after)
    (member : t ∈ before ++ after) : t.origin ≠ s.origin := by
  intro same
  simp only [Segment.origin, Origin.segment.injEq] at same
  exact apart t member same.2

/-- Among blocks of several segments, those of one are found by their origin. -/
theorem filter_origin {before after : List Segment} {f : Segment → Multiset Block}
    (apart : Keyed.Apart (fun s => s.extent.number) before s after)
    (own : ∀ t ∈ before ++ s :: after, ∀ b ∈ f t, b.origin = t.origin) :
    (((before ++ s :: after).map f).sum).filter (fun b => b.origin = s.origin) = f s := by
  have others (side : List Segment) (inside : ∀ t ∈ side, t ∈ before ++ after) :
      ((side.map f).sum).filter (fun b => b.origin = s.origin) = 0 := by
    rw [Multiset.filter_eq_nil]
    intro b member
    obtain ⟨t, there, origin⟩ := mem_sum_map.mp member
    have known : t ∈ before ++ s :: after := by
      rcases List.mem_append.mp (inside t there) with left | right
      · exact List.mem_append_left _ left
      · exact List.mem_append_right _ (List.mem_cons_of_mem _ right)
    rw [own t known b origin]
    exact origin_ne_of_apart apart (inside t there)
  have middle : (f s).filter (fun b => b.origin = s.origin) = f s := by
    rw [Multiset.filter_eq_self]
    exact own s List.mem_append_cons_self
  rw [List.map_append, List.map_cons, List.sum_append, List.sum_cons, Multiset.filter_add,
    Multiset.filter_add, middle, others before (fun t => List.mem_append_left _),
    others after (fun t => List.mem_append_right _), zero_add, add_zero]

theorem origin_of_mem_parked (parked : s.Parked) (member : block ∈ s.parked) :
    block.origin = s.origin := by
  obtain ⟨b, inside, rfl⟩ := List.mem_map.mp (Multiset.mem_coe.mp member)
  exact parked.own b inside

/-- The free list, the deferred list of a segment and the callers share its blocks. -/
theorem Sound.share (sound : p.Sound out) (distinct : p.Distinct) (member : s ∈ p.segments) :
    Multiset.filter (fun b => b.origin = s.origin) ↑(p.free.map Block.bare) + s.parked +
      out.filter (fun b => b.origin = s.origin) = s.slices := by
  obtain ⟨before, after, split, apart⟩ := Keyed.exists_split distinct member
  have balance := congrArg (Multiset.filter fun b => b.origin = s.origin) sound.balance
  have parked : ((p.segments.map Segment.parked).sum).filter (fun b => b.origin = s.origin) =
      s.parked := by
    rw [split]
    apply filter_origin apart
    intro t there
    rw [← split] at there
    exact fun b => origin_of_mem_parked (sound.parked t there)
  have slices : p.slices.filter (fun b => b.origin = s.origin) = s.slices := by
    rw [Pool.slices, split]
    exact filter_origin apart fun t _ b => Segment.origin_of_mem_slices
  rwa [stock, Multiset.filter_add, Multiset.filter_add, parked, slices] at balance

theorem mem_slices_iff : block ∈ p.slices ↔ ∃ s ∈ p.segments, block ∈ s.slices := mem_sum_map

/-- Whatever the pool has at hand is a block of one of its segments. -/
theorem Sound.mem_slices_of_stock (sound : p.Sound out) (member : block ∈ p.stock) :
    block ∈ p.slices := by
  rw [← sound.balance]
  exact Multiset.mem_add.mpr (.inl member)

theorem Sound.mem_slices_of_out (sound : p.Sound out) (member : block ∈ out) :
    block ∈ p.slices := by
  rw [← sound.balance]
  exact Multiset.mem_add.mpr (.inr member)

/-- The segment that an outstanding block names is there. -/
theorem Sound.segment_of_out (sound : p.Sound out) (member : block ∈ out) :
    ∃ s ∈ p.segments, block ∈ s.slices ∧ block.origin = s.origin := by
  obtain ⟨s, there, slice⟩ := mem_slices_iff.mp (sound.mem_slices_of_out member)
  exact ⟨s, there, slice, Segment.origin_of_mem_slices slice⟩

/-- A segment with an outstanding block has room on its deferred list. -/
theorem Sound.room (sound : p.Sound out) (distinct : p.Distinct) (there : s ∈ p.segments)
    (member : block ∈ out) (origin : block.origin = s.origin) :
    s.deferred.length < s.capacity := by
  have counts := congrArg Multiset.card (sound.share distinct there)
  have some : 0 < (out.filter fun b => b.origin = s.origin).card :=
    Multiset.card_pos_iff_exists_mem.mpr ⟨block, Multiset.mem_filter.mpr ⟨member, origin⟩⟩
  simp only [Multiset.card_add, Segment.card_slices, Segment.parked, Multiset.coe_card,
    List.length_map] at counts
  omega

end Pool

end RegisteredHeap
