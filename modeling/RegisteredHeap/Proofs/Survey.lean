import RegisteredHeap.Proofs.Ledger

/-! # Segments of all pools

What the segments of all pools have together, item by item. The items are those that the backing has
given out, so no two segments share an extent, a copy or a key.
-/

namespace RegisteredHeap

def segmentsOf (pools : List Pool) : List Segment := pools.flatMap Pool.segments

/-- The copies of segments on devices. -/
def sidesOf (segments : List Segment) : List DeviceSide := segments.filterMap Segment.device

variable {pools : List Pool} {closed : List Nat} {b : Backing} {out : Multiset Block} {p q : Pool}
  {s t : Segment} {block : Block}

theorem mem_segmentsOf : s ∈ segmentsOf pools ↔ ∃ p ∈ pools, s ∈ p.segments := List.mem_flatMap

theorem mem_sidesOf {segments : List Segment} {d : DeviceSide} :
    d ∈ sidesOf segments ↔ ∃ s ∈ segments, s.device = some d := List.mem_filterMap

theorem sum_inventory (pools : List Pool) :
    (pools.map Pool.inventory).sum = ((segmentsOf pools).map Segment.inventory).sum := by
  induction pools with
  | nil => rfl
  | cons p pools ih =>
      have first : segmentsOf (p :: pools) = p.segments ++ segmentsOf pools := List.flatMap_cons
      rw [List.map_cons, List.sum_cons, ih, first, List.map_append, List.sum_append]
      rfl

theorem sum_mirrors (segments : List Segment) :
    (segments.map Segment.inventory).sum.2.1 =
      ↑((sidesOf segments).map fun d => (d.extent.number, d.extent.size)) := by
  induction segments with
  | nil => rfl
  | cons s segments ih =>
      rw [List.map_cons, List.sum_cons, Prod.snd_add, Prod.fst_add, ih]
      cases there : s.device with
      | none =>
          simp [sidesOf, there, Segment.inventory, Inventory.ofExtent, Inventory.ofRegion]
      | some d =>
          simp [sidesOf, there, Segment.inventory, Inventory.ofExtent, Inventory.ofRegion,
            DeviceSide.inventory, Inventory.ofMirror]

theorem sum_regions (segments : List Segment) :
    (segments.map Segment.inventory).sum.2.2 =
      ↑(segments.map Segment.region) + ↑((sidesOf segments).map DeviceSide.region) := by
  induction segments with
  | nil => rfl
  | cons s segments ih =>
      rw [List.map_cons, List.sum_cons, Prod.snd_add, Prod.snd_add, ih]
      cases there : s.device with
      | none =>
          simp [sidesOf, there, Segment.inventory, Inventory.ofExtent, Inventory.ofRegion]
      | some d =>
          simp [sidesOf, there, Segment.inventory, Inventory.ofExtent, Inventory.ofRegion,
            DeviceSide.inventory, Inventory.ofMirror]
          exact List.perm_middle.symm

namespace Ledger

theorem extents (ledger : Ledger pools closed b out) :
    b.numa.extents = ↑((segmentsOf pools).map Segment.extent) := by
  have parts := congrArg Prod.fst ledger.holds.inventory
  rw [sum_inventory, Prod.fst_add, Pool.inventory_extents, add_zero] at parts
  exact parts

theorem mirrors (ledger : Ledger pools closed b out) :
    b.mirrors = ↑((sidesOf (segmentsOf pools)).map fun d => (d.extent.number, d.extent.size)) := by
  have parts := congrArg (fun i => i.2.1) ledger.holds.inventory
  simp only [sum_inventory, Prod.snd_add, Prod.fst_add, sum_mirrors, add_zero] at parts
  exact parts

theorem regions (ledger : Ledger pools closed b out) :
    b.regions = ↑((segmentsOf pools).map Segment.region) +
      ↑((sidesOf (segmentsOf pools)).map DeviceSide.region) + regionsOf out := by
  have parts := congrArg (fun i => i.2.2) ledger.holds.inventory
  simp only [sum_inventory, Prod.snd_add, sum_regions] at parts
  exact parts

theorem mem_extents (ledger : Ledger pools closed b out) (there : s ∈ segmentsOf pools) :
    s.extent ∈ b.numa.extents := by
  rw [ledger.extents]
  exact Multiset.mem_coe.mpr (List.mem_map_of_mem there)

theorem number_lt_issued (ledger : Ledger pools closed b out) (there : s ∈ segmentsOf pools) :
    s.extent.number < b.numa.issued := by
  obtain ⟨entry, live, extent⟩ := List.mem_map.mp (Multiset.mem_coe.mp (ledger.mem_extents there))
  rw [← extent]
  exact ledger.holds.orderly.numa.fresh entry live

theorem mem_mirrors (ledger : Ledger pools closed b out) {d : DeviceSide}
    (there : s ∈ segmentsOf pools) (known : s.device = some d) :
    (d.extent.number, d.extent.size) ∈ b.mirrors := by
  rw [ledger.mirrors]
  exact Multiset.mem_coe.mpr (List.mem_map.mpr ⟨d, mem_sidesOf.mpr ⟨s, there, known⟩, rfl⟩)

theorem mem_regions (ledger : Ledger pools closed b out) (there : s ∈ segmentsOf pools) :
    s.region ∈ b.regions := by
  rw [ledger.regions]
  exact Multiset.mem_add.mpr (.inl (Multiset.mem_add.mpr
    (.inl (Multiset.mem_coe.mpr (List.mem_map_of_mem there)))))

theorem mem_regions_side (ledger : Ledger pools closed b out) {d : DeviceSide}
    (there : s ∈ segmentsOf pools) (known : s.device = some d) : d.region ∈ b.regions := by
  rw [ledger.regions]
  exact Multiset.mem_add.mpr (.inl (Multiset.mem_add.mpr (.inr (Multiset.mem_coe.mpr
    (List.mem_map_of_mem (mem_sidesOf.mpr ⟨s, there, known⟩))))))

theorem numbers (ledger : Ledger pools closed b out) :
    ((segmentsOf pools).map fun s => s.extent.number).Nodup := by
  have holds := ledger.holds
  rw [sum_inventory] at holds
  exact Pool.nodup_numbers holds

theorem segment_eq (ledger : Ledger pools closed b out) (first : s ∈ segmentsOf pools)
    (second : t ∈ segmentsOf pools) (same : s.extent.number = t.extent.number) : s = t :=
  List.inj_on_of_nodup_map ledger.numbers first second same

theorem pool_eq (ledger : Ledger pools closed b out) (first : p ∈ pools) (second : q ∈ pools)
    (same : p.key = q.key) : p = q :=
  List.inj_on_of_nodup_map ledger.keys first second same

theorem eq_of_sides {κ : Type} {segments : List Segment} (label : DeviceSide → κ) {c d : DeviceSide}
    (distinct : ((sidesOf segments).map label).Nodup) (first : s ∈ segments)
    (second : t ∈ segments) (left : s.device = some c) (right : t.device = some d)
    (same : label c = label d) : s = t := by
  by_contra different
  have pairs := List.pairwise_filterMap.mp (List.pairwise_map.mp distinct)
  have symmetric : Std.Symm fun s t : Segment => ∀ c, s.device = some c → ∀ d, t.device = some d →
      label c ≠ label d :=
    ⟨fun _ _ apart d right c left same => apart c left d right same.symm⟩
  exact pairs.forall first second different c left d right same

/-- Device extents of different segments are different. -/
theorem side_numbers (ledger : Ledger pools closed b out) :
    ((sidesOf (segmentsOf pools)).map fun d => d.extent.number).Nodup := by
  have mirrors := ledger.mirrors
  cases there : b.device with
  | none =>
      simp only [Backing.mirrors, there, Option.map_none, Option.getD_none] at mirrors
      have none : (sidesOf (segmentsOf pools)).map (fun d => (d.extent.number, d.extent.size)) =
          [] := Multiset.coe_eq_zero _ |>.mp mirrors.symm
      rw [List.map_eq_nil_iff.mp none]
      exact List.nodup_nil
  | some d =>
      have distinct := (ledger.holds.orderly.device d there).distinct
      simp only [Backing.mirrors, there, Option.map_some, Option.getD_some, Device.extents]
        at mirrors
      have numbers := congrArg (Multiset.map Prod.fst) mirrors
      simp only [Multiset.map_coe, List.map_map] at numbers
      exact (Multiset.coe_eq_coe.mp numbers).nodup_iff.mp distinct

theorem segment_eq_of_side (ledger : Ledger pools closed b out) {c d : DeviceSide}
    (first : s ∈ segmentsOf pools) (second : t ∈ segmentsOf pools) (left : s.device = some c)
    (right : t.device = some d) (same : c.extent.number = d.extent.number) : s = t :=
  eq_of_sides (fun d => d.extent.number) ledger.side_numbers first second left right same

theorem key_eq (ledger : Ledger pools closed b out) (first : s ∈ segmentsOf pools)
    (second : t ∈ segmentsOf pools) (same : s.region.key = t.region.key) : s = t := by
  have keys := ledger.holds.orderly.keys
  rw [ledger.regions, Multiset.map_add, Multiset.map_add] at keys
  have hosts := (Multiset.nodup_add.mp (Multiset.nodup_add.mp keys).1).1
  simp only [Multiset.map_coe, List.map_map] at hosts
  exact List.inj_on_of_nodup_map (Multiset.coe_nodup.mp hosts) first second same

theorem key_ne_side (ledger : Ledger pools closed b out) {d : DeviceSide}
    (first : s ∈ segmentsOf pools) (second : t ∈ segmentsOf pools) (known : t.device = some d) :
    d.region.key ≠ s.region.key := by
  have keys := ledger.holds.orderly.keys
  rw [ledger.regions, Multiset.map_add, Multiset.map_add] at keys
  obtain ⟨-, -, apart⟩ := Multiset.nodup_add.mp (Multiset.nodup_add.mp keys).1
  simp only [Multiset.map_coe, List.map_map] at apart
  have left : s.region.key ∈ (segmentsOf pools).map (Region.key ∘ Segment.region) :=
    List.mem_map_of_mem first
  have right : d.region.key ∈ (sidesOf (segmentsOf pools)).map (Region.key ∘ DeviceSide.region) :=
    List.mem_map_of_mem (mem_sidesOf.mpr ⟨t, second, known⟩)
  intro same
  exact Multiset.disjoint_left.mp apart left (same ▸ right)

theorem key_ne_user (ledger : Ledger pools closed b out) {r : Region}
    (there : s ∈ segmentsOf pools) (user : r ∈ regionsOf out) : s.region.key ≠ r.key := by
  have keys := ledger.holds.orderly.keys
  rw [ledger.regions, Multiset.map_add] at keys
  obtain ⟨-, -, apart⟩ := Multiset.nodup_add.mp keys
  intro same
  refine Multiset.disjoint_left.mp apart ?_ (Multiset.mem_map_of_mem Region.key user)
  rw [← same, Multiset.map_add]
  exact Multiset.mem_add.mpr (.inl (Multiset.mem_map_of_mem Region.key
    (Multiset.mem_coe.mpr (List.mem_map_of_mem there))))

theorem user_keys (ledger : Ledger pools closed b out) :
    ((regionsOf out).map Region.key).Nodup := by
  have keys := ledger.holds.orderly.keys
  rw [ledger.regions, Multiset.map_add] at keys
  exact (Multiset.nodup_add.mp keys).2.1

end Ledger

end RegisteredHeap
