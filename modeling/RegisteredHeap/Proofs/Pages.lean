import RegisteredHeap.Proofs.Overflow

/-! # Whole pages

The system gives memory in whole pages. A size is rounded up to the next multiple of the page size,
and wherever the arithmetic of words would fall short of that the request is refused. What is given
is touched page by page before it is handed out.
-/

namespace RegisteredHeap

section Bisect

variable {xs : Array Nat} {x i j base size fuel : Nat}

theorem getD_le_of_le (sorted : xs.toList.Pairwise (· ≤ ·)) (ordered : i ≤ j)
    (inside : j < xs.size) : xs.getD i 0 ≤ xs.getD j 0 := by
  rw [Array.getD_eq_getD_getElem?, Array.getD_eq_getD_getElem?,
    Array.getElem?_eq_getElem inside, Array.getElem?_eq_getElem (ordered.trans_lt inside)]
  rcases Nat.lt_or_eq_of_le ordered with less | rfl
  · exact List.pairwise_iff_getElem.mp sorted i j _ _ less
  · exact le_rfl

/-- If it is in the window at all, `x` is where the halvings end. -/
theorem getElem?_narrow (sorted : xs.toList.Pairwise (· ≤ ·)) (enough : size ≤ fuel + 1)
    (window : base + size ≤ xs.size) (low : base ≤ i) (high : i < base + size)
    (there : xs[i]? = some x) : xs[narrow xs x fuel base size]? = some x := by
  induction fuel generalizing base size i with
  | zero =>
      have single : i = base := by omega
      rw [narrow, ← single, there]
  | succ fuel ih =>
      have value : xs.getD i 0 = x := by rw [Array.getD_eq_getD_getElem?, there, Option.getD_some]
      rw [narrow]
      split
      · have single : i = base := by omega
        rw [← single, there]
      dsimp only
      split
      · rename_i below
        have left : i < base + size / 2 := by
          by_contra right
          have order := getD_le_of_le sorted (Nat.le_of_not_lt right) (by omega : i < xs.size)
          omega
        exact ih (by omega) (by omega) low (by omega) there
      · rename_i above
        rcases Nat.lt_or_ge i (base + size / 2) with left | right
        · -- An entry on the left that is not below the middle is equal to it.
          have inside : base + size / 2 < xs.size := by omega
          have order := getD_le_of_le sorted left.le inside
          have equal : xs.getD (base + size / 2) 0 = x := by omega
          rw [Array.getD_eq_getD_getElem?, Array.getElem?_eq_getElem inside,
            Option.getD_some] at equal
          have middle := (Array.getElem?_eq_getElem inside).trans (congrArg some equal)
          exact ih (by omega) (by omega) le_rfl (by omega) middle
        · exact ih (by omega) (by omega) right (by omega) there

/-- Halving finds what an increasing list has, and nothing else. -/
theorem bisect_iff {entries : List Nat} (sorted : entries.Pairwise (· ≤ ·)) (x : Nat) :
    bisect entries.toArray x = true ↔ x ∈ entries := by
  rw [bisect, beq_iff_eq]
  constructor
  · intro found
    exact List.mem_toArray.mp (Array.mem_of_getElem? found)
  · intro member
    obtain ⟨i, there⟩ := List.mem_iff_getElem?.mp member
    have inside : i < entries.length := (List.getElem?_eq_some_iff.mp there).1
    refine getElem?_narrow sorted (Nat.le_succ _) (Nat.zero_add _).le (Nat.zero_le i) ?_ ?_
    · rwa [Nat.zero_add, List.size_toArray]
    · rwa [List.getElem?_toArray]

end Bisect

namespace Word

variable {n unit : Nat}

theorem le_multipleAbove (positive : 0 < unit) (n : Nat) : n ≤ multipleAbove n unit := by
  have below := Nat.lt_mul_div_succ (n + unit - 1) positive
  rw [Nat.mul_succ, Nat.mul_comm] at below
  rw [multipleAbove]
  omega

theorem isLeast_multipleAbove (positive : 0 < unit) (n : Nat) :
    IsLeast {m | unit ∣ m ∧ n ≤ m} (multipleAbove n unit) := by
  refine ⟨⟨Nat.dvd_mul_left unit _, le_multipleAbove positive n⟩, ?_⟩
  rintro _ ⟨⟨k, rfl⟩, enough⟩
  have few : (n + unit - 1) / unit < k + 1 := by
    rw [Nat.div_lt_iff_lt_mul positive, Nat.succ_mul, Nat.mul_comm k]
    omega
  rw [multipleAbove, Nat.mul_comm unit]
  exact Nat.mul_le_mul_right unit (Nat.lt_succ_iff.mp few)

theorem mul?_eq_some_iff {a b c : Nat} : mul? a b = some c ↔ a * b < limit ∧ a * b = c := by
  simp only [mul?, fit?, Option.ite_none_right_eq_some, Option.some.injEq]

theorem mul?_eq_none_iff {a b : Nat} : mul? a b = none ↔ limit ≤ a * b := by
  simp only [mul?, fit?, ite_eq_right_iff, reduceCtorEq, imp_false, not_lt]

end Word

namespace Numa

/-- How many pages hold so many bytes, on words: one more if they do not fill the last. -/
def pageCount? (pageSize size : Nat) : Option Nat :=
  if 0 < size % pageSize then Word.add? (size / pageSize) 1 else some (size / pageSize)

variable {n : Numa} {pageSize size : Nat}

theorem pageCount?_eq (positive : 0 < pageSize) (word : size < Word.limit) :
    pageCount? pageSize size = some ((size + pageSize - 1) / pageSize) := by
  have parts := Nat.div_add_mod size pageSize
  have rest := Nat.mod_lt size positive
  have sum : size + pageSize - 1 =
      pageSize * (size / pageSize) + (size % pageSize + pageSize - 1) := by omega
  rw [pageCount?, sum, Nat.mul_add_div positive]
  split
  · rename_i more
    have one : (size % pageSize + pageSize - 1) / pageSize = 1 :=
      Nat.div_eq_of_lt_le (by omega) (by omega)
    have fits : size / pageSize + 1 < Word.limit := by
      have few := Nat.le_mul_of_pos_left (size / pageSize) positive
      omega
    rw [one, Word.add?, Word.fit?, if_pos fits]
  · rw [Nat.div_eq_of_lt (by omega : size % pageSize + pageSize - 1 < pageSize), Nat.add_zero]

/-- Touches a page after the other until the end; `none` if the next page is beyond the words, or if
there is no end. -/
def touch (n : Numa) (size offset : Nat) (touched : List Nat) : Option (List Nat) :=
  if offset < size then
    match Word.add? offset n.pageSize with
    | none => none
    | some next => n |>.touch size next (touched ++ [offset])
  else some touched
partial_fixpoint

theorem touch_eq (positive : 0 < n.pageSize) {pages : Nat} (word : pages * n.pageSize < Word.limit)
    (rest i : Nat) (all : i + rest = pages) (touched : List Nat) :
    n.touch (pages * n.pageSize) (i * n.pageSize) touched =
      some (touched ++ (List.range' i rest).map (· * n.pageSize)) := by
  induction rest generalizing i touched with
  | zero =>
      obtain rfl : i = pages := all
      rw [touch, if_neg (Nat.lt_irrefl _)]
      simp
  | succ rest ih =>
      have more : i * n.pageSize < pages * n.pageSize :=
        Nat.mul_lt_mul_of_pos_right (by omega) positive
      have next : i * n.pageSize + n.pageSize = (i + 1) * n.pageSize :=
        (Nat.succ_mul i n.pageSize).symm
      have fits : (i + 1) * n.pageSize < Word.limit :=
        (Nat.mul_le_mul_right n.pageSize (by omega : i + 1 ≤ pages)).trans_lt word
      rw [touch, if_pos more, Word.add?, next, Word.fit?, if_pos fits]
      simp only
      rw [ih (i + 1) (by omega), List.range'_succ, List.map_cons, List.append_assoc]
      rfl

/-- Rounding up adds nothing to whole pages. -/
theorem pageCount_of_whole (positive : 0 < pageSize) (pages : Nat) :
    (pages * pageSize + pageSize - 1) / pageSize = pages :=
  Nat.div_eq_of_lt_le (by omega) (by rw [Nat.succ_mul]; omega)

/-- Each page is touched once, at its start. -/
theorem touch_pageStarts (positive : 0 < n.pageSize) {pages : Nat}
    (word : pages * n.pageSize < Word.limit) :
    n.touch (pages * n.pageSize) 0 [] = some (pageStarts n.pageSize (pages * n.pageSize)) := by
  have all := touch_eq positive word pages 0 (Nat.zero_add pages) []
  rw [Nat.zero_mul, List.nil_append] at all
  rw [all, pageStarts, pageCount_of_whole positive, List.range_eq_range']

theorem map_div_pageStarts (positive : 0 < pageSize) (pages : Nat) :
    (pageStarts pageSize (pages * pageSize)).map (· / pageSize) = List.range pages := by
  rw [pageStarts, pageCount_of_whole positive, List.map_map]
  conv_rhs => rw [← List.map_id (List.range pages)]
  exact List.map_congr_left fun i _ => Nat.mul_div_cancel i positive

/-- At least `size` bytes on a node, in whole pages that the allocator grants. -/
def allocateFrom (n : Numa) (grants : Nat → Bool) (size node : Nat) :
    Except NumaError Extent × Numa :=
  if size = 0 then (.error (.invalidSize 0), n)
  else n.fromAllocator grants ((size + n.pageSize - 1) / n.pageSize) node

/-- The answer to a request that is granted: `pages` pages, each touched once before they are handed
out. -/
def Resident (n : Numa) (pages bytes node : Nat) (r : Except NumaError Extent × Numa) : Prop :=
  ∃ starts, n.touch bytes 0 [] = some starts ∧
    starts.map (· / n.pageSize) = List.range pages ∧
    (∀ start ∈ starts, n.pageSize ∣ start) ∧
    r = (.ok ⟨n.issued, bytes, node⟩,
      { n with
        issued := n.issued + 1
        live := (⟨n.issued, bytes, node⟩,
          starts.foldl (fun c start => c.write start #[0]) {}) :: n.live })

/-- What a request for so many pages on a node is answered. Whether their bytes fit a word is
decided before the node is looked at, whether they fit a layout only after it. -/
structure Answers (n : Numa) (grants : Nat → Bool) (pages node : Nat)
    (r : Except NumaError Extent × Numa) : Prop where
  nothing : pages = 0 → r = (.error (.invalidSize 0), n)
  beyond : Word.mul? pages n.pageSize = none → r = (.error (.invalidSize pages), n)
  unknown : ∀ bytes, 0 < pages → Word.mul? pages n.pageSize = some bytes → node ∉ n.allowed →
    r = (.error (.nodeNotAvailable node), n)
  tooLong : ∀ bytes, 0 < pages → Word.mul? pages n.pageSize = some bytes → node ∈ n.allowed →
    2 ^ 63 - n.pageSize < bytes → r = (.error (.invalidSize bytes), n)
  refused : ∀ bytes, 0 < pages → Word.mul? pages n.pageSize = some bytes → node ∈ n.allowed →
    bytes ≤ 2 ^ 63 - n.pageSize → grants bytes = false →
      r = (.error (.allocationFailed bytes node .allocator), n)
  granted : ∀ bytes, 0 < pages → Word.mul? pages n.pageSize = some bytes → node ∈ n.allowed →
    bytes ≤ 2 ^ 63 - n.pageSize → grants bytes = true → n.Resident pages bytes node r

variable {grants : Nat → Bool} {pages node : Nat} {e : Extent}

theorem not_canAllocateOn_iff (sorted : n.allowed.Pairwise (· ≤ ·)) (node : Nat) :
    (!n.canAllocateOn node) = true ↔ node ∉ n.allowed := by
  rw [Bool.not_eq_true', ← Bool.not_eq_true]
  exact not_congr (bisect_iff sorted node)

theorem issue_resident (positive : 0 < n.pageSize) (word : pages * n.pageSize < Word.limit)
    (node : Nat) :
    n.Resident pages (pages * n.pageSize) node
      (.ok (n.issue (pages * n.pageSize) node (prefault n.pageSize (pages * n.pageSize))).1,
        (n.issue (pages * n.pageSize) node (prefault n.pageSize (pages * n.pageSize))).2) := by
  refine ⟨_, touch_pageStarts positive word, map_div_pageStarts positive pages, ?_, rfl⟩
  intro start member
  obtain ⟨i, -, rfl⟩ := List.mem_map.mp member
  exact Nat.dvd_mul_left n.pageSize i

theorem fromAllocator_answers (positive : 0 < n.pageSize) (sorted : n.allowed.Pairwise (· ≤ ·))
    (grants : Nat → Bool) (pages node : Nat) :
    n.Answers grants pages node (n.fromAllocator grants pages node) := by
  have word {bytes : Nat} (some : 0 < pages) (fits : Word.mul? pages n.pageSize = .some bytes) :
      pages * n.pageSize = bytes ∧
        ¬ (pages * n.pageSize = 0 ∨ Word.limit ≤ pages * n.pageSize) := by
    have more := Nat.mul_pos some positive
    obtain ⟨below, equal⟩ := Word.mul?_eq_some_iff.mp fits
    exact ⟨equal, by omega⟩
  have layout : 1 <<< 63 = 2 ^ 63 := Nat.one_shiftLeft 63
  have closed := not_canAllocateOn_iff sorted node
  have usable (there : node ∈ n.allowed) : ¬ (!n.canAllocateOn node) = true :=
    closed.not.mpr (not_not.mpr there)
  constructor
  · rintro rfl
    simp only [fromAllocator, Nat.zero_mul, true_or, if_true]
  · intro none
    simp only [fromAllocator, Word.mul?_eq_none_iff.mp none, or_true, if_true]
  · intro bytes some fits unknown
    obtain ⟨rfl, inside⟩ := word some fits
    simp only [fromAllocator, if_neg inside, if_pos (closed.mpr unknown)]
  · intro bytes some fits there long
    obtain ⟨rfl, inside⟩ := word some fits
    simp only [fromAllocator, if_neg inside, if_neg (usable there), layout,
      if_pos long]
  · intro bytes some fits there short none
    obtain ⟨rfl, inside⟩ := word some fits
    simp only [fromAllocator, if_neg inside, if_neg (usable there), layout,
      if_neg (not_lt.mpr short), none, Bool.not_false, if_true]
  · intro bytes some fits there short granted
    obtain ⟨rfl, inside⟩ := word some fits
    simp only [fromAllocator, if_neg inside, if_neg (usable there), layout,
      if_neg (not_lt.mpr short), granted, Bool.not_true, Bool.false_eq_true, if_false]
    exact issue_resident positive (Word.mul?_eq_some_iff.mp fits).1 node

/-- Only a request that is granted succeeds, and it is given what it asked for. -/
theorem Answers.size_eq {r : Except NumaError Extent × Numa}
    (answers : n.Answers grants pages node r) (ok : r.1 = .ok e) :
    e.size = pages * n.pageSize := by
  rcases Nat.eq_zero_or_pos pages with none | some
  · rw [answers.nothing none] at ok
    nomatch ok
  cases fits : Word.mul? pages n.pageSize with
  | none =>
      rw [answers.beyond fits] at ok
      nomatch ok
  | some bytes =>
      by_cases there : node ∈ n.allowed
      · rcases Nat.lt_or_ge (2 ^ 63 - n.pageSize) bytes with long | short
        · rw [answers.tooLong bytes some fits there long] at ok
          nomatch ok
        · cases answer : grants bytes with
          | false =>
              rw [answers.refused bytes some fits there short answer] at ok
              nomatch ok
          | true =>
              obtain ⟨_, -, -, -, result⟩ := answers.granted bytes some fits there short answer
              rw [result] at ok
              obtain rfl := Except.ok.inj ok
              exact (Word.mul?_eq_some_iff.mp fits).2.symm
      · rw [answers.unknown bytes some fits there] at ok
        nomatch ok

/-- Requests for memory of the system are met in whole pages. -/
structure WholePages (n : Numa) (grants : Nat → Bool) : Prop where
  /-- The running system is such an allocator. -/
  own : ∀ limit, n.supply = .system limit → (∀ size node,
    n.allocate size node = n.allocateFrom (· < limit) size node) ∧ ∀ pages node,
      n.allocatePages pages node = n.fromAllocator (· < limit) pages node
  pages : ∀ pages node, n.Answers grants pages node (n.fromAllocator grants pages node)
  empty : ∀ node, n.allocateFrom grants 0 node = (.error (.invalidSize 0), n)
  /-- A size is a request for the fewest pages that hold it, and to count them never overflows. -/
  sizes : ∀ size node, 0 < size → size < Word.limit → ∃ pages,
    pageCount? n.pageSize size = some pages ∧ 0 < pages ∧
    IsLeast {m | n.pageSize ∣ m ∧ size ≤ m} (pages * n.pageSize) ∧
    n.Answers grants pages node (n.allocateFrom grants size node)
  least : ∀ size node e, size < Word.limit → (n.allocateFrom grants size node).1 = .ok e →
    0 < size ∧ IsLeast {m | n.pageSize ∣ m ∧ size ≤ m} e.size

theorem allocateFrom_answers (positive : 0 < n.pageSize) (sorted : n.allowed.Pairwise (· ≤ ·))
    (grants : Nat → Bool) {size : Nat} (some : 0 < size) (word : size < Word.limit) (node : Nat) :
    ∃ pages, pageCount? n.pageSize size = .some pages ∧ 0 < pages ∧
      IsLeast {m | n.pageSize ∣ m ∧ size ≤ m} (pages * n.pageSize) ∧
      n.Answers grants pages node (n.allocateFrom grants size node) := by
  refine ⟨_, pageCount?_eq positive word, Nat.div_pos (by omega) positive,
    Word.isLeast_multipleAbove positive size, ?_⟩
  rw [allocateFrom, if_neg some.ne']
  exact fromAllocator_answers positive sorted grants _ node

/-- An extent that is given is as long as was asked for and as the pages make it, and no longer. -/
theorem isLeast_allocateFrom (positive : 0 < n.pageSize) (sorted : n.allowed.Pairwise (· ≤ ·))
    {size : Nat} (word : size < Word.limit)
    (ok : (n.allocateFrom grants size node).1 = .ok e) :
    0 < size ∧ IsLeast {m | n.pageSize ∣ m ∧ size ≤ m} e.size := by
  rcases Nat.eq_zero_or_pos size with rfl | some
  · cases ok
  obtain ⟨pages, -, -, least, answers⟩ :=
    allocateFrom_answers positive sorted grants some word node
  rw [answers.size_eq ok]
  exact ⟨some, least⟩

/-- The memory of a request is never short of it, whatever the allocator grants. -/
theorem allocator_wholePages (n : Numa) (grants : Nat → Bool) (positive : 0 < n.pageSize)
    (sorted : n.allowed.Pairwise (· ≤ ·)) : n.WholePages grants where
  own limit system := by
    constructor
    · intro size node
      rw [allocate, allocateFrom, allocatePages, system]
    · intro pages node
      rw [allocatePages, system]
  pages := fromAllocator_answers positive sorted grants
  empty _ := if_pos rfl
  sizes _ node some word := allocateFrom_answers positive sorted grants some word node
  least _ _ _ word ok := isLeast_allocateFrom positive sorted word ok

/-- The memory of a system with small pages, and not much of it. -/
def smallPages : Numa := { pageSize := 16, supply := .system 256 }

/-- Seventeen bytes are two pages of sixteen. The largest word is refused on any node, a size just
too long for a layout only on a node that may be used. -/
theorem seventeen_wholePages :
    smallPages.WholePages (· < 256) ∧
    (smallPages.allocate 17 0).1 = .ok ⟨0, 32, 0⟩ ∧
    smallPages.touch 32 0 [] = some [0, 16] ∧
    (smallPages.allocate (2 ^ 64 - 1) 0).1 = .error (.invalidSize (2 ^ 60)) ∧
    (smallPages.allocate (2 ^ 64 - 1) 1).1 = .error (.invalidSize (2 ^ 60)) ∧
    (smallPages.allocate (2 ^ 63 - 15) 0).1 = .error (.invalidSize (2 ^ 63)) ∧
    (smallPages.allocate (2 ^ 63 - 15) 1).1 = .error (.nodeNotAvailable 1) :=
  ⟨allocator_wholePages _ _ (by decide) (by decide), by decide,
    touch_pageStarts (n := smallPages) (by decide) (by decide : 2 * 16 < Word.limit),
    by decide, by decide, by decide, by decide⟩

end Numa

end RegisteredHeap
