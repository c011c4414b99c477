import EquityBoard.Proofs.Series.Thinning
import Mathlib.Algebra.Order.Floor.Div
import Mathlib.Data.List.Nodup

/-!
# The positions that thinning keeps

Thinning a list to a budget keeps the items at some ascending positions (`keptPositions`): all of
them if the budget allows it, otherwise the multiples of the stride and the last one. The stride is
the least that meets the budget, so there are at most `budget` multiples below the length, and the
stride bounds the gaps. `downsample?` is the walk with every division and subtraction checked: it
always has an answer. Main statement: `downsample_isThinning`.
-/

namespace EquityBoard

/-! ## Kept positions -/

/-- The positions that thinning keeps of a list of some length, in ascending order. -/
def keptPositions (length budget : Nat) : List Nat :=
  (List.range length).filter fun i => IsKept length budget i

theorem mem_keptPositions {length budget i : Nat} :
    i ∈ keptPositions length budget ↔ i < length ∧ IsKept length budget i := by
  simp only [keptPositions, List.mem_filter, List.mem_range, decide_eq_true_eq]

theorem keptPositions_ascending (length budget : Nat) :
    (keptPositions length budget).Pairwise (· < ·) :=
  List.pairwise_lt_range.filter _

/-- Items that are chosen by their positions are the items at these positions. -/
theorem map_some_filter_zipIdx {α : Type} (l : List α) (p : Nat → Bool) :
    ((l.zipIdx.filter fun e => p e.2).map Prod.fst).map some =
      ((List.range l.length).filter p).map fun i => l[i]? := by
  have hpositions : List.range l.length = l.zipIdx.map Prod.snd := by
    rw [List.zipIdx_map_snd, List.range_eq_range']
  rw [hpositions, List.filter_map, List.map_map, List.map_map]
  refine List.map_congr_left fun e he => ?_
  have hitem : l[e.2]? = some e.1 := List.mem_zipIdx_iff_getElem?.1 (List.mem_of_mem_filter he)
  exact hitem.symm

/-- Thinning a list picks the rows at the kept positions, in their order. -/
theorem map_some_downsample {α : Type} (l : List α) (budget : Nat) :
    (downsample l budget).map some = (keptPositions l.length budget).map fun i => l[i]? := by
  rw [downsample_eq_filter]
  exact map_some_filter_zipIdx l fun i => IsKept l.length budget i

/-! ## First and last -/

theorem head?_keptPositions (n budget : Nat) : (keptPositions (n + 1) budget).head? = some 0 := by
  have hkept : IsKept (n + 1) budget 0 := Or.inr (Or.inr (Or.inl (Nat.zero_mod _)))
  rw [keptPositions, List.range_succ_eq_map, List.filter_cons_of_pos (by exact decide_eq_true hkept)]
  rfl

theorem getLast?_keptPositions (n budget : Nat) :
    (keptPositions (n + 1) budget).getLast? = some n := by
  have hkept : IsKept (n + 1) budget n := Or.inr (Or.inr (Or.inr rfl))
  rw [keptPositions, List.range_succ, List.filter_append,
    List.filter_cons_of_pos (by exact decide_eq_true hkept)]
  exact List.getLast?_concat

theorem head?_downsample {α : Type} (l : List α) (budget : Nat) :
    (downsample l budget).head? = l.head? := by
  cases l with
  | nil => exact congrArg List.head? (if_pos (Or.inr (Nat.zero_le budget)))
  | cons x xs =>
    have hitems := congrArg List.head? (map_some_downsample (x :: xs) budget)
    rw [List.head?_map, List.head?_map, List.length_cons, head?_keptPositions] at hitems
    exact Option.map_injective (Option.some_injective _) hitems

theorem getLast?_downsample {α : Type} (l : List α) (budget : Nat) :
    (downsample l budget).getLast? = l.getLast? := by
  cases l with
  | nil => exact congrArg List.getLast? (if_pos (Or.inr (Nat.zero_le budget)))
  | cons x xs =>
    have hitems := congrArg List.getLast? (map_some_downsample (x :: xs) budget)
    rw [List.getLast?_map, List.getLast?_map, List.length_cons, getLast?_keptPositions] at hitems
    have hlast : (x :: xs)[xs.length]? = some ((x :: xs).getLast (List.cons_ne_nil x xs)) := by
      rw [← List.getLast?_eq_some_getLast, List.getLast?_eq_getElem?]
      rfl
    rw [Option.map_some, hlast] at hitems
    rw [List.getLast?_eq_some_getLast (List.cons_ne_nil x xs)]
    exact Option.map_injective (Option.some_injective _) hitems

/-! ## Gaps and number -/

section Thinned

variable {length budget : Nat}

/-- Of a list that exceeds its budget the multiples of the stride and the last position are kept. -/
theorem isKept_iff (h : ¬ (budget = 0 ∨ length ≤ budget)) (i : Nat) :
    IsKept length budget i ↔ stride length budget ∣ i ∨ i + 1 = length := by
  rw [Nat.dvd_iff_mod_eq_zero, IsKept]
  omega

/-- After every kept position but the last one there is a kept one within the stride. -/
theorem exists_mem_keptPositions (h : ¬ (budget = 0 ∨ length ≤ budget)) {i : Nat}
    (hi : i ∈ keptPositions length budget) (hlast : i + 1 < length) :
    ∃ j ∈ keptPositions length budget, i < j ∧ j ≤ i + stride length budget := by
  have hpos : 0 < stride length budget := stride_pos (by omega) (by omega)
  rw [mem_keptPositions, isKept_iff h] at hi
  by_cases hnext : i + stride length budget < length
  · refine ⟨i + stride length budget, ?_, by omega, Nat.le_refl _⟩
    rw [mem_keptPositions, isKept_iff h]
    have hmultiple : stride length budget ∣ i := hi.2.resolve_right (by omega)
    exact ⟨hnext, Or.inl (Nat.dvd_add hmultiple (Nat.dvd_refl _))⟩
  · -- the next multiple lies behind the end, and the last position before it
    refine ⟨length - 1, ?_, by omega, by omega⟩
    rw [mem_keptPositions, isKept_iff h]
    exact ⟨by omega, Or.inr (by omega)⟩

/-- If every number of an ascending list but the last has a later one close to it, then neighbours
are close to each other. -/
theorem isChain_of_exists {l : List Nat} {gap : Nat} (h : l.Pairwise (· < ·))
    (hclose : ∀ i ∈ l, ∀ k ∈ l, i < k → ∃ j ∈ l, i < j ∧ j ≤ i + gap) :
    l.IsChain fun i j => j ≤ i + gap := by
  induction l with
  | nil => exact .nil
  | cons i l ih =>
    obtain ⟨hi, hl⟩ := List.pairwise_cons.1 h
    have htail : l.IsChain fun i j => j ≤ i + gap := by
      refine ih hl fun m hm k hk hmk => ?_
      obtain ⟨j, hj, hmj, hgap⟩ :=
        hclose m (List.mem_cons_of_mem _ hm) k (List.mem_cons_of_mem _ hk) hmk
      rcases List.mem_cons.1 hj with rfl | hj
      · have := hi m hm
        omega
      · exact ⟨j, hj, hmj, hgap⟩
    cases l with
    | nil => exact .singleton i
    | cons next l =>
      refine List.isChain_cons_cons.2 ⟨?_, htail⟩
      obtain ⟨j, hj, hij, hgap⟩ := hclose i List.mem_cons_self next
        (List.mem_cons_of_mem _ List.mem_cons_self) (hi next List.mem_cons_self)
      -- the neighbour is the least of the later numbers
      rcases List.mem_cons.1 hj with rfl | hj
      · omega
      · rcases List.mem_cons.1 hj with rfl | hj
        · exact hgap
        · have := (List.pairwise_cons.1 hl).1 j hj
          omega

/-- Neighbouring kept positions lie at most one stride apart. -/
theorem isChain_keptPositions (h : ¬ (budget = 0 ∨ length ≤ budget)) :
    (keptPositions length budget).IsChain fun i j => j ≤ i + stride length budget := by
  refine isChain_of_exists (keptPositions_ascending length budget) fun i hi k hk hik => ?_
  have hlast := (mem_keptPositions.1 hk).1
  exact exists_mem_keptPositions h hi (by omega)

/-- The stride is long enough for the budget. -/
theorem length_le_mul_stride (hbudget : budget ≠ 0) :
    length ≤ budget * stride length budget :=
  (ceilDiv_le_iff_le_mul (Nat.pos_of_ne_zero hbudget)).1 (Nat.le_refl (length ⌈/⌉ budget))

/-- There are at most as many multiples of the stride as the budget has, and the last position. -/
theorem length_keptPositions_le (h : ¬ (budget = 0 ∨ length ≤ budget)) :
    (keptPositions length budget).length ≤ budget + 1 := by
  have hnodup : (keptPositions length budget).Nodup :=
    (keptPositions_ascending length budget).imp fun hij => Nat.ne_of_lt hij
  have hsubset : keptPositions length budget ⊆
      (length - 1) :: (List.range budget).map (stride length budget * ·) := by
    intro i hi
    rw [mem_keptPositions, isKept_iff h] at hi
    rcases hi.2 with ⟨k, rfl⟩ | hlast
    · refine List.mem_cons_of_mem _ (List.mem_map.2 ⟨k, ?_, rfl⟩)
      have hlt : stride length budget * k < stride length budget * budget := by
        calc stride length budget * k < length := hi.1
          _ ≤ budget * stride length budget := length_le_mul_stride (by omega)
          _ = stride length budget * budget := Nat.mul_comm _ _
      exact List.mem_range.2 (Nat.lt_of_mul_lt_mul_left hlt)
    · exact List.mem_cons.2 (Or.inl (by omega))
  have hle := (List.subperm_of_subset hnodup hsubset).length_le
  rwa [List.length_cons, List.length_map, List.length_range] at hle

end Thinned

theorem length_downsample {α : Type} (l : List α) (budget : Nat) :
    (downsample l budget).length = (keptPositions l.length budget).length := by
  have hitems := congrArg List.length (map_some_downsample l budget)
  rwa [List.length_map, List.length_map] at hitems

/-! ## The walk with checked operations -/

/-- A quotient; there is none by zero. -/
def quotient? (a b : Nat) : Option Nat := if b = 0 then none else some (a / b)

/-- A remainder; there is none by zero. -/
def remainder? (a b : Nat) : Option Nat := if b = 0 then none else some (a % b)

/-- A difference; there is none below zero. -/
def difference? (a b : Nat) : Option Nat := if a < b then none else some (a - b)

/-- The stride as a checked division that rounds up. -/
def stride? (length budget : Nat) : Option Nat := do
  let quotient ← quotient? length budget
  let remainder ← remainder? length budget
  some (if remainder = 0 then quotient else quotient + 1)

/-- Every item at a multiple of a step; a walk with steps of zero has no answer. -/
def everyNth? {α : Type} (step : Nat) (l : List α) : Option (List α) :=
  if step = 0 then none else some (everyNth step 0 l)

/-- Thinning with every operation checked that does not have an answer for all operands. -/
def downsample? {α : Type} (l : List α) (budget : Nat) : Option (List α) :=
  if budget = 0 ∨ l.length ≤ budget then some l
  else do
    let step ← stride? l.length budget
    let kept ← everyNth? step l
    let lastPosition ← difference? l.length 1
    let offset ← remainder? lastPosition step
    some (kept ++ if offset = 0 then [] else l.getLast?.toList)

theorem stride?_eq {length budget : Nat} (hbudget : budget ≠ 0) :
    stride? length budget = some (stride length budget) := by
  have hsum := Nat.div_add_mod length budget
  have hlt := Nat.mod_lt length (Nat.pos_of_ne_zero hbudget)
  have hstride : stride length budget =
      if length % budget = 0 then length / budget else length / budget + 1 := by
    unfold stride
    split
    · apply Nat.div_eq_of_lt_le
      · rw [Nat.mul_comm]
        omega
      · rw [Nat.mul_comm, Nat.mul_add]
        omega
    · apply Nat.div_eq_of_lt_le
      · rw [Nat.mul_comm, Nat.mul_add]
        omega
      · rw [Nat.mul_comm, Nat.mul_add, Nat.mul_add]
        omega
  rw [hstride, stride?, quotient?, remainder?, if_neg hbudget, if_neg hbudget]
  rfl

/-- No division by zero and no subtraction below zero occurs. -/
theorem downsample?_eq {α : Type} (l : List α) (budget : Nat) :
    downsample? l budget = some (downsample l budget) := by
  unfold downsample? downsample
  by_cases hwhole : budget = 0 ∨ l.length ≤ budget
  · rw [if_pos hwhole, if_pos hwhole]
  · rw [if_neg hwhole, if_neg hwhole]
    have hstride : stride l.length budget ≠ 0 :=
      Nat.ne_of_gt (stride_pos (by omega) (by omega))
    have hlength : ¬ l.length < 1 := by omega
    rw [stride?_eq (by omega)]
    simp only [everyNth?, difference?, remainder?, if_neg hstride, if_neg hlength,
      Option.bind_eq_bind, Option.bind_some]

/-! ## Thinning, told by positions -/

/-- What thinning a list to a budget is to leave of it: the items at some positions. -/
structure IsThinning {α : Type} (l : List α) (budget : Nat) (kept : List α)
    (positions : List Nat) : Prop where
  /-- The items come in the order of the list, and no position is taken twice. -/
  ascending : positions.Pairwise (· < ·)
  items : kept.map some = positions.map fun i => l[i]?
  whole : budget = 0 ∨ l.length ≤ budget → kept = l
  /-- With `s` the length divided by the budget and rounded up, the positions are `0`, `s`, `2 * s`
  and so on, and the last one. -/
  multiples : ¬ (budget = 0 ∨ l.length ≤ budget) → ∀ i,
    i ∈ positions ↔ i < l.length ∧ (l.length ⌈/⌉ budget ∣ i ∨ i + 1 = l.length)
  gaps : ¬ (budget = 0 ∨ l.length ≤ budget) →
    positions.IsChain fun i j => j ≤ i + l.length ⌈/⌉ budget
  length_le : ¬ (budget = 0 ∨ l.length ≤ budget) → kept.length ≤ budget + 1
  head?_eq : kept.head? = l.head?
  getLast?_eq : kept.getLast? = l.getLast?
  two_le : 2 ≤ l.length → 2 ≤ kept.length

/-- Thinning keeps the items at the positions that `IsThinning` tells, for every list and budget,
and never divides by zero or counts below zero on the way. -/
theorem downsample_isThinning {α : Type} (l : List α) (budget : Nat) :
    (∃ positions, IsThinning l budget (downsample l budget) positions) ∧
      downsample? l budget = some (downsample l budget) := by
  refine ⟨⟨keptPositions l.length budget, ?_⟩, downsample?_eq l budget⟩
  exact {
    ascending := keptPositions_ascending l.length budget
    items := map_some_downsample l budget
    whole := fun hwhole => if_pos hwhole
    multiples := fun h i => by
      rw [mem_keptPositions, isKept_iff h]
      rfl
    gaps := isChain_keptPositions
    length_le := fun h => by
      rw [length_downsample]
      exact length_keptPositions_le h
    head?_eq := head?_downsample l budget
    getLast?_eq := getLast?_downsample l budget
    two_le := (two_le_length_downsample l budget).2 }

/-- One item more than the budget already doubles the stride. -/
example : downsample [0, 1, 2, 3] 3 = [0, 2, 3] := by decide

end EquityBoard
