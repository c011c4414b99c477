import EquityBoard.Proofs.Series.Coherence

/-!
# Which rows thinning keeps

`downsample` walks through a list with a counter. `downsample_eq_filter` tells the result by
positions: the multiples of the stride and the last one stay, unless the list is within its budget
and stays whole. From this `lastValue?_downsample_eq_some_iff` says what is left of a model's newest
value. The view of a store is its `fullView`, thinned.
-/

namespace EquityBoard

/-! ## Positions -/

/-- Whether thinning a list of some length to a budget keeps a position. -/
def IsKept (length budget i : Nat) : Prop :=
  budget = 0 ∨ length ≤ budget ∨ i % stride length budget = 0 ∨ i + 1 = length

instance (length budget i : Nat) : Decidable (IsKept length budget i) :=
  inferInstanceAs (Decidable (_ ∨ _ ∨ _ ∨ _))

theorem stride_pos {length budget : Nat} (h : budget < length) (hb : budget ≠ 0) :
    0 < stride length budget := by
  unfold stride
  apply Nat.div_pos
  · omega
  · omega

/-- The counter of `everyNth` waits for the next multiple of the step. -/
theorem everyNth_eq_filter {α : Type} (step : Nat) (l : List α) (wait n : Nat)
    (hmultiple : (n + wait) % step = 0) (hwait : wait < step) :
    everyNth step wait l = ((l.zipIdx n).filter fun e => e.2 % step = 0).map Prod.fst := by
  induction l generalizing wait n with
  | nil => cases wait <;> rfl
  | cons x xs ih =>
    rw [List.zipIdx_cons, List.filter_cons]
    cases wait with
    | zero =>
      have hn : n % step = 0 := hmultiple
      have hnext : (n + 1 + (step - 1)) % step = 0 := by
        rw [show n + 1 + (step - 1) = n + step by omega, Nat.add_mod_right]
        exact hn
      rw [everyNth, ih (step - 1) (n + 1) hnext (by omega), if_pos (decide_eq_true hn)]
      rfl
    | succ wait =>
      -- between two multiples of the step there is none
      have hn : n % step ≠ 0 := by
        intro hn
        rw [Nat.add_mod, hn, Nat.zero_add, Nat.mod_mod, Nat.mod_eq_of_lt hwait] at hmultiple
        omega
      have hnext : (n + 1 + wait) % step = 0 := by
        rw [show n + 1 + wait = n + (wait + 1) by omega]
        exact hmultiple
      rw [everyNth, ih wait (n + 1) hnext (by omega), if_neg (by simpa using hn)]

/-- The multiples of a step and, if it is not among them, the last position. -/
theorem multiples_append_last {α : Type} (step : Nat) (init : List α) (last : α) :
    (((init ++ [last]).zipIdx.filter fun e => e.2 % step = 0).map Prod.fst
        ++ if init.length % step = 0 then [] else [last]) =
      ((init ++ [last]).zipIdx.filter fun e =>
        e.2 % step = 0 ∨ e.2 + 1 = init.length + 1).map Prod.fst := by
  have hinit : (init.zipIdx.filter fun e => e.2 % step = 0 ∨ e.2 + 1 = init.length + 1) =
      init.zipIdx.filter fun e => e.2 % step = 0 := by
    apply List.filter_congr
    intro e he
    have hlt := List.snd_lt_of_mem_zipIdx he
    apply decide_eq_decide.2
    omega
  rw [List.zipIdx_append, List.filter_append, List.filter_append, hinit, List.map_append,
    List.map_append, List.append_assoc]
  congr 1
  rw [List.zipIdx_singleton, Nat.zero_add]
  by_cases hlast : init.length % step = 0
  · simp [hlast]
  · simp [hlast]

/-- Thinning keeps the items at the kept positions, in their order. -/
theorem downsample_eq_filter {α : Type} (l : List α) (budget : Nat) :
    downsample l budget = (l.zipIdx.filter fun e => IsKept l.length budget e.2).map Prod.fst := by
  unfold downsample
  by_cases hwhole : budget = 0 ∨ l.length ≤ budget
  · rw [if_pos hwhole, List.filter_eq_self.2]
    · exact (List.zipIdx_map_fst 0 l).symm
    · intro e _
      apply decide_eq_true
      unfold IsKept
      omega
  · rw [if_neg hwhole]
    rw [not_or] at hwhole
    have hpos := stride_pos (Nat.lt_of_not_le hwhole.2) hwhole.1
    have hne : l ≠ [] := by
      rintro rfl
      exact hwhole.2 (Nat.zero_le _)
    -- the walk gives the multiples of the stride, and the last item is added unless it is one
    simp only [everyNth_eq_filter (stride l.length budget) l 0 0 (Nat.zero_mod _) hpos]
    have hkept : ∀ i, IsKept l.length budget i ↔
        i % stride l.length budget = 0 ∨ i + 1 = l.length := by
      intro i
      unfold IsKept
      omega
    simp only [hkept]
    generalize stride l.length budget = step
    obtain ⟨init, last, rfl⟩ : ∃ init last, l = init ++ [last] :=
      ⟨l.dropLast, l.getLast hne, (List.dropLast_concat_getLast hne).symm⟩
    rw [List.getLast?_concat, List.length_append, List.length_singleton, Nat.add_sub_cancel]
    exact multiples_append_last step init last

/-- Thinning keeps the first and the last item, so it leaves at least two of two or more. -/
theorem two_le_length_downsample {α : Type} (l : List α) (budget : Nat) :
    2 ≤ (downsample l budget).length ↔ 2 ≤ l.length := by
  rw [downsample_eq_filter, List.length_map]
  constructor
  · intro h
    have hle := List.length_filter_le (fun e : α × Nat => IsKept l.length budget e.2) l.zipIdx
    rw [List.length_zipIdx] at hle
    omega
  · intro h
    obtain ⟨first, mid, last, rfl⟩ : ∃ first mid last, l = first :: (mid ++ [last]) := by
      match l, h with
      | first :: second :: rest, _ =>
        exact ⟨first, _, _, congrArg (first :: ·)
          (List.dropLast_concat_getLast (List.cons_ne_nil second rest)).symm⟩
    have hfirst : IsKept (first :: (mid ++ [last])).length budget 0 :=
      Or.inr (Or.inr (Or.inl (Nat.zero_mod _)))
    have hlast : IsKept (first :: (mid ++ [last])).length budget (0 + 1 + mid.length) :=
      Or.inr (Or.inr (Or.inr (by simp; omega)))
    rw [List.zipIdx_cons, List.zipIdx_append, List.zipIdx_singleton,
      List.filter_cons_of_pos (by exact decide_eq_true hfirst), List.filter_append,
      List.filter_cons_of_pos (by exact decide_eq_true hlast)]
    simp

/-! ## The newest value that is left -/

theorem findSome?_filter {α β : Type} (p : α → Bool) (f : α → Option β) (l : List α) :
    (l.filter p).findSome? f = l.findSome? fun a => if p a then f a else none := by
  induction l with
  | nil => rfl
  | cons x xs ih =>
    rw [List.filter_cons, List.findSome?_cons]
    cases p x with
    | true =>
      rw [if_pos rfl, if_pos rfl, List.findSome?_cons, ih]
    | false =>
      rw [if_neg Bool.false_ne_true, if_neg Bool.false_ne_true, ih]

/-- The last item of a list for which `f` has a value, told by positions. -/
theorem findSome?_reverse_eq_some_iff {α β : Type} (f : α → Option β) (l : List α) (y : β) :
    l.reverse.findSome? f = some y ↔
      ∃ i : Nat, l[i]?.bind f = some y ∧ ∀ k : Nat, i < k → l[k]?.bind f = none := by
  induction l with
  | nil => simp
  | cons x xs ih =>
    rw [List.reverse_cons, List.findSome?_append, Option.or_eq_some_iff, ih]
    constructor
    · -- the head counts only if nothing after it has a value
      rintro (⟨i, hi, hlater⟩ | ⟨hnone, hx⟩)
      · refine ⟨i + 1, hi, fun k hk => ?_⟩
        cases k with
        | zero => omega
        | succ k => exact hlater k (by omega)
      · refine ⟨0, ?_, fun k hk => ?_⟩
        · simpa using hx
        · cases k with
          | zero => omega
          | succ k =>
            rw [List.getElem?_cons_succ]
            cases hz : xs[k]? with
            | none => rfl
            | some z =>
              rw [List.findSome?_eq_none_iff] at hnone
              exact hnone z (List.mem_reverse.2 (List.mem_of_getElem? hz))
    · rintro ⟨i, hi, hlater⟩
      cases i with
      | zero =>
        refine Or.inr ⟨?_, by simpa using hi⟩
        rw [List.findSome?_eq_none_iff]
        intro z hz
        obtain ⟨k, hk⟩ := List.mem_iff_getElem?.1 (List.mem_reverse.1 hz)
        have hnone := hlater (k + 1) (by omega)
        rw [List.getElem?_cons_succ, hk] at hnone
        exact hnone
      | succ i => exact Or.inl ⟨i, hi, fun k hk => hlater (k + 1) (by omega)⟩

/-- The value of a model in the row at a position of a view. -/
def valueAt? (view : List Row) (model : String) (i : Nat) : Option Float :=
  view[i]?.bind fun r => r.get? model

theorem valueAt?_of_length_le {view : List Row} {i : Nat} (h : view.length ≤ i) (model : String) :
    valueAt? view model i = none := by
  rw [valueAt?, List.getElem?_eq_none h]
  rfl

/-- Thinning leaves the value of the last kept row that has one. -/
theorem lastValue?_downsample_eq_some_iff (view : List Row) (budget : Nat) (model : String)
    (x : Float) :
    lastValue? (downsample view budget) model = some x ↔
      ∃ i, IsKept view.length budget i ∧ valueAt? view model i = some x ∧
        ∀ k, i < k → IsKept view.length budget k → valueAt? view model k = none := by
  have hkept : ∀ i : Nat, (view.zipIdx[i]?.bind fun e =>
      if IsKept view.length budget e.2 then e.1.get? model else none) =
        if IsKept view.length budget i then valueAt? view model i else none := by
    intro i
    rw [List.getElem?_zipIdx, Nat.zero_add]
    unfold valueAt?
    cases view[i]? with
    | none => simp
    | some r => rfl
  have hread : lastValue? (downsample view budget) model = view.zipIdx.reverse.findSome? fun e =>
      if IsKept view.length budget e.2 then e.1.get? model else none := by
    unfold lastValue?
    rw [downsample_eq_filter, ← List.map_reverse, List.findSome?_map, ← List.filter_reverse,
      findSome?_filter]
    simp only [decide_eq_true_eq, Function.comp_apply]
  rw [hread, findSome?_reverse_eq_some_iff]
  simp only [hkept, ite_eq_right_iff, Option.ite_none_right_eq_some, and_assoc]

/-- Whether thinning leaves a model the value `x` that it has at position `j`: either that position
is kept, or the nearest kept one before it that has a value of the model has the same. -/
def KeepsValue (view : List Row) (budget : Nat) (model : String) (j : Nat) (x : Float) : Prop :=
  IsKept view.length budget j ∨
    ∃ i, i < j ∧ IsKept view.length budget i ∧ valueAt? view model i = some x ∧
      ∀ k, i < k → k < j → IsKept view.length budget k → valueAt? view model k = none

/-- The newest value of a model survives thinning exactly if `KeepsValue` says so. -/
theorem lastValue?_downsample_iff {view : List Row} {model : String} {j : Nat} {x : Float}
    (hj : valueAt? view model j = some x) (hnewest : ∀ k, j < k → valueAt? view model k = none)
    (budget : Nat) :
    lastValue? (downsample view budget) model = some x ↔ KeepsValue view budget model j x := by
  rw [lastValue?_downsample_eq_some_iff]
  constructor
  · rintro ⟨i, hkept, hi, hlater⟩
    rcases Nat.lt_trichotomy i j with hlt | rfl | hgt
    · exact Or.inr ⟨i, hlt, hkept, hi, fun k hik _ => hlater k hik⟩
    · exact Or.inl hkept
    · rw [hnewest i hgt] at hi
      cases hi
  · rintro (hkept | ⟨i, hlt, hkept, hi, hbetween⟩)
    · exact ⟨j, hkept, hj, fun k hjk _ => hnewest k hjk⟩
    · -- if the newest value itself is kept, what stands before it does not matter
      by_cases hkeptj : IsKept view.length budget j
      · exact ⟨j, hkeptj, hj, fun k hjk _ => hnewest k hjk⟩
      · refine ⟨i, hkept, hi, fun k hik hkeptk => ?_⟩
        rcases Nat.lt_trichotomy k j with hkj | rfl | hjk
        · exact hbetween k hik hkj hkeptk
        · exact absurd hkeptk hkeptj
        · exact hnewest k hjk

namespace Store

/-! ## Views of a store before thinning -/

/-- All rows that a selection shows, before thinning. -/
def fullView (s : Store) (selection : Selection) (now : Int) : List Row :=
  let filtered := inRange s.rows selection.range now
  match selection.mode with
  | .absolute => filtered
  | .percent => filtered.map (s.bases.ensure selection.range filtered s.models).percentRow

theorem select_snd (s : Store) (selection : Selection) (now : Int) :
    (s.select selection now).2 = thin (s.fullView selection now) selection.range s.budget := by
  obtain ⟨range, mode⟩ := selection
  cases mode with
  | absolute => rfl
  | percent => rfl

/-- A range view shows rows of the store in their order, none twice. -/
theorem inRange_sublist (rows : List Row) (range : Range) (now : Int) :
    (inRange rows range now).Sublist rows := by
  unfold inRange
  split
  · exact List.Sublist.refl rows
  · exact List.dropWhile_sublist _

theorem get?_percentRow (b : PercentBases) (r : Row) (model : String) :
    (b.percentRow r).get? model =
      (r.get? model).bind fun x => (b.base? model).map (toPercent x) := by
  rw [PercentBases.percentRow, Row.get?, KeyMap.get?_filterMap]
  rfl

/-- A value of a view stands for a stored value of the model. -/
theorem exists_row_of_mem_fullView {s : Store} {selection : Selection} {now : Int} {r : Row}
    (hr : r ∈ s.fullView selection now) {model : String} {x : Float}
    (hx : r.get? model = some x) : ∃ stored ∈ s.rows, ∃ y, stored.get? model = some y := by
  have hsublist := inRange_sublist s.rows selection.range now
  unfold fullView at hr
  split at hr
  · exact ⟨r, hsublist.subset hr, x, hx⟩
  · obtain ⟨stored, hstored, rfl⟩ := List.mem_map.1 hr
    rw [get?_percentRow, Option.bind_eq_some_iff] at hx
    obtain ⟨y, hy, _⟩ := hx
    exact ⟨stored, hsublist.subset hstored, y, hy⟩

theorem Coherent.mem_models_of_valueAt? {s : Store} (h : s.Coherent) {selection : Selection}
    {now : Int} {model : String} {i : Nat} {x : Float}
    (hx : valueAt? (s.fullView selection now) model i = some x) : model ∈ s.models.ids := by
  unfold valueAt? at hx
  obtain ⟨r, hr, hrx⟩ := Option.bind_eq_some_iff.1 hx
  obtain ⟨stored, hstored, y, hy⟩ := exists_row_of_mem_fullView (List.mem_of_getElem? hr) hrx
  exact h.mem_models hstored hy

end Store

end EquityBoard
