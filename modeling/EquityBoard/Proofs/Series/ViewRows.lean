import EquityBoard.Proofs.Series.Thinning
import Mathlib.Data.List.Forall2

/-!
# Which rows a view shows

The rows of a store ascend in time, so the rows from a time on can be found in three ways that
agree: by skipping the older ones, by testing every row (`dropWhile_eq_filter`), and by halving
(`drop_startIndex`). A view in dollars shows stored rows, and the view in percent of the same range
shows the same ones, each value against its model's base (`IsPercentOf`), since thinning goes by
positions alone (`downsample_map`). Main statement: `select_run`, for every view of every run.
-/

namespace EquityBoard

/-! ## The first row from a time on -/

/-- The first position from `lo` on at which a test fails, looked for by halving the positions up to
`hi`. The test has to hold before some position and to fail from it on. -/
def bisect (test : Nat → Bool) (lo hi : Nat) : Nat :=
  if lo < hi then
    let mid := (lo + hi) / 2
    if test mid then bisect test (mid + 1) hi else bisect test lo mid
  else lo
termination_by hi - lo

/-- Binary search finds the one position where the test turns, if it is true before and false from
there on. -/
theorem bisect_eq {test : Nat → Bool} {lo hi n : Nat} (hlo : lo ≤ n) (hhi : n ≤ hi)
    (before : ∀ i, lo ≤ i → i < n → test i = true)
    (after : ∀ i, n ≤ i → i < hi → test i = false) : bisect test lo hi = n := by
  fun_induction bisect test lo hi with
  | case1 lo hi hlt mid htest ih =>
    -- the position is not in the half up to the middle, where the test holds
    have hmid : mid < n := by
      refine Nat.lt_of_not_le fun hle => ?_
      rw [after mid hle (by omega)] at htest
      cases htest
    exact ih hmid hhi (fun i hi => before i (by omega)) after
  | case2 lo hi hlt mid htest ih =>
    have hmid : n ≤ mid := by
      refine Nat.le_of_not_lt fun hlt' => htest ?_
      exact before mid (by omega) hlt'
    exact ih hlo hmid before fun i hi hi' => after i hi (by omega)
  | case3 lo hi hge => omega

/-- The position of the first row from a time on, looked for by halving. -/
def startIndex (rows : List Row) (cutoff : Int) : Nat :=
  bisect (fun i => rows[i]?.any fun r => r.timestamp < cutoff) 0 rows.length

/-- Of ascending rows those are skipped that are too old. -/
theorem dropWhile_eq_filter {rows : List Row}
    (h : rows.Pairwise fun a b => a.timestamp < b.timestamp) (cutoff : Int) :
    (rows.dropWhile fun r => r.timestamp < cutoff) = rows.filter fun r => cutoff ≤ r.timestamp := by
  induction rows with
  | nil => rfl
  | cons r rest ih =>
    have hcons := List.pairwise_cons.1 h
    by_cases hold : r.timestamp < cutoff
    · rw [List.dropWhile_cons_of_pos (by simpa using hold),
        List.filter_cons_of_neg (by simpa using hold)]
      exact ih hcons.2
    · -- every row after the first one in range is in range, too
      rw [List.dropWhile_cons_of_neg (by simpa using hold), eq_comm, List.filter_eq_self]
      intro r' hr'
      rcases List.mem_cons.1 hr' with rfl | hr'
      · simpa using hold
      · have := hcons.1 r' hr'
        simp only [decide_eq_true_eq]
        omega

/-- Halving finds the rows that are left when the older ones are skipped. -/
theorem drop_startIndex {rows : List Row}
    (h : rows.Pairwise fun a b => a.timestamp < b.timestamp) (cutoff : Int) :
    rows.drop (startIndex rows cutoff) = rows.dropWhile fun r => r.timestamp < cutoff := by
  have hafter : ∀ r ∈ rows.dropWhile fun r => r.timestamp < cutoff, ¬ r.timestamp < cutoff := by
    rw [dropWhile_eq_filter h]
    intro r hr
    have := of_decide_eq_true (List.mem_filter.1 hr).2
    omega
  have hbefore := List.all_takeWhile (p := fun r : Row => r.timestamp < cutoff) (l := rows)
  rw [List.all_eq_true] at hbefore
  have hsplit := List.takeWhile_append_dropWhile (p := fun r : Row => r.timestamp < cutoff)
    (l := rows)
  generalize rows.takeWhile (fun r => r.timestamp < cutoff) = older at hbefore hsplit
  generalize rows.dropWhile (fun r => r.timestamp < cutoff) = newer at hafter hsplit
  subst hsplit
  -- the test holds at the positions of the older rows and at no other
  have hindex : startIndex (older ++ newer) cutoff = older.length := by
    refine bisect_eq (Nat.zero_le _) (by simp) ?_ ?_
    · intro i _ hi
      rw [List.getElem?_append_left hi, List.getElem?_eq_getElem hi]
      exact hbefore _ (List.getElem_mem hi)
    · intro i hi _
      rw [List.getElem?_append_right hi]
      cases hr : newer[i - older.length]? with
      | none => rfl
      | some r => exact decide_eq_false (hafter r (List.mem_of_getElem? hr))
  rw [hindex]
  exact List.drop_left

/-! ## Thinning and percent -/

theorem everyNth_map {α β : Type} (f : α → β) (step wait : Nat) (l : List α) :
    everyNth step wait (l.map f) = (everyNth step wait l).map f := by
  induction l generalizing wait with
  | nil => cases wait <;> rfl
  | cons x xs ih =>
    cases wait with
    | zero =>
      rw [List.map_cons, everyNth, everyNth, List.map_cons, ih]
    | succ wait =>
      rw [List.map_cons, everyNth, everyNth, ih]

/-- Thinning goes by positions, so it does not matter whether the rows are changed before it or
after. -/
theorem downsample_map {α β : Type} (f : α → β) (l : List α) (budget : Nat) :
    downsample (l.map f) budget = (downsample l budget).map f := by
  unfold downsample
  rw [List.length_map]
  split
  · rfl
  · simp only [everyNth_map, List.map_append, List.getLast?_map]
    split
    · rfl
    · cases l.getLast? <;> rfl

theorem downsample_sublist {α : Type} (l : List α) (budget : Nat) :
    (downsample l budget).Sublist l := by
  have hkept : ((l.zipIdx.filter fun e => IsKept l.length budget e.2).map Prod.fst).Sublist
      (l.zipIdx.map Prod.fst) := List.filter_sublist.map Prod.fst
  rw [List.zipIdx_map_fst] at hkept
  rw [downsample_eq_filter]
  exact hkept

theorem thin_map (f : Row → Row) (rows : List Row) (range : Range) (budget : Nat) :
    thin (rows.map f) range budget = (thin rows range budget).map f := by
  cases range with
  | all => rfl
  | trailing window => exact downsample_map f rows budget

/-- A row in percent of a stored one: it is of the same time and carries exactly the models of the
stored row that have a base, each with its value in percent of the base. -/
structure IsPercentOf (bases : PercentBases) (stored shown : Row) : Prop where
  timestamp : shown.timestamp = stored.timestamp
  get?_eq_some_iff : ∀ model y, shown.get? model = some y ↔
    ∃ x b, stored.get? model = some x ∧ bases.base? model = some b ∧ toPercent x b = y

theorem isPercentOf_percentRow (bases : PercentBases) (r : Row) :
    IsPercentOf bases r (bases.percentRow r) where
  timestamp := rfl
  get?_eq_some_iff model y := by
    rw [Store.get?_percentRow, Option.bind_eq_some_iff]
    simp only [Option.map_eq_some_iff, exists_and_left]

namespace Store

/-! ## Views -/

/-- The rows that a view of a range is to show, picked one by one from the stored rows. -/
def picked (rows : List Row) (budget : Nat) (now : Int) : Range → List Row
  | .all => rows
  | .trailing window =>
    downsample (rows.filter fun r => Decimal.clamp64 (now - window) ≤ r.timestamp) budget

/-- A trailing window starts where halving finds its first row. -/
theorem Coherent.inRange_trailing {s : Store} (h : s.Coherent) (window now : Int) :
    inRange s.rows (.trailing window) now =
      s.rows.drop (startIndex s.rows (Decimal.clamp64 (now - window))) :=
  (drop_startIndex h.ascending _).symm

/-- On a coherent store the view is the plain filter by the cutoff, thinned. -/
theorem Coherent.thin_inRange {s : Store} (h : s.Coherent) (range : Range) (now : Int) :
    thin (inRange s.rows range now) range s.budget = picked s.rows s.budget now range := by
  cases range with
  | all => rfl
  | trailing window =>
    exact congrArg (downsample · s.budget) (dropWhile_eq_filter h.ascending _)

theorem picked_sublist (rows : List Row) (budget : Nat) (now : Int) (range : Range) :
    (picked rows budget now range).Sublist rows := by
  cases range with
  | all => exact List.Sublist.refl rows
  | trailing window => exact (downsample_sublist _ budget).trans List.filter_sublist

/-- A view in dollars shows the picked rows as they are stored. -/
theorem Coherent.select_absolute {s : Store} (h : s.Coherent) (range : Range) (now : Int) :
    (s.select ⟨range, .absolute⟩ now).2 = picked s.rows s.budget now range :=
  h.thin_inRange range now

/-- A view in percent shows the picked rows in percent of the bases it leaves. -/
theorem Coherent.select_percent {s : Store} (h : s.Coherent) (range : Range) (now : Int) :
    (s.select ⟨range, .percent⟩ now).2 = (picked s.rows s.budget now range).map
      (s.select ⟨range, .percent⟩ now).1.bases.percentRow := by
  -- the view thins after the division by the bases
  rw [← h.thin_inRange, ← thin_map]
  rfl

/-- What a view shows in any store of a run. It changes neither the rows nor the models nor the
cursor. It has the times of the picked rows, where halving finds the start of a trailing window; in
dollars it shows these rows as they are stored, and in percent it shows each of them with exactly
the models that have a base, in percent of the base. -/
theorem select_run (budget : Nat) (ops : List Op) (range : Range) (now : Int) :
    let s := run { budget } ops
    let shown := picked s.rows budget now range
    let percent := s.select ⟨range, .percent⟩ now
    (∀ mode, (s.select ⟨range, mode⟩ now).1.rows = s.rows ∧
        (s.select ⟨range, mode⟩ now).1.models = s.models ∧
        (s.select ⟨range, mode⟩ now).1.cursor? = s.cursor?) ∧
      (∀ window, inRange s.rows (.trailing window) now =
        s.rows.drop (startIndex s.rows (Decimal.clamp64 (now - window)))) ∧
      shown.Sublist s.rows ∧
      (∀ mode, (s.select ⟨range, mode⟩ now).2.map (·.timestamp) = shown.map (·.timestamp)) ∧
      (s.select ⟨range, .absolute⟩ now).2 = shown ∧
      List.Forall₂ (IsPercentOf percent.1.bases) shown percent.2 := by
  intro s shown percent
  have hcoherent : s.Coherent := coherent_run budget ops
  have hbudget : s.budget = budget := budget_run { budget } ops
  have habsolute := hcoherent.select_absolute range now
  have hpercent := hcoherent.select_percent range now
  rw [hbudget] at habsolute hpercent
  refine ⟨fun _ => ⟨rfl, rfl, rfl⟩, fun window => hcoherent.inRange_trailing window now,
    picked_sublist s.rows budget now range, ?_, habsolute, ?_⟩
  · intro mode
    cases mode with
    | absolute => rw [habsolute]
    | percent =>
      rw [hpercent, List.map_map]
      rfl
  · show List.Forall₂ _ shown (s.select ⟨range, .percent⟩ now).2
    rw [hpercent, List.forall₂_map_right_iff, List.forall₂_same]
    exact fun r _ => isPercentOf_percentRow _ r

end Store

end EquityBoard
