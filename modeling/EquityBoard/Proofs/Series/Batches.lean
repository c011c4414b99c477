import EquityBoard.Proofs.Series.Cells
import EquityBoard.Proofs.Series.Reports

/-!
# Batches cut, repeated and rearranged

How points are delivered matters only as far as it has to. A batch may be cut in two between times
(`merge_append`), and it may be merged again without any effect (`Coherent.merge_again`). Points of
different times may be mixed in any way, and all points may be if no two of them give a value to the
same cell (`merge_perm_run`).
-/

namespace EquityBoard

namespace Store

/-! ## Batches cut in two -/

theorem takePoints_append_fst (s : Store) (ps qs : List Point) :
    (s.takePoints (ps ++ qs)).1 = ((s.takePoints ps).1.takePoints qs).1 := by
  induction ps generalizing s with
  | nil => rfl
  | cons p ps ih =>
    rw [List.cons_append, takePoints_cons, takePoints_cons]
    exact ih (s.takePoint p).1

theorem takePoints_append_snd (s : Store) (ps qs : List Point) :
    (s.takePoints (ps ++ qs)).2 =
      (s.takePoints ps).2 ++ ((s.takePoints ps).1.takePoints qs).2 := by
  induction ps generalizing s with
  | nil => exact (MergeReport.empty_append _).symm
  | cons p ps ih =>
    rw [List.cons_append, takePoints_snd_cons, takePoints_snd_cons, takePoints_cons, ih,
      MergeReport.append_assoc]

/-- A merge without declared models takes the points and nothing else. -/
theorem merge_nil (s : Store) (points : List Point) :
    s.merge points [] = s.takePoints (inOrder points) := by
  have hsnd : (s.merge points []).2 = (s.takePoints (inOrder points)).2 := by
    rw [merge_snd, learn_nil]
    exact MergeReport.empty_append _
  refine Prod.ext ?_ hsnd
  rw [merge_fst, learn_nil]

/-- A batch whose points follow another one in time may be delivered together with it: the store is
the same, and the report is that of both merges together. -/
theorem merge_append {first later : List Point}
    (h : ∀ p ∈ first, ∀ q ∈ later, p.timestamp ≤ q.timestamp) (s : Store)
    (declared : List String) :
    let whole := s.merge (first ++ later) declared
    let one := s.merge first declared
    let other := one.1.merge later []
    other.1 = whole.1 ∧
      whole.2 = ⟨one.2.appended + other.2.appended, one.2.merged + other.2.merged,
        one.2.stale + other.2.stale, one.2.newModels ++ other.2.newModels⟩ := by
  intro whole one other
  have hother : other = one.1.takePoints (inOrder later) := merge_nil one.1 later
  rw [hother]
  constructor
  · show _ = (s.merge (first ++ later) declared).1
    rw [merge_fst s (first ++ later), inOrder_append h, takePoints_append_fst]
    rfl
  · rw [← MergeReport.append_def]
    show (s.merge (first ++ later) declared).2 = (s.merge first declared).2 ++ _
    rw [merge_snd, merge_snd, inOrder_append h, takePoints_append_snd, MergeReport.append_assoc]
    rfl

/-- The cut may go through the points of one time. -/
theorem merge_append_of_tie :
    let s := run {} [.merge [⟨100, .ofList [("a", 1.0)]⟩] []]
    let first : List Point := [⟨200, .ofList [("b", 2.0)]⟩, ⟨50, .ofList [("c", 3.0)]⟩]
    let later : List Point := [⟨300, .ofList [("a", 5.0)]⟩, ⟨200, .ofList [("b", 4.0), ("d", 6.0)]⟩]
    let whole := s.merge (first ++ later) ["z"]
    let one := s.merge first ["z"]
    let other := one.1.merge later []
    other.1 = whole.1 ∧ whole.2 = ⟨2, 1, 1, ["z", "b", "d"]⟩ ∧
      one.2.newModels ++ other.2.newModels = ["z", "b", "d"] := by
  intro s first later whole one other
  have hcut := merge_append (show ∀ p ∈ first, ∀ q ∈ later, p.timestamp ≤ q.timestamp by decide)
    s ["z"]
  have hsorted : inOrder (first ++ later) =
      [⟨50, .ofList [("c", 3.0)]⟩, ⟨200, .ofList [("b", 2.0)]⟩,
        ⟨200, .ofList [("b", 4.0), ("d", 6.0)]⟩, ⟨300, .ofList [("a", 5.0)]⟩] := by
    simp [first, later, inOrder, List.mergeSort, List.MergeSort.Internal.splitInTwo]
  have hreport : whole.2 = ⟨2, 1, 1, ["z", "b", "d"]⟩ := by
    show (s.merge (first ++ later) ["z"]).2 = _
    rw [merge_snd, hsorted]
    decide +kernel
  refine ⟨hcut.1, hreport, ?_⟩
  exact (congrArg MergeReport.newModels hcut.2).symm.trans (congrArg MergeReport.newModels hreport)

/-! ## Batches merged again -/

/-- A store is settled by its rows, models, bases and budget; the cursor follows from the rows. -/
theorem eq_of_rows {s s' : Store} (rows : s.rows = s'.rows) (models : s.models = s'.models)
    (bases : s.bases = s'.bases) (budget : s.budget = s'.budget) : s = s' :=
  eq_of_newestFirst (List.reverse_inj.1 rows) models bases budget

/-- The rows after a merge are what the same points would make of them. -/
theorem Coherent.isMergeOf_again {s : Store} (h : s.Coherent) (points : List Point)
    (declared : List String) :
    IsMergeOf (s.merge points declared).1 points (s.merge points declared).1.rows where
  ascending := (h.merge points declared).ascending
  times t := by
    refine (or_iff_left ?_).symm
    -- no point is newer than the cursor any more
    rintro ⟨hahead, p, hp, rfl⟩
    rw [isAhead_iff, isOpen_merge] at hahead
    have hle := hahead.2 p hp
    omega
  cells t model := by
    rw [(h.isMergeOf points declared).cells]
    by_cases hopen : (s.merge points declared).1.IsOpen t
    · -- a cell that is open to the points now was so before, and has got their value
      have hbefore := ((isOpen_merge s points declared t).1 hopen).1
      rw [if_pos hopen, if_pos hbefore, ← Option.or_assoc, Option.or_self]
    · rw [if_neg hopen, Option.none_or]

/-- Every point that is not stale the second time has made its models known the first time. -/
theorem models_merge_again (s : Store) (points : List Point) (declared : List String) :
    ((s.merge points declared).1.merge points declared).1.models =
      (s.merge points declared).1.models := by
  rw [models_merge]
  refine ModelSet.insertAll_of_known fun id hid => ?_
  rw [mem_models_merge]
  rcases List.mem_append.1 hid with hdeclared | hpoint
  · exact Or.inr (Or.inl hdeclared)
  · obtain ⟨p, hp, hkey⟩ := List.mem_flatMap.1 hpoint
    rw [List.mem_filter, decide_eq_true_eq, (inOrder_perm points).mem_iff, isOpen_merge] at hp
    exact Or.inr (Or.inr ⟨p, hp.1, hp.2.1, hkey⟩)

/-- A batch merged a second time finds the store as it left it. -/
theorem Coherent.merge_again {s : Store} (h : s.Coherent) (points : List Point)
    (declared : List String) :
    ((s.merge points declared).1.merge points declared).1 = (s.merge points declared).1 := by
  refine eq_of_rows ?_ (models_merge_again s points declared) ?_ ?_
  · have hagain := (h.merge points declared).isMergeOf points declared
    exact hagain.unique (h.isMergeOf_again points declared)
  · exact bases_merge _ points declared
  · exact budget_merge _ points declared

/-- The second merge of a batch reports neither rows nor models. -/
theorem Coherent.report_merge_again {s : Store} (h : s.Coherent) (points : List Point)
    (declared : List String) :
    ((s.merge points declared).1.merge points declared).2.appended = 0 ∧
      ((s.merge points declared).1.merge points declared).2.newModels = [] :=
  (merge_accounts _ points declared).of_eq (h.merge_again points declared)

end Store

/-! ## Batches rearranged -/

/-- No two points of one time have a finite value for the same model. In particular this is so if no
two points of one time carry the same model. -/
def ConflictFree (points : List Point) : Prop :=
  points.Pairwise fun p q => p.timestamp = q.timestamp →
    ∀ model ∈ p.finiteValues.keys, model ∉ q.finiteValues.keys

instance (points : List Point) : Decidable (ConflictFree points) :=
  inferInstanceAs (Decidable (List.Pairwise _ points))

/-- If no two points give a value to the same cell, the last one to do so is the same in any order. -/
theorem lastDelivered?_perm {points points' : List Point} (h : points.Perm points')
    (hfree : ConflictFree points) (t : Int) (model : String) :
    lastDelivered? points t model = lastDelivered? points' t model := by
  unfold lastDelivered?
  have hperm := (h.filter fun p => decide (p.timestamp = t)).filterMap fun p =>
    (p.values.get? model).filter Float.isFinite
  -- the cell gets its values from one point at most
  have hsingle : ((points.filter fun p => decide (p.timestamp = t)).filterMap fun p =>
      (p.values.get? model).filter Float.isFinite).Pairwise fun _ _ => False := by
    rw [List.pairwise_filterMap, List.pairwise_filter]
    refine hfree.imp fun {p q} hpq hp hq x hx y hy => ?_
    rw [← Point.get?_finiteValues] at hx hy
    rw [decide_eq_true_eq] at hp hq
    exact hpq (hp.trans hq.symm) model ((KeyMap.mem_keys_iff _ _).2 ⟨x, hx⟩)
      ((KeyMap.mem_keys_iff _ _).2 ⟨y, hy⟩)
  generalize List.filterMap _ (points.filter _) = values at hperm hsingle
  match values with
  | [] => rw [List.nil_perm.1 hperm]
  | [x] => rw [List.singleton_perm.1 hperm]
  | x :: y :: rest => exact ((List.pairwise_cons.1 hsingle).1 y List.mem_cons_self).elim

namespace Store

/-- Without conflicting cells, the per-cell law does not see the order of the points. -/
theorem IsMergeOf.perm {before : Store} {points points' : List Point} {rows : List Row}
    (hmerge : IsMergeOf before points rows) (h : points.Perm points')
    (hfree : ConflictFree points) : IsMergeOf before points' rows where
  ascending := hmerge.ascending
  times t := by
    rw [hmerge.times]
    simp only [h.mem_iff]
  cells t model := by rw [hmerge.cells, lastDelivered?_perm h hfree]

/-- What two deliveries of the same points have in common, in any store of a run. If the points of
each time keep their order, everything; and if no two points of one time have a finite value for the
same model, the rows, the cursor, the counts of new rows and stale points and, up to their order, the
models. -/
theorem merge_perm_run (budget : Nat) (ops : List Op) {points points' : List Point}
    (h : points.Perm points') (declared : List String) :
    let s := run { budget } ops
    let merged := s.merge points declared
    let merged' := s.merge points' declared
    ((∀ t, points.filter (fun p => p.timestamp = t) = points'.filter (fun p => p.timestamp = t)) →
        merged = merged') ∧
      (ConflictFree points →
        merged.1.rows = merged'.1.rows ∧ merged.1.cursor? = merged'.1.cursor? ∧
          merged.2.appended = merged'.2.appended ∧ merged.2.stale = merged'.2.stale ∧
          ∀ model, model ∈ merged.1.models.ids ↔ model ∈ merged'.1.models.ids) := by
  intro s merged merged'
  have hcoherent : s.Coherent := coherent_run budget ops
  constructor
  · intro horder
    show s.merge points declared = s.merge points' declared
    unfold merge
    rw [inOrder_congr horder]
  · intro hfree
    have hrows : merged.1.rows = merged'.1.rows :=
      ((hcoherent.isMergeOf points declared).perm h hfree).unique
        (hcoherent.isMergeOf points' declared)
    have hsize : merged.1.size = merged'.1.size := by
      rw [← length_rows, ← length_rows, hrows]
    -- the counts and the models are told by the rows, the cursor before and the points as a whole
    refine ⟨hrows, ?_, ?_, ?_, fun model => ?_⟩
    · rw [cursor?_eq_getLast?, cursor?_eq_getLast?, hrows]
    · have hgrowth : merged.1.size = s.size + merged.2.appended :=
        (merge_accounts s points declared).size
      have hgrowth' : merged'.1.size = s.size + merged'.2.appended :=
        (merge_accounts s points' declared).size
      omega
    · rw [stale_merge, stale_merge, h.countP_eq]
    · rw [mem_models_merge, mem_models_merge]
      simp only [h.mem_iff]

/-- Points of one time that keep their order, and points that differ in their models but for a value
that is not finite. -/
theorem merge_perm_run_of_exchange :
    let s := run {} [.merge [⟨100, .ofList [("a", 1.0)]⟩] []]
    let first : Point := ⟨100, .ofList [("a", 2.0)]⟩
    let second : Point := ⟨100, .ofList [("a", 3.0)]⟩
    let newer : Point := ⟨200, .ofList [("a", 4.0)]⟩
    let other : Point := ⟨100, .ofList [("a", 0.0 / 0.0), ("b", 5.0)]⟩
    s.merge [newer, first, second] [] = s.merge [first, second, newer] [] ∧
      (s.merge [other, first] []).1.rows = (s.merge [first, other] []).1.rows ∧
      (s.merge [other, first] []).2.stale = (s.merge [first, other] []).2.stale := by
  intro s first second newer other
  have hmoved : ([newer] ++ [first, second]).Perm ([first, second] ++ [newer]) :=
    List.perm_append_comm
  have horder : ∀ t, [newer, first, second].filter (fun p => p.timestamp = t) =
      [first, second, newer].filter (fun p => p.timestamp = t) := by
    intro t
    by_cases hnewer : newer.timestamp = t
    · subst hnewer
      rfl
    · simp [List.filter_cons, hnewer]
  have hfree : ConflictFree [other, first] := by decide +kernel
  have hexchanged := (merge_perm_run defaultBudget [.merge [⟨100, .ofList [("a", 1.0)]⟩] []]
    (List.Perm.swap first other []) []).2 hfree
  exact ⟨(merge_perm_run defaultBudget _ hmoved []).1 horder, hexchanged.1, hexchanged.2.2.2.1⟩

end Store

end EquityBoard
