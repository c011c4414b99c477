import EquityBoard.Proofs.Series.Coherence

/-!
# Cells of the rows

Rows are read cell by cell: the value of a model at a time. A point changes the cells of its own
time only, and those only if it is not stale; over a batch the last finite value that was delivered
for a cell counts. Rows in ascending order are determined by their times and cells (`eq_of_cells`), so
`rows_merge_eq_iff` describes the rows after a merge completely.
-/

namespace EquityBoard

/-- Whether there is a row for a time. -/
def HasRow (rows : List Row) (t : Int) : Prop := ∃ r ∈ rows, r.timestamp = t

/-- The value of a model in the row of a time. -/
def cell? (rows : List Row) (t : Int) (model : String) : Option Float :=
  (rows.find? fun r => r.timestamp = t).bind (·.get? model)

/-- The last finite value that a batch delivers for a cell. -/
def lastDelivered? (points : List Point) (t : Int) (model : String) : Option Float :=
  ((points.filter fun p => p.timestamp = t).filterMap fun p =>
    (p.values.get? model).filter Float.isFinite).getLast?

/-! ## Reading cells -/

theorem hasRow_cons (r : Row) (rest : List Row) (t : Int) :
    HasRow (r :: rest) t ↔ r.timestamp = t ∨ HasRow rest t := by
  simp [HasRow]

theorem cell?_cons (r : Row) (rest : List Row) (t : Int) (model : String) :
    cell? (r :: rest) t model = if r.timestamp = t then r.get? model else cell? rest t model := by
  unfold cell?
  rw [List.find?_cons]
  by_cases h : r.timestamp = t
  · rw [decide_eq_true h, if_pos h]
    rfl
  · rw [decide_eq_false h, if_neg h]

theorem cell?_eq_none {rows : List Row} {t : Int} (h : ¬ HasRow rows t) (model : String) :
    cell? rows t model = none := by
  unfold cell?
  rw [List.find?_eq_none.2, Option.bind_none]
  intro r hr htime
  exact h ⟨r, hr, of_decide_eq_true htime⟩

/-- If the times differ, a cell is that of every row of its time. -/
theorem cell?_eq_get? {rows : List Row} (h : rows.Pairwise fun a b => a.timestamp ≠ b.timestamp)
    {r : Row} (hr : r ∈ rows) (model : String) : cell? rows r.timestamp model = r.get? model := by
  induction rows with
  | nil => cases hr
  | cons first rest ih =>
    have hcons := List.pairwise_cons.1 h
    rw [cell?_cons]
    rcases List.mem_cons.1 hr with rfl | hr
    · rw [if_pos rfl]
    · rw [if_neg (hcons.1 r hr)]
      exact ih hcons.2 hr

/-! ## Rows are determined by their cells -/

/-- Rows told apart by their times are settled by the times and the cells alone. -/
theorem mem_of_cells {l l' : List Row} (h : l.Pairwise fun a b => a.timestamp ≠ b.timestamp)
    (h' : l'.Pairwise fun a b => a.timestamp ≠ b.timestamp) (times : ∀ t, HasRow l t → HasRow l' t)
    (cells : ∀ t model, cell? l t model = cell? l' t model) {r : Row} (hr : r ∈ l) : r ∈ l' := by
  obtain ⟨r', hr', htime⟩ := times r.timestamp ⟨r, hr, rfl⟩
  have hvalues : r.values = r'.values := by
    apply KeyMap.ext_get?
    intro model
    show r.get? model = r'.get? model
    rw [← cell?_eq_get? h hr, ← cell?_eq_get? h' hr', cells, htime]
  have heq : r' = r := by
    cases r
    cases r'
    simp only at htime hvalues
    rw [htime, hvalues]
  exact heq ▸ hr'

theorem timestamp_ne_of_ascending {l : List Row}
    (h : l.Pairwise fun a b => a.timestamp < b.timestamp) :
    l.Pairwise fun a b => a.timestamp ≠ b.timestamp :=
  h.imp fun hab => by omega

/-- Ascending rows with the same times and the same cells are the same rows. -/
theorem eq_of_cells {l l' : List Row} (h : l.Pairwise fun a b => a.timestamp < b.timestamp)
    (h' : l'.Pairwise fun a b => a.timestamp < b.timestamp) (times : ∀ t, HasRow l t ↔ HasRow l' t)
    (cells : ∀ t model, cell? l t model = cell? l' t model) : l = l' := by
  have hne := timestamp_ne_of_ascending h
  have hne' := timestamp_ne_of_ascending h'
  have hnodup : l.Nodup := hne.imp fun hab heq => hab (congrArg _ heq)
  have hnodup' : l'.Nodup := hne'.imp fun hab heq => hab (congrArg _ heq)
  have hmem : ∀ r, r ∈ l ↔ r ∈ l' := by
    intro r
    constructor
    · exact mem_of_cells hne hne' (fun t => (times t).1) cells
    · exact mem_of_cells hne' hne (fun t => (times t).2) fun t model => (cells t model).symm
  -- of the arrangements of the same rows only one is ascending
  have hperm : l.Perm l' := (List.perm_ext_iff_of_nodup hnodup hnodup').2 hmem
  refine hperm.eq_of_pairwise (fun a b _ _ hab hba => ?_) h h'
  omega

/-! ## Delivered values -/

theorem lastDelivered?_cons (p : Point) (ps : List Point) (t : Int) (model : String) :
    lastDelivered? (p :: ps) t model =
      (lastDelivered? ps t model).or
        (if p.timestamp = t then p.finiteValues.get? model else none) := by
  unfold lastDelivered?
  rw [Point.get?_finiteValues]
  by_cases h : p.timestamp = t
  · have htime : decide (p.timestamp = t) = true := decide_eq_true h
    rw [List.filter_cons, htime, if_pos rfl, if_pos h, List.filterMap_cons]
    cases (p.values.get? model).filter Float.isFinite with
    | none => simp
    | some x =>
      simp only [List.getLast?_cons]
      cases (List.filterMap _ _).getLast? <;> rfl
  · have htime : decide (p.timestamp = t) = false := decide_eq_false h
    rw [List.filter_cons, htime, if_neg h, Option.or_none]
    rfl

/-- Times that no point of a batch has get no value from it. -/
theorem lastDelivered?_eq_none {ps : List Point} {t : Int} (h : ∀ p ∈ ps, p.timestamp ≠ t)
    (model : String) : lastDelivered? ps t model = none := by
  unfold lastDelivered?
  rw [List.filter_eq_nil_iff.2 fun p hp => by simpa using h p hp]
  rfl

theorem lastDelivered?_inOrder (points : List Point) (t : Int) (model : String) :
    lastDelivered? (Store.inOrder points) t model = lastDelivered? points t model := by
  unfold lastDelivered?
  rw [Store.filter_inOrder]

namespace Store

/-! ## Rows of a store -/

theorem hasRow_rows (s : Store) (t : Int) : HasRow s.rows t ↔ HasRow s.newestFirst t := by
  simp only [HasRow, mem_rows]

/-- The order in which the rows are searched does not matter, since every time has one row. -/
theorem Coherent.cell?_rows {s : Store} (h : s.Coherent) (t : Int) (model : String) :
    cell? s.rows t model = cell? s.newestFirst t model := by
  by_cases hrow : HasRow s.rows t
  · obtain ⟨r, hr, rfl⟩ := hrow
    have hdesc : s.newestFirst.Pairwise fun a b => a.timestamp ≠ b.timestamp :=
      h.descending.imp fun hab => by omega
    rw [cell?_eq_get? (timestamp_ne_of_ascending h.ascending) hr,
      cell?_eq_get? hdesc (mem_rows.1 hr)]
  · rw [cell?_eq_none hrow, cell?_eq_none fun hn => hrow ((hasRow_rows s t).2 hn)]

/-- A time that is newer than the cursor has no row. -/
theorem Coherent.not_hasRow {s : Store} (h : s.Coherent) {t : Int} (ht : s.IsAhead t) :
    ¬ HasRow s.newestFirst t := by
  rintro ⟨r, hr, rfl⟩
  have hdesc := h.descending
  cases hrows : s.newestFirst with
  | nil =>
    rw [hrows] at hr
    cases hr
  | cons newest older =>
    rw [isAhead_cons hrows] at ht
    rw [hrows] at hr hdesc
    rcases List.mem_cons.1 hr with rfl | hr
    · omega
    · have := (List.pairwise_cons.1 hdesc).1 r hr
      omega

/-! ## One point -/

/-- A point adds a row at its own time if that time lies ahead of the store, and no other. -/
theorem hasRow_takePoint (s : Store) (p : Point) (t : Int) :
    HasRow (s.takePoint p).1.newestFirst t ↔
      HasRow s.newestFirst t ∨ (s.IsAhead t ∧ p.timestamp = t) := by
  by_cases hopen : s.IsOpen p.timestamp
  · rw [takePoint_of_isOpen hopen]
    cases hrows : s.newestFirst with
    | nil =>
      simp [placePoint, HasRow, Row.ofPoint, isAhead_nil hrows]
    | cons newest older =>
      rw [isOpen_cons hrows] at hopen
      rw [isAhead_cons hrows]
      show HasRow (placePoint (newest :: older) p) t ↔ _
      rw [placePoint, if_neg (by omega)]
      split
      · -- a tie leaves the times as they were
        have htie : ¬ (newest.timestamp < t ∧ p.timestamp = t) := by omega
        rw [hasRow_cons, hasRow_cons, Row.timestamp_overlay]
        simp only [htie, or_false]
      · have hnew : newest.timestamp < t ∧ p.timestamp = t ↔ p.timestamp = t := by omega
        rw [hasRow_cons, Row.timestamp_ofPoint, hnew, or_comm]
  · rw [takePoint_of_stale hopen]
    have hold : ¬ (s.IsAhead t ∧ p.timestamp = t) := by
      rintro ⟨hahead, rfl⟩
      exact hopen fun c hc => Int.le_of_lt (hahead c hc)
    simp only [hold, or_false]

/-- A point that is not stale is laid over the cells of its time. -/
theorem cell?_placePoint {newest : Row} {older : List Row} {p : Point} {model : String}
    (hopen : newest.timestamp ≤ p.timestamp)
    (hnone : newest.timestamp < p.timestamp → cell? (newest :: older) p.timestamp model = none)
    (t : Int) :
    cell? (placePoint (newest :: older) p) t model =
      (if p.timestamp = t then p.finiteValues.get? model else none).or
        (cell? (newest :: older) t model) := by
  rw [placePoint, if_neg (by omega)]
  split
  · rename_i htie
    rw [cell?_cons, cell?_cons, Row.timestamp_overlay]
    by_cases htime : p.timestamp = t
    · have hnewest : newest.timestamp = t := by omega
      rw [if_pos htime, if_pos hnewest, if_pos hnewest]
      exact KeyMap.get?_overlay newest.values p.finiteValues model
    · have hnewest : newest.timestamp ≠ t := by omega
      rw [if_neg htime, if_neg hnewest, if_neg hnewest, Option.none_or]
  · rw [cell?_cons, Row.timestamp_ofPoint]
    by_cases htime : p.timestamp = t
    · -- the point starts a row, and before it there was none of its time
      subst htime
      rw [if_pos rfl, if_pos rfl, hnone (by omega), Option.or_none]
      rfl
    · rw [if_neg htime, if_neg htime, Option.none_or]

/-- One step of the cell law: an accepted point overlays the finite values it carries and every
other cell stays. -/
theorem cell?_takePoint {s : Store} (h : s.Coherent) (p : Point) (t : Int) (model : String) :
    cell? (s.takePoint p).1.newestFirst t model =
      (if s.IsOpen t ∧ p.timestamp = t then p.finiteValues.get? model else none).or
        (cell? s.newestFirst t model) := by
  by_cases hopen : s.IsOpen p.timestamp
  · have htime : s.IsOpen t ∧ p.timestamp = t ↔ p.timestamp = t := by
      constructor
      · exact And.right
      · rintro rfl
        exact ⟨hopen, rfl⟩
    rw [takePoint_of_isOpen hopen]
    simp only [htime]
    cases hrows : s.newestFirst with
    | nil =>
      show cell? [Row.ofPoint p] t model = _
      rw [cell?_cons, Row.timestamp_ofPoint]
      exact (Option.or_none).symm
    | cons newest older =>
      refine cell?_placePoint ((isOpen_cons hrows _).1 hopen) (fun hlt => ?_) t
      have hnone := h.not_hasRow ((isAhead_cons hrows _).2 hlt)
      rw [hrows] at hnone
      exact cell?_eq_none hnone model
  · rw [takePoint_of_stale hopen, if_neg, Option.none_or]
    rintro ⟨hopen', rfl⟩
    exact hopen hopen'

/-! ## A batch -/

theorem hasRow_takePoints (s : Store) {ps : List Point}
    (hps : ps.Pairwise fun p q => p.timestamp ≤ q.timestamp) (t : Int) :
    HasRow (s.takePoints ps).1.newestFirst t ↔
      HasRow s.newestFirst t ∨ (s.IsAhead t ∧ ∃ p ∈ ps, p.timestamp = t) := by
  induction ps generalizing s with
  | nil => simp
  | cons p ps ih =>
    have hcons := List.pairwise_cons.1 hps
    have hexists : (∃ q ∈ p :: ps, q.timestamp = t) ↔
        p.timestamp = t ∨ ∃ q ∈ ps, q.timestamp = t := by simp
    rw [takePoints_cons, ih _ hcons.2, hasRow_takePoint, isAhead_takePoint, or_assoc, hexists]
    refine or_congr_right ?_
    constructor
    · rintro (⟨hahead, htime⟩ | ⟨⟨hahead, _⟩, hmem⟩)
      · exact ⟨hahead, Or.inl htime⟩
      · exact ⟨hahead, Or.inr hmem⟩
    · rintro ⟨hahead, htime | ⟨q, hq, htime⟩⟩
      · exact Or.inl ⟨hahead, htime⟩
      · -- a later point of the same time finds the row that this point started
        have hle := hcons.1 q hq
        by_cases heq : p.timestamp = t
        · exact Or.inl ⟨hahead, heq⟩
        · exact Or.inr ⟨⟨hahead, by omega⟩, q, hq, htime⟩

/-- The cell law over a whole sorted batch: at an open time the last finite value delivered wins,
else the cell before. -/
theorem cell?_takePoints {s : Store} (h : s.Coherent) {ps : List Point}
    (hps : ps.Pairwise fun p q => p.timestamp ≤ q.timestamp) (t : Int) (model : String) :
    cell? (s.takePoints ps).1.newestFirst t model =
      (if s.IsOpen t then lastDelivered? ps t model else none).or
        (cell? s.newestFirst t model) := by
  induction ps generalizing s with
  | nil => simp [lastDelivered?]
  | cons p ps ih =>
    have hcons := List.pairwise_cons.1 hps
    -- the last point that has a value counts, so the later points stand first
    rw [takePoints_cons, ih (h.takePoint p) hcons.2, cell?_takePoint h, lastDelivered?_cons]
    simp only [isOpen_takePoint]
    by_cases hopen : s.IsOpen t
    · by_cases hle : p.timestamp ≤ t
      · simp only [hopen, hle, and_self, true_and, if_true, Option.or_assoc]
      · -- the points that follow are newer than the cell, too
        have hlater : ∀ q ∈ ps, q.timestamp ≠ t := by
          intro q hq
          have := hcons.1 q hq
          omega
        have hne : p.timestamp ≠ t := by omega
        simp only [hopen, hle, hne, and_false, if_false, if_true, lastDelivered?_eq_none hlater,
          Option.or_none, Option.none_or]
    · simp only [hopen, false_and, if_false, Option.none_or]

/-! ## A merge -/

/-- The rows that a merge of points is to leave, told by their times and cells. -/
structure IsMergeOf (before : Store) (points : List Point) (rows : List Row) : Prop where
  ascending : rows.Pairwise fun a b => a.timestamp < b.timestamp
  /-- Rows stay, and every delivered time after the cursor gets one. -/
  times : ∀ t, HasRow rows t ↔
    HasRow before.rows t ∨ (before.IsAhead t ∧ ∃ p ∈ points, p.timestamp = t)
  /-- From the cursor on the last delivered finite value counts, if there is one. -/
  cells : ∀ t model, cell? rows t model =
    (if before.IsOpen t then lastDelivered? points t model else none).or
      (cell? before.rows t model)

/-- The per-cell law leaves no freedom: at most one list of rows satisfies it. -/
theorem IsMergeOf.unique {before : Store} {points : List Point} {l l' : List Row}
    (h : IsMergeOf before points l) (h' : IsMergeOf before points l') : l = l' := by
  refine eq_of_cells h.ascending h'.ascending (fun t => ?_) fun t model => ?_
  · rw [h.times, h'.times]
  · rw [h.cells, h'.cells]

theorem Coherent.isMergeOf {s : Store} (h : s.Coherent) (points : List Point)
    (declared : List String) : IsMergeOf s points (s.merge points declared).1.rows where
  ascending := (h.merge points declared).ascending
  times t := by
    rw [hasRow_rows, merge_fst, hasRow_takePoints _ (inOrder_ascending points), hasRow_rows]
    simp only [(inOrder_perm points).mem_iff]
    rfl
  cells t model := by
    rw [(h.merge points declared).cell?_rows, merge_fst,
      cell?_takePoints (h.learn declared) (inOrder_ascending points), lastDelivered?_inOrder,
      h.cell?_rows]
    rfl

/-- Merging a batch into any store of a run leaves the rows that `IsMergeOf` tells, no others. -/
theorem rows_merge_eq_iff (budget : Nat) (ops : List Op) (points : List Point)
    (declared : List String) (rows : List Row) :
    ((run { budget } ops).merge points declared).1.rows = rows ↔
      IsMergeOf (run { budget } ops) points rows := by
  have hmerge := (coherent_run budget ops).isMergeOf points declared
  constructor
  · rintro rfl
    exact hmerge
  · exact hmerge.unique

end Store

end EquityBoard
