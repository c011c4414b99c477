import EquityBoard.Proofs.Series.Reports

/-!
# Stale points and the settled history

A point that is older than the cursor is counted and has no other effect: a batch does what its
points from the cursor on do (`merge_fresh`). So the rows before the newest one are settled. They
never change until the store is cleared, and the newest row stays where it is; all it can get is
further values (`GoesOn`). Main statement: `history_run`, for every store of a run.
-/

namespace EquityBoard

/-- The counts of stale points may be added first or last. -/
theorem MergeReport.append_stale (r : MergeReport) (n : Nat) :
    r ++ { stale := n } = { stale := n } ++ r := by
  simp only [append_def, Nat.add_comm, List.append_nil, List.nil_append]

namespace Store

/-! ## Stale points -/

/-- Points in ascending order do what those of them do that are not stale at the start, and the
others are counted. -/
theorem takePoints_fresh (s : Store) {ps : List Point}
    (hps : ps.Pairwise fun p q => p.timestamp ≤ q.timestamp) :
    (s.takePoints ps).1 = (s.takePoints (ps.filter fun p => s.IsOpen p.timestamp)).1 ∧
      (s.takePoints ps).2 = { stale := ps.countP fun p => ¬ s.IsOpen p.timestamp } ++
        (s.takePoints (ps.filter fun p => s.IsOpen p.timestamp)).2 := by
  induction ps generalizing s with
  | nil => exact ⟨rfl, rfl⟩
  | cons p ps ih =>
    obtain ⟨hstore, hreport⟩ := ih (s.takePoint p).1 (List.pairwise_cons.1 hps).2
    -- the points after `p` are stale for the store with `p` if they are for the one before it
    have hopen : ∀ q ∈ ps, (s.takePoint p).1.IsOpen q.timestamp ↔ s.IsOpen q.timestamp :=
      fun q hq => isOpen_takePoint_of_mem s hps hq
    have hfilter : (ps.filter fun q => (s.takePoint p).1.IsOpen q.timestamp) =
        ps.filter fun q => s.IsOpen q.timestamp :=
      List.filter_congr fun q hq => by simp only [hopen q hq]
    have hcount : (ps.countP fun q => ¬ (s.takePoint p).1.IsOpen q.timestamp) =
        ps.countP fun q => ¬ s.IsOpen q.timestamp :=
      List.countP_congr fun q hq => by simp only [hopen q hq]
    rw [hfilter] at hstore hreport
    rw [hcount] at hreport
    rw [takePoints_cons, takePoints_snd_cons, hstore, hreport]
    by_cases hp : s.IsOpen p.timestamp
    · rw [List.filter_cons_of_pos (by simpa using hp), List.countP_cons_of_neg (by simpa using hp),
        takePoints_cons, takePoints_snd_cons]
      refine ⟨rfl, ?_⟩
      rw [← MergeReport.append_assoc, MergeReport.append_stale, MergeReport.append_assoc]
    · rw [List.filter_cons_of_neg (by simpa using hp), List.countP_cons_of_pos (by simpa using hp),
        takePoint_of_stale hp, takePoint_snd, if_neg hp, ← MergeReport.append_assoc]
      refine ⟨rfl, ?_⟩
      rw [Nat.add_comm]
      rfl

/-- A batch does what its points from the cursor on do, and the others are counted. -/
theorem merge_fresh (s : Store) (points : List Point) (declared : List String) :
    let fresh := points.filter fun p => s.IsOpen p.timestamp
    (s.merge points declared).1 = (s.merge fresh declared).1 ∧
      (s.merge points declared).2 =
        { stale := points.countP fun p => ¬ s.IsOpen p.timestamp } ++
          (s.merge fresh declared).2 := by
  intro fresh
  -- declared models do not move the cursor
  have hfresh : inOrder fresh =
      (inOrder points).filter fun p => (s.learn declared).1.IsOpen p.timestamp :=
    inOrder_filter _ points
  obtain ⟨hstore, hreport⟩ :=
    takePoints_fresh (s.learn declared).1 (inOrder_ascending points)
  rw [← hfresh] at hstore hreport
  rw [(inOrder_perm points).countP_eq] at hreport
  refine ⟨hstore, ?_⟩
  rw [merge_snd, merge_snd, hreport, ← MergeReport.append_assoc, MergeReport.append_stale,
    MergeReport.append_assoc]
  rfl

/-- With a cursor, a batch leaves the store that its points from the cursor on leave, and reports the
same but for the stale points. -/
theorem merge_fresh_of_cursor {s : Store} {c : Int} (hcursor : s.cursor? = some c)
    (points : List Point) (declared : List String) :
    let whole := s.merge points declared
    let fresh := s.merge (points.filter fun p => c ≤ p.timestamp) declared
    whole.1 = fresh.1 ∧ whole.2.appended = fresh.2.appended ∧ whole.2.merged = fresh.2.merged ∧
      whole.2.newModels = fresh.2.newModels ∧
      whole.2.stale = points.countP fun p => p.timestamp < c := by
  have hopen : ∀ t, s.IsOpen t ↔ c ≤ t := by
    intro t
    simp only [IsOpen, hcursor, Option.mem_some_iff, forall_eq']
  intro whole fresh
  have hmerge := merge_fresh s points declared
  simp only [hopen] at hmerge
  obtain ⟨hstore, hreport⟩ := hmerge
  have happended := congrArg MergeReport.appended hreport
  have hmerged := congrArg MergeReport.merged hreport
  have hmodels := congrArg MergeReport.newModels hreport
  refine ⟨hstore, ?_, ?_, hmodels, ?_⟩
  · exact happended.trans (Nat.zero_add _)
  · exact hmerged.trans (Nat.zero_add _)
  · show (s.merge points declared).2.stale = _
    rw [stale_merge]
    simp only [hopen, Int.not_le]

/-! ## The settled rows -/

/-- The rows, newest first, go on from a row and the rows before it: those are as they were, the row
stands where it stood and has lost no model, and newer rows may follow. -/
def GoesOn (before : List Row) (row : Row) (newestFirst : List Row) : Prop :=
  ∃ newer current, newestFirst = newer ++ current :: before ∧
    current.timestamp = row.timestamp ∧ ∀ model ∈ row.values.keys, model ∈ current.values.keys

theorem goesOn_self (newer before : List Row) (row : Row) :
    GoesOn before row (newer ++ row :: before) :=
  ⟨newer, row, rfl, rfl, fun _ h => h⟩

/-- An overlay takes no model from a row. -/
theorem mem_keys_overlay {r : Row} {model : String} (h : model ∈ r.values.keys) (p : Point) :
    model ∈ (r.overlay p).values.keys := by
  rw [KeyMap.mem_keys_iff] at h ⊢
  obtain ⟨x, hx⟩ := h
  rw [Row.overlay, KeyMap.get?_overlay, hx]
  cases p.finiteValues.get? model with
  | none => exact ⟨x, rfl⟩
  | some y => exact ⟨y, rfl⟩

/-- A point does not touch the rows before the newest one, and takes no model from the newest. -/
theorem goesOn_placePoint (newest : Row) (older : List Row) (p : Point) :
    GoesOn older newest (placePoint (newest :: older) p) := by
  rw [placePoint]
  split
  · exact goesOn_self [] older newest
  · split
    · exact ⟨[], newest.overlay p, rfl, rfl, fun _ h => mem_keys_overlay h p⟩
    · exact goesOn_self [Row.ofPoint p] older newest

theorem GoesOn.placePoint {before : List Row} {row : Row} {l : List Row}
    (h : GoesOn before row l) (p : Point) : GoesOn before row (placePoint l p) := by
  obtain ⟨newer, current, rfl, htime, hkeys⟩ := h
  cases newer with
  | nil =>
    -- the row itself is the newest, and may get values
    obtain ⟨added, current', heq, htime', hkeys'⟩ := goesOn_placePoint current before p
    exact ⟨added, current', heq, htime'.trans htime, fun model hm => hkeys' model (hkeys model hm)⟩
  | cons newest newer =>
    obtain ⟨added, newest', heq, _⟩ := goesOn_placePoint newest (newer ++ current :: before) p
    refine ⟨added ++ newest' :: newer, current, ?_, htime, hkeys⟩
    rw [List.cons_append, heq, List.append_assoc, List.cons_append]

/-- A point leaves the rows before a settled row as they are and takes no model from that row. -/
theorem GoesOn.takePoint {before : List Row} {row : Row} {s : Store}
    (h : GoesOn before row s.newestFirst) (p : Point) :
    GoesOn before row (s.takePoint p).1.newestFirst := by
  by_cases hopen : s.IsOpen p.timestamp
  · rw [takePoint_of_isOpen hopen]
    exact h.placePoint p
  · rw [takePoint_of_stale hopen]
    exact h

theorem GoesOn.merge {before : List Row} {row : Row} {s : Store}
    (h : GoesOn before row s.newestFirst) (points : List Point) (declared : List String) :
    GoesOn before row (s.merge points declared).1.newestFirst := by
  rw [merge_fst]
  refine takePoints_induction (P := fun s' => GoesOn before row s'.newestFirst) ?_ ?_ _
  · intro s' p hs'
    exact hs'.takePoint p
  · exact h

/-- The rows go on until the store is cleared. -/
theorem GoesOn.run {before : List Row} {row : Row} {s : Store}
    (h : GoesOn before row s.newestFirst) {ops : List Op} (hops : Op.clear ∉ ops) :
    GoesOn before row (s.run ops).newestFirst := by
  induction ops generalizing s with
  | nil => exact h
  | cons op ops ih =>
    rw [List.mem_cons, not_or] at hops
    refine @ih (s.apply op) ?_ hops.2
    cases op with
    | merge points declared => exact h.merge points declared
    | select selection now => exact h
    | clear => exact absurd rfl hops.1

/-- The cursor is the time of the newest row. -/
theorem exists_newest {s : Store} {c : Int} (h : s.cursor? = some c) :
    ∃ newest older, s.newestFirst = newest :: older ∧ newest.timestamp = c := by
  obtain ⟨newest, hhead, htime⟩ := Option.map_eq_some_iff.1 (s.cursor?_eq ▸ h)
  obtain ⟨older, hrows⟩ := List.head?_eq_some_iff.1 hhead
  exact ⟨newest, older, hrows, htime⟩

/-- The rows of a coherent store before one of them are older, and the rows after it newer. -/
theorem Coherent.rows_around {s : Store} (h : s.Coherent) {newer before : List Row} {row : Row}
    (hrows : s.newestFirst = newer ++ row :: before) :
    s.rows = before.reverse ++ row :: newer.reverse ∧
      (∀ r ∈ before.reverse, r.timestamp < row.timestamp) ∧
      ∀ r ∈ newer.reverse, row.timestamp < r.timestamp := by
  have hreverse : s.rows = before.reverse ++ row :: newer.reverse := by
    rw [rows, hrows, List.reverse_append, List.reverse_cons, List.append_assoc,
      List.singleton_append]
  have hascending := h.ascending
  rw [hreverse, List.pairwise_append, List.pairwise_cons] at hascending
  exact ⟨hreverse, fun r hr => hascending.2.2 r hr row List.mem_cons_self, hascending.2.1.1⟩

/-- The rows before the cursor are all but the newest one. -/
theorem Coherent.filter_rows {s : Store} (h : s.Coherent) {newest : Row} {older : List Row}
    (hrows : s.newestFirst = newest :: older) :
    s.rows.filter (fun r => r.timestamp < newest.timestamp) = older.reverse := by
  change s.newestFirst = [] ++ newest :: older at hrows
  obtain ⟨hreverse, holder, _⟩ := h.rows_around hrows
  rw [hreverse, List.filter_append, List.filter_eq_self.2 fun r hr => decide_eq_true (holder r hr),
    List.reverse_nil, List.filter_cons_of_neg (by simp), List.filter_nil, List.append_nil]

/-- As long as a coherent store with a cursor is not cleared, the rows before the cursor stay in
front as they are, and after them comes a row for the cursor, whose models only grow, with all other
rows after it. -/
theorem Coherent.settled_run {s : Store} (h : s.Coherent) {c : Int} (hcursor : s.cursor? = some c)
    {later more : List Op} (hlater : Op.clear ∉ later) (hmore : Op.clear ∉ more) :
    let settled := s.rows.filter fun r => r.timestamp < c
    ∃ row newer row' newer',
      (s.run later).rows = settled ++ row :: newer ∧ row.timestamp = c ∧
      (∀ r ∈ newer, c < r.timestamp) ∧
      (s.run (later ++ more)).rows = settled ++ row' :: newer' ∧ row'.timestamp = c ∧
      ∀ model ∈ row.values.keys, model ∈ row'.values.keys := by
  obtain ⟨newest, older, hrows, rfl⟩ := exists_newest hcursor
  intro settled
  have hsettled : settled = older.reverse := h.filter_rows hrows
  have hself : GoesOn older newest s.newestFirst := hrows ▸ goesOn_self [] older newest
  obtain ⟨newer, row, hlast, htime, _⟩ := hself.run hlater
  -- the later store is the one that the remaining operations go on from
  have hrow : GoesOn older row (s.run later).newestFirst := hlast ▸ goesOn_self newer older row
  obtain ⟨newer', row', hlast', htime', hkeys⟩ := hrow.run hmore
  rw [← run_append] at hlast'
  have hcoherent (ops : List Op) : (s.run ops).Coherent :=
    run_induction (fun _ op hs => hs.apply op) h ops
  obtain ⟨haround, _, hnewer⟩ := (hcoherent later).rows_around hlast
  obtain ⟨haround', _, _⟩ := (hcoherent (later ++ more)).rows_around hlast'
  rw [hsettled, ← htime]
  exact ⟨row, newer.reverse, row', newer'.reverse, haround, rfl, hnewer, haround', htime', hkeys⟩

/-! ## Any store of a run -/

/-- Stale points have no effect and history is immutable, in any store of a run with a cursor `c`.
A batch leaves the store that its points from `c` on leave, and reports the same but for the stale
points. And as long as the store is not cleared, the rows before `c` stay in front as they are, and
after them comes a row for `c`, whose models only grow, with all other rows after it. -/
theorem history_run (budget : Nat) (ops : List Op) {c : Int}
    (hcursor : (run { budget } ops).cursor? = some c) (points : List Point)
    (declared : List String) :
    let s := run { budget } ops
    let whole := s.merge points declared
    let fresh := s.merge (points.filter fun p => c ≤ p.timestamp) declared
    let settled := s.rows.filter fun r => r.timestamp < c
    (whole.1 = fresh.1 ∧ whole.2.appended = fresh.2.appended ∧ whole.2.merged = fresh.2.merged ∧
        whole.2.newModels = fresh.2.newModels ∧
        whole.2.stale = points.countP fun p => p.timestamp < c) ∧
      ∀ later more, Op.clear ∉ later → Op.clear ∉ more →
        ∃ row newer row' newer',
          (s.run later).rows = settled ++ row :: newer ∧ row.timestamp = c ∧
          (∀ r ∈ newer, c < r.timestamp) ∧
          (s.run (later ++ more)).rows = settled ++ row' :: newer' ∧ row'.timestamp = c ∧
          ∀ model ∈ row.values.keys, model ∈ row'.values.keys := by
  intro s whole fresh settled
  have hcoherent : s.Coherent := coherent_run budget ops
  exact ⟨merge_fresh_of_cursor hcursor points declared,
    fun _ _ hlater hmore => hcoherent.settled_run hcursor hlater hmore⟩

/-- A stale point brings a model of its own that stays unknown, and a tie adds one to the newest
row, which keeps its place when a newer row comes. -/
theorem history_run_of_tie :
    let s := run {}
      [.merge [⟨100, .ofList [("a", 1.0)]⟩] [], .merge [⟨200, .ofList [("a", 2.0)]⟩] []]
    let late : Point := ⟨150, .ofList [("late", 5.0)]⟩
    let tie : Point := ⟨200, .ofList [("b", 3.0)]⟩
    let newer : Op := .merge [⟨300, .ofList [("a", 4.0)]⟩] []
    s.cursor? = some 200 ∧ (s.merge [late, tie] []).1 = (s.merge [tie] []).1 ∧
      (s.merge [late, tie] []).2.newModels = ["b"] ∧
      ∃ row rest row' rest',
        (s.run [.merge [tie] []]).rows = s.rows.filter (fun r => r.timestamp < 200) ++ row :: rest ∧
        (s.run [.merge [tie] [], newer]).rows =
          s.rows.filter (fun r => r.timestamp < 200) ++ row' :: rest' ∧
        ∀ model ∈ row.values.keys, model ∈ row'.values.keys := by
  intro s late tie newer
  have hcursor : s.cursor? = some 200 := by decide +kernel
  have hrun := history_run defaultBudget _ hcursor [late, tie] []
  have hfresh : [late, tie].filter (fun p => (200 : Int) ≤ p.timestamp) = [tie] := rfl
  rw [hfresh] at hrun
  obtain ⟨row, rest, row', rest', hrows, _, _, hrows', _, hkeys⟩ :=
    hrun.2 [.merge [tie] []] [newer] (by simp) (by simp [newer])
  refine ⟨hcursor, hrun.1.1, ?_, row, rest, row', rest', hrows, hrows', hkeys⟩
  exact hrun.1.2.2.2.1.trans (by decide +kernel)

end Store

end EquityBoard
