import EquityBoard.Proofs.Series.RepeatedReports
import Mathlib.Data.Finset.Card
import Mathlib.Data.List.Forall2

/-!
# Exact reports

The report of a merge is told by the batch and the store before it (`MergeReport.IsExact`): which
points were stale, how many rows were started, which models are new. Every point counts at most once
(`counts_takePoints_le`). If no row is started and no point counts as merged, then every point of the
batch has told the store nothing, and the rows are the same numbers as before
(`Coherent.isSame_takePoints`). Main statement: `merge_isExact`.
-/

namespace EquityBoard

/-! ## Rows that are the same numbers -/

namespace Row

/-- Two rows of one time that have values for the same models, and for each the same number: a zero
has no sign. -/
def IsSame (r r' : Row) : Prop :=
  r.timestamp = r'.timestamp ∧
    ∀ model, Option.Rel (fun x y => (x == y) = true) (r.get? model) (r'.get? model)

theorem isSame_self {r : Row} (h : ∀ model x, r.get? model = some x → x.isFinite = true) :
    r.IsSame r := by
  refine ⟨rfl, fun model => ?_⟩
  cases hx : r.get? model with
  | none => exact .none
  | some x => exact .some (Decimal.beq_self_of_isFinite (h model x hx))

theorem rel_beq_trans {o o' o'' : Option Float} (h : Option.Rel (fun x y => (x == y) = true) o o')
    (h' : Option.Rel (fun x y => (x == y) = true) o' o'') :
    Option.Rel (fun x y => (x == y) = true) o o'' := by
  cases h with
  | none => exact h'
  | some hxy =>
    cases h' with
    | some hyz => exact .some ((Decimal.beq_congr_left hxy _).trans hyz)

theorem IsSame.trans {r r' r'' : Row} (h : r.IsSame r') (h' : r'.IsSame r'') : r.IsSame r'' :=
  ⟨h.1.trans h'.1, fun model => rel_beq_trans (h.2 model) (h'.2 model)⟩

/-- A point that tells a row nothing leaves it the same. -/
theorem isSame_overlay {r : Row} {p : Point}
    (hfinite : ∀ model x, r.get? model = some x → x.isFinite = true)
    (h : r.isChangedBy p = false) : r.IsSame (r.overlay p) := by
  rw [isChangedBy_eq_false_iff] at h
  refine ⟨rfl, fun model => ?_⟩
  have hoverlay : (r.overlay p).get? model = (p.finiteValues.get? model).or (r.get? model) :=
    KeyMap.get?_overlay r.values p.finiteValues model
  rw [hoverlay]
  cases hx : p.finiteValues.get? model with
  | none => exact (isSame_self hfinite).2 model
  | some x =>
    obtain ⟨old, hold, heq⟩ := h model x hx
    rw [Option.mem_def.1 hold]
    exact .some heq

end Row

theorem forall₂_isSame_self {rows : List Row}
    (h : ∀ r ∈ rows, ∀ model x, r.get? model = some x → x.isFinite = true) :
    List.Forall₂ Row.IsSame rows rows :=
  List.forall₂_same.2 fun r hr => Row.isSame_self (h r hr)

theorem forall₂_isSame_trans {l l' l'' : List Row} (h : List.Forall₂ Row.IsSame l l')
    (h' : List.Forall₂ Row.IsSame l' l'') : List.Forall₂ Row.IsSame l l'' := by
  induction h generalizing l'' with
  | nil => exact h'
  | cons hrow _ ih =>
    cases h' with
    | cons hrow' hrest => exact .cons (hrow.trans hrow') (ih hrest)

/-! ## The statement -/

/-- The distinct times of a batch. -/
def timesOf (points : List Point) : Finset Int := (points.map (·.timestamp)).toFinset

/-- The distinct times of a batch that are newer than the cursor of a store. -/
def Store.newTimes (s : Store) (points : List Point) : Finset Int :=
  s.cursor?.elim (timesOf points) fun c => (timesOf points).filter fun t => c < t

/-- What the report of a merge is to tell, given the store before and after it. -/
structure MergeReport.IsExact (report : MergeReport) (before : Store) (points : List Point)
    (declared : List String) (after : Store) : Prop where
  /-- The points that are older than the cursor are stale. -/
  stale : report.stale = before.cursor?.elim 0 fun c => points.countP fun p => p.timestamp < c
  /-- Every time that is newer than the cursor starts a row. -/
  appended : report.appended = (before.newTimes points).card
  growth : after.rows.length = before.rows.length + report.appended
  total : report.appended + report.merged + report.stale ≤ points.length
  models : after.models.ids = before.models.ids ++ report.newModels
  nodup : (before.models.ids ++ report.newModels).Nodup
  /-- The new models are the declared ones and then those of the points that are not stale, in the
  order in which they are first met. -/
  newModels : report.newModels = ((declared ++
    ((Store.inOrder points).filter fun p => before.IsOpen p.timestamp).flatMap
      (·.values.keys)).removeAll before.models.ids).eraseDups
  declaredFirst : (declared.removeAll before.models.ids).eraseDups <+: report.newModels
  unchanged : report.changed = false →
    after.models.ids = before.models.ids ∧ List.Forall₂ Row.IsSame before.rows after.rows

theorem MergeReport.changed_eq_false_iff (report : MergeReport) :
    report.changed = false ↔
      report.appended = 0 ∧ report.merged = 0 ∧ report.newModels = [] := by
  simp [MergeReport.changed, and_assoc]

namespace Store

/-! ## Every point counts at most once -/

theorem counts_admission_le (a : Admission) :
    a.report.appended + a.report.merged + a.report.stale ≤ 1 := by
  cases a with
  | stale => decide
  | merged changed => cases changed <;> decide
  | appended => decide

/-- A point is counted at most once, as appended, merged or stale. -/
theorem counts_takePoint_le (s : Store) (p : Point) :
    (s.takePoint p).2.appended + (s.takePoint p).2.merged + (s.takePoint p).2.stale ≤ 1 := by
  have hadmission := counts_admission_le (s.admission p)
  rw [takePoint_snd]
  by_cases hopen : s.IsOpen p.timestamp
  · -- learning models counts nothing
    rw [if_pos hopen]
    exact hadmission
  · rw [if_neg hopen]
    exact Nat.le_refl 1

theorem counts_takePoints_le (s : Store) (ps : List Point) :
    (s.takePoints ps).2.appended + (s.takePoints ps).2.merged + (s.takePoints ps).2.stale ≤
      ps.length := by
  induction ps generalizing s with
  | nil => exact Nat.le_refl 0
  | cons p ps ih =>
    have hfirst := counts_takePoint_le s p
    have hothers := ih (s.takePoint p).1
    rw [takePoints_snd_cons, MergeReport.appended_append, MergeReport.merged_append,
      MergeReport.stale_append, List.length_cons]
    omega

/-- The counts of a merge are those of its points. -/
theorem counts_merge (s : Store) (points : List Point) (declared : List String) :
    (s.merge points declared).2.appended =
        ((s.learn declared).1.takePoints (inOrder points)).2.appended ∧
      (s.merge points declared).2.merged =
        ((s.learn declared).1.takePoints (inOrder points)).2.merged ∧
      (s.merge points declared).2.stale =
        ((s.learn declared).1.takePoints (inOrder points)).2.stale := by
  rw [merge_snd]
  exact ⟨Nat.zero_add _, Nat.zero_add _, Nat.zero_add _⟩

/-- The three counts of a report never add up to more than the points of the batch. -/
theorem counts_merge_le (s : Store) (points : List Point) (declared : List String) :
    (s.merge points declared).2.appended + (s.merge points declared).2.merged +
      (s.merge points declared).2.stale ≤ points.length := by
  obtain ⟨happended, hmerged, hstale⟩ := counts_merge s points declared
  rw [happended, hmerged, hstale, ← (inOrder_perm points).length_eq]
  exact counts_takePoints_le _ _

/-! ## New rows -/

theorem mem_toFinset_timestamp (rows : List Row) (t : Int) :
    t ∈ (rows.map (·.timestamp)).toFinset ↔ HasRow rows t := by
  rw [List.mem_toFinset, List.mem_map]
  exact Iff.rfl

/-- No two rows of a coherent store share a time, so its times are as many as its rows. -/
theorem Coherent.card_timestamps {s : Store} (h : s.Coherent) :
    (s.rows.map (·.timestamp)).toFinset.card = s.rows.length := by
  have hnodup : (s.rows.map (·.timestamp)).Nodup :=
    List.pairwise_map.2 (timestamp_ne_of_ascending h.ascending)
  rw [List.toFinset_card_of_nodup hnodup, List.length_map]

theorem mem_newTimes (s : Store) (points : List Point) (t : Int) :
    t ∈ s.newTimes points ↔ s.IsAhead t ∧ ∃ p ∈ points, p.timestamp = t := by
  have htimes : t ∈ timesOf points ↔ ∃ p ∈ points, p.timestamp = t := by
    rw [timesOf, List.mem_toFinset, List.mem_map]
  unfold IsAhead newTimes
  cases s.cursor? with
  | none => simp [htimes]
  | some c => simp [htimes, and_comm]

/-- A merge starts one row for each delivered time that is newer than the cursor. -/
theorem Coherent.appended_merge {s : Store} (h : s.Coherent) (points : List Point)
    (declared : List String) :
    (s.merge points declared).2.appended = (s.newTimes points).card := by
  have hgrowth := (merge_accounts s points declared).size
  have hdisjoint : Disjoint (s.rows.map (·.timestamp)).toFinset (s.newTimes points) := by
    rw [Finset.disjoint_left]
    intro t hrow hnew
    rw [mem_toFinset_timestamp, hasRow_rows] at hrow
    exact h.not_hasRow ((mem_newTimes s points t).1 hnew).1 hrow
  have hrows : ((s.merge points declared).1.rows.map (·.timestamp)).toFinset =
      (s.rows.map (·.timestamp)).toFinset ∪ s.newTimes points := by
    ext t
    rw [Finset.mem_union, mem_toFinset_timestamp, mem_toFinset_timestamp, mem_newTimes]
    exact (h.isMergeOf points declared).times t
  have hcard := congrArg Finset.card hrows
  rw [Finset.card_union_of_disjoint hdisjoint, h.card_timestamps,
    (h.merge points declared).card_timestamps, length_rows, length_rows] at hcard
  omega

/-! ## New models -/

/-- The new ids told by the batch: the declared ones first, then those of accepted points, each
once. -/
theorem newModels_merge (s : Store) (points : List Point) (declared : List String) :
    (s.merge points declared).2.newModels = ((declared ++
      ((inOrder points).filter fun p => s.IsOpen p.timestamp).flatMap (·.values.keys)).removeAll
        s.models.ids).eraseDups := by
  have hids := (merge_accounts s points declared).ids
  rw [models_merge, ModelSet.ids_insertAll, List.eraseDups_append,
    ModelSet.eraseDups_of_nodup s.models.nodup] at hids
  exact (List.append_cancel_left hids).symm

theorem prefix_newModels_merge (s : Store) (points : List Point) (declared : List String) :
    (declared.removeAll s.models.ids).eraseDups <+: (s.merge points declared).2.newModels := by
  have hremove : ∀ ids ids' : List String, (ids ++ ids').removeAll s.models.ids =
      ids.removeAll s.models.ids ++ ids'.removeAll s.models.ids := by
    intro ids ids'
    unfold List.removeAll
    exact List.filter_append ids ids'
  rw [newModels_merge, hremove, List.eraseDups_append]
  exact List.prefix_append _ _

/-! ## Merges without a change -/

/-- A point that starts no row and is not counted as merged leaves the rows the same. -/
theorem Coherent.isSame_takePoint {s : Store} (h : s.Coherent) {p : Point}
    (happended : (s.takePoint p).2.appended = 0) (hmerged : (s.takePoint p).2.merged = 0) :
    List.Forall₂ Row.IsSame s.newestFirst (s.takePoint p).1.newestFirst := by
  have hfinite : ∀ r ∈ s.newestFirst, ∀ model x, r.get? model = some x → x.isFinite = true :=
    fun r hr => h.finite r (mem_rows.2 hr)
  have hsize := (takePoint_accounts s p).size
  rw [happended] at hsize
  by_cases hopen : s.IsOpen p.timestamp
  · rw [takePoint_of_isOpen hopen] at hsize ⊢
    change (placePoint s.newestFirst p).length = s.newestFirst.length at hsize
    show List.Forall₂ Row.IsSame s.newestFirst (placePoint s.newestFirst p)
    cases hrows : s.newestFirst with
    | nil =>
      rw [hrows] at hsize
      cases hsize
    | cons newest older =>
      rw [isOpen_cons hrows] at hopen
      rw [hrows, List.forall_mem_cons] at hfinite
      rw [hrows] at hsize
      rw [placePoint, if_neg (by omega)] at hsize ⊢
      by_cases htie : p.timestamp = newest.timestamp
      · rw [if_pos htie]
        have hchanged : newest.isChangedBy p = false := by
          rw [merged_takePoint hrows] at hmerged
          simpa [htie] using hmerged
        exact .cons (Row.isSame_overlay hfinite.1 hchanged) (forall₂_isSame_self hfinite.2)
      · rw [if_neg htie, List.length_cons] at hsize
        omega
  · rw [takePoint_of_stale hopen]
    exact forall₂_isSame_self hfinite

/-- Where nothing was appended or merged, every row still holds the values it held. -/
theorem Coherent.isSame_takePoints {s : Store} (h : s.Coherent) {ps : List Point}
    (happended : (s.takePoints ps).2.appended = 0) (hmerged : (s.takePoints ps).2.merged = 0) :
    List.Forall₂ Row.IsSame s.newestFirst (s.takePoints ps).1.newestFirst := by
  induction ps generalizing s with
  | nil => exact forall₂_isSame_self fun r hr => h.finite r (mem_rows.2 hr)
  | cons p ps ih =>
    rw [takePoints_snd_cons, MergeReport.appended_append] at happended
    rw [takePoints_snd_cons, MergeReport.merged_append] at hmerged
    rw [takePoints_cons]
    have hfirst := h.isSame_takePoint (p := p) (by omega) (by omega)
    have hothers := ih (h.takePoint p) (by omega) (by omega)
    exact forall₂_isSame_trans hfirst hothers

/-- A merge that reports no change leaves the models as they are and the rows the same. -/
theorem Coherent.unchanged_merge {s : Store} (h : s.Coherent) {points : List Point}
    {declared : List String} (hchanged : (s.merge points declared).2.changed = false) :
    (s.merge points declared).1.models.ids = s.models.ids ∧
      List.Forall₂ Row.IsSame s.rows (s.merge points declared).1.rows := by
  obtain ⟨happended, hmerged, hnew⟩ := (MergeReport.changed_eq_false_iff _).1 hchanged
  obtain ⟨happended', hmerged', _⟩ := counts_merge s points declared
  constructor
  · have hids := (merge_accounts s points declared).ids
    rw [hnew, List.append_nil] at hids
    exact hids
  · have hrows :=
      (h.learn declared).isSame_takePoints (happended' ▸ happended) (hmerged' ▸ hmerged)
    exact List.forall₂_reverse_iff.2 hrows

/-! ## The report of a merge -/

/-- The report of a merge into any store of a run is exact. -/
theorem merge_isExact (budget : Nat) (ops : List Op) (points : List Point)
    (declared : List String) :
    (((run { budget } ops).merge points declared).2).IsExact (run { budget } ops) points declared
      ((run { budget } ops).merge points declared).1 := by
  have h := coherent_run budget ops
  generalize run { budget } ops = s at h
  have haccounts := merge_accounts s points declared
  exact {
    stale := by
      rw [stale_merge]
      cases hcursor : s.cursor? with
      | none => simp [IsOpen, hcursor]
      | some c => simp [IsOpen, hcursor]
    appended := h.appended_merge points declared
    growth := by
      rw [length_rows, length_rows]
      exact haccounts.size
    total := counts_merge_le s points declared
    models := haccounts.ids
    nodup := haccounts.ids ▸ (s.merge points declared).1.models.nodup
    newModels := newModels_merge s points declared
    declaredFirst := prefix_newModels_merge s points declared
    unchanged := h.unchanged_merge }

end Store

end EquityBoard
