import EquityBoard.Proofs.Decimal.SameNumber
import EquityBoard.Proofs.Series.Batches

/-!
# What a repeated batch reports

A batch that is merged again right away changes nothing (`Coherent.merge_again`), but its report goes
by the points one after another. Those of the newest time are laid over the newest row again, each
over what the one before it has left. If two of them give a model different numbers, the row changes
on the way, and the report says so although it ends as it was. Main statement:
`changed_merge_again_iff`.
-/

namespace EquityBoard

/-! ## Points that tell a row nothing -/

namespace Row

/-- A point tells a row nothing if the row has all its values as numbers. -/
theorem isChangedBy_eq_false_iff (r : Row) (p : Point) :
    r.isChangedBy p = false ↔
      ∀ model, ∀ x ∈ p.finiteValues.get? model, ∃ old ∈ r.get? model, (old == x) = true := by
  unfold isChangedBy
  rw [List.any_eq_false]
  constructor
  · intro h model x hx
    have hentry := h (model, x) ((KeyMap.mem_entries_iff _ _ _).2 hx)
    cases hold : r.get? model with
    | none => simp [hold] at hentry
    | some old => exact ⟨old, rfl, by simpa [hold] using hentry⟩
  · rintro h ⟨model, x⟩ hentry
    obtain ⟨old, hold, heq⟩ := h model x ((KeyMap.mem_entries_iff _ _ _).1 hentry)
    simp [Option.mem_def.1 hold, heq]

/-- A point that tells a row nothing leaves it open to the same points. -/
theorem isChangedBy_overlay {r : Row} {p : Point} (h : r.isChangedBy p = false) (q : Point) :
    (r.overlay p).isChangedBy q = r.isChangedBy q := by
  rw [isChangedBy_eq_false_iff] at h
  have hcell : ∀ model y, (∃ old ∈ (r.overlay p).get? model, (old == y) = true) ↔
      ∃ old ∈ r.get? model, (old == y) = true := by
    intro model y
    have hoverlay : (r.overlay p).get? model = (p.finiteValues.get? model).or (r.get? model) :=
      KeyMap.get?_overlay r.values p.finiteValues model
    rw [hoverlay]
    cases hx : p.finiteValues.get? model with
    | none => rw [Option.none_or]
    | some x =>
      -- the row has another double for the same number
      obtain ⟨old, hold, heq⟩ := h model x hx
      simp only [Option.some_or, Option.mem_def, Option.mem_def.1 hold, Option.some.injEq,
        exists_eq_left', Decimal.beq_congr_left heq y]
  refine Bool.not_inj (Bool.coe_false_iff_false.1 ?_)
  rw [isChangedBy_eq_false_iff, isChangedBy_eq_false_iff]
  simp only [hcell]

end Row

/-- Two points of a time give a model different numbers. -/
def IsContested (points : List Point) (t : Int) : Prop :=
  ∃ p ∈ points, ∃ q ∈ points, p.timestamp = t ∧ q.timestamp = t ∧
    ∃ model, ∃ x ∈ p.finiteValues.get? model, ∃ y ∈ q.finiteValues.get? model, (x == y) = false

/-- A value for a cell that is delivered last is delivered by some point. -/
theorem exists_of_lastDelivered? {points : List Point} {t : Int} {model : String} {x : Float}
    (h : lastDelivered? points t model = some x) :
    ∃ p ∈ points, p.timestamp = t ∧ p.finiteValues.get? model = some x := by
  have hmem := List.mem_of_getLast? h
  obtain ⟨p, hp, hx⟩ := List.mem_filterMap.1 hmem
  rw [List.mem_filter, decide_eq_true_eq] at hp
  exact ⟨p, hp.1, hp.2, (p.get?_finiteValues model).trans hx⟩

/-- If some point delivers a value for a cell, some point is the last to do so. -/
theorem isSome_lastDelivered? {points : List Point} {p : Point} (hp : p ∈ points)
    {model : String} {x : Float} (hx : x ∈ p.finiteValues.get? model) :
    (lastDelivered? points p.timestamp model).isSome = true := by
  rw [Point.get?_finiteValues] at hx
  unfold lastDelivered?
  rw [List.getLast?_isSome]
  refine List.ne_nil_of_mem (a := x) (List.mem_filterMap.2 ⟨p, ?_, hx⟩)
  exact List.mem_filter.2 ⟨hp, decide_eq_true rfl⟩

namespace Store

/-! ## The count of merged points -/

theorem merged_takePoint {s : Store} {newest : Row} {older : List Row}
    (hs : s.newestFirst = newest :: older) (p : Point) :
    (s.takePoint p).2.merged =
      if p.timestamp = newest.timestamp ∧ newest.isChangedBy p = true then 1 else 0 := by
  have hlearn : (s.learn p.values.keys).2.merged = 0 := rfl
  rw [takePoint_snd]
  by_cases hopen : s.IsOpen p.timestamp
  · rw [if_pos hopen, MergeReport.append_def]
    rw [isOpen_cons hs] at hopen
    simp only [hlearn, Nat.add_zero]
    rw [admission_cons hs, if_neg (by omega)]
    by_cases htie : p.timestamp = newest.timestamp
    · simp only [htie, if_true, true_and]
      cases newest.isChangedBy p <;> rfl
    · simp only [htie, false_and, if_false]
      rfl
  · rw [if_neg hopen]
    rw [isOpen_cons hs] at hopen
    exact (if_neg fun h => hopen (by omega)).symm

/-- Points that are not newer than the newest row are merged without a trace exactly if none of its
time tells it anything. -/
theorem merged_takePoints_eq_zero_iff {s : Store} {newest : Row} {older : List Row}
    (hs : s.newestFirst = newest :: older) {ps : List Point}
    (hps : ∀ p ∈ ps, p.timestamp ≤ newest.timestamp) :
    (s.takePoints ps).2.merged = 0 ↔
      ∀ p ∈ ps, p.timestamp = newest.timestamp → newest.isChangedBy p = false := by
  induction ps generalizing s newest with
  | nil => exact iff_of_true rfl nofun
  | cons p ps ih =>
    rw [List.forall_mem_cons] at hps
    rw [takePoints_snd_cons, MergeReport.append_def, List.forall_mem_cons]
    simp only [Nat.add_eq_zero_iff, merged_takePoint hs]
    by_cases htie : p.timestamp = newest.timestamp
    · have hopen : s.IsOpen p.timestamp := (isOpen_cons hs _).2 (by omega)
      have hrows : (s.takePoint p).1.newestFirst = newest.overlay p :: older := by
        rw [takePoint_of_isOpen hopen]
        show placePoint s.newestFirst p = _
        rw [hs, placePoint, if_neg (by omega), if_pos htie]
      cases hchanged : newest.isChangedBy p with
      | true => simp [htie]
      | false =>
        rw [ih hrows hps.2]
        simp [Row.isChangedBy_overlay hchanged]
    · have hstale : ¬ s.IsOpen p.timestamp := by
        rw [isOpen_cons hs]
        omega
      rw [takePoint_of_stale hstale, ih hs hps.2]
      simp [htie]

/-! ## A batch merged again -/

/-- After a merge the newest row has for every model of its points a number that one of them gave. -/
theorem Coherent.exists_point_of_newest {s : Store} (h : s.Coherent) {points : List Point}
    {declared : List String} {newest : Row} {older : List Row}
    (hrows : (s.merge points declared).1.newestFirst = newest :: older) {p : Point}
    (hp : p ∈ points) (htime : p.timestamp = newest.timestamp) {model : String} {x : Float}
    (hx : x ∈ p.finiteValues.get? model) :
    ∃ q ∈ points, q.timestamp = newest.timestamp ∧
      ∃ y ∈ q.finiteValues.get? model, newest.get? model = some y := by
  have hopen : s.IsOpen newest.timestamp :=
    ((isOpen_merge s points declared _).1 ((isOpen_cons hrows _).2 (Int.le_refl _))).1
  have hcell := (h.isMergeOf points declared).cells newest.timestamp model
  rw [(h.merge points declared).cell?_rows, hrows, cell?_cons, if_pos rfl, if_pos hopen,
    ← htime] at hcell
  obtain ⟨y, hy⟩ := Option.isSome_iff_exists.1 (isSome_lastDelivered? hp hx)
  obtain ⟨q, hq, hqtime, hyq⟩ := exists_of_lastDelivered? hy
  rw [hy, Option.some_or] at hcell
  exact ⟨q, hq, hqtime.trans htime, y, hyq, hcell⟩

theorem Coherent.merged_merge_again_eq_zero_iff {s : Store} (h : s.Coherent) (points : List Point)
    (declared : List String) :
    ((s.merge points declared).1.merge points declared).2.merged = 0 ↔
      ∀ t ∈ (s.merge points declared).1.cursor?, ¬ IsContested points t := by
  have hmerged : ((s.merge points declared).1.merge points declared).2.merged =
      (((s.merge points declared).1.learn declared).1.takePoints (inOrder points)).2.merged := by
    rw [merge_snd (s.merge points declared).1, MergeReport.append_def]
    exact Nat.zero_add _
  rw [hmerged]
  cases hrows : (s.merge points declared).1.newestFirst with
  | nil =>
    -- without a row there was no point
    have hnone : ∀ p ∈ points, False := fun p hp => by
      have hopen := (isOpen_merge s points declared (p.timestamp - 1)).1 (isOpen_nil hrows _)
      have := hopen.2 p hp
      omega
    have hempty : inOrder points = [] :=
      List.eq_nil_iff_forall_not_mem.2 fun p hp => hnone p ((inOrder_perm points).mem_iff.1 hp)
    rw [cursor?_nil hrows, hempty]
    exact iff_of_true rfl fun t ht => absurd ht (Option.not_mem_none t)
  | cons newest older =>
    have hle : ∀ p ∈ points, p.timestamp ≤ newest.timestamp :=
      ((isOpen_merge s points declared _).1 ((isOpen_cons hrows _).2 (Int.le_refl _))).2
    have hagain := merged_takePoints_eq_zero_iff
      (s := ((s.merge points declared).1.learn declared).1) hrows
      fun p hp => hle p ((inOrder_perm points).mem_iff.1 hp)
    rw [hagain, cursor?_cons hrows]
    simp only [(inOrder_perm points).mem_iff, Option.mem_some_iff, forall_eq',
      Row.isChangedBy_eq_false_iff]
    constructor
    · rintro hsame ⟨p, hp, q, hq, hptime, hqtime, model, x, hx, y, hy, hxy⟩
      obtain ⟨old, hold, hoq⟩ := hsame q hq hqtime model y hy
      obtain ⟨old', hold', hop⟩ := hsame p hp hptime model x hx
      obtain rfl := Option.mem_unique hold hold'
      rw [← Decimal.beq_congr_left hop, hoq] at hxy
      cases hxy
    · intro hfree p hp hptime model x hx
      obtain ⟨q, hq, hqtime, y, hy, hnewest⟩ := h.exists_point_of_newest hrows hp hptime hx
      refine ⟨y, hnewest, ?_⟩
      cases hyx : y == x with
      | true => rfl
      | false => exact absurd ⟨q, hq, p, hp, hqtime, hptime, model, y, hy, x, hx, hyx⟩ hfree

/-- The second merge of a batch in any store of a run leaves the store as it is, with no row and no
model reported. It still reports a change exactly if two points of the newest time contradict each
other: if they give one model different numbers. -/
theorem changed_merge_again_iff (budget : Nat) (ops : List Op) (points : List Point)
    (declared : List String) :
    let s := ((run { budget } ops).merge points declared).1
    let again := s.merge points declared
    again.1 = s ∧ again.2.appended = 0 ∧ again.2.newModels = [] ∧
      (again.2.changed = true ↔ ∃ t ∈ s.cursor?, IsContested points t) := by
  intro s again
  have hcoherent := coherent_run budget ops
  have hreport := hcoherent.report_merge_again points declared
  refine ⟨hcoherent.merge_again points declared, hreport.1, hreport.2, ?_⟩
  -- of the three things that count as a change only merged points are left
  have hchanged : again.2.changed = true ↔ ¬ again.2.merged = 0 := by
    have hnewModels : again.2.newModels = [] := hreport.2
    have happended : again.2.appended = 0 := hreport.1
    simp [MergeReport.changed, happended, hnewModels, Nat.pos_iff_ne_zero]
  rw [hchanged, hcoherent.merged_merge_again_eq_zero_iff points declared]
  simp only [Classical.not_forall, Classical.not_not, exists_prop]
  exact Iff.rfl

/-- Two points of time 100 give a model the values 1 and 2. When they are merged again, the row goes
from 2 to 1 and back to 2, and both points are reported as merged. -/
theorem changed_of_contested :
    let points : List Point := [⟨100, .ofList [("a", 1.0)]⟩, ⟨100, .ofList [("a", 2.0)]⟩]
    let s := ((run {} []).merge points []).1
    let again := s.merge points []
    again.1 = s ∧ again.2.changed = true ∧ again.2 = ⟨0, 2, 0, []⟩ := by
  intro points s again
  have hsorted : inOrder points = points := List.mergeSort_of_pairwise (by decide)
  have hstore : s = (({} : Store).takePoints points).1 := by
    show ((run {} []).merge points []).1 = _
    rw [merge_nil, hsorted]
    rfl
  have hreport : again.2 = ⟨0, 2, 0, []⟩ := by
    show (s.merge points []).2 = _
    rw [merge_nil, hsorted, hstore]
    decide +kernel
  refine ⟨(coherent_run defaultBudget []).merge_again points [], ?_, hreport⟩
  rw [hreport]
  rfl

end Store

end EquityBoard
