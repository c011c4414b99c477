import EquityBoard.Proofs.Chart.PanelRuns
import EquityBoard.Proofs.Series.ViewRows
import Mathlib.Data.List.Induction

/-!
# What a frame tells of the past

A frame is drawn from the state of the panel, but what kind of frame it is can be told from the
events alone. The banner shows that the latest poll failed, and the data was not dropped after it
(`latestFeedEvent?`); a chart is waited for until there is a poll after the data was dropped
(`sinceDispose`); and then it takes two stored rows in range, because thinning leaves two of two or
more (`Store.Coherent.two_le_length_select`). Main statement: `frame_run`.
-/

namespace EquityBoard

/-! ## Rows in range -/

/-- Whether a time is in a range, seen from `now`. -/
def Range.Includes (range : Range) (now t : Int) : Prop := ∀ cutoff ∈ range.cutoff? now, cutoff ≤ t

instance (range : Range) (now t : Int) : Decidable (range.Includes now t) :=
  inferInstanceAs (Decidable (∀ cutoff ∈ range.cutoff? now, cutoff ≤ t))

/-- The rows in range are those whose times the range includes. -/
theorem inRange_eq_filter {rows : List Row}
    (h : rows.Pairwise fun a b => a.timestamp < b.timestamp) (range : Range) (now : Int) :
    inRange rows range now = rows.filter fun r => range.Includes now r.timestamp := by
  cases range with
  | all =>
    refine (List.filter_eq_self.2 fun r _ => decide_eq_true ?_).symm
    rintro cutoff ⟨⟩
  | trailing window =>
    refine (dropWhile_eq_filter h _).trans (List.filter_congr fun r _ => decide_eq_decide.2 ?_)
    simp [Range.Includes, Range.cutoff?]

namespace Store

/-- Thinning leaves two rows exactly where there are two. -/
theorem two_le_length_thin (rows : List Row) (range : Range) (budget : Nat) :
    2 ≤ (thin rows range budget).length ↔ 2 ≤ rows.length := by
  cases range with
  | all => rfl
  | trailing window => exact two_le_length_downsample rows budget

/-- A view has two rows exactly if there are two stored rows in its range. -/
theorem Coherent.two_le_length_select {s : Store} (h : s.Coherent) (selection : Selection)
    (now : Int) :
    2 ≤ (s.select selection now).2.length ↔
      2 ≤ (s.rows.filter fun r => selection.range.Includes now r.timestamp).length := by
  have hlength : (s.fullView selection now).length = (inRange s.rows selection.range now).length := by
    unfold fullView
    cases selection.mode with
    | absolute => rfl
    | percent => exact List.length_map _
  rw [select_snd, two_le_length_thin, hlength, inRange_eq_filter h.ascending]

end Store

namespace Chart.Panel

/-! ## The history of the feed -/

/-- A poll, successful or not. -/
def Op.isPoll : Op → Bool
  | .batch _ _ => true
  | .error => true
  | _ => false

/-- The event that drops the data. -/
def Op.isDispose : Op → Bool
  | .dispose => true
  | _ => false

/-- The latest poll or dropping of the data. -/
def latestFeedEvent? (ops : List Op) : Option Op :=
  ops.reverse.find? fun op => op.isPoll || op.isDispose

/-- The events after the data was dropped last, newest first. -/
def sinceDispose (ops : List Op) : List Op := ops.reverse.takeWhile fun op => !op.isDispose

/-- Whether there was a poll after the data was dropped last. -/
def IsPolled (ops : List Op) : Prop := ∃ op ∈ sinceDispose ops, op.isPoll

/-- A poll or the dropping of the data is the latest event of the feed, any other event is not. -/
theorem latestFeedEvent?_concat (ops : List Op) (op : Op) :
    latestFeedEvent? (ops ++ [op]) =
      if op.isPoll || op.isDispose then some op else latestFeedEvent? ops := by
  unfold latestFeedEvent?
  rw [List.reverse_concat, List.find?_cons]
  cases op.isPoll || op.isDispose <;> rfl

/-- A feed is polled after a poll, and until its data is dropped. -/
theorem isPolled_concat (ops : List Op) (op : Op) :
    IsPolled (ops ++ [op]) ↔ op.isDispose = false ∧ (op.isPoll ∨ IsPolled ops) := by
  unfold IsPolled sinceDispose
  rw [List.reverse_concat, List.takeWhile_cons]
  cases op.isDispose <;> simp

/-- Polls and the dropping of the data set the status, other events leave it. -/
theorem status_apply (p : Panel) (op : Op) :
    (p.apply op).status =
      match op with
      | .batch _ _ => .live
      | .error => .failed
      | .dispose => .waiting
      | _ => p.status := by
  cases op with
  | frame now => exact status_frame p now
  | _ => rfl

/-- The status of the feed is told by the history. -/
theorem status_run (settings : PanelSettings) (ops : List Op) :
    (((new settings).run ops).status = .failed ↔ latestFeedEvent? ops = some .error) ∧
      (((new settings).run ops).status ≠ .waiting ↔ IsPolled ops) := by
  -- the history grows at its end, and only polls and droppings of the data count
  induction ops using List.reverseRecOn with
  | nil => simp [new, latestFeedEvent?, IsPolled, sinceDispose]
  | append_singleton ops op ih =>
    rw [run_concat, status_apply, latestFeedEvent?_concat, isPolled_concat]
    cases op with
    | batch points declared => simp [Op.isPoll, Op.isDispose]
    | error => simp [Op.isPoll, Op.isDispose]
    | dispose => simp [Op.isPoll, Op.isDispose]
    | range _ | mode _ | toggle _ | resize _ | frame _ =>
      simpa [Op.isPoll, Op.isDispose] using ih

/-! ## Frames -/

/-- There is a banner exactly while the latest poll has failed. -/
theorem banner?_iff (p : Panel) :
    (p.banner? = some feedErrorMessage ↔ p.status = .failed) ∧
      (p.banner? = none ↔ p.status ≠ .failed) := by
  unfold banner?
  split
  · rename_i hfailed
    simp [hfailed]
  · rename_i hfailed
    simp [hfailed]

/-- Every frame of a run is told by the events before it and the rows they left. There is a banner
exactly if the latest poll or dropping of the data was a failed poll. The chart is waited for exactly
if there was no poll after the data was dropped last. Otherwise, if the view has two rows, it is drawn
with lines, and else the notice stands in its place; and the view has two rows exactly if there are
two stored rows in range. -/
theorem frame_run (settings : PanelSettings) (ops : List Op) (now : Int) :
    let p := (new settings).run ops
    let f := (p.frame now).2
    let view := (p.store.select p.selection now).2
    let stored := p.store.rows.filter fun r => p.selection.range.Includes now r.timestamp
    (f.banner? = some feedErrorMessage ↔ latestFeedEvent? ops = some .error) ∧
      (f.banner? = none ↔ latestFeedEvent? ops ≠ some .error) ∧
      (f.body = .loading ↔ ¬ IsPolled ops) ∧
      (f.body = .empty p.emptyFrame ↔ IsPolled ops ∧ view.length < 2) ∧
      (f.body = .series (p.seriesFrame view) ↔ IsPolled ops ∧ 2 ≤ view.length) ∧
      (view.length < 2 ↔ stored.length < 2) := by
  intro p f view stored
  obtain ⟨hfailed, hpolled⟩ := status_run settings ops
  have hbanner : f.banner? = p.banner? := banner?_frame p now
  have hview : 2 ≤ view.length ↔ 2 ≤ stored.length :=
    (coherent_store settings ops).two_le_length_select p.selection now
  have hbody : (¬ IsPolled ops ∧ f.body = .loading) ∨
      (IsPolled ops ∧ view.length < 2 ∧ f.body = .empty p.emptyFrame) ∨
      (IsPolled ops ∧ 2 ≤ view.length ∧ f.body = .series (p.seriesFrame view)) := by
    by_cases h : IsPolled ops
    · by_cases hrows : view.length < 2
      · refine Or.inr (Or.inl ⟨h, hrows, ?_⟩)
        show (p.frame now).2.body = _
        rw [frame_of_polled (hpolled.2 h), if_pos hrows]
      · have hle := Nat.le_of_not_lt hrows
        exact Or.inr (Or.inr ⟨h, hle, body_frame_of_polled (hpolled.2 h) now hle⟩)
    · have hwaiting := Decidable.not_not.1 (mt hpolled.1 h)
      refine Or.inl ⟨h, ?_⟩
      show (p.frame now).2.body = _
      rw [frame_of_waiting hwaiting]
  refine ⟨?_, ?_, ?_, ?_, ?_, by omega⟩
  · rw [hbanner, (banner?_iff p).1, hfailed]
  · rw [hbanner, (banner?_iff p).2, Ne, hfailed]
  all_goals
    rcases hbody with ⟨h, hb⟩ | ⟨h, hrows, hb⟩ | ⟨h, hrows, hb⟩
    · simp [hb, h]
    · simp [hb, h, hrows]
    · simp [hb, h, hrows, Nat.not_lt.2 hrows]

end Chart.Panel

end EquityBoard
