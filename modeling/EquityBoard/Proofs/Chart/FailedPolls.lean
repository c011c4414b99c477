import EquityBoard.Proofs.Chart.PanelRuns
import EquityBoard.Proofs.Series.PercentView
import EquityBoard.Proofs.Series.Thinning

/-!
# Failed polls

A failed poll shows in the banner and nowhere else. Two panels whose events differ by failed polls
only are compared step by step. They differ in the status of the feed, and in the range for which
they have looked for percent bases, because the one that has seen a failure draws views earlier. As
long as there was no batch these views are empty and leave no base behind (`IsBlank`), so that no
later view can tell the two apart (`PercentBases.Agrees`). Main statement:
`body_chartedFrames_run`.
-/

namespace EquityBoard

/-! ## Bases that views cannot tell apart -/

namespace PercentBases

/-- For every range the same bases are kept. -/
def Agrees (b b' : PercentBases) : Prop :=
  ∀ range model, b.keptFor? range model = b'.keptFor? range model

/-- Bases that agree take the same further ones, and are the same afterwards. -/
theorem Agrees.ensure {b b' : PercentBases} (h : b.Agrees b') (range : Range) (rows : List Row)
    (models : ModelSet) : b.ensure range rows models = b'.ensure range rows models := by
  have hkept : (if b.range? = some range then b.bases else .empty) =
      if b'.range? = some range then b'.bases else .empty := by
    apply KeyMap.ext_get?
    intro model
    have hmodel := h range model
    unfold keptFor? base? at hmodel
    rw [apply_ite (KeyMap.get? · model), apply_ite (KeyMap.get? · model)]
    exact hmodel
  unfold PercentBases.ensure
  rw [hkept]

/-- No model has a base. -/
def IsBlank (b : PercentBases) : Prop := ∀ model, b.base? model = none

theorem isBlank_empty : empty.IsBlank := fun _ => rfl

/-- Where no model has a base none is kept. -/
theorem IsBlank.keptFor?_eq {b : PercentBases} (h : b.IsBlank) (range : Range) (model : String) :
    b.keptFor? range model = none := by
  unfold keptFor?
  rw [h model, ite_self]

/-- Whatever ranges they are for, no bases are no bases. -/
theorem IsBlank.agrees {b b' : PercentBases} (h : b.IsBlank) (h' : b'.IsBlank) : b.Agrees b' := by
  intro range model
  rw [h.keptFor?_eq, h'.keptFor?_eq]

/-- Without rows no model gets a base. -/
theorem IsBlank.ensure {b : PercentBases} (h : b.IsBlank) (range : Range) (models : ModelSet) :
    (b.ensure range [] models).IsBlank := by
  intro model
  rw [base?_ensure, h.keptFor?_eq, Option.none_or]
  exact ite_self none

end PercentBases

/-! ## Stores that differ in their bases -/

namespace Store

/-- The store with other bases. -/
def withBases (s : Store) (bases : PercentBases) : Store := { s with bases }

/-- A point does not look at the bases. -/
theorem takePoint_withBases (s : Store) (bases : PercentBases) (p : Point) :
    (s.withBases bases).takePoint p = ((s.takePoint p).1.withBases bases, (s.takePoint p).2) := by
  have hadmission : (s.withBases bases).admission p = s.admission p := rfl
  unfold takePoint
  rw [hadmission]
  cases s.admission p <;> rfl

theorem takePoints_withBases (s : Store) (bases : PercentBases) (ps : List Point) :
    (s.withBases bases).takePoints ps =
      ((s.takePoints ps).1.withBases bases, (s.takePoints ps).2) := by
  induction ps generalizing s with
  | nil => rfl
  | cons p ps ih => simp only [takePoints, takePoint_withBases, ih]

/-- A merge does not look at the bases. -/
theorem merge_withBases (s : Store) (bases : PercentBases) (points : List Point)
    (declared : List String) :
    (s.withBases bases).merge points declared =
      ((s.merge points declared).1.withBases bases, (s.merge points declared).2) := by
  have hlearn : (s.withBases bases).learn declared =
      ((s.learn declared).1.withBases bases, (s.learn declared).2) := rfl
  simp only [merge, hlearn, takePoints_withBases]

/-- A view cannot tell bases apart that agree, and afterwards they are the same. -/
theorem select_withBases {s : Store} {bases : PercentBases} (h : s.bases.Agrees bases)
    (selection : Selection) (now : Int) :
    (s.withBases bases).select selection now = s.select selection now := by
  obtain ⟨range, mode⟩ := selection
  cases mode with
  | absolute => rfl
  | percent =>
    simp only [select, selectView, h.ensure]
    rfl

/-- Without rows none are in range. -/
theorem inRange_of_nil {s : Store} (h : s.newestFirst = []) (range : Range) (now : Int) :
    inRange s.rows range now = [] := by
  have hsublist := inRange_sublist s.rows range now
  rw [rows, h] at hsublist ⊢
  exact List.sublist_nil.1 hsublist

/-- The view of a store without rows is empty. -/
theorem select_snd_of_nil {s : Store} (h : s.newestFirst = []) (selection : Selection) (now : Int) :
    (s.select selection now).2 = [] := by
  have hview : s.fullView selection now = [] := by
    unfold fullView
    rw [inRange_of_nil h]
    split <;> rfl
  rw [select_snd, hview]
  cases selection.range with
  | all => rfl
  | trailing window => exact if_pos (Or.inr (Nat.zero_le _))

/-- The view of a store without rows takes no base. -/
theorem isBlank_select {s : Store} (h : s.newestFirst = []) (hbases : s.bases.IsBlank)
    (selection : Selection) (now : Int) : (s.select selection now).1.bases.IsBlank := by
  obtain ⟨range, mode⟩ := selection
  cases mode with
  | absolute => exact PercentBases.isBlank_empty
  | percent =>
    show (s.bases.ensure range (inRange s.rows range now) s.models).IsBlank
    rw [inRange_of_nil h]
    exact hbases.ensure range s.models

end Store

namespace Chart.Panel

/-! ## Panels that differ by failed polls -/

/-- The events with some of the failed polls left out. -/
inductive DropsErrors : List Op → List Op → Prop where
  | nil : DropsErrors [] []
  | keep (op : Op) {ops ops' : List Op} : DropsErrors ops ops' →
      DropsErrors (op :: ops) (op :: ops')
  | drop {ops ops' : List Op} : DropsErrors ops ops' → DropsErrors (.error :: ops) ops'

/-- Whether there was a batch since the data was dropped last, after one more event. -/
def Op.charts (charted : Bool) : Op → Bool
  | .batch _ _ => true
  | .dispose => false
  | _ => charted

/-- The frames that a run draws while there was a batch since the data was dropped last. -/
def chartedFrames (p : Panel) (charted : Bool) : List Op → List Frame
  | [] => []
  | .frame now :: ops =>
    let later := (p.frame now).1.chartedFrames charted ops
    if charted then (p.frame now).2 :: later else later
  | op :: ops => (p.apply op).chartedFrames (op.charts charted) ops

/-! ## Before and after the first batch -/

/-- What is known of a panel by whether there was a batch since the data was dropped last: with one,
frames are drawn from views; without one there are neither rows nor bases. -/
def IsAt (p : Panel) : Bool → Prop
  | true => p.status ≠ .waiting
  | false => p.store.newestFirst = [] ∧ p.store.bases.IsBlank

/-- A new panel has neither rows nor bases. -/
theorem isAt_new (settings : PanelSettings) : (new settings).IsAt false :=
  ⟨rfl, PercentBases.isBlank_empty⟩

/-- A frame without rows changes nothing but the bases, and takes none. -/
theorem frame_fst_of_nil {p : Panel} (h : p.IsAt false) (now : Int) :
    ∃ bases : PercentBases, bases.IsBlank ∧
      (p.frame now).1 = { p with store := p.store.withBases bases } := by
  by_cases hwaiting : p.status = .waiting
  · rw [frame_of_waiting hwaiting]
    exact ⟨p.store.bases, h.2, rfl⟩
  · have hrows : (p.store.select p.selection now).2.length < 2 := by
      rw [Store.select_snd_of_nil h.1]
      exact Nat.zero_lt_two
    rw [frame_of_polled hwaiting, if_pos hrows]
    exact ⟨_, Store.isBlank_select h.1 h.2 p.selection now, rfl⟩

/-- What is known of a panel follows its events. -/
theorem IsAt.apply {p : Panel} {charted : Bool} (h : p.IsAt charted) (op : Op) :
    (p.apply op).IsAt (op.charts charted) := by
  cases op with
  | batch points declared => exact nofun
  | dispose => exact ⟨rfl, PercentBases.isBlank_empty⟩
  | error =>
    cases charted with
    | true => exact nofun
    | false => exact h
  | frame now =>
    cases charted with
    | true =>
      show (p.frame now).1.status ≠ .waiting
      rw [status_frame]
      exact h
    | false =>
      obtain ⟨bases, hbases, hframe⟩ := frame_fst_of_nil h now
      show (p.frame now).1.IsAt false
      rw [hframe]
      exact ⟨h.1, hbases⟩
  | range _ | mode _ | toggle _ | resize _ => cases charted <;> exact h

/-! ## Panels that failed polls have driven apart -/

/-- The panels differ at most in how the latest poll went, and in bases that no view can tell
apart. -/
def Alike (p p' : Panel) : Prop :=
  ∃ (status : FeedStatus) (bases : PercentBases),
    p' = { p with status, store := p.store.withBases bases } ∧ p.store.bases.Agrees bases

theorem alike_self (p : Panel) : p.Alike p := ⟨p.status, p.store.bases, rfl, fun _ _ => rfl⟩

/-- A failed poll of one panel alone does not tell panels apart. -/
theorem Alike.error {p p' : Panel} (h : p.Alike p') : p.takeError.Alike p' := by
  obtain ⟨status, bases, rfl, hbases⟩ := h
  exact ⟨status, bases, rfl, hbases⟩

/-- Once there was a batch, alike panels draw the same body and are left with the same store. -/
theorem Alike.frame {p p' : Panel} (h : p.Alike p') (hat : p.IsAt true) (hat' : p'.IsAt true)
    (now : Int) :
    (p.frame now).2.body = (p'.frame now).2.body ∧ (p.frame now).1.Alike (p'.frame now).1 := by
  obtain ⟨status, bases, rfl, hbases⟩ := h
  rw [frame_of_polled hat, frame_of_polled hat']
  -- both draw one view, which also leaves them the same bases
  simp only [Store.select_withBases hbases]
  split
  · exact ⟨rfl, status, _, rfl, fun _ _ => rfl⟩
  · exact ⟨rfl, status, _, rfl, fun _ _ => rfl⟩

/-- The same event keeps panels alike. -/
theorem Alike.apply {p p' : Panel} (h : p.Alike p') {charted : Bool} (hat : p.IsAt charted)
    (hat' : p'.IsAt charted) (op : Op) : (p.apply op).Alike (p'.apply op) := by
  cases op with
  | frame now =>
    cases charted with
    | true => exact (h.frame hat hat' now).2
    | false =>
      -- neither panel has rows, so that their frames take no bases
      obtain ⟨blank, hblank, hframe⟩ := frame_fst_of_nil hat now
      obtain ⟨blank', hblank', hframe'⟩ := frame_fst_of_nil hat' now
      obtain ⟨status, bases, rfl, hbases⟩ := h
      show (p.frame now).1.Alike _
      rw [hframe]
      exact ⟨status, blank', hframe', hblank.agrees hblank'⟩
  | batch points declared =>
    obtain ⟨status, bases, rfl, hbases⟩ := h
    refine ⟨.live, bases, ?_, ?_⟩
    · show (Panel.takeBatch _ points declared).1 = _
      rw [takeBatch_fst]
      simp only [Store.merge_withBases]
      rfl
    · show (p.store.merge points declared).1.bases.Agrees bases
      rw [Store.bases_merge]
      exact hbases
  | error =>
    obtain ⟨status, bases, rfl, hbases⟩ := h
    exact ⟨.failed, bases, rfl, hbases⟩
  | dispose =>
    obtain ⟨status, bases, rfl, hbases⟩ := h
    exact alike_self p.dispose
  | range _ | mode _ | toggle _ | resize _ =>
    -- what the reader sets is apart from the status and the bases
    obtain ⟨status, bases, rfl, hbases⟩ := h
    exact ⟨status, bases, rfl, hbases⟩

/-! ## Two runs -/

/-- Runs that differ by failed polls leave panels that are alike. -/
theorem DropsErrors.alike_run {ops ops' : List Op} (hdrops : DropsErrors ops ops') {p p' : Panel}
    (h : p.Alike p') {charted : Bool} (hat : p.IsAt charted) (hat' : p'.IsAt charted) :
    (p.run ops).Alike (p'.run ops') := by
  induction hdrops generalizing p p' charted with
  | nil => exact h
  | keep op _ ih => exact ih (h.apply hat hat' op) (hat.apply op) (hat'.apply op)
  | drop _ ih => exact ih h.error (hat.apply .error) hat'

theorem chartedFrames_cons (p : Panel) (charted : Bool) (op : Op) (ops : List Op) :
    p.chartedFrames charted (op :: ops) =
      p.chartedFrames charted [op] ++ (p.apply op).chartedFrames (op.charts charted) ops := by
  cases op with
  | frame now => cases charted <;> rfl
  | _ => rfl

/-- A single event draws the same bodies for panels that are alike. -/
theorem Alike.body_chartedFrames {p p' : Panel} (h : p.Alike p') {charted : Bool}
    (hat : p.IsAt charted) (hat' : p'.IsAt charted) (op : Op) :
    (p.chartedFrames charted [op]).map (·.body) = (p'.chartedFrames charted [op]).map (·.body) := by
  cases op with
  | frame now =>
    cases charted with
    | true => exact congrArg (fun body => [body]) (h.frame hat hat' now).1
    | false => rfl
  | _ => rfl

/-- Panels that are alike draw the same bodies, also if one of them misses the failed polls. -/
theorem body_chartedFrames {ops ops' : List Op} (hdrops : DropsErrors ops ops') {p p' : Panel}
    (h : p.Alike p') {charted : Bool} (hat : p.IsAt charted) (hat' : p'.IsAt charted) :
    (p.chartedFrames charted ops).map (·.body) = (p'.chartedFrames charted ops').map (·.body) := by
  induction hdrops generalizing p p' charted with
  | nil => rfl
  | keep op _ ih =>
    rw [chartedFrames_cons, chartedFrames_cons p', List.map_append, List.map_append,
      h.body_chartedFrames hat hat' op,
      ih (h.apply hat hat' op) (hat.apply op) (hat'.apply op)]
  | drop _ ih =>
    -- the failure happens to one panel alone, and they are alike after it
    exact ih h.error (hat.apply .error) hat'

/-- Failed polls never influence the chart. Whichever of them are left out of a run of a panel, all
frames that are drawn while there was a batch since the data was dropped last have the same bodies,
with the same values, labels and animation. -/
theorem body_chartedFrames_run (settings : PanelSettings) {ops ops' : List Op}
    (h : DropsErrors ops ops') :
    ((new settings).chartedFrames false ops).map (·.body) =
      ((new settings).chartedFrames false ops').map (·.body) :=
  body_chartedFrames h (alike_self _) (isAt_new settings) (isAt_new settings)

/-- A failure before the first batch makes a view look for bases, and one after it raises the
banner; the chart is that of the run without them. -/
theorem body_chartedFrames_run_of_errors :
    let settings : PanelSettings := { selection := ⟨.trailing 1000, .percent⟩ }
    let ten : Op := .batch [⟨100, .ofList [("a", 10.0)]⟩] []
    let twenty : Op := .batch [⟨200, .ofList [("a", 20.0)]⟩] []
    let ops : List Op := [.error, .frame 50, ten, twenty, .error, .frame 200]
    let ops' : List Op := [.frame 50, ten, twenty, .frame 200]
    DropsErrors ops ops' ∧
      ((new settings).chartedFrames false ops).map (·.body) =
        ((new settings).chartedFrames false ops').map (·.body) ∧
      ((new settings).chartedFrames false ops).map (·.banner?) = [some feedErrorMessage] ∧
      ((new settings).chartedFrames false ops').map (·.banner?) = [none] := by
  intro settings ten twenty ops ops'
  have hdrops : DropsErrors ops ops' :=
    .drop (.keep _ (.keep _ (.keep _ (.drop (.keep _ .nil)))))
  exact ⟨hdrops, body_chartedFrames_run settings hdrops, by decide +kernel, by decide +kernel⟩

end Chart.Panel

end EquityBoard
