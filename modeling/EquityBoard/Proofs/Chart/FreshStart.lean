import EquityBoard.Proofs.Chart.PanelRuns

/-!
# A fresh start

Dropping the data leaves nothing of what was polled: a cleared store is a new one of the same budget,
and a panel without its data is a new panel with the selection and the width of the old one, up to
the animation. The animation is not given back (`dispose_run`), and it changes nothing but the mark
on the charts (`answers_still`). Main statement: `answers_dispose_run`, for all that is done later.
-/

namespace EquityBoard

namespace Store

/-! ## What operations on a store give back -/

/-- What an operation gives back. -/
inductive Answer where
  | report (report : MergeReport)
  | view (rows : List Row)
  | cleared

/-- What an operation on a store gives back. -/
def answer (s : Store) : Op → Answer
  | .merge points declared => .report (s.merge points declared).2
  | .select selection now => .view (s.select selection now).2
  | .clear => .cleared

/-- What the operations of a run give back. -/
def answers (s : Store) : List Op → List Answer
  | [] => []
  | op :: ops => s.answer op :: (s.apply op).answers ops

/-- A cleared store is an empty one with the same budget. -/
theorem clear_run (budget : Nat) (ops : List Op) : (run { budget } ops).clear = { budget } := by
  rw [clear, budget_run]

end Store

namespace Chart

/-! ## Panels without animation -/

namespace Panel

/-- The panel with its animation used up. -/
def still (p : Panel) : Panel := { p with animation := ⟨false⟩ }

/-- What an event gives back. -/
inductive Answer where
  | report (report : MergeReport)
  | frame (frame : Frame)
  | nothing

/-- The answer with its frame drawn without animation. -/
def Answer.still : Answer → Answer
  | .frame f => .frame f.still
  | answer => answer

/-- What an event gives back. -/
def answer (p : Panel) : Op → Answer
  | .batch points declared => .report (p.takeBatch points declared).2
  | .frame now => .frame (p.frame now).2
  | _ => .nothing

/-- What the events of a run give back. -/
def answers (p : Panel) : List Op → List Answer
  | [] => []
  | op :: ops => p.answer op :: (p.apply op).answers ops

theorem still_of_not_active {p : Panel} (h : p.animation.active = false) : p.still = p := by
  unfold still
  rw [← h]

/-! ## Nothing looks at the animation -/

/-- Without animation a panel draws the same, but for the mark. -/
theorem frame_still (p : Panel) (now : Int) :
    p.still.frame now = ((p.frame now).1.still, (p.frame now).2.still) := by
  by_cases hwaiting : p.status = .waiting
  · have hstill : p.still.status = .waiting := hwaiting
    rw [frame_of_waiting hwaiting, frame_of_waiting hstill]
    rfl
  · have hstill : p.still.status ≠ .waiting := hwaiting
    rw [frame_of_polled hwaiting, frame_of_polled hstill]
    -- both draw the same view
    by_cases hrows : (p.store.select p.selection now).2.length < 2
    · have hrows' : (p.still.store.select p.still.selection now).2.length < 2 := hrows
      rw [if_pos hrows, if_pos hrows']
      rfl
    · have hrows' : ¬ (p.still.store.select p.still.selection now).2.length < 2 := hrows
      rw [if_neg hrows, if_neg hrows']
      rfl

theorem takeBatch_still (p : Panel) (points : List Point) (declared : List String) :
    p.still.takeBatch points declared =
      ((p.takeBatch points declared).1.still, (p.takeBatch points declared).2) := by
  refine Prod.ext ?_ rfl
  have hoff : (p.still.takeBatch points declared).1.animation.active = false := by
    rw [takeBatch_fst]
    split <;> rfl
  rw [← still_of_not_active hoff, takeBatch_fst, takeBatch_fst]
  rfl

/-- An event treats a panel without animation as it does any other. -/
theorem apply_still (p : Panel) (op : Op) : p.still.apply op = (p.apply op).still := by
  cases op with
  | batch points declared => exact congrArg Prod.fst (p.takeBatch_still points declared)
  | frame now => exact congrArg Prod.fst (p.frame_still now)
  | error | range _ | mode _ | toggle _ | resize _ | dispose => rfl

/-- Without animation the answers are the same, but for the mark. -/
theorem answer_still (p : Panel) (op : Op) : p.still.answer op = (p.answer op).still := by
  cases op with
  | batch points declared => rfl
  | frame now => exact congrArg (fun f => Answer.frame f.2) (p.frame_still now)
  | error | range _ | mode _ | toggle _ | resize _ | dispose => rfl

theorem run_still (p : Panel) (ops : List Op) : p.still.run ops = (p.run ops).still := by
  induction ops generalizing p with
  | nil => rfl
  | cons op ops ih => rw [run_cons, run_cons, apply_still, ih]

/-- A run without animation gives back the same as with it, but for the mark on the charts. -/
theorem answers_still (p : Panel) (ops : List Op) :
    p.still.answers ops = (p.answers ops).map Answer.still := by
  induction ops generalizing p with
  | nil => rfl
  | cons op ops ih => rw [answers, answers, List.map_cons, answer_still, apply_still, ih]

/-! ## Dropping the data -/

/-- No event changes what the panel was set up with for good. -/
theorem settings_apply (p : Panel) (op : Op) :
    (p.apply op).pollSeconds = p.pollSeconds ∧ (p.apply op).debugEndpoints = p.debugEndpoints := by
  cases op with
  | frame now =>
    obtain ⟨store, animation, hframe⟩ := exists_frame_fst p now
    rw [apply, hframe]
    exact ⟨rfl, rfl⟩
  | batch _ _ | error | range _ | mode _ | toggle _ | resize _ | dispose => exact ⟨rfl, rfl⟩

/-- What the settings say apart from the selection is never changed. -/
theorem settings_run (settings : PanelSettings) (ops : List Op) :
    ((new settings).run ops).pollSeconds = settings.pollSeconds ∧
      ((new settings).run ops).debugEndpoints = settings.debugEndpoints := by
  have hrun : ∀ p : Panel, (p.run ops).pollSeconds = p.pollSeconds ∧
      (p.run ops).debugEndpoints = p.debugEndpoints := by
    induction ops with
    | nil => exact fun p => ⟨rfl, rfl⟩
    | cons op ops ih =>
      intro p
      rw [run_cons, (ih (p.apply op)).1, (ih (p.apply op)).2]
      exact p.settings_apply op
  exact hrun (new settings)

/-- The settings of a new panel that is shown as this one is. -/
def settingsLike (settings : PanelSettings) (p : Panel) : PanelSettings :=
  { settings with viewportWidth := p.viewportWidth, selection := p.selection }

/-- Without its data the panel is a new one, but its animation is not given back. -/
theorem dispose_run (settings : PanelSettings) (ops : List Op) :
    let p := (new settings).run ops
    let fresh := new (settingsLike settings p)
    p.dispose = if p.animation.active then fresh else fresh.still := by
  intro p fresh
  have hbudget : p.store.clear = { budget := settings.budget } := by
    rw [Store.clear, budget_store]
  have hpoll : p.pollSeconds = settings.pollSeconds := (settings_run settings ops).1
  have hdebug : p.debugEndpoints = settings.debugEndpoints := (settings_run settings ops).2
  -- the animation is all that is left of the earlier life
  have hfresh : p.dispose = { fresh with animation := p.animation } := by
    rw [dispose, hbudget, hpoll, hdebug]
    rfl
  rw [hfresh]
  split
  · rename_i hactive
    rw [show p.animation = fresh.animation from congrArg Animation.mk hactive]
  · rename_i hactive
    rw [show p.animation = ⟨false⟩ from congrArg Animation.mk (Bool.eq_false_iff.2 hactive)]
    rfl

/-- After its data is dropped, whatever was done before, a store gives back what a new store of the
same budget does, and is left as that one is. A panel gives back what a new panel with the same
settings, selection and width does, and is left as that one is, legend and all; only, if its
animation was used up before, its charts are drawn without it. -/
theorem answers_dispose_run (budget : Nat) (storeOps storeLater : List Store.Op)
    (settings : PanelSettings) (ops later : List Op) :
    let s := Store.run { budget } storeOps
    let p := (new settings).run ops
    let fresh := new (settingsLike settings p)
    (s.clear.answers storeLater = Store.answers { budget } storeLater ∧
        s.clear.run storeLater = Store.run { budget } storeLater) ∧
      (p.dispose.answers later =
        if p.animation.active then fresh.answers later
        else (fresh.answers later).map Answer.still) ∧
      (p.dispose.run later).legend = (fresh.run later).legend ∧
      p.dispose.run later =
        if p.animation.active then fresh.run later else (fresh.run later).still := by
  intro s p fresh
  have hclear : s.clear = { budget } := Store.clear_run budget storeOps
  have hdispose : p.dispose = if p.animation.active then fresh else fresh.still :=
    dispose_run settings ops
  rw [hclear, hdispose]
  refine ⟨⟨rfl, rfl⟩, ?_⟩
  by_cases hactive : p.animation.active = true
  · rw [if_pos hactive, if_pos hactive, if_pos hactive]
    exact ⟨rfl, rfl, rfl⟩
  · rw [if_neg hactive, if_neg hactive, if_neg hactive, answers_still, run_still]
    exact ⟨rfl, rfl, rfl⟩

end Panel

end Chart

end EquityBoard
