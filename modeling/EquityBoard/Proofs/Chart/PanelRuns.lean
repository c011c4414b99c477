import EquityBoard.Chart.Panel
import EquityBoard.Proofs.Series.Reports

/-!
# Runs of the panel

The events of a panel, in any order, from its creation on. A panel changes its store only by merges,
views and clearings, so the store of a panel run is the store of a store run (`exists_store_run`),
and whatever holds of the one holds of the other. The models that a run makes known are those that
its events name (`models_run`).
-/

namespace EquityBoard.Chart

/-! ## Frames without animation -/

/-- The body, drawn without animation. -/
def Body.still : Body → Body
  | .series chart => .series { chart with animate := false }
  | body => body

/-- The frame, drawn without animation. -/
def Frame.still (f : Frame) : Frame := { f with body := f.body.still }

namespace Panel

open EquityBoard (Store)

/-! ## Events and runs -/

/-- What can happen to a panel. -/
inductive Op where
  | batch (points : List Point) (declared : List String)
  | error
  | range (range : Range)
  | mode (mode : Mode)
  | toggle (model : String)
  | resize (width : Nat)
  | dispose
  | frame (now : Int)

/-- The panel after an event. -/
def apply (p : Panel) : Op → Panel
  | .batch points declared => (p.takeBatch points declared).1
  | .error => p.takeError
  | .range range => p.setRange range
  | .mode mode => p.setMode mode
  | .toggle model => p.toggle model
  | .resize width => p.resize width
  | .dispose => p.dispose
  | .frame now => (p.frame now).1

/-- The panel after a run of events. -/
def run (p : Panel) (ops : List Op) : Panel := ops.foldl apply p

@[simp] theorem run_nil (p : Panel) : p.run [] = p := rfl

@[simp] theorem run_cons (p : Panel) (op : Op) (ops : List Op) :
    p.run (op :: ops) = (p.apply op).run ops := rfl

theorem run_append (p : Panel) (first later : List Op) :
    p.run (first ++ later) = (p.run first).run later :=
  List.foldl_append

/-- The latest event is applied last. -/
theorem run_concat (p : Panel) (ops : List Op) (op : Op) :
    p.run (ops ++ [op]) = (p.run ops).apply op :=
  p.run_append ops [op]

/-! ## Polls -/

/-- What a batch does to a panel. -/
theorem takeBatch_fst (p : Panel) (points : List Point) (declared : List String) :
    (p.takeBatch points declared).1 =
      { p with
        status := .live
        store := (p.store.merge points declared).1
        legend := p.legend.seed (p.store.merge points declared).1.models
        animation :=
          if 0 < (p.store.merge points declared).2.appended then
            p.animation.observe (p.store.merge points declared).1.size
          else p.animation } := rfl

/-! ## Drawing -/

/-- Before the first poll a frame says that the board is loading. -/
theorem frame_of_waiting {p : Panel} (h : p.status = .waiting) (now : Int) :
    p.frame now = (p, ⟨p.banner?, .loading⟩) := by
  unfold frame
  rw [h]

/-- Once there was a poll, a frame is drawn from the view of the selection. -/
theorem frame_of_polled {p : Panel} (h : p.status ≠ .waiting) (now : Int) :
    p.frame now =
      if (p.store.select p.selection now).2.length < 2 then
        ({ p with store := (p.store.select p.selection now).1 },
          ⟨p.banner?, .empty p.emptyFrame⟩)
      else
        ({ p with
            store := (p.store.select p.selection now).1
            animation := p.animation.rendered (p.store.select p.selection now).2.length },
          ⟨p.banner?, .series (p.seriesFrame (p.store.select p.selection now).2)⟩) := by
  unfold frame
  cases hstatus : p.status with
  | waiting => exact absurd hstatus h
  | live => rfl
  | failed => rfl

/-- Drawing touches nothing of a panel but its store and its animation. -/
theorem exists_frame_fst (p : Panel) (now : Int) :
    ∃ store animation, (p.frame now).1 = { p with store, animation } := by
  by_cases hwaiting : p.status = .waiting
  · rw [frame_of_waiting hwaiting]
    exact ⟨p.store, p.animation, rfl⟩
  · rw [frame_of_polled hwaiting]
    split
    · exact ⟨_, p.animation, rfl⟩
    · exact ⟨_, _, rfl⟩

theorem status_frame (p : Panel) (now : Int) : (p.frame now).1.status = p.status := by
  obtain ⟨store, animation, hframe⟩ := exists_frame_fst p now
  rw [hframe]

theorem banner?_frame (p : Panel) (now : Int) : (p.frame now).2.banner? = p.banner? := by
  by_cases hwaiting : p.status = .waiting
  · rw [frame_of_waiting hwaiting]
  · rw [frame_of_polled hwaiting]
    split <;> rfl

/-- A view of two rows is drawn with lines. -/
theorem body_frame_of_polled {p : Panel} (h : p.status ≠ .waiting) (now : Int)
    (hrows : 2 ≤ (p.store.select p.selection now).2.length) :
    (p.frame now).2.body = .series (p.seriesFrame (p.store.select p.selection now).2) := by
  rw [frame_of_polled h, if_neg (Nat.not_lt.2 hrows)]

/-- A chart with lines shows the rows of the view, and there are two of them or more. -/
theorem of_body_frame {p : Panel} {now : Int} {chart : SeriesFrame}
    (h : (p.frame now).2.body = .series chart) :
    2 ≤ (p.store.select p.selection now).2.length ∧
      chart = p.seriesFrame (p.store.select p.selection now).2 := by
  by_cases hwaiting : p.status = .waiting
  · rw [frame_of_waiting hwaiting] at h
    cases h
  · rw [frame_of_polled hwaiting] at h
    split at h
    · cases h
    · rename_i hrows
      cases h
      exact ⟨Nat.le_of_not_lt hrows, rfl⟩

/-- A chart is always that of the view for the selection. -/
theorem eq_seriesFrame {p : Panel} {now : Int} {chart : SeriesFrame}
    (h : (p.frame now).2.body = .series chart) :
    chart = p.seriesFrame (p.store.select p.selection now).2 :=
  (of_body_frame h).2

/-- There is a line for each known model, and it ends at the newest value among the shown rows. -/
theorem mem_lines_iff (p : Panel) (rows : List Row) (line : Line) :
    line ∈ (p.seriesFrame rows).lines ↔ ∃ model ∈ p.store.models.ids,
      line = Line.ofView rows p.selection.mode (p.legend.isVisible model) model := by
  show line ∈ p.store.models.ids.map _ ↔ _
  rw [List.mem_map]
  simp only [eq_comm]

/-! ## The store of a panel -/

/-- A drawing does to the store what a view does, or nothing. -/
theorem store_frame (p : Panel) (now : Int) :
    (p.frame now).1.store = p.store ∨
      (p.frame now).1.store = (p.store.select p.selection now).1 := by
  by_cases hwaiting : p.status = .waiting
  · rw [frame_of_waiting hwaiting]
    exact Or.inl rfl
  · rw [frame_of_polled hwaiting]
    split
    · exact Or.inr rfl
    · exact Or.inr rfl

/-- An event does nothing to the store or one operation. -/
theorem exists_store_apply (p : Panel) (op : Op) :
    ∃ ops : List Store.Op, (p.apply op).store = p.store.run ops := by
  cases op with
  | batch points declared => exact ⟨[.merge points declared], rfl⟩
  | error => exact ⟨[], rfl⟩
  | range range => exact ⟨[], rfl⟩
  | mode mode => exact ⟨[], rfl⟩
  | toggle model => exact ⟨[], rfl⟩
  | resize width => exact ⟨[], rfl⟩
  | dispose => exact ⟨[.clear], rfl⟩
  | frame now =>
    rcases store_frame p now with h | h
    · exact ⟨[], h⟩
    · exact ⟨[.select p.selection now], h⟩

/-- The store of a panel run is the store of a store run. -/
theorem exists_store_run (p : Panel) (ops : List Op) :
    ∃ ops' : List Store.Op, (p.run ops).store = p.store.run ops' := by
  induction ops generalizing p with
  | nil => exact ⟨[], rfl⟩
  | cons op ops ih =>
    obtain ⟨first, hfirst⟩ := exists_store_apply p op
    obtain ⟨later, hlater⟩ := ih (p.apply op)
    refine ⟨first ++ later, ?_⟩
    rw [run_cons, hlater, hfirst, Store.run_append]

/-- The store of every panel is coherent. -/
theorem coherent_store (settings : PanelSettings) (ops : List Op) :
    ((new settings).run ops).store.Coherent := by
  obtain ⟨ops', h⟩ := exists_store_run (new settings) ops
  rw [h]
  exact Store.coherent_run settings.budget ops'

theorem budget_store (settings : PanelSettings) (ops : List Op) :
    ((new settings).run ops).store.budget = settings.budget := by
  obtain ⟨ops', h⟩ := exists_store_run (new settings) ops
  rw [h]
  exact Store.budget_run { budget := settings.budget } ops'

/-! ## The known models of a panel -/

/-- The ids that an event names: those that a batch declares, then those of its points that are not
stale, in the order of time. -/
def named (p : Panel) : Op → List String
  | .batch points declared =>
    let fresh := (Store.inOrder points).filter fun q => p.store.IsOpen q.timestamp
    declared ++ fresh.flatMap (·.values.keys)
  | _ => []

/-- The ids that the events of a run name, in their order. -/
def seen (p : Panel) : List Op → List String
  | [] => []
  | op :: ops => p.named op ++ (p.apply op).seen ops

theorem models_frame (p : Panel) (now : Int) : (p.frame now).1.store.models = p.store.models := by
  rcases store_frame p now with h | h
  · rw [h]
  · rw [h]
    rfl

/-- An event makes the models known that it names. -/
theorem models_apply (p : Panel) {op : Op} (h : op ≠ .dispose) :
    (p.apply op).store.models = p.store.models.insertAll (p.named op) := by
  cases op with
  | batch points declared => exact p.store.models_merge points declared
  | dispose => exact absurd rfl h
  | frame now => exact models_frame p now
  | error | range _ | mode _ | toggle _ | resize _ => rfl

/-- Until the data is dropped a run makes the models known that its events name. -/
theorem models_run (p : Panel) {ops : List Op} (h : Op.dispose ∉ ops) :
    (p.run ops).store.models = p.store.models.insertAll (p.seen ops) := by
  induction ops generalizing p with
  | nil => rfl
  | cons op ops ih =>
    rw [List.mem_cons, not_or] at h
    rw [run_cons, ih _ h.2, models_apply p (Ne.symm h.1), seen, ModelSet.insertAll_append]

/-- Until the data is dropped the known models stay in front of those that come later. -/
theorem prefix_run (p : Panel) {ops : List Op} (h : Op.dispose ∉ ops) :
    p.store.models.ids <+: (p.run ops).store.models.ids := by
  rw [p.models_run h]
  exact ModelSet.prefix_insertAll _ _

end Panel

end EquityBoard.Chart
