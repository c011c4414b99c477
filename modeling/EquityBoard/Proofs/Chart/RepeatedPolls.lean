import EquityBoard.Proofs.Chart.PanelRuns
import EquityBoard.Proofs.Series.Batches

/-!
# Polls that deliver the same batch again

A poll may deliver what the one before it has delivered. The store does not change any more then, and
with it the panel does not: the legend is seeded from the same models, and the animation takes no
notice because no row is appended. Main statement: `takeBatch_again_run`.
-/

namespace EquityBoard

/-- A legend that was filled is not filled again. -/
theorem Legend.seed_seed (l : Legend) (models : ModelSet) :
    (l.seed models).seed models = l.seed models := by
  unfold Legend.seed
  by_cases hempty : l.active.isEmpty = true
  · rw [if_pos hempty, ite_self]
  · rw [if_neg hempty, if_neg hempty]

namespace Chart.Panel

/-- A batch that leaves the store of a panel as it is, and for which the panel is ready, leaves the
panel as it is. -/
theorem takeBatch_of_store_eq {p : Panel} {points : List Point} {declared : List String}
    (hstore : (p.store.merge points declared).1 = p.store) (hlive : p.status = .live)
    (hseeded : p.legend.seed p.store.models = p.legend) :
    (p.takeBatch points declared).1 = p := by
  have hreport := (Store.merge_accounts p.store points declared).of_eq hstore
  rw [takeBatch_fst, hreport.1, if_neg (Nat.lt_irrefl 0), hstore, hseeded, ← hlive]

/-- The second of two equal batches in a row changes nothing, whatever happened before and whatever
the batch holds: the store is as it was, with no row and no model reported, and so is the panel. -/
theorem takeBatch_again_run (budget : Nat) (storeOps : List Store.Op) (settings : PanelSettings)
    (ops : List Op) (points : List Point) (declared : List String) :
    let s := ((Store.run { budget } storeOps).merge points declared).1
    let again := s.merge points declared
    let p := (((new settings).run ops).takeBatch points declared).1
    (again.1 = s ∧ again.2.appended = 0 ∧ again.2.newModels = []) ∧
      (p.takeBatch points declared).1 = p := by
  intro s again p
  constructor
  · have hcoherent := Store.coherent_run budget storeOps
    exact ⟨hcoherent.merge_again points declared, hcoherent.report_merge_again points declared⟩
  · have hcoherent := coherent_store settings ops
    have hstore : (p.store.merge points declared).1 = p.store :=
      hcoherent.merge_again points declared
    have hseeded : p.legend.seed p.store.models = p.legend := Legend.seed_seed _ _
    exact takeBatch_of_store_eq hstore rfl hseeded

end Chart.Panel

end EquityBoard
