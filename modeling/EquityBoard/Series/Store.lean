import EquityBoard.Series.View

/-!
# The store of rows

The store takes batches of points and keeps one row for each time. Beside the rows it keeps a cursor,
the time of the newest row, which decides about a point: an older point is stale and changes nothing,
a point at the cursor is laid over the newest row, and a newer point starts a row and moves the
cursor. A batch is taken in ascending order of time, points of one time in the order of delivery, so
that the last delivered value counts.
-/

namespace EquityBoard

/-! ## Reports -/

/-- What the merge of a batch did. -/
structure MergeReport where
  appended : Nat := 0
  merged : Nat := 0
  stale : Nat := 0
  newModels : List String := []
deriving DecidableEq, Repr

namespace MergeReport

/-- The report of two merges in a row. -/
def append (a b : MergeReport) : MergeReport :=
  ⟨a.appended + b.appended, a.merged + b.merged, a.stale + b.stale, a.newModels ++ b.newModels⟩

instance : Append MergeReport := ⟨append⟩

/-- Whether anything changed. -/
def changed (r : MergeReport) : Bool := 0 < r.appended || 0 < r.merged || !r.newModels.isEmpty

end MergeReport

/-! ## The store -/

/-- The number of rows of a trailing view, unless configured otherwise. -/
def defaultBudget : Nat := 600

/-- Without rows there is no cursor. -/
theorem none_eq_newest : (none : Option Int) = ([] : List Row).head?.map (·.timestamp) := rfl

/-- The rows, the known models, the cursor, the percent bases of the latest view, and the row budget of
trailing views. -/
structure Store where
  /-- The rows, newest first. -/
  newestFirst : List Row := []
  models : ModelSet := .empty
  /-- The time of the last row that was started. -/
  cursor? : Option Int := none
  bases : PercentBases := .empty
  budget : Nat := defaultBudget
  /-- Whoever changes the rows keeps the cursor at the newest one. -/
  cursor?_eq : cursor? = newestFirst.head?.map (·.timestamp) := by exact none_eq_newest

namespace Store

/-- The rows in ascending order of time. -/
def rows (s : Store) : List Row := s.newestFirst.reverse

/-- The number of rows. -/
def size (s : Store) : Nat := s.newestFirst.length

/-! ### Points -/

/-- What becomes of a point. -/
inductive Admission where
  | stale
  | merged (changed : Bool)
  | appended
deriving DecidableEq, Repr

/-- What becomes of a point. -/
def admission (s : Store) (p : Point) : Admission :=
  match s.cursor? with
  | none => .appended
  | some last =>
    if p.timestamp < last then .stale
    else if p.timestamp = last then .merged (s.newestFirst.head?.any (·.isChangedBy p))
    else .appended

/-- Starts a row with a point. -/
def push (s : Store) (p : Point) : Store :=
  { s with
    newestFirst := Row.ofPoint p :: s.newestFirst
    cursor? := some p.timestamp
    cursor?_eq := rfl }

/-- A row that is laid over keeps its time. -/
theorem head?_modifyHead_overlay (newestFirst : List Row) (p : Point) :
    (newestFirst.modifyHead (·.overlay p)).head?.map (·.timestamp) =
      newestFirst.head?.map (·.timestamp) := by
  cases newestFirst <;> rfl

/-- Lays a point over the newest row. -/
def overlayNewest (s : Store) (p : Point) : Store :=
  { s with
    newestFirst := s.newestFirst.modifyHead (·.overlay p)
    cursor?_eq := s.cursor?_eq.trans (head?_modifyHead_overlay s.newestFirst p).symm }

/-- The store with a point among its rows, unless it is stale. -/
def place (s : Store) (p : Point) : Admission → Store
  | .stale => s
  | .merged _ => s.overlayNewest p
  | .appended => s.push p

/-- The counts of one point. -/
def Admission.report : Admission → MergeReport
  | .stale => { stale := 1 }
  | .merged true => { merged := 1 }
  | .merged false => {}
  | .appended => { appended := 1 }

/-- Makes models known, and reports those that are new. -/
def learn (s : Store) (ids : List String) : Store × MergeReport :=
  let models := s.models.insertAll ids
  ({ s with models }, { newModels := models.newSince s.models })

/-- Takes one point. The models of a point that is not stale become known. -/
def takePoint (s : Store) (p : Point) : Store × MergeReport :=
  let admission := s.admission p
  match admission with
  | .stale => (s, admission.report)
  | _ =>
    let (s, report) := (s.place p admission).learn p.values.keys
    (s, admission.report ++ report)

/-! ### Batches and views -/

/-- Takes points one after another. -/
def takePoints (s : Store) : List Point → Store × MergeReport
  | [] => (s, {})
  | p :: ps =>
    let (s, first) := s.takePoint p
    let (s, others) := s.takePoints ps
    (s, first ++ others)

/-- The points of a batch in ascending order of time, those of one time in the order of delivery. -/
def inOrder (points : List Point) : List Point :=
  points.mergeSort fun p q => p.timestamp ≤ q.timestamp

/-- Merges a batch of points and the model ids that the feed declared with it. -/
def merge (s : Store) (points : List Point) (declared : List String) : Store × MergeReport :=
  let (s, first) := s.learn declared
  let (s, others) := s.takePoints (inOrder points)
  (s, first ++ others)

/-- The view for a selection at a time. -/
def select (s : Store) (selection : Selection) (now : Int) : Store × List Row :=
  let (rows, bases) := selectView s.rows s.models selection now s.bases s.budget
  ({ s with bases }, rows)

/-- The store without anything but its budget. -/
def clear (s : Store) : Store := { budget := s.budget }

end Store

end EquityBoard
