import EquityBoard.Proofs.Series.Delivery

/-!
# Runs of the store

A store starts empty, and merges, views and clearings follow in any order. `takePoint_fst` says all
that one point can do to a store; every law of a run comes from it by induction over the points of a
batch and over the operations.
-/

namespace EquityBoard.Store

/-! ## Operations and runs -/

/-- What can be done with a store. -/
inductive Op where
  | merge (points : List Point) (declared : List String)
  | select (selection : Selection) (now : Int)
  | clear

/-- The store after an operation. -/
def apply (s : Store) : Op → Store
  | .merge points declared => (s.merge points declared).1
  | .select selection now => (s.select selection now).1
  | .clear => s.clear

/-- The store after a run of operations. -/
def run (s : Store) (ops : List Op) : Store := ops.foldl apply s

@[simp] theorem run_nil (s : Store) : s.run [] = s := rfl

@[simp] theorem run_cons (s : Store) (op : Op) (ops : List Op) :
    s.run (op :: ops) = (s.apply op).run ops := rfl

theorem run_append (s : Store) (first later : List Op) :
    s.run (first ++ later) = (s.run first).run later :=
  List.foldl_append

/-- What every operation keeps holds after a run. -/
theorem run_induction {P : Store → Prop} (step : ∀ s op, P s → P (s.apply op)) {s : Store}
    (hs : P s) (ops : List Op) : P (s.run ops) := by
  induction ops generalizing s with
  | nil => exact hs
  | cons op ops ih => exact ih (step s op hs)

/-! ## Times and the cursor -/

/-- No row is newer than the time: a point of it is not stale. -/
def IsOpen (s : Store) (t : Int) : Prop := ∀ c ∈ s.cursor?, c ≤ t

/-- Every row is older than the time: a point of it starts a row. -/
def IsAhead (s : Store) (t : Int) : Prop := ∀ c ∈ s.cursor?, c < t

instance (s : Store) (t : Int) : Decidable (s.IsOpen t) :=
  inferInstanceAs (Decidable (∀ c ∈ s.cursor?, c ≤ t))

instance (s : Store) (t : Int) : Decidable (s.IsAhead t) :=
  inferInstanceAs (Decidable (∀ c ∈ s.cursor?, c < t))

/-- The last row is the newest one. -/
theorem cursor?_eq_getLast? (s : Store) : s.cursor? = s.rows.getLast?.map (·.timestamp) := by
  rw [rows, List.getLast?_reverse, s.cursor?_eq]

theorem mem_rows {s : Store} {r : Row} : r ∈ s.rows ↔ r ∈ s.newestFirst := List.mem_reverse

theorem length_rows (s : Store) : s.rows.length = s.size := List.length_reverse

theorem cursor?_nil {s : Store} (h : s.newestFirst = []) : s.cursor? = none := by
  rw [s.cursor?_eq, h]
  rfl

/-- The cursor of a store with rows is the time of its newest row. -/
theorem cursor?_cons {s : Store} {newest : Row} {older : List Row}
    (h : s.newestFirst = newest :: older) : s.cursor? = some newest.timestamp := by
  rw [s.cursor?_eq, h]
  rfl

theorem isOpen_nil {s : Store} (h : s.newestFirst = []) (t : Int) : s.IsOpen t := by
  simp [IsOpen, cursor?_nil h]

theorem isAhead_nil {s : Store} (h : s.newestFirst = []) (t : Int) : s.IsAhead t := by
  simp [IsAhead, cursor?_nil h]

theorem isOpen_cons {s : Store} {newest : Row} {older : List Row}
    (h : s.newestFirst = newest :: older) (t : Int) : s.IsOpen t ↔ newest.timestamp ≤ t := by
  simp [IsOpen, cursor?_cons h]

theorem isAhead_cons {s : Store} {newest : Row} {older : List Row}
    (h : s.newestFirst = newest :: older) (t : Int) : s.IsAhead t ↔ newest.timestamp < t := by
  simp [IsAhead, cursor?_cons h]

theorem isAhead_iff (s : Store) (t : Int) : s.IsAhead t ↔ s.IsOpen (t - 1) := by
  refine forall_congr' fun c => forall_congr' fun _ => ?_
  omega

/-- The cursor is no further datum: it follows the rows. -/
theorem eq_of_newestFirst {s s' : Store} (newestFirst : s.newestFirst = s'.newestFirst)
    (models : s.models = s'.models) (bases : s.bases = s'.bases) (budget : s.budget = s'.budget) :
    s = s' := by
  have hcursor : s.cursor? = s'.cursor? := by rw [s.cursor?_eq, s'.cursor?_eq, newestFirst]
  cases s
  cases s'
  simp only at newestFirst models bases budget hcursor
  subst newestFirst models bases budget hcursor
  rfl

/-! ## One point -/

theorem admission_nil {s : Store} (h : s.newestFirst = []) (p : Point) :
    s.admission p = .appended := by
  rw [admission, cursor?_nil h]

theorem admission_cons {s : Store} {newest : Row} {older : List Row}
    (h : s.newestFirst = newest :: older) (p : Point) :
    s.admission p =
      if p.timestamp < newest.timestamp then .stale
      else if p.timestamp = newest.timestamp then .merged (newest.isChangedBy p)
      else .appended := by
  rw [admission, cursor?_cons h, h]
  rfl

/-- A point is turned away exactly if its time is no longer open. -/
theorem admission_eq_stale_iff (s : Store) (p : Point) :
    s.admission p = .stale ↔ ¬ s.IsOpen p.timestamp := by
  cases h : s.newestFirst with
  | nil => simp [admission_nil h, isOpen_nil h]
  | cons newest older =>
    rw [isOpen_cons h, admission_cons h]
    split
    · simp only [true_iff]
      omega
    · rename_i hstale
      split <;> simp <;> omega

/-- The rows after a point, newest first, as the newest row decides. -/
def placePoint (newestFirst : List Row) (p : Point) : List Row :=
  match newestFirst with
  | [] => [Row.ofPoint p]
  | newest :: older =>
    if p.timestamp < newest.timestamp then newest :: older
    else if p.timestamp = newest.timestamp then newest.overlay p :: older
    else Row.ofPoint p :: newest :: older

/-- What the cursor decides is what the newest row does. -/
theorem newestFirst_place (s : Store) (p : Point) :
    (s.place p (s.admission p)).newestFirst = placePoint s.newestFirst p := by
  cases h : s.newestFirst with
  | nil =>
    rw [admission_nil h]
    exact congrArg (Row.ofPoint p :: ·) h
  | cons newest older =>
    rw [admission_cons h, placePoint]
    split
    · exact h
    · split
      · exact congrArg (·.modifyHead (·.overlay p)) h
      · exact congrArg (Row.ofPoint p :: ·) h

/-- A point that is not stale is placed among the rows, and then its models become known. -/
theorem takePoint_of_admission {s : Store} {p : Point} (h : s.admission p ≠ .stale) :
    s.takePoint p =
      let learnt := (s.place p (s.admission p)).learn p.values.keys
      (learnt.1, (s.admission p).report ++ learnt.2) := by
  unfold takePoint
  generalize s.admission p = admission at h
  cases admission with
  | stale => exact absurd rfl h
  | merged changed => rfl
  | appended => rfl

/-- A stale point is counted. -/
theorem takePoint_of_admission_eq_stale {s : Store} {p : Point} (h : s.admission p = .stale) :
    s.takePoint p = (s, { stale := 1 }) := by
  unfold takePoint
  rw [h]
  rfl

/-- What a point does to a store: one that is older than the cursor does nothing, any other is
placed among the rows and makes its models known. -/
theorem takePoint_fst (s : Store) (p : Point) :
    (s.takePoint p).1 =
      if s.IsOpen p.timestamp then
        { s with
          newestFirst := placePoint s.newestFirst p
          models := s.models.insertAll p.values.keys
          cursor? := (placePoint s.newestFirst p).head?.map (·.timestamp)
          cursor?_eq := rfl }
      else s := by
  have hstale := admission_eq_stale_iff s p
  by_cases hopen : s.IsOpen p.timestamp
  · rw [if_pos hopen, takePoint_of_admission fun h => hstale.1 h hopen]
    have hplaced := newestFirst_place s p
    generalize s.admission p = admission at hplaced
    -- every admission leaves all but the rows and the cursor alone
    cases admission <;> exact eq_of_newestFirst hplaced rfl rfl rfl
  · rw [if_neg hopen, takePoint_of_admission_eq_stale (hstale.2 hopen)]

/-- A point at an open time is placed in the rows, and its models are learned. -/
theorem takePoint_of_isOpen {s : Store} {p : Point} (h : s.IsOpen p.timestamp) :
    (s.takePoint p).1 =
      { s with
        newestFirst := placePoint s.newestFirst p
        models := s.models.insertAll p.values.keys
        cursor? := (placePoint s.newestFirst p).head?.map (·.timestamp)
        cursor?_eq := rfl } := by
  rw [takePoint_fst, if_pos h]

/-- A stale point changes nothing, not even the model list. -/
theorem takePoint_of_stale {s : Store} {p : Point} (h : ¬ s.IsOpen p.timestamp) :
    (s.takePoint p).1 = s := by
  rw [takePoint_fst, if_neg h]

/-- The cursor follows the newest time. -/
theorem cursor?_takePoint (s : Store) (p : Point) :
    (s.takePoint p).1.cursor? = some (s.cursor?.elim p.timestamp fun c => max c p.timestamp) := by
  by_cases hopen : s.IsOpen p.timestamp
  · rw [takePoint_of_isOpen hopen]
    cases h : s.newestFirst with
    | nil =>
      rw [cursor?_nil h]
      rfl
    | cons newest older =>
      rw [isOpen_cons h] at hopen
      have hmax : max newest.timestamp p.timestamp = p.timestamp := by omega
      rw [cursor?_cons h, Option.elim_some, hmax]
      simp only [placePoint]
      rw [if_neg (by omega)]
      split
      · rename_i htie
        exact congrArg some htie.symm
      · rfl
  · rw [takePoint_of_stale hopen]
    unfold IsOpen at hopen
    cases h : s.cursor? with
    | none => simp [h] at hopen
    | some c =>
      simp only [h, Option.mem_some_iff, forall_eq'] at hopen
      simp only [Option.elim_some, Option.some.injEq]
      omega

/-- A point closes the times before its own. -/
theorem isOpen_takePoint (s : Store) (p : Point) (t : Int) :
    (s.takePoint p).1.IsOpen t ↔ s.IsOpen t ∧ p.timestamp ≤ t := by
  unfold IsOpen
  rw [cursor?_takePoint]
  cases s.cursor? with
  | none => simp
  | some c =>
    simp only [Option.elim_some, Option.mem_some_iff, forall_eq']
    omega

theorem isAhead_takePoint (s : Store) (p : Point) (t : Int) :
    (s.takePoint p).1.IsAhead t ↔ s.IsAhead t ∧ p.timestamp < t := by
  unfold IsAhead
  rw [cursor?_takePoint]
  cases s.cursor? with
  | none => simp
  | some c =>
    simp only [Option.elim_some, Option.mem_some_iff, forall_eq']
    omega

@[simp] theorem takePoints_nil (s : Store) : s.takePoints [] = (s, {}) := rfl

theorem takePoints_cons (s : Store) (p : Point) (ps : List Point) :
    (s.takePoints (p :: ps)).1 = ((s.takePoint p).1.takePoints ps).1 := rfl

/-- What every point keeps holds after a list of points. -/
theorem takePoints_induction {P : Store → Prop} (step : ∀ s p, P s → P (s.takePoint p).1)
    {s : Store} (hs : P s) (ps : List Point) : P (s.takePoints ps).1 := by
  induction ps generalizing s with
  | nil => exact hs
  | cons p ps ih =>
    rw [takePoints_cons]
    exact ih (step s p hs)

/-- The store with the declared models known. -/
theorem learn_fst (s : Store) (ids : List String) :
    (s.learn ids).1 = { s with models := s.models.insertAll ids } := rfl

theorem merge_fst (s : Store) (points : List Point) (declared : List String) :
    (s.merge points declared).1 = ((s.learn declared).1.takePoints (inOrder points)).1 := rfl

/-! ## What a merge leaves alone -/

theorem bases_takePoint (s : Store) (p : Point) : (s.takePoint p).1.bases = s.bases := by
  rw [takePoint_fst]
  split <;> rfl

theorem budget_takePoint (s : Store) (p : Point) : (s.takePoint p).1.budget = s.budget := by
  rw [takePoint_fst]
  split <;> rfl

theorem bases_merge (s : Store) (points : List Point) (declared : List String) :
    (s.merge points declared).1.bases = s.bases := by
  rw [merge_fst]
  refine takePoints_induction (P := fun s' => s'.bases = s.bases) ?_ ?_ _
  · intro s' p hs'
    rw [bases_takePoint, hs']
  · rfl

theorem budget_merge (s : Store) (points : List Point) (declared : List String) :
    (s.merge points declared).1.budget = s.budget := by
  rw [merge_fst]
  refine takePoints_induction (P := fun s' => s'.budget = s.budget) ?_ ?_ _
  · intro s' p hs'
    rw [budget_takePoint, hs']
  · rfl

/-- The budget is set when a store is made, and stays. -/
theorem budget_run (s : Store) (ops : List Op) : (s.run ops).budget = s.budget := by
  refine run_induction (P := fun s' => s'.budget = s.budget) ?_ rfl ops
  intro s' op hs'
  cases op with
  | merge points declared => exact (budget_merge s' points declared).trans hs'
  | select selection now => exact hs'
  | clear => exact hs'

end EquityBoard.Store
