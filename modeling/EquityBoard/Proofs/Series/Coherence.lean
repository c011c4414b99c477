import EquityBoard.Proofs.Series.Runs

/-!
# Coherent stores

The invariant of the store: rows in strictly ascending order of time with the cursor at the last
one, finite values, and models that are known, each once. A merge restores it after every point,
whatever the batch. Main statement: every store of a run is coherent, and between two clearings the
known models only grow at their end (`run_coherent`).
-/

namespace EquityBoard.Store

/-! ## Placing a point -/

/-- A point keeps the rows in strictly descending order. -/
theorem placePoint_descending {l : List Row} (p : Point)
    (h : l.Pairwise fun a b => b.timestamp < a.timestamp) :
    (placePoint l p).Pairwise fun a b => b.timestamp < a.timestamp := by
  cases l with
  | nil => exact List.pairwise_singleton _ _
  | cons newest older =>
    have hcons := List.pairwise_cons.1 h
    rw [placePoint]
    split
    · exact h
    · split
      · -- the row that is laid over keeps its time
        exact List.pairwise_cons.2 ⟨hcons.1, hcons.2⟩
      · rename_i hstale htie
        refine List.pairwise_cons.2 ⟨fun r hr => ?_, h⟩
        show r.timestamp < p.timestamp
        rcases List.mem_cons.1 hr with rfl | hr
        · omega
        · have := hcons.1 r hr
          omega

/-- Every value among the rows after a point was there before or is a finite value of the point. -/
theorem get?_of_mem_placePoint {l : List Row} {p : Point} {r : Row} (hr : r ∈ placePoint l p)
    {model : String} {x : Float} (hx : r.get? model = some x) :
    (∃ r' ∈ l, r'.get? model = some x) ∨ p.finiteValues.get? model = some x := by
  cases l with
  | nil =>
    rw [placePoint, List.mem_singleton] at hr
    subst hr
    exact Or.inr hx
  | cons newest older =>
    rw [placePoint] at hr
    split at hr
    · exact Or.inl ⟨r, hr, hx⟩
    · split at hr
      · rcases List.mem_cons.1 hr with rfl | hr
        · rw [Row.overlay, Row.get?, KeyMap.get?_overlay, Option.or_eq_some_iff] at hx
          rcases hx with hp | ⟨_, hnewest⟩
          · exact Or.inr hp
          · exact Or.inl ⟨newest, List.mem_cons_self, hnewest⟩
        · exact Or.inl ⟨r, List.mem_cons_of_mem _ hr, hx⟩
      · rcases List.mem_cons.1 hr with rfl | hr
        · exact Or.inr hx
        · exact Or.inl ⟨r, hr, hx⟩

/-! ## The invariant -/

/-- The invariant of the store. -/
structure Coherent (s : Store) : Prop where
  /-- There is one row for each time, and the rows stand in the order of time. -/
  ascending : s.rows.Pairwise fun a b => a.timestamp < b.timestamp
  /-- The cursor is the time of the last row. -/
  cursor : s.cursor? = s.rows.getLast?.map (·.timestamp)
  finite : ∀ r ∈ s.rows, ∀ model x, r.get? model = some x → x.isFinite = true
  known : ∀ r ∈ s.rows, ∀ model ∈ r.values.keys, model ∈ s.models.ids
  nodup : s.models.ids.Nodup

/-- Coherence read on the list the store keeps: times fall strictly from the newest row on. -/
theorem Coherent.descending {s : Store} (h : s.Coherent) :
    s.newestFirst.Pairwise fun a b => b.timestamp < a.timestamp :=
  List.pairwise_reverse.1 h.ascending

theorem Coherent.of_newestFirst {s : Store}
    (descending : s.newestFirst.Pairwise fun a b => b.timestamp < a.timestamp)
    (finite : ∀ r ∈ s.newestFirst, ∀ model x, r.get? model = some x → x.isFinite = true)
    (known : ∀ r ∈ s.newestFirst, ∀ model x, r.get? model = some x → model ∈ s.models.ids) :
    s.Coherent where
  ascending := List.pairwise_reverse.2 descending
  cursor := cursor?_eq_getLast? s
  finite r hr := finite r (mem_rows.1 hr)
  known r hr model hmodel := by
    obtain ⟨x, hx⟩ := (KeyMap.mem_keys_iff r.values model).1 hmodel
    exact known r (mem_rows.1 hr) model x hx
  nodup := s.models.nodup

/-- A model with a value in a row is known. -/
theorem Coherent.mem_models {s : Store} (h : s.Coherent) {r : Row} (hr : r ∈ s.rows)
    {model : String} {x : Float} (hx : r.get? model = some x) : model ∈ s.models.ids :=
  h.known r hr model ((KeyMap.mem_keys_iff r.values model).2 ⟨x, hx⟩)

theorem coherent_empty (budget : Nat) : Coherent { budget } :=
  .of_newestFirst List.Pairwise.nil (fun _ hr => nomatch hr) (fun _ hr => nomatch hr)

/-- Taking one point, whatever its time and values, keeps a store coherent. -/
theorem Coherent.takePoint {s : Store} (h : s.Coherent) (p : Point) :
    (s.takePoint p).1.Coherent := by
  by_cases hopen : s.IsOpen p.timestamp
  · rw [takePoint_of_isOpen hopen]
    refine .of_newestFirst (placePoint_descending p h.descending) ?_ ?_
    · intro r hr model x hx
      rcases get?_of_mem_placePoint hr hx with ⟨r', hr', hx'⟩ | hp
      · exact h.finite r' (mem_rows.2 hr') model x hx'
      · rw [Point.get?_finiteValues, Option.filter_eq_some_iff] at hp
        exact hp.2
    · intro r hr model x hx
      rw [ModelSet.mem_insertAll]
      rcases get?_of_mem_placePoint hr hx with ⟨r', hr', hx'⟩ | hp
      · exact Or.inl (h.mem_models (mem_rows.2 hr') hx')
      · rw [Point.get?_finiteValues, Option.filter_eq_some_iff] at hp
        exact Or.inr ((KeyMap.mem_keys_iff p.values model).2 ⟨x, hp.1⟩)
  · rw [takePoint_of_stale hopen]
    exact h

theorem Coherent.learn {s : Store} (h : s.Coherent) (ids : List String) :
    (s.learn ids).1.Coherent := by
  rw [learn_fst]
  refine .of_newestFirst h.descending (fun r hr => h.finite r (mem_rows.2 hr)) ?_
  intro r hr model x hx
  rw [ModelSet.mem_insertAll]
  exact Or.inl (h.mem_models (mem_rows.2 hr) hx)

theorem Coherent.takePoints {s : Store} (h : s.Coherent) (ps : List Point) :
    (s.takePoints ps).1.Coherent :=
  takePoints_induction (fun _ p hs => hs.takePoint p) h ps

/-- Merging any batch keeps a store coherent. -/
theorem Coherent.merge {s : Store} (h : s.Coherent) (points : List Point)
    (declared : List String) : (s.merge points declared).1.Coherent := by
  rw [merge_fst]
  exact (h.learn declared).takePoints _

/-- A view changes nothing but the percent bases. -/
theorem select_fst (s : Store) (selection : Selection) (now : Int) :
    ∃ bases, (s.select selection now).1 = { s with bases } := ⟨_, rfl⟩

theorem Coherent.apply {s : Store} (h : s.Coherent) (op : Op) : (s.apply op).Coherent := by
  cases op with
  | merge points declared => exact h.merge points declared
  | select selection now =>
    obtain ⟨bases, hbases⟩ := select_fst s selection now
    show (s.select selection now).1.Coherent
    rw [hbases]
    exact ⟨h.ascending, h.cursor, h.finite, h.known, h.nodup⟩
  | clear => exact coherent_empty s.budget

/-- Every state a store reaches from empty, by any operations in any order, is coherent. -/
theorem coherent_run (budget : Nat) (ops : List Op) : (run { budget } ops).Coherent :=
  run_induction (fun _ op hs => hs.apply op) (coherent_empty budget) ops

/-! ## Growth of the models -/

/-- The model list only grows at its end: ids known before a point keep their places after it. -/
theorem prefix_takePoint (s : Store) (p : Point) :
    s.models.ids <+: (s.takePoint p).1.models.ids := by
  by_cases hopen : s.IsOpen p.timestamp
  · rw [takePoint_of_isOpen hopen]
    exact ModelSet.prefix_insertAll s.models p.values.keys
  · simp only [takePoint_of_stale hopen, List.prefix_refl]

/-- A merge leaves the known ids where they stand and adds the new ones after them. -/
theorem prefix_merge (s : Store) (points : List Point) (declared : List String) :
    s.models.ids <+: (s.merge points declared).1.models.ids := by
  rw [merge_fst]
  refine takePoints_induction (P := fun s' => s.models.ids <+: s'.models.ids) ?_ ?_ _
  · intro s' p hs'
    exact hs'.trans (prefix_takePoint s' p)
  · exact ModelSet.prefix_insertAll s.models declared

/-- Until the store is cleared the known models stay in front of those that come later. -/
theorem prefix_run (s : Store) (ops : List Op) (h : Op.clear ∉ ops) :
    s.models.ids <+: (s.run ops).models.ids := by
  induction ops generalizing s with
  | nil => exact List.prefix_refl _
  | cons op ops ih =>
    rw [List.mem_cons, not_or] at h
    refine List.IsPrefix.trans ?_ (ih (s.apply op) h.2)
    cases op with
    | merge points declared => exact prefix_merge s points declared
    | select selection now => exact List.prefix_refl _
    | clear => exact absurd rfl h.1

/-! ## The cursor and the delivered points -/

/-- The points that were delivered since the last clearing, after one more operation. -/
def deliver (points : List Point) : Op → List Point
  | .merge batch _ => points ++ batch
  | .select _ _ => points
  | .clear => []

/-- The points that a run delivers after its last clearing. -/
def delivered (ops : List Op) : List Point := ops.foldl deliver []

theorem isOpen_takePoints (s : Store) (ps : List Point) (t : Int) :
    (s.takePoints ps).1.IsOpen t ↔ s.IsOpen t ∧ ∀ p ∈ ps, p.timestamp ≤ t := by
  induction ps generalizing s with
  | nil => simp
  | cons p ps ih =>
    rw [takePoints_cons, ih, isOpen_takePoint, List.forall_mem_cons, and_assoc]

/-- After a merge exactly those times are open that were open before it and that no delivered point
lies beyond. -/
theorem isOpen_merge (s : Store) (points : List Point) (declared : List String) (t : Int) :
    (s.merge points declared).1.IsOpen t ↔ s.IsOpen t ∧ ∀ p ∈ points, p.timestamp ≤ t := by
  rw [merge_fst, isOpen_takePoints]
  simp only [(inOrder_perm points).mem_iff]
  rfl

theorem isOpen_empty_iff (budget : Nat) (t : Int) :
    IsOpen { budget } t ↔ ∀ p ∈ ([] : List Point), p.timestamp ≤ t := by
  constructor
  · intro _ p hp
    cases hp
  · intro _
    exact isOpen_nil rfl t

/-- The bounds of the cursor are those of the delivered points. -/
theorem isOpen_run {s : Store} {points : List Point}
    (h : ∀ t, s.IsOpen t ↔ ∀ p ∈ points, p.timestamp ≤ t) (ops : List Op) (t : Int) :
    (s.run ops).IsOpen t ↔ ∀ p ∈ ops.foldl deliver points, p.timestamp ≤ t := by
  -- what is carried along is the list of the points delivered so far
  induction ops generalizing s points with
  | nil => exact h t
  | cons op ops ih =>
    refine @ih (s.apply op) (deliver points op) fun t => ?_
    cases op with
    | merge batch declared =>
      show (s.merge batch declared).1.IsOpen t ↔ ∀ p ∈ points ++ batch, p.timestamp ≤ t
      rw [isOpen_merge, h, List.forall_mem_append]
    | select selection now => exact h t
    | clear => exact isOpen_empty_iff s.budget t

/-- The cursor is the greatest time that was delivered since the last clearing. -/
theorem cursor?_run_eq_some_iff (budget : Nat) (ops : List Op) (c : Int) :
    (run { budget } ops).cursor? = some c ↔
      (∃ p ∈ delivered ops, p.timestamp = c) ∧ ∀ p ∈ delivered ops, p.timestamp ≤ c := by
  have hopen := isOpen_run (isOpen_empty_iff budget) ops
  change ∀ t, _ ↔ ∀ p ∈ delivered ops, p.timestamp ≤ t at hopen
  simp only [IsOpen] at hopen
  constructor
  · intro h
    simp only [h, Option.mem_some_iff, forall_eq'] at hopen
    refine ⟨?_, (hopen c).1 (Int.le_refl c)⟩
    -- were every point older than the cursor, the cursor could not have come so far
    refine Decidable.byContradiction fun hnone => ?_
    have hbelow := (hopen (c - 1)).2 fun p hp => by
      have hle := (hopen c).1 (Int.le_refl c) p hp
      have hne : p.timestamp ≠ c := fun he => hnone ⟨p, hp, he⟩
      omega
    omega
  · rintro ⟨⟨p, hp, rfl⟩, hmax⟩
    cases h : (run { budget } ops).cursor? with
    | none =>
      simp only [h] at hopen
      have hle := (hopen (p.timestamp - 1)).1 (fun c hc => by cases hc) p hp
      omega
    | some c =>
      simp only [h, Option.mem_some_iff, forall_eq'] at hopen
      have hle := (hopen c).1 (Int.le_refl c) p hp
      have hge := (hopen p.timestamp).2 hmax
      exact congrArg some (by omega)

/-- Every store that a run reaches from an empty one is coherent, its cursor is the greatest time
delivered since the last clearing, and until the next clearing its models stay in front of those
that come later. -/
theorem run_coherent (budget : Nat) (ops later : List Op) :
    (run { budget } ops).Coherent ∧
      ((run { budget } ops).cursor? = none ↔ (run { budget } ops).rows = []) ∧
      (∀ c, (run { budget } ops).cursor? = some c ↔
        (∃ p ∈ delivered ops, p.timestamp = c) ∧ ∀ p ∈ delivered ops, p.timestamp ≤ c) ∧
      (Op.clear ∉ later →
        (run { budget } ops).models.ids <+: (run { budget } (ops ++ later)).models.ids) := by
  refine ⟨coherent_run budget ops, ?_, cursor?_run_eq_some_iff budget ops, fun h => ?_⟩
  · rw [cursor?_eq_getLast?, Option.map_eq_none_iff, List.getLast?_eq_none_iff]
  · rw [run_append]
    exact prefix_run _ later h

end EquityBoard.Store
