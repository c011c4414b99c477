import EquityBoard.Proofs.Series.Coherence

/-!
# What a merge reports

Every part of a merge reports for itself, and the reports add up. So what holds of the report of one
point holds of the report of a batch: it accounts for the new rows and the new models
(`MergeReport.AccountsFor`). Because a batch is taken in ascending order of time, the cursor before
the batch decides which points are stale (`stale_merge`) and which ones make their models known
(`models_merge`).
-/

namespace EquityBoard

/-! ## Adding up reports -/

namespace MergeReport

@[simp] theorem appended_append (a b : MergeReport) :
    (a ++ b).appended = a.appended + b.appended := rfl

@[simp] theorem merged_append (a b : MergeReport) : (a ++ b).merged = a.merged + b.merged := rfl

@[simp] theorem stale_append (a b : MergeReport) : (a ++ b).stale = a.stale + b.stale := rfl

@[simp] theorem newModels_append (a b : MergeReport) :
    (a ++ b).newModels = a.newModels ++ b.newModels := rfl

theorem append_def (a b : MergeReport) :
    a ++ b = ⟨a.appended + b.appended, a.merged + b.merged, a.stale + b.stale,
      a.newModels ++ b.newModels⟩ := rfl

@[simp] theorem empty_append (a : MergeReport) : {} ++ a = a := by
  simp only [append_def, Nat.zero_add, List.nil_append]

theorem append_assoc (a b c : MergeReport) : a ++ b ++ c = a ++ (b ++ c) := by
  simp only [append_def, Nat.add_assoc, List.append_assoc]

/-- The report tells how a store has grown: how many rows it has got and which models. -/
structure AccountsFor (report : MergeReport) (before after : Store) : Prop where
  size : after.size = before.size + report.appended
  ids : after.models.ids = before.models.ids ++ report.newModels

/-- Reports add up along a run: the sum of two accounts for both changes together. -/
theorem AccountsFor.append {first later : MergeReport} {s s' s'' : Store}
    (h : first.AccountsFor s s') (h' : later.AccountsFor s' s'') :
    (first ++ later).AccountsFor s s'' where
  size := by rw [h'.size, h.size, appended_append, Nat.add_assoc]
  ids := by rw [h'.ids, h.ids, newModels_append, List.append_assoc]

/-- A store that is as it was has got nothing. -/
theorem AccountsFor.of_eq {report : MergeReport} {s s' : Store} (h : report.AccountsFor s s')
    (heq : s' = s) : report.appended = 0 ∧ report.newModels = [] := by
  subst heq
  have hsize := h.size
  exact ⟨by omega, List.self_eq_append_right.1 h.ids⟩

end MergeReport

/-! ## Models that become known -/

namespace ModelSet

theorem insertAll_append (s : ModelSet) (ids ids' : List String) :
    s.insertAll (ids ++ ids') = (s.insertAll ids).insertAll ids' :=
  List.foldl_append

/-- Known models are not added again. -/
theorem insertAll_of_known {s : ModelSet} {ids : List String} (h : ∀ id ∈ ids, id ∈ s.ids) :
    s.insertAll ids = s := by
  induction ids with
  | nil => rfl
  | cons id ids ih =>
    rw [List.forall_mem_cons] at h
    have hinsert : s.insert id = s := dif_pos h.1
    show (s.insert id).insertAll ids = s
    rw [hinsert, ih h.2]

theorem eraseDups_of_nodup {ids : List String} (h : ids.Nodup) : ids.eraseDups = ids := by
  induction ids with
  | nil => rfl
  | cons id ids ih =>
    obtain ⟨hid, hids⟩ := List.nodup_cons.1 h
    have hother : ids.filter (fun x => !x == id) = ids := by
      refine List.filter_eq_self.2 fun x hx => ?_
      simpa using ne_of_mem_of_not_mem hx hid
    rw [List.eraseDups_cons, hother, ih hids]

/-- What is added comes behind in the order in which it is first met. -/
theorem ids_insertAll (s : ModelSet) (ids : List String) :
    (s.insertAll ids).ids = (s.ids ++ ids).eraseDups := by
  induction ids generalizing s with
  | nil => rw [List.append_nil, eraseDups_of_nodup s.nodup, insertAll, List.foldl_nil]
  | cons id ids ih =>
    show ((s.insert id).insertAll ids).ids = _
    rw [ih, ids_insert]
    split
    · rename_i hknown
      have hdropped : (id :: ids).removeAll s.ids = ids.removeAll s.ids :=
        List.filter_cons_of_neg (by simpa using hknown)
      rw [List.eraseDups_append, List.eraseDups_append, hdropped]
    · rw [List.append_assoc, List.singleton_append]

theorem ids_append_newSince {s earlier : ModelSet} (h : earlier.ids <+: s.ids) :
    earlier.ids ++ s.newSince earlier = s.ids :=
  (List.prefix_iff_eq_append.1 h)

end ModelSet

namespace Store

/-! ## The report of one point -/

theorem learn_accounts (s : Store) (ids : List String) :
    (s.learn ids).2.AccountsFor s (s.learn ids).1 where
  size := rfl
  ids := (ModelSet.ids_append_newSince (ModelSet.prefix_insertAll s.models ids)).symm

theorem learn_nil (s : Store) : s.learn [] = (s, {}) := by
  have hnew : s.models.newSince s.models = [] := List.drop_length
  show (s, ({ newModels := s.models.newSince s.models } : MergeReport)) = (s, {})
  rw [hnew]

/-- A point that is not stale reports its admission and its models, a stale one that it is stale. -/
theorem takePoint_snd (s : Store) (p : Point) :
    (s.takePoint p).2 =
      if s.IsOpen p.timestamp then
        (s.admission p).report ++ (s.learn p.values.keys).2
      else { stale := 1 } := by
  have hstale := admission_eq_stale_iff s p
  by_cases hopen : s.IsOpen p.timestamp
  · rw [if_pos hopen, takePoint_of_admission fun h => hstale.1 h hopen]
    -- placing the point does not touch the models, so they are learnt as before it
    cases s.admission p <;> rfl
  · rw [if_neg hopen, takePoint_of_admission_eq_stale (hstale.2 hopen)]

theorem newModels_admission (a : Admission) : a.report.newModels = [] := by
  cases a with
  | stale => rfl
  | merged changed => cases changed <;> rfl
  | appended => rfl

theorem stale_admission {a : Admission} (h : a ≠ .stale) : a.report.stale = 0 := by
  cases a with
  | stale => exact absurd rfl h
  | merged changed => cases changed <;> rfl
  | appended => rfl

/-- An admission counts the row that the point starts. -/
theorem size_place (s : Store) (p : Point) (a : Admission) :
    (s.place p a).size = s.size + a.report.appended := by
  cases a with
  | stale => rfl
  | merged changed =>
    have happended : (Admission.merged changed).report.appended = 0 := by cases changed <;> rfl
    rw [happended]
    exact List.length_modifyHead
  | appended => rfl

/-- The report of an admission accounts for what placing the point does to the store. -/
theorem place_accounts (s : Store) (p : Point) (a : Admission) :
    a.report.AccountsFor s (s.place p a) where
  size := size_place s p a
  ids := by
    rw [newModels_admission, List.append_nil]
    cases a <;> rfl

theorem takePoint_accounts (s : Store) (p : Point) :
    (s.takePoint p).2.AccountsFor s (s.takePoint p).1 := by
  by_cases hstale : s.admission p = .stale
  · rw [takePoint_of_admission_eq_stale hstale]
    exact ⟨rfl, (List.append_nil _).symm⟩
  · rw [takePoint_of_admission hstale]
    exact (place_accounts s p (s.admission p)).append (learn_accounts _ p.values.keys)

/-- A point counts as stale exactly if its time is no longer open. -/
theorem stale_takePoint (s : Store) (p : Point) :
    (s.takePoint p).2.stale = if s.IsOpen p.timestamp then 0 else 1 := by
  rw [takePoint_snd]
  by_cases hopen : s.IsOpen p.timestamp
  · have hadmitted : s.admission p ≠ .stale := fun h =>
      (admission_eq_stale_iff s p).1 h hopen
    rw [if_pos hopen, if_pos hopen, MergeReport.stale_append, stale_admission hadmitted]
    rfl
  · rw [if_neg hopen, if_neg hopen]

/-! ## The report of a batch -/

theorem takePoints_snd_cons (s : Store) (p : Point) (ps : List Point) :
    (s.takePoints (p :: ps)).2 = (s.takePoint p).2 ++ ((s.takePoint p).1.takePoints ps).2 := rfl

theorem merge_snd (s : Store) (points : List Point) (declared : List String) :
    (s.merge points declared).2 =
      (s.learn declared).2 ++ ((s.learn declared).1.takePoints (inOrder points)).2 := rfl

/-- The sum of the points' reports accounts for the whole change. -/
theorem takePoints_accounts (s : Store) (ps : List Point) :
    (s.takePoints ps).2.AccountsFor s (s.takePoints ps).1 := by
  induction ps generalizing s with
  | nil => exact ⟨rfl, (List.append_nil _).symm⟩
  | cons p ps ih =>
    rw [takePoints_cons, takePoints_snd_cons]
    exact (takePoint_accounts s p).append (ih (s.takePoint p).1)

/-- The report of a merge accounts for the growth of the store. -/
theorem merge_accounts (s : Store) (points : List Point) (declared : List String) :
    (s.merge points declared).2.AccountsFor s (s.merge points declared).1 := by
  rw [merge_fst, merge_snd]
  exact (learn_accounts s declared).append (takePoints_accounts _ _)

/-! ## Stale points -/

/-- In an ascending list a point does not move the cursor past the points that follow. -/
theorem isOpen_takePoint_of_mem (s : Store) {p q : Point} {ps : List Point}
    (hps : (p :: ps).Pairwise fun p q => p.timestamp ≤ q.timestamp) (hq : q ∈ ps) :
    (s.takePoint p).1.IsOpen q.timestamp ↔ s.IsOpen q.timestamp := by
  rw [isOpen_takePoint]
  exact and_iff_left ((List.pairwise_cons.1 hps).1 q hq)

/-- Of points in ascending order those are stale that are older than the cursor at the start. -/
theorem stale_takePoints (s : Store) {ps : List Point}
    (hps : ps.Pairwise fun p q => p.timestamp ≤ q.timestamp) :
    (s.takePoints ps).2.stale = ps.countP fun p => ¬ s.IsOpen p.timestamp := by
  induction ps generalizing s with
  | nil => rfl
  | cons p ps ih =>
    -- the cursor that the later points meet decides about them as the one before `p` does
    have hrest : (ps.countP fun q => ¬ (s.takePoint p).1.IsOpen q.timestamp) =
        ps.countP fun q => ¬ s.IsOpen q.timestamp := by
      refine List.countP_congr fun q hq => ?_
      simp only [isOpen_takePoint_of_mem s hps hq]
    rw [takePoints_snd_cons, MergeReport.stale_append, ih _ (List.pairwise_cons.1 hps).2, hrest,
      stale_takePoint, List.countP_cons, Nat.add_comm]
    by_cases hopen : s.IsOpen p.timestamp
    · simp [hopen]
    · simp [hopen]

/-- The stale count told by the store before the merge: the points of the batch at closed times. -/
theorem stale_merge (s : Store) (points : List Point) (declared : List String) :
    (s.merge points declared).2.stale = points.countP fun p => ¬ s.IsOpen p.timestamp := by
  rw [merge_snd, MergeReport.stale_append, stale_takePoints _ (inOrder_ascending points),
    (inOrder_perm points).countP_eq]
  exact Nat.zero_add _

/-! ## Models of a batch -/

/-- Points in ascending order make the models of those known that are not stale at the start. -/
theorem models_takePoints (s : Store) {ps : List Point}
    (hps : ps.Pairwise fun p q => p.timestamp ≤ q.timestamp) :
    (s.takePoints ps).1.models =
      s.models.insertAll ((ps.filter fun p => s.IsOpen p.timestamp).flatMap (·.values.keys)) := by
  induction ps generalizing s with
  | nil => rfl
  | cons p ps ih =>
    have hrest : (ps.filter fun q => (s.takePoint p).1.IsOpen q.timestamp) =
        ps.filter fun q => s.IsOpen q.timestamp := by
      refine List.filter_congr fun q hq => ?_
      simp only [isOpen_takePoint_of_mem s hps hq]
    rw [takePoints_cons, ih _ (List.pairwise_cons.1 hps).2, hrest]
    by_cases hopen : s.IsOpen p.timestamp
    · rw [takePoint_of_isOpen hopen, List.filter_cons_of_pos (by simpa using hopen),
        List.flatMap_cons, ModelSet.insertAll_append]
    · rw [takePoint_of_stale hopen, List.filter_cons_of_neg (by simpa using hopen)]

/-- A merge makes the declared models known, then those of the points that are not stale. -/
theorem models_merge (s : Store) (points : List Point) (declared : List String) :
    (s.merge points declared).1.models = s.models.insertAll (declared ++
      ((inOrder points).filter fun p => s.IsOpen p.timestamp).flatMap (·.values.keys)) := by
  rw [merge_fst, models_takePoints _ (inOrder_ascending points), ModelSet.insertAll_append]
  rfl

/-- The ids known after a merge: those before it, the declared ones, and those of the accepted
points. -/
theorem mem_models_merge (s : Store) (points : List Point) (declared : List String)
    (model : String) :
    model ∈ (s.merge points declared).1.models.ids ↔
      model ∈ s.models.ids ∨ model ∈ declared ∨
        ∃ p ∈ points, s.IsOpen p.timestamp ∧ model ∈ p.values.keys := by
  rw [models_merge, ModelSet.mem_insertAll, List.mem_append, List.mem_flatMap]
  simp only [List.mem_filter, decide_eq_true_eq, (inOrder_perm points).mem_iff, and_assoc]

end Store

end EquityBoard
