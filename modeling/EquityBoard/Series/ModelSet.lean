/-!
# The known models

Model ids in the order in which they were first seen, each once. The set only grows: an addition
leaves the earlier ids where they are.
-/

namespace EquityBoard

/-- The ids of the known models in first-seen order. -/
structure ModelSet where
  ids : List String
  nodup : ids.Nodup

namespace ModelSet

/-- No model. -/
def empty : ModelSet := ⟨[], List.nodup_nil⟩

instance : Inhabited ModelSet := ⟨empty⟩

/-- Whether a model is known. -/
def contains (s : ModelSet) (id : String) : Bool := s.ids.contains id

/-- How many models are known. -/
def size (s : ModelSet) : Nat := s.ids.length

/-- Whether no model is known. -/
def isEmpty (s : ModelSet) : Bool := s.ids.isEmpty

/-- The set with a model at its end, unless the model is known already. -/
def insert (s : ModelSet) (id : String) : ModelSet :=
  if h : id ∈ s.ids then s
  else ⟨s.ids ++ [id], List.nodup_append.2
    ⟨s.nodup, by simp, fun a ha b hb hab => h (by simp_all)⟩⟩

/-- The set with all models of a list. -/
def insertAll (s : ModelSet) (ids : List String) : ModelSet := ids.foldl insert s

/-- The models that are in the set and not in an earlier one. -/
def newSince (s earlier : ModelSet) : List String := s.ids.drop earlier.ids.length

/-- The set of the models of a list. -/
def ofList (ids : List String) : ModelSet := empty.insertAll ids

/-- An id that is new comes last, one that is known changes nothing. -/
theorem ids_insert (s : ModelSet) (id : String) :
    (s.insert id).ids = if id ∈ s.ids then s.ids else s.ids ++ [id] := by
  unfold insert
  split <;> simp_all

/-- An insertion adds its own id and no other one. -/
theorem mem_insert (s : ModelSet) (id x : String) :
    x ∈ (s.insert id).ids ↔ x ∈ s.ids ∨ x = id := by
  rw [ids_insert]
  split
  · rename_i h
    constructor
    · exact Or.inl
    · rintro (hx | rfl)
      · exact hx
      · exact h
  · rw [List.mem_append, List.mem_singleton]

/-- A list adds its own models and no others. -/
theorem mem_insertAll (s : ModelSet) (ids : List String) (x : String) :
    x ∈ (s.insertAll ids).ids ↔ x ∈ s.ids ∨ x ∈ ids := by
  induction ids generalizing s with
  | nil => simp [insertAll]
  | cons id ids ih =>
    have h := ih (s.insert id)
    rw [mem_insert] at h
    rw [List.mem_cons, ← or_assoc]
    exact h

/-- Earlier models stay in front. -/
theorem prefix_insertAll (s : ModelSet) (ids : List String) :
    s.ids <+: (s.insertAll ids).ids := by
  induction ids generalizing s with
  | nil => exact List.prefix_refl _
  | cons id ids ih =>
    refine List.IsPrefix.trans ?_ (ih (s.insert id))
    rw [ids_insert]
    split
    · exact List.prefix_refl _
    · exact List.prefix_append _ _

end ModelSet

end EquityBoard
