/-!
# Maps keyed by text

A `KeyMap α` holds at most one value for each key and keeps its entries in ascending order of the
keys. The order of two texts is that of their code points, which is also the order of their UTF-8
bytes, so the entries come out in the order in which a document lists them.

Main statements: `get?_insert` and `get?_empty` say what the operations do to the look-up view,
and `ext_get?` says that a map is determined by that view.
-/

namespace EquityBoard

/-- A finite map from text to `α`, one entry for each key, in ascending order of the keys. -/
structure KeyMap (α : Type) where
  /-- The entries in ascending order of their keys. -/
  entries : List (String × α)
  ascending : entries.Pairwise (fun a b => a.1 < b.1)

namespace KeyMap

variable {α β : Type}

/-! ## Insertion into an ordered list of entries -/

/-- Puts an entry in its place in an ascending list; an entry with the same key gives way. -/
def place (key : String) (value : α) : List (String × α) → List (String × α)
  | [] => [(key, value)]
  | entry :: rest =>
    if key < entry.1 then (key, value) :: entry :: rest
    else if key = entry.1 then (key, value) :: rest
    else entry :: place key value rest

/-- A new entry is the only one that can be added. -/
theorem mem_place {key : String} {value : α} {l : List (String × α)} {e : String × α}
    (h : e ∈ place key value l) : e = (key, value) ∨ e ∈ l := by
  induction l with
  | nil => simpa [place] using h
  | cons x xs ih =>
    unfold place at h
    split at h
    · simpa using h
    · split at h
      · simp only [List.mem_cons] at h ⊢
        exact h.imp id Or.inr
      · simp only [List.mem_cons] at h ⊢
        rcases h with h | h
        · exact Or.inr (Or.inl h)
        · exact (ih h).imp id Or.inr

/-- Placing an entry keeps the keys in ascending order, each once. -/
theorem place_ascending {key : String} {value : α} {l : List (String × α)}
    (h : l.Pairwise (fun a b => a.1 < b.1)) :
    (place key value l).Pairwise (fun a b => a.1 < b.1) := by
  induction l with
  | nil => simp [place]
  | cons x xs ih =>
    rw [List.pairwise_cons] at h
    unfold place
    split
    · rename_i hlt
      refine List.pairwise_cons.2 ⟨fun e he => ?_, List.pairwise_cons.2 h⟩
      rcases List.mem_cons.1 he with rfl | he
      · exact hlt
      · exact String.lt_trans hlt (h.1 e he)
    · split
      · rename_i heq
        exact List.pairwise_cons.2 ⟨fun e he => heq ▸ h.1 e he, h.2⟩
      · rename_i hlt hne
        refine List.pairwise_cons.2 ⟨fun e he => ?_, ih h.2⟩
        rcases mem_place he with rfl | he
        · grind
        · exact h.1 e he

/-- The value that a list of entries has for a key: that of the first entry with the key. -/
def seek (key : String) : List (String × α) → Option α
  | [] => none
  | entry :: rest => if key = entry.1 then some entry.2 else seek key rest

/-- After an entry is placed its key has its value, and the other keys have theirs. -/
theorem seek_place (key k : String) (value : α) (l : List (String × α)) :
    seek k (place key value l) = if k = key then some value else seek k l := by
  induction l with
  | nil => rfl
  | cons x xs ih =>
    unfold place
    split
    · rfl
    · split
      · rename_i heq
        by_cases hk : k = key <;> simp [seek, hk, ← heq]
      · simp only [seek, ih]
        grind

/-! ## The operations -/

/-- The map without entries. -/
def empty : KeyMap α := ⟨[], List.Pairwise.nil⟩

instance : Inhabited (KeyMap α) := ⟨empty⟩

/-- The map in which `key` has `value` and every other key keeps what it had. -/
def insert (m : KeyMap α) (key : String) (value : α) : KeyMap α :=
  ⟨place key value m.entries, place_ascending m.ascending⟩

/-- The value of a key. -/
def get? (m : KeyMap α) (key : String) : Option α := seek key m.entries

/-- Whether a key has a value. -/
def contains (m : KeyMap α) (key : String) : Bool := (m.get? key).isSome

/-- The keys in ascending order. -/
def keys (m : KeyMap α) : List String := m.entries.map (·.1)

/-- The number of entries. -/
def size (m : KeyMap α) : Nat := m.entries.length

/-- Whether no key has a value. -/
def isEmpty (m : KeyMap α) : Bool := m.entries.isEmpty

/-- The map of a list of entries; of two entries with one key the later counts. -/
def ofList (entries : List (String × α)) : KeyMap α :=
  entries.foldl (fun m e => m.insert e.1 e.2) empty

/-- Entries that are dropped or change their values leave the keys in order. -/
theorem filterMap_ascending {f : String → α → Option β} {l : List (String × α)}
    (h : l.Pairwise (fun a b => a.1 < b.1)) :
    (l.filterMap fun e => (f e.1 e.2).map (e.1, ·)).Pairwise (fun a b => a.1 < b.1) := by
  rw [List.pairwise_filterMap]
  refine h.imp fun {a b} hab c hc d hd => ?_
  obtain ⟨_, _, rfl⟩ := Option.map_eq_some_iff.1 hc
  obtain ⟨_, _, rfl⟩ := Option.map_eq_some_iff.1 hd
  exact hab

/-- Changes every entry, dropping those for which `f` has nothing. -/
def filterMap (f : String → α → Option β) (m : KeyMap α) : KeyMap β :=
  ⟨m.entries.filterMap fun e => (f e.1 e.2).map (e.1, ·), filterMap_ascending m.ascending⟩

/-- The map without an entry for `key`. -/
def erase (m : KeyMap α) (key : String) : KeyMap α :=
  m.filterMap fun k v => if k = key then none else some v

/-- Lays `n` over `m`: where both have a value, that of `n` counts. -/
def overlay (m n : KeyMap α) : KeyMap α := n.entries.foldl (fun m e => m.insert e.1 e.2) m

/-! ## The look-up view -/

@[simp] theorem get?_empty (key : String) : (empty : KeyMap α).get? key = none := rfl

@[simp] theorem get?_insert (m : KeyMap α) (key k : String) (value : α) :
    (m.insert key value).get? k = if k = key then some value else m.get? k :=
  seek_place key k value m.entries

/-- A key without an entry is not found. -/
theorem seek_eq_none {k : String} {l : List (String × α)} (h : ∀ e ∈ l, k ≠ e.1) :
    seek k l = none := by
  induction l with
  | nil => rfl
  | cons x xs ih =>
    simp only [List.forall_mem_cons] at h
    simp [seek, h.1, ih h.2]

/-- To look up after a change of all values is to look up first. -/
theorem seek_filterMap (f : String → α → Option β) (k : String) (l : List (String × α))
    (h : l.Pairwise (fun a b => a.1 < b.1)) :
    seek k (l.filterMap fun e => (f e.1 e.2).map (e.1, ·)) = (seek k l).bind (f k) := by
  induction l with
  | nil => rfl
  | cons x xs ih =>
    rw [List.pairwise_cons] at h
    have ih := ih h.2
    by_cases hx : k = x.1
    · subst hx
      have hxs : seek x.1 xs = none := seek_eq_none fun e he hk => by
        have := h.1 e he
        grind
      cases hf : f x.1 x.2 <;> simp [seek, hf, ih, hxs]
    · cases hf : f x.1 x.2 <;> simp [seek, hf, ih, hx]

@[simp] theorem get?_filterMap (f : String → α → Option β) (m : KeyMap α) (k : String) :
    (m.filterMap f).get? k = (m.get? k).bind (f k) :=
  seek_filterMap f k m.entries m.ascending

/-- With ascending keys the entries are what a look-up finds. -/
theorem mem_iff_seek {k : String} {v : α} {l : List (String × α)}
    (h : l.Pairwise (fun a b => a.1 < b.1)) : (k, v) ∈ l ↔ seek k l = some v := by
  induction l with
  | nil => simp [seek]
  | cons x xs ih =>
    rw [List.pairwise_cons] at h
    have ih := ih h.2
    by_cases hx : k = x.1
    · have hne : (k, v) ∉ xs := fun hm => by
        have := h.1 _ hm
        grind
      simp [seek, hx, hx ▸ hne, Prod.ext_iff, eq_comm]
    · simp [seek, hx, ih, Prod.ext_iff]

/-- The entries of a map are what it gives for its keys. -/
theorem mem_entries_iff (m : KeyMap α) (k : String) (v : α) :
    (k, v) ∈ m.entries ↔ m.get? k = some v :=
  mem_iff_seek m.ascending

/-- The keys of a map are those that it gives something for. -/
theorem mem_keys_iff (m : KeyMap α) (k : String) : k ∈ m.keys ↔ ∃ v, m.get? k = some v := by
  unfold keys
  rw [List.mem_map]
  constructor
  · rintro ⟨e, he, rfl⟩
    exact ⟨e.2, (mem_entries_iff m e.1 e.2).1 he⟩
  · rintro ⟨v, hv⟩
    exact ⟨(k, v), (mem_entries_iff m k v).2 hv, rfl⟩

/-- Of the entries put in and the entries that were there, those put in count. -/
theorem get?_foldl_insert (l : List (String × α)) (m : KeyMap α) (k : String)
    (h : l.Pairwise (fun a b => a.1 < b.1)) :
    (l.foldl (fun m e => m.insert e.1 e.2) m).get? k = (seek k l).or (m.get? k) := by
  induction l generalizing m with
  | nil => rfl
  | cons x xs ih =>
    rw [List.pairwise_cons] at h
    rw [List.foldl_cons, ih _ h.2, get?_insert]
    by_cases hx : k = x.1
    · have hxs : seek k xs = none := seek_eq_none fun e he hk => by
        have := h.1 e he
        grind
      simp [seek, hx, hx ▸ hxs]
    · simp [seek, hx]

@[simp] theorem get?_overlay (m n : KeyMap α) (k : String) :
    (m.overlay n).get? k = (n.get? k).or (m.get? k) :=
  get?_foldl_insert n.entries m k n.ascending

/-- A map is determined by the values of its keys. -/
theorem ext_get? {m n : KeyMap α} (h : ∀ k, m.get? k = n.get? k) : m = n := by
  have hmem : ∀ e, e ∈ m.entries ↔ e ∈ n.entries := fun e => by
    rw [show e = (e.1, e.2) from rfl, mem_entries_iff, mem_entries_iff, h]
  have perm : m.entries.Perm n.entries := by
    have hn : ∀ k : KeyMap α, k.entries.Nodup := fun k =>
      k.ascending.imp fun {a b} hab he => by
        subst he
        exact String.lt_irrefl a.1 hab
    exact (List.perm_ext_iff_of_nodup (hn m) (hn n)).2 hmem
  have heq := perm.eq_of_pairwise
    (fun a b _ _ hab hba => absurd hba (String.lt_asymm hab)) m.ascending n.ascending
  obtain ⟨l, _⟩ := m
  obtain ⟨r, _⟩ := n
  simp only at heq
  subst heq
  rfl

/-- An insertion adds its own key and no other one. -/
theorem contains_insert (m : KeyMap α) (key k : String) (value : α) :
    (m.insert key value).contains k = true ↔ k = key ∨ m.contains k = true := by
  unfold contains
  rw [get?_insert]
  by_cases hk : k = key <;> simp [hk]

/-- A map is empty if no key has a value. -/
theorem isEmpty_iff (m : KeyMap α) : m.isEmpty = true ↔ ∀ k, m.contains k = false := by
  unfold isEmpty contains
  rw [List.isEmpty_iff]
  constructor
  · intro h k
    rw [get?, h]
    rfl
  · intro h
    refine List.eq_nil_iff_forall_not_mem.2 fun e he => ?_
    have hnone := h e.1
    rw [(mem_entries_iff m e.1 e.2).1 he] at hnone
    cases hnone

end KeyMap

/-- A finite set of texts, its members in ascending order. -/
abbrev KeySet := KeyMap Unit

namespace KeySet

/-- The set of the texts of a list. -/
def ofList (ids : List String) : KeySet := KeyMap.ofList (ids.map fun id => (id, ()))

/-- A set made of a list has the members of the list. -/
theorem contains_ofList (ids : List String) (id : String) :
    (ofList ids).contains id = true ↔ id ∈ ids := by
  have hfoldl : ∀ (ids : List String) (s : KeySet),
      ((ids.map fun id => (id, ())).foldl (fun s e => s.insert e.1 e.2) s).contains id = true ↔
        s.contains id = true ∨ id ∈ ids := by
    intro ids
    induction ids with
    | nil => simp
    | cons first ids ih =>
      intro s
      rw [List.map_cons, List.foldl_cons, ih, KeyMap.contains_insert, List.mem_cons, or_assoc,
        or_left_comm]
  rw [ofList, KeyMap.ofList, hfoldl]
  exact or_iff_right Bool.false_ne_true

/-- A set is determined by its members. -/
theorem ext_contains {s t : KeySet} (h : ∀ id, s.contains id = true ↔ t.contains id = true) :
    s = t := by
  apply KeyMap.ext_get?
  intro id
  have hid := h id
  unfold KeyMap.contains at hid
  cases hs : s.get? id <;> cases ht : t.get? id <;> simp_all

end KeySet

end EquityBoard
