import EquityBoard.Feed.Batch
import EquityBoard.Proofs.Series.WireTimes
import Mathlib.Data.List.Forall2

/-!
# Batches as documents say them

Which documents are batches, and what is read from one. A document is refused for its outer shape
alone (`RefusedWith`). What it delivers are the points of its readable entries, and every other entry
is counted (`Delivers`). Junk in a document says nothing: entries that are not readable and fields
that are no numbers may be deleted in any number without a change of what is read (`Prunes`). Main
statement: `ofJson_delivers`.
-/

namespace EquityBoard

open Decimal

theorem bind_finite?_eq_some_iff (x? : Option Float) (y : Float) :
    x?.bind finite? = some y ↔ x? = some y ∧ y.isFinite := by
  cases x? with
  | none => simp
  | some x =>
    rw [Option.bind_some, finite?, Option.ite_none_right_eq_some, Option.some_inj, and_comm]
    exact and_congr_right fun h => by rw [h]

theorem KeyMap.get?_erase {α : Type} (m : KeyMap α) (key k : String) :
    (m.erase key).get? k = if k = key then none else m.get? k := by
  rw [erase, get?_filterMap]
  split <;> simp

namespace Json

/-! ## Entries -/

/-- Whether an entry has a time: a number as its `timestamp` whose value is an integer. -/
def IsReadable (e : Json) : Prop :=
  ∃ n, e.wireTime? = some n ∧ ∃ m : Int, n.value? = some (m : Rat)

/-- Whether a point is what an entry says: it has the time of the entry, held at the bounds of 64
bits, and the values are the finite numbers among the other fields. -/
structure Describes (e : Json) (p : Point) : Prop where
  time : ∃ n, e.wireTime? = some n ∧
    ∃ m : Int, n.value? = some (m : Rat) ∧ p.timestamp = clamp64 m
  values : ∀ model x, p.values.get? model = some x ↔
    model ≠ "timestamp" ∧ ∃ v, e.field? model = some v ∧ v.float? = some x ∧ x.isFinite

theorem describes_of_ofJson? {e : Json} {p : Point} (h : Point.ofJson? e = some p) :
    e.Describes p where
  time := (exists_ofJson?_iff p.timestamp).1 ⟨p, h, rfl⟩
  values model x := by
    unfold Point.ofJson? at h
    unfold field?
    cases hfields : e.object? with
    | none =>
      rw [hfields] at h
      cases h
    | some fields =>
      simp only [hfields] at h
      split at h
      · cases h
      · cases h
        rw [KeyMap.get?_filterMap, KeyMap.get?_erase, Option.bind_eq_some_iff]
        simp only [Option.ite_none_left_eq_some, bind_finite?_eq_some_iff, Option.bind_some,
          and_assoc, exists_and_left, ne_eq]

/-- The point of an entry is the one that it describes. -/
theorem ofJson?_eq_some_iff (e : Json) (p : Point) : Point.ofJson? e = some p ↔ e.Describes p := by
  refine ⟨describes_of_ofJson?, fun h => ?_⟩
  obtain ⟨q, hq, htime⟩ := (exists_ofJson?_iff p.timestamp).2 h.time
  have hvalues : q.values = p.values := by
    apply KeyMap.ext_get?
    intro model
    apply Option.ext
    intro x
    rw [(describes_of_ofJson? hq).values, h.values]
  -- an entry describes no two points
  obtain ⟨timestamp, values⟩ := p
  obtain rfl : q = ⟨timestamp, values⟩ := congrArg₂ Point.mk htime hvalues
  exact hq

theorem isReadable_iff (e : Json) : e.IsReadable ↔ (Point.ofJson? e).isSome := by
  rw [Option.isSome_iff_exists]
  constructor
  · rintro ⟨n, hn, m, hm⟩
    obtain ⟨p, hp, -⟩ := (exists_ofJson?_iff (clamp64 m)).2 ⟨n, hn, m, hm, rfl⟩
    exact ⟨p, hp⟩
  · rintro ⟨p, hp⟩
    obtain ⟨n, hn, m, hm, -⟩ := (describes_of_ofJson? hp).time
    exact ⟨n, hn, m, hm⟩

instance (e : Json) : Decidable e.IsReadable := decidable_of_iff _ e.isReadable_iff.symm

/-! ## Lists of entries -/

/-- Points are described one by one by the readable entries exactly if they are those that are read
from the list. -/
theorem forall₂_describes_iff (entries : List Json) (points : List Point) :
    List.Forall₂ Describes (entries.filter fun e => e.IsReadable) points ↔
      entries.filterMap Point.ofJson? = points := by
  induction entries generalizing points with
  | nil => rw [List.filter_nil, List.forall₂_nil_left_iff, List.filterMap_nil, eq_comm]
  | cons e entries ih =>
    cases hp : Point.ofJson? e with
    | none =>
      have hunread : ¬ e.IsReadable := by simp [isReadable_iff, hp]
      rw [List.filter_cons_of_neg (by simpa using hunread), List.filterMap_cons_none hp, ih]
    | some p =>
      have hread : e.IsReadable := by simp [isReadable_iff, hp]
      rw [List.filter_cons_of_pos (by simpa using hread), List.filterMap_cons_some hp,
        List.forall₂_cons_left_iff]
      simp only [← ofJson?_eq_some_iff, hp, ih, Option.some_inj]
      constructor
      · rintro ⟨_, _, rfl, rfl, rfl⟩
        rfl
      · rintro rfl
        exact ⟨p, _, rfl, rfl, rfl⟩

/-- Every entry is read or counted. -/
theorem length_filterMap_add_countP (entries : List Json) :
    (entries.filterMap Point.ofJson?).length +
      entries.countP (fun e => (Point.ofJson? e).isNone) = entries.length := by
  rw [List.length_filterMap_eq_countP,
    List.length_eq_countP_add_countP fun e => (Point.ofJson? e).isSome]
  simp only [Bool.not_eq_true, Option.isSome_eq_false_iff, Bool.decide_eq_true]

/-! ## Documents -/

/-- The name of the field that holds the entries of an object. -/
def entriesName (j : Json) : String := if (j.field? "series").isSome then "series" else "points"

/-- The name of the field that declares the model ids of an object. -/
def idsName (j : Json) : String := if (j.field? "modelIds").isSome then "modelIds" else "model_ids"

theorem field?_or (j : Json) (name other : String) :
    (j.field? name).or (j.field? other) =
      j.field? (if (j.field? name).isSome then name else other) := by
  cases h : j.field? name with
  | none => simp
  | some v => simp [h]

/-- Whether a document has a list of entries. -/
inductive HasEntries : Json → List Json → Prop
  | array (entries : List Json) : HasEntries (.array entries) entries
  | object {j : Json} {entries : List Json}
      (h : j.field? j.entriesName = some (.array entries)) : HasEntries j entries

/-- The ids that a document declares: the texts in the list of ids, if there is one. -/
def declaredIds (j : Json) : List String :=
  match j.field? j.idsName with
  | some (.array ids) => ids.filterMap string?
  | _ => []

/-- Whether a document is refused for a reason. -/
def RefusedWith (j : Json) : Feed.BatchError → Prop
  | .wrongShape => (∀ entries, j ≠ .array entries) ∧ ∀ fields, j ≠ .object fields
  | .noList => (∃ fields, j = .object fields) ∧
      ∀ entries, j.field? j.entriesName ≠ some (.array entries)

/-- Whether a batch is what a document with some entries delivers. -/
structure Delivers (j : Json) (entries : List Json) (b : Feed.Batch) : Prop where
  hasEntries : j.HasEntries entries
  /-- The points are those of the readable entries, in their order. -/
  points : List.Forall₂ Describes (entries.filter fun e => e.IsReadable) b.points
  /-- All other entries are counted. -/
  counted : b.points.length + b.skipped = entries.length
  declared : b.declared = j.declaredIds

/-! ## Documents without junk -/

/-- Whether an entry is another one without some of the fields that are no numbers. -/
def PrunesEntry (e e' : Json) : Prop :=
  ∀ name, e'.field? name = e.field? name ∨
    e'.field? name = none ∧ ∀ v ∈ e.field? name, v.number? = none

/-- Whether a list is another one without some of the entries that are not readable, and without
some of the fields that are no numbers. -/
inductive PrunesEntries : List Json → List Json → Prop
  | nil : PrunesEntries [] []
  | keep {e e' : Json} {entries entries' : List Json} (h : e.PrunesEntry e')
      (hrest : PrunesEntries entries entries') : PrunesEntries (e :: entries) (e' :: entries')
  | drop {e : Json} {entries entries' : List Json} (h : ¬ e.IsReadable)
      (hrest : PrunesEntries entries entries') : PrunesEntries (e :: entries) entries'

/-- Whether a document is another one with such a list in place of its own. -/
inductive Prunes : Json → Json → Prop
  | array {entries entries' : List Json} (h : PrunesEntries entries entries') :
      Prunes (.array entries) (.array entries')
  | object {j j' : Json} {entries entries' : List Json}
      (hentries : j.field? j.entriesName = some (.array entries))
      (h : PrunesEntries entries entries')
      (hentries' : j'.field? j.entriesName = some (.array entries'))
      (hrest : ∀ name, name ≠ j.entriesName → j'.field? name = j.field? name) : Prunes j j'

theorem PrunesEntry.wireTime?_eq {e e' : Json} (h : e.PrunesEntry e') :
    e'.wireTime? = e.wireTime? := by
  unfold wireTime?
  rcases h "timestamp" with hkept | ⟨hdeleted, hjunk⟩
  · rw [hkept]
  · rw [hdeleted, Option.bind_none]
    exact (Option.bind_eq_none_iff.2 hjunk).symm

theorem PrunesEntry.describes_iff {e e' : Json} (h : e.PrunesEntry e') (p : Point) :
    e'.Describes p ↔ e.Describes p := by
  have hfloat : ∀ model x, (∃ v, e'.field? model = some v ∧ v.float? = some x ∧ x.isFinite) ↔
      ∃ v, e.field? model = some v ∧ v.float? = some x ∧ x.isFinite := by
    intro model x
    rcases h model with hkept | ⟨hdeleted, hjunk⟩
    · rw [hkept]
    · -- a field that is no number has no value
      rw [hdeleted]
      refine iff_of_false (by simp) ?_
      rintro ⟨v, hv, hx, -⟩
      rw [float?, hjunk v hv] at hx
      cases hx
  constructor
  · rintro ⟨htime, hvalues⟩
    exact ⟨h.wireTime?_eq ▸ htime, fun model x => by rw [hvalues, hfloat]⟩
  · rintro ⟨htime, hvalues⟩
    exact ⟨h.wireTime?_eq.symm ▸ htime, fun model x => by rw [hvalues, hfloat]⟩

theorem PrunesEntry.ofJson?_eq {e e' : Json} (h : e.PrunesEntry e') :
    Point.ofJson? e' = Point.ofJson? e := by
  apply Option.ext
  intro p
  rw [ofJson?_eq_some_iff, ofJson?_eq_some_iff, h.describes_iff]

theorem PrunesEntries.filterMap_eq {entries entries' : List Json}
    (h : PrunesEntries entries entries') :
    entries'.filterMap Point.ofJson? = entries.filterMap Point.ofJson? := by
  induction h with
  | nil => rfl
  | keep h _ ih => rw [List.filterMap_cons, List.filterMap_cons, h.ofJson?_eq, ih]
  | drop h _ ih =>
    rw [isReadable_iff, Option.not_isSome_iff_eq_none] at h
    rw [List.filterMap_cons_none h, ih]

section Replaced

variable {j j' : Json} (hrest : ∀ name, name ≠ j.entriesName → j'.field? name = j.field? name)

include hrest

/-- With another list in its place, the entries stand in the field where they stood. -/
theorem entriesName_of_replaced {list : Json} (h : j'.field? j.entriesName = some list) :
    j'.entriesName = j.entriesName := by
  unfold entriesName at h hrest ⊢
  by_cases hseries : (j.field? "series").isSome = true
  · rw [if_pos hseries] at h ⊢
    rw [h, Option.isSome_some, if_pos rfl]
  · -- the second name counts, and there is still nothing under the first
    rw [if_neg hseries] at hrest ⊢
    rw [hrest "series" (by decide), if_neg hseries]

theorem declaredIds_of_replaced : j'.declaredIds = j.declaredIds := by
  have hne : "modelIds" ≠ j.entriesName ∧ "model_ids" ≠ j.entriesName := by
    unfold entriesName
    split <;> decide
  have hids : j'.field? j'.idsName = j.field? j.idsName := by
    rw [idsName, idsName, ← field?_or, ← field?_or, hrest _ hne.1, hrest _ hne.2]
  unfold declaredIds
  rw [hids]

end Replaced

/-- A document without junk still has a list, and declares the same. -/
theorem Prunes.exists_entries {j j' : Json} (h : j.Prunes j') :
    ∃ entries entries', j.HasEntries entries ∧ j'.HasEntries entries' ∧
      PrunesEntries entries entries' ∧ j'.declaredIds = j.declaredIds := by
  cases h with
  | array h => exact ⟨_, _, .array _, .array _, h, rfl⟩
  | object hentries h hentries' hrest =>
    rw [← entriesName_of_replaced hrest hentries'] at hentries'
    exact ⟨_, _, .object hentries, .object hentries', h, declaredIds_of_replaced hrest⟩

end Json

namespace Feed.Batch

open Json

/-! ## Reading -/

variable {j : Json} {entries : List Json}

theorem ofJson_object (fields : List (String × Json)) :
    let j := Json.object fields
    ofJson j =
      match (j.field? j.entriesName).bind array? with
      | none => .error .noList
      | some entries => .ok (ofEntries entries (((j.field? j.idsName).bind array?).getD [])) := by
  intro j
  rw [entriesName, idsName, ← field?_or, ← field?_or]
  rfl

theorem declared_ofEntries (j : Json) (entries : List Json) :
    (ofEntries entries (((j.field? j.idsName).bind array?).getD [])).declared = j.declaredIds := by
  unfold declaredIds ofEntries
  cases j.field? j.idsName with
  | none => rfl
  | some ids => cases ids <;> rfl

theorem bind_array?_eq_some_iff (v? : Option Json) (entries : List Json) :
    v?.bind array? = some entries ↔ v? = some (.array entries) := by
  cases v? with
  | none => simp
  | some v => cases v <;> simp [array?]

theorem ofJson_of_hasEntries (h : j.HasEntries entries) :
    ofJson j = .ok (ofEntries entries (((j.field? j.idsName).bind array?).getD [])) := by
  cases h with
  | array => rfl
  | object h =>
    cases j with
    | object fields => rw [ofJson_object, (bind_array?_eq_some_iff _ _).2 h]
    | null | bool _ | number _ | string _ | array _ => cases h

/-- What a document with a list of entries delivers is read from it. -/
theorem delivers_iff (h : j.HasEntries entries) (b : Batch) :
    j.Delivers entries b ↔ ofJson j = .ok b := by
  rw [ofJson_of_hasEntries h, Except.ok.injEq]
  have hlength := length_filterMap_add_countP entries
  have hdeclared := declared_ofEntries j entries
  constructor
  · rintro ⟨-, hpoints, hcounted, hids⟩
    rw [forall₂_describes_iff] at hpoints
    have hskipped : b.skipped = entries.countP fun e => (Point.ofJson? e).isNone := by
      rw [← hpoints] at hcounted
      omega
    exact congr (congrArg₂ Batch.mk hpoints (hdeclared.trans hids.symm)) hskipped.symm
  · rintro rfl
    exact ⟨h, (forall₂_describes_iff _ _).2 rfl, hlength, hdeclared⟩

theorem exists_hasEntries {b : Batch} (h : ofJson j = .ok b) : ∃ entries, j.HasEntries entries := by
  cases j with
  | array entries => exact ⟨entries, .array entries⟩
  | object fields =>
    rw [ofJson_object] at h
    split at h
    · cases h
    · rename_i entries hentries
      exact ⟨entries, .object ((bind_array?_eq_some_iff _ _).1 hentries)⟩
  | null | bool _ | number _ | string _ => cases h

theorem ofJson_eq_error_iff (j : Json) (e : BatchError) :
    ofJson j = .error e ↔ j.RefusedWith e := by
  cases j with
  | array entries =>
    refine iff_of_false nofun ?_
    cases e with
    | noList => exact fun h => nomatch h.1
    | wrongShape => exact fun h => h.1 entries rfl
  | object fields =>
    rw [ofJson_object]
    cases hlist : (field? (.object fields) (entriesName (.object fields))).bind array? with
    | some entries =>
      refine iff_of_false nofun ?_
      cases e with
      | noList => exact fun h => h.2 entries ((bind_array?_eq_some_iff _ _).1 hlist)
      | wrongShape => exact fun h => h.2 fields rfl
    | none =>
      cases e with
      | noList =>
        refine iff_of_true rfl ⟨⟨fields, rfl⟩, fun entries hentries => ?_⟩
        rw [(bind_array?_eq_some_iff _ _).2 hentries] at hlist
        cases hlist
      | wrongShape => exact iff_of_false nofun fun h => h.2 fields rfl
  | null | bool _ | number _ | string _ =>
    cases e with
    | noList => exact iff_of_false nofun fun h => nomatch h.1
    | wrongShape => exact iff_of_true rfl ⟨nofun, nofun⟩

/-- A document is refused for its shape alone. Otherwise it delivers the points of the readable
entries, and declares the ids that are texts. Entries that are not readable and fields of entries
that are no numbers may be deleted, as many as there are, and the same is read. -/
theorem ofJson_delivers (j : Json) :
    (∀ e, ofJson j = .error e ↔ j.RefusedWith e) ∧
      (∀ b, ofJson j = .ok b ↔ ∃ entries, j.Delivers entries b) ∧
      ∀ j', j.Prunes j' → ∃ b b', ofJson j = .ok b ∧ ofJson j' = .ok b' ∧
        b'.points = b.points ∧ b'.declared = b.declared := by
  refine ⟨ofJson_eq_error_iff j, fun b => ?_, fun j' hprunes => ?_⟩
  · constructor
    · intro hread
      obtain ⟨entries, hentries⟩ := exists_hasEntries hread
      exact ⟨entries, (delivers_iff hentries b).2 hread⟩
    · rintro ⟨entries, hdelivers⟩
      exact (delivers_iff hdelivers.hasEntries b).1 hdelivers
  · obtain ⟨entries, entries', hentries, hentries', hpruned, hids⟩ := hprunes.exists_entries
    refine ⟨_, _, ofJson_of_hasEntries hentries, ofJson_of_hasEntries hentries',
      hpruned.filterMap_eq, ?_⟩
    rw [declared_ofEntries, declared_ofEntries, hids]

/-- A document with junk of each kind, and the same document without it. The second entry has a text
as its time, and the third a number that is no integer. -/
theorem ofJson_delivers_of_junk :
    let time : Json := .number (.whole 7 (by decide))
    let value : Json := .number (.double 2.5)
    let entries : List Json := [
      .object [("timestamp", time), ("a", value), ("b", .string "2.5")],
      .object [("timestamp", .string "7"), ("a", value)],
      .object [("timestamp", value), ("a", value)],
      .bool true]
    let entries' : List Json := [.object [("timestamp", time), ("a", value)]]
    let document (entries : List Json) : Json := .object [
      ("modelIds", .array [.string "a", .null]), ("points", .null), ("series", .array entries)]
    (document entries).Prunes (document entries') ∧
      ∃ b b', ofJson (document entries) = .ok b ∧ ofJson (document entries') = .ok b' ∧
        b'.points = b.points ∧ b'.declared = b.declared ∧
        b.points.map (·.timestamp) = [7] ∧ b.skipped = 3 ∧ b'.skipped = 0 := by
  intro time value entries entries' document
  have hentries : PrunesEntries entries entries' := by
    refine .keep (fun name => ?_) (.drop ?_ (.drop ?_ (.drop ?_ .nil)))
    · by_cases hname : name = "b"
      · subst hname
        exact .inr ⟨by decide, by decide⟩
      · left
        simp [field?, object?, KeyMap.ofList, hname]
    · decide +kernel
    · decide +kernel
    · decide +kernel
  have hname : (document entries).entriesName = "series" := by decide
  have hprunes : (document entries).Prunes (document entries') := by
    have hseries (l : List Json) : (document l).field? "series" = some (.array l) := by
      simp [field?, object?, KeyMap.ofList, document]
    refine .object (hname ▸ hseries entries) hentries (hname ▸ hseries entries') fun name hne => ?_
    rw [hname] at hne
    simp [field?, object?, KeyMap.ofList, document, hne]
  obtain ⟨b, b', hb, hb', hpoints, hids⟩ := (ofJson_delivers (document entries)).2.2 _ hprunes
  refine ⟨hprunes, b, b', hb, hb', hpoints, hids, ?_⟩
  have hread : (ofJson (document entries)).toOption.map
      (fun b => (b.points.map (·.timestamp), b.skipped)) = some ([7], 3) := by
    decide +kernel
  have hread' : (ofJson (document entries')).toOption.map (·.skipped) = some 0 := by
    decide +kernel
  rw [hb] at hread
  rw [hb'] at hread'
  obtain ⟨htimes, hskipped⟩ := Prod.ext_iff.1 (Option.some_inj.1 hread)
  exact ⟨htimes, hskipped, Option.some_inj.1 hread'⟩

end Feed.Batch

end EquityBoard
