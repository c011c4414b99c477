import EquityBoard.Proofs.Decimal.ExactValue
import EquityBoard.Series.Point

/-!
# The time of a point on the wire

The time of a point is the integer that its `timestamp` stands for, however the number is written,
but an integer outside the signed 64-bit ones is held at their bounds (`timestamp?_eq_some_iff`).
Main statement: `takesTimeExactly_iff`, which says for which documents the time is taken exactly or
not at all.
-/

namespace EquityBoard

open Decimal

/-! ## Numbers -/

/-- The value of a number of a document. -/
def Number.value? : Number → Option Rat
  | .whole n _ => some n
  | .double x => exactValue? x

theorem Decimal.clamp64_eq_self_iff (m : Int) :
    clamp64 m = m ↔ -0x8000000000000000 ≤ m ∧ m < 0x8000000000000000 := by
  unfold clamp64
  omega

/-- A double is a time if its value is an integer. -/
theorem wholeTime_eq_some_iff (x : Float) (t : Int) :
    (if x.isFinite && (Dyadic.ofFloat x).isWhole then some (truncate64 x) else none) = some t ↔
      ∃ m : Int, exactValue? x = some (m : Rat) ∧ t = clamp64 m := by
  rw [exactValue?_eq]
  by_cases hfinite : x.isFinite = true
  · simp only [hfinite, Bool.true_and, if_true, Option.some_inj, Dyadic.value_eq_intCast_iff,
      truncate64_of_isFinite hfinite, Option.ite_none_right_eq_some]
    constructor
    · rintro ⟨hwhole, rfl⟩
      exact ⟨_, ⟨hwhole, rfl⟩, rfl⟩
    · rintro ⟨m, ⟨hwhole, rfl⟩, rfl⟩
      exact ⟨hwhole, rfl⟩
  · simp [hfinite]

/-- A number is a time exactly if its value is an integer; the time is the 64-bit integer nearest to
it. -/
theorem Number.timestamp?_eq_some_iff (n : Number) (t : Int) :
    n.timestamp? = some t ↔ ∃ m : Int, n.value? = some (m : Rat) ∧ t = clamp64 m := by
  cases n with
  | double x => exact wholeTime_eq_some_iff x t
  | whole k fits =>
    have hvalue : (∃ m : Int, (Number.whole k fits).value? = some (m : Rat) ∧ t = clamp64 m) ↔
        t = clamp64 k := by
      simp [Number.value?]
    rw [hvalue, Number.timestamp?, Number.integer?]
    by_cases hk : k < 0x8000000000000000
    · rw [if_pos hk, clamp64_of_mem fits.1 (by omega), Option.some_inj, eq_comm]
    · -- the number goes through a double, which may move it but not below the bound
      obtain ⟨m, hm, hlow⟩ :=
        exists_exactValue?_ofInteger (show 0x8000000000000000 ≤ k by omega) fits.2
      have hclamp : clamp64 k = clamp64 m := by
        unfold clamp64
        omega
      rw [if_neg hk]
      refine (wholeTime_eq_some_iff (ofInteger k) t).trans ?_
      rw [hm, hclamp]
      simp

/-! ## Documents -/

namespace Json

/-- The number that a document gives as its time. -/
def wireTime? (j : Json) : Option Number := (j.field? "timestamp").bind number?

/-- A point read from the document has the very value of the wire as its time, and there is none if
that is no signed 64-bit integer. -/
structure TakesTimeExactly (j : Json) : Prop where
  exact : ∀ p, Point.ofJson? j = some p →
    ∃ n, j.wireTime? = some n ∧ n.value? = some (p.timestamp : Rat)
  refuses : ∀ n, j.wireTime? = some n →
    (∀ m : Int, -0x8000000000000000 ≤ m → m < 0x8000000000000000 → n.value? ≠ some (m : Rat)) →
    Point.ofJson? j = none

variable {j : Json}

theorem map_timestamp_ofJson? (j : Json) :
    (Point.ofJson? j).map Point.timestamp = j.wireTime?.bind Number.timestamp? := by
  unfold Point.ofJson? wireTime? field?
  cases j.object? with
  | none => rfl
  | some fields =>
    simp only [Option.bind_some, Option.bind_assoc]
    cases (fields.get? "timestamp").bind fun t => t.number?.bind Number.timestamp? <;> rfl

/-- There is a point exactly if the number on the wire is an integer; its time is the 64-bit integer
nearest to that. -/
theorem exists_ofJson?_iff (t : Int) :
    (∃ p, Point.ofJson? j = some p ∧ p.timestamp = t) ↔
      ∃ n, j.wireTime? = some n ∧ ∃ m : Int, n.value? = some (m : Rat) ∧ t = clamp64 m := by
  rw [← Option.map_eq_some_iff, map_timestamp_ofJson?, Option.bind_eq_some_iff]
  simp only [Number.timestamp?_eq_some_iff]

/-- An integer that is taken exactly is a signed 64-bit integer. -/
theorem TakesTimeExactly.mem_range (h : j.TakesTimeExactly) {n : Number} {m : Int}
    (hn : j.wireTime? = some n) (hm : n.value? = some (m : Rat)) :
    -0x8000000000000000 ≤ m ∧ m < 0x8000000000000000 := by
  obtain ⟨p, hp, htime⟩ := (exists_ofJson?_iff (clamp64 m)).2 ⟨n, hn, m, hm, rfl⟩
  obtain ⟨n', hn', hvalue⟩ := h.exact p hp
  have hnn : n' = n := Option.some.inj (hn'.symm.trans hn)
  rw [hnn, hm, htime, Option.some_inj, Rat.intCast_inj] at hvalue
  exact (clamp64_eq_self_iff m).1 hvalue.symm

theorem takesTimeExactly_of_mem_range
    (h : ∀ n, j.wireTime? = some n → ∀ m : Int, n.value? = some (m : Rat) →
      -0x8000000000000000 ≤ m ∧ m < 0x8000000000000000) : j.TakesTimeExactly := by
  -- a point has the time of an integer on the wire, and that integer is in range
  have hpoint : ∀ p, Point.ofJson? j = some p →
      ∃ n, j.wireTime? = some n ∧ n.value? = some (p.timestamp : Rat) := by
    intro p hp
    obtain ⟨n, hn, m, hm, htime⟩ := (exists_ofJson?_iff p.timestamp).1 ⟨p, hp, rfl⟩
    rw [(clamp64_eq_self_iff m).2 (h n hn m hm)] at htime
    exact ⟨n, hn, htime ▸ hm⟩
  refine ⟨hpoint, fun n hn hout => ?_⟩
  rw [Option.eq_none_iff_forall_ne_some]
  intro p hp
  obtain ⟨n', hn', hvalue⟩ := hpoint p hp
  have hnn : n' = n := Option.some.inj (hn'.symm.trans hn)
  rw [hnn] at hvalue
  have hrange := h n hn p.timestamp hvalue
  exact hout p.timestamp hrange.1 hrange.2 hvalue

/-- The time of a document is the 64-bit integer nearest to the integer on the wire. It is taken
exactly or not at all if that is a signed 64-bit integer, and only then. -/
theorem takesTimeExactly_iff (j : Json) :
    (∀ t, (∃ p, Point.ofJson? j = some p ∧ p.timestamp = t) ↔
      ∃ n, j.wireTime? = some n ∧ ∃ m : Int, n.value? = some (m : Rat) ∧ t = clamp64 m) ∧
    (j.TakesTimeExactly ↔ ∀ n, j.wireTime? = some n → ∀ m : Int, n.value? = some (m : Rat) →
      -0x8000000000000000 ≤ m ∧ m < 0x8000000000000000) := by
  refine ⟨exists_ofJson?_iff, ?_, takesTimeExactly_of_mem_range⟩
  intro h n hn m hm
  exact h.mem_range hn hm

/-- The millisecond `2 ^ 63`, one more than there are in 64 bits, is read as the one before. -/
theorem not_takesTimeExactly_at_two_pow_63 :
    ¬ (Json.object [("timestamp", .number (.whole 0x8000000000000000 (by decide))),
      ("a", .number (.double (Float.ofBits 0x3FF0000000000000)))]).TakesTimeExactly := by
  intro h
  have hrange := h.mem_range (m := 0x8000000000000000) rfl rfl
  exact absurd hrange.2 (by decide)

end Json

end EquityBoard
