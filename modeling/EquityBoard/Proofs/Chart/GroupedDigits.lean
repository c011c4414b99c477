import EquityBoard.Chart.Label
import EquityBoard.Proofs.Decimal.FixedPlaces

/-!
# Grouped digits

The whole digits of a plain decimal are cut into groups of three from the right, with a comma between
neighbours; its sign and its fraction stay as they are. Main statement: `groupThousands_plain`.
-/

namespace EquityBoard.Chart

open Decimal

/-! ## Groups of three -/

/-- Whether a text is a run of digits in groups: one to three digits, and then a comma and three
digits as often as needed. -/
def IsGrouped (ds cs : List Char) : Prop :=
  ∃ (first : List Char) (later : List (List Char)),
    ds = first ++ later.flatten ∧ cs = first ++ later.flatMap (',' :: ·) ∧
    1 ≤ first.length ∧ first.length ≤ 3 ∧ ∀ g ∈ later, g.length = 3

theorem length_flatten_of_threes {later : List (List Char)} (h : ∀ g ∈ later, g.length = 3) :
    later.flatten.length = 3 * later.length := by
  induction later with
  | nil => rfl
  | cons g later ih =>
    rw [List.forall_mem_cons] at h
    rw [List.flatten_cons, List.length_append, List.length_cons, h.1, ih h.2]
    omega

/-- The digits of a number are grouped by threes, from the right. -/
theorem isGrouped_group {ds : List Char} (h : ds ≠ []) : IsGrouped ds (group ds) := by
  induction ds with
  | nil => exact absurd rfl h
  | cons d rest ih =>
    have hone : [d].length ≤ 3 := Nat.le_add_left 1 2
    by_cases hrest : rest = []
    · subst hrest
      exact ⟨[d], [], rfl, rfl, Nat.le_refl 1, hone, nofun⟩
    · obtain ⟨first, later, hds, hcs, hpos, hle, hlater⟩ := ih hrest
      have hlength : rest.length = first.length + 3 * later.length := by
        rw [hds, List.length_append, length_flatten_of_threes hlater]
      rw [group, hcs]
      split
      next hthree =>
        -- the first group behind the digit is full, so the digit begins one of its own
        have hfull : first.length = 3 := by omega
        refine ⟨[d], first :: later, ?_, rfl, Nat.le_refl 1, hone, ?_⟩
        · rw [hds]
          rfl
        · exact List.forall_mem_cons.2 ⟨hfull, hlater⟩
      next hthree =>
        have hopen : first.length ≠ 3 := fun hfull => hthree ⟨by omega, hrest⟩
        refine ⟨d :: first, later, ?_, rfl, ?_, ?_, hlater⟩
        · rw [hds]
          rfl
        · exact Nat.le_add_left 1 first.length
        · rw [List.length_cons]
          omega

/-! ## The parts of a plain decimal -/

variable (d : PlainDecimal)

theorem comma_not_mem_sign : ',' ∉ d.sign := by
  unfold PlainDecimal.sign
  split <;> decide

theorem comma_not_mem_tail : ',' ∉ d.tail := by
  unfold PlainDecimal.tail
  cases hfraction : d.fraction? with
  | none => exact List.not_mem_nil
  | some ds =>
    rw [List.mem_cons, not_or]
    exact ⟨by decide, not_mem_of_isDigit (by decide) (d.isDigit_fraction ds hfraction)⟩

/-- The whole digits end at the point. -/
theorem span_whole : (d.whole ++ d.tail).takeWhile (· != '.') = d.whole ∧
    (d.whole ++ d.tail).dropWhile (· != '.') = d.tail := by
  have hwhole : ∀ c ∈ d.whole, (c != '.') = true := fun c hc =>
    bne_iff_ne.2 (ne_of_isDigit (d.isDigit_whole c hc) (by decide))
  have htail : d.tail.takeWhile (· != '.') = [] ∧ d.tail.dropWhile (· != '.') = d.tail := by
    unfold PlainDecimal.tail
    cases d.fraction? <;> exact ⟨rfl, rfl⟩
  rw [List.takeWhile_append_of_pos hwhole, List.dropWhile_append_of_pos hwhole, htail.1, htail.2,
    List.append_nil]
  exact ⟨rfl, rfl⟩

/-- Only the whole digits of a plain decimal are grouped. -/
theorem groupThousands_chars : groupThousands d.chars = d.sign ++ group d.whole ++ d.tail := by
  obtain ⟨hwhole, htail⟩ := span_whole d
  have hcut : groupThousands d.chars =
      d.sign ++ group ((d.whole ++ d.tail).takeWhile (· != '.')) ++
        (d.whole ++ d.tail).dropWhile (· != '.') := by
    rw [PlainDecimal.chars, List.append_assoc]
    unfold PlainDecimal.sign
    cases d.isNegative with
    | true => rfl
    | false =>
      -- a digit in front is no sign
      obtain ⟨c, cs, hcs⟩ := List.exists_cons_of_ne_nil d.whole_ne_nil
      have hc : c ≠ '-' :=
        ne_of_isDigit (d.isDigit_whole c (by rw [hcs]; exact List.mem_cons_self)) (by decide)
      rw [hcs]
      simp [groupThousands, hc]
  rw [hcut, hwhole, htail]

/-- Without its commas a grouped decimal is the decimal. -/
theorem filter_groupThousands : (groupThousands d.chars).filter (· != ',') = d.chars := by
  have hkeep : ∀ {cs : List Char}, ',' ∉ cs → cs.filter (· != ',') = cs := by
    intro cs hcs
    rw [List.filter_eq_self]
    intro c hc
    exact bne_iff_ne.2 fun h => hcs (h ▸ hc)
  have hwhole : ',' ∉ d.whole := not_mem_of_isDigit (by decide) d.isDigit_whole
  rw [groupThousands_chars, List.filter_append, List.filter_append, hkeep (comma_not_mem_sign d),
    hkeep (comma_not_mem_tail d), filter_group d.whole hwhole]
  rfl

/-- Grouping only inserts commas into a plain decimal: none around its whole digits, and among them
one before every three but the first ones. So different decimals stay different. -/
theorem groupThousands_plain :
    (groupThousands d.chars).filter (· != ',') = d.chars ∧
    (∃ grouped, groupThousands d.chars = d.sign ++ grouped ++ d.tail ∧ IsGrouped d.whole grouped ∧
      ',' ∉ d.sign ++ d.tail) ∧
    ∀ e : PlainDecimal, e.chars ≠ d.chars → groupThousands e.chars ≠ groupThousands d.chars := by
  refine ⟨filter_groupThousands d, ⟨group d.whole, groupThousands_chars d, ?_, ?_⟩, ?_⟩
  · exact isGrouped_group d.whole_ne_nil
  · rw [List.mem_append, not_or]
    exact ⟨comma_not_mem_sign d, comma_not_mem_tail d⟩
  · intro e hne hsame
    refine hne ?_
    rw [← filter_groupThousands e, hsame, filter_groupThousands d]

example : groupThousands "-1234567.89".toList = "-1,234,567.89".toList := by decide

end EquityBoard.Chart
