import EquityBoard.Proofs.Decimal.WholeNumbers
import EquityBoard.Series.Selection
import Mathlib

/-!
# Texts that name ranges

The texts that name a range are known exactly: `ALL` in letters of either case, or a number of hours
with the letter `H` in either case whose window has 64 bits of milliseconds. The label of a range
that was read is one of its names. Main statement: `parse?_exact`.
-/

namespace EquityBoard

/-! ## Letters of either case -/

namespace Text

/-- Whether a character is a capital or its small letter. -/
def IsLetter (c capital : Char) : Prop := c = capital ∨ c = capital.toLower

theorem toUpper_eq_iff {c d : Char} (h : d.isLower = false) : c.toUpper = d ↔ IsLetter c d := by
  have hupper : d.toUpper = d :=
    Char.toUpper_eq_of_not_isLower (by rw [h]; exact Bool.false_ne_true)
  constructor
  · intro hd
    by_cases hc : c.isLower = true
    · have hlower : c.toLower = c := Char.toLower_eq_of_not_isUpper (Char.not_isUpper_of_isLower hc)
      right
      rw [← hd, Char.toLower_toUpper_eq_toLower, hlower]
    · left
      rw [← hd, Char.toUpper_eq_of_not_isLower hc]
  · intro hc
    rcases hc with rfl | rfl
    · exact hupper
    · rw [Char.toUpper_toLower_eq_toUpper, hupper]

theorem map_toUpper_eq_self {cs : List Char} (h : ∀ c ∈ cs, c.isAlpha = false) :
    cs.map Char.toUpper = cs := by
  have heach : ∀ c ∈ cs, c.toUpper = id c := by
    intro c hc
    have halpha : ¬ (c.isUpper || c.isLower) = true := by
      have hnot : (c.isUpper || c.isLower) = false := h c hc
      rw [hnot]
      exact Bool.false_ne_true
    rw [Bool.or_eq_true, not_or] at halpha
    exact Char.toUpper_eq_of_not_isLower halpha.2
  rw [List.map_congr_left heach, List.map_id]

theorem dropWhile_isBlank_eq_self {cs : List Char} (h : ∀ c ∈ cs, isBlank c = false) :
    cs.dropWhile isBlank = cs := by
  cases cs with
  | nil => rfl
  | cons c cs =>
    have hc : isBlank c = false := h c List.mem_cons_self
    exact List.dropWhile_cons_of_neg (by rw [hc]; exact Bool.false_ne_true)

theorem trimChars_eq_self {cs : List Char} (h : ∀ c ∈ cs, isBlank c = false) :
    trimChars cs = cs := by
  have hreverse : ∀ c ∈ cs.reverse, isBlank c = false := fun c hc => h c (List.mem_reverse.1 hc)
  unfold trimChars trimEnd trimStart
  rw [dropWhile_isBlank_eq_self h, dropWhile_isBlank_eq_self hreverse, List.reverse_reverse]

end Text

namespace Decimal

/-! ## Numbers among letters -/

theorem not_isAlpha_of_isDigit {c : Char} (h : isDigit c = true) : c.isAlpha = false := by
  have hrange := toNat_of_isDigit h
  rw [← Bool.not_eq_true]
  intro halpha
  simp only [Char.isAlpha, Char.isUpper, Char.isLower, Bool.or_eq_true, Bool.and_eq_true,
    decide_eq_true_eq, ge_iff_le, UInt32.le_iff_toNat_le, Char.toNat_val] at halpha
  have hcapital : 'A'.toNat = 65 := rfl
  have hsmall : 'a'.toNat = 97 := rfl
  omega

theorem not_isBlank_of_isDigit {c : Char} (h : isDigit c = true) : Text.isBlank c = false := by
  have hrange := toNat_of_isDigit h
  rw [← Bool.not_eq_true]
  intro hblank
  simp only [Text.isBlank, Bool.or_eq_true, Bool.and_eq_true, decide_eq_true_eq, beq_iff_eq] at hblank
  omega

theorem Writes.not_isAlpha {cs : List Char} {n : Nat} (h : Writes cs n) :
    ∀ c ∈ cs, c.isAlpha = false := by
  obtain ⟨sign, ds, rfl, hsign, hds⟩ := h
  intro c hc
  rcases List.mem_append.1 hc with hc | hc
  · rcases hsign with rfl | rfl
    · exact absurd hc List.not_mem_nil
    · rw [List.mem_singleton.1 hc]
      decide
  · exact not_isAlpha_of_isDigit (hds.2.1 c hc)

/-- Upper case does not matter to a number. -/
theorem writes_map_toUpper {cs : List Char} {n : Nat} :
    Writes (cs.map Char.toUpper) n ↔ Writes cs n := by
  have hsame : (∀ c ∈ cs, c.isAlpha = false) → (Writes (cs.map Char.toUpper) n ↔ Writes cs n) :=
    fun h => by rw [Text.map_toUpper_eq_self h]
  constructor
  · intro h
    refine (hsame fun c hc => ?_).1 h
    rw [← Char.isAlpha_toUpper_eq_isAlpha]
    exact h.not_isAlpha _ (List.mem_map_of_mem hc)
  · exact fun h => (hsame h.not_isAlpha).2 h

end Decimal

/-! ## Names of ranges -/

namespace Range

open Text (IsLetter)

/-- Whether a text is `ALL`, in letters of either case. -/
def NamesAll (cs : List Char) : Prop :=
  ∃ a l m, cs = [a, l, m] ∧ IsLetter a 'A' ∧ IsLetter l 'L' ∧ IsLetter m 'L'

/-- Whether a text is a number of hours with its unit, in either case. -/
def NamesHours (cs : List Char) (n : Nat) : Prop :=
  ∃ number unit, cs = number ++ [unit] ∧ Decimal.Writes number n ∧ IsLetter unit 'H'

/-- Whether a text is a positive number of hours with as many milliseconds, in 64 bits. -/
def NamesWindow (cs : List Char) (window : Int) : Prop :=
  ∃ n : Nat, NamesHours cs n ∧ 1 ≤ n ∧ n * 3600000 ≤ 9223372036854775807 ∧ window = n * 3600000

theorem map_toUpper_eq_all_iff (cs : List Char) :
    cs.map Char.toUpper = ['A', 'L', 'L'] ↔ NamesAll cs := by
  constructor
  · intro h
    obtain ⟨a, rest, rfl, ha, hrest⟩ := List.map_eq_cons_iff.1 h
    obtain ⟨l, last, rfl, hl, hlast⟩ := List.map_eq_cons_iff.1 hrest
    obtain ⟨m, none, rfl, hm, hnone⟩ := List.map_eq_cons_iff.1 hlast
    rw [List.map_eq_nil_iff] at hnone
    subst hnone
    exact ⟨a, l, m, rfl, (Text.toUpper_eq_iff rfl).1 ha, (Text.toUpper_eq_iff rfl).1 hl,
      (Text.toUpper_eq_iff rfl).1 hm⟩
  · rintro ⟨a, l, m, rfl, ha, hl, hm⟩
    rw [List.map_cons, List.map_cons, List.map_cons, List.map_nil, (Text.toUpper_eq_iff rfl).2 ha,
      (Text.toUpper_eq_iff rfl).2 hl, (Text.toUpper_eq_iff rfl).2 hm]

theorem map_toUpper_eq_hours_iff (cs : List Char) (n : Nat) :
    (∃ number, cs.map Char.toUpper = number ++ ['H'] ∧ Decimal.Writes number n) ↔
      NamesHours cs n := by
  constructor
  · rintro ⟨number, hcs, hnumber⟩
    obtain ⟨front, back, rfl, rfl, hback⟩ := List.map_eq_append_iff.1 hcs
    obtain ⟨unit, rfl, hunit⟩ := List.map_eq_singleton_iff.1 hback
    exact ⟨front, unit, rfl, Decimal.writes_map_toUpper.1 hnumber, (Text.toUpper_eq_iff rfl).1 hunit⟩
  · rintro ⟨number, unit, rfl, hnumber, hunit⟩
    refine ⟨number.map Char.toUpper, ?_, Decimal.writes_map_toUpper.2 hnumber⟩
    rw [List.map_append, List.map_singleton, (Text.toUpper_eq_iff rfl).2 hunit]

/-! ## Reading -/

theorem ofUpper?_eq_all_iff (cs : List Char) : ofUpper? cs = some .all ↔ cs = ['A', 'L', 'L'] := by
  unfold ofUpper?
  by_cases hall : cs = ['A', 'L', 'L']
  · rw [if_pos hall]
    exact iff_of_true rfl hall
  · rw [if_neg hall]
    refine iff_of_false (fun h => ?_) hall
    split at h
    · split at h
      · split at h
        · cases h
        · cases h
      · cases h
    · cases h

/-- A range in hours is read as a number before the unit. -/
theorem ofUpper?_eq_trailing_iff (cs : List Char) (window : Int) :
    ofUpper? cs = some (.trailing window) ↔ ∃ number hours, cs = number ++ ['H'] ∧
      Decimal.readInteger .signed64 number = .ok hours ∧ 0 < hours ∧
      hours * hour ≤ 0x7FFFFFFFFFFFFFFF ∧ window = hours * hour := by
  constructor
  · intro h
    unfold ofUpper? at h
    split at h
    · cases h
    · split at h
      · rename_i hlast
        obtain ⟨number, rfl⟩ := List.getLast?_eq_some_iff.1 hlast
        rw [List.dropLast_concat] at h
        cases hread : Decimal.readInteger .signed64 number with
        | error e =>
          rw [hread] at h
          cases h
        | ok hours =>
          simp only [hread, Except.toOption] at h
          split at h
          · rename_i hbounds
            cases h
            exact ⟨number, hours, rfl, hread, hbounds.1, hbounds.2, rfl⟩
          · cases h
      · cases h
  · rintro ⟨number, hours, rfl, hread, hpos, hle, rfl⟩
    have hall : number ++ ['H'] ≠ ['A', 'L', 'L'] := by
      intro h
      have hlast := congrArg List.getLast? h
      rw [List.getLast?_concat] at hlast
      exact absurd hlast (by decide)
    unfold ofUpper?
    rw [if_neg hall, List.getLast?_concat, if_pos rfl, List.dropLast_concat, hread]
    exact if_pos ⟨hpos, hle⟩

/-- A text names all times exactly if it is read so. -/
theorem parse?_eq_all_iff (s : String) :
    parse? s = some .all ↔ NamesAll (Text.trimChars s.toList) := by
  unfold parse?
  rw [ofUpper?_eq_all_iff, map_toUpper_eq_all_iff]

/-- A text names a window exactly if it is read so. -/
theorem parse?_eq_trailing_iff (s : String) (window : Int) :
    parse? s = some (.trailing window) ↔ NamesWindow (Text.trimChars s.toList) window := by
  unfold parse? NamesWindow
  rw [ofUpper?_eq_trailing_iff]
  simp only [← map_toUpper_eq_hours_iff]
  constructor
  · rintro ⟨number, hours, hcs, hread, hpos, hle, hwindow⟩
    obtain ⟨n, rfl⟩ := Int.eq_ofNat_of_zero_le (Int.le_of_lt hpos)
    unfold hour at hle hwindow
    have hn : 0 < n := by omega
    have hwrites := ((Decimal.readInteger_eq_ok_iff (.inl hn)).1 hread).1
    exact ⟨n, ⟨number, hcs, hwrites⟩, hn, by omega, hwindow⟩
  · rintro ⟨n, ⟨number, hcs, hwrites⟩, hpos, hle, hwindow⟩
    have hwidth : (n : Int) ≤ Decimal.Width.greatest .signed64 := by
      show (n : Int) ≤ 0x7FFFFFFFFFFFFFFF
      omega
    have hread := (Decimal.readInteger_eq_ok_iff (.inl hpos)).2 ⟨hwrites, hwidth⟩
    refine ⟨number, n, hcs, hread, ?_, ?_, hwindow⟩
    · omega
    · unfold hour
      omega

/-- The label of a window in full hours. -/
theorem label_trailing (n : Nat) :
    (label (.trailing (n * 3600000))).toList = Decimal.digits n ++ ['H'] := by
  have hhours : ((n : Int) * 3600000).tdiv hour = n := Int.mul_tdiv_cancel (n : Int) (by decide)
  show (Decimal.intText (((n : Int) * 3600000).tdiv hour) ++ "H").toList = _
  rw [hhours, String.toList_append]
  unfold Decimal.intText
  rw [String.toList_ofList]
  rfl

/-- The label of a window is one of its names. -/
theorem NamesWindow.label {cs : List Char} {window : Int} (h : NamesWindow cs window) :
    NamesWindow (Text.trimChars (Range.trailing window).label.toList) window := by
  obtain ⟨n, _, hpos, hle, rfl⟩ := h
  have hblank : ∀ c ∈ Decimal.digits n ++ ['H'], Text.isBlank c = false := by
    intro c hc
    rcases List.mem_append.1 hc with hc | hc
    · exact Decimal.not_isBlank_of_isDigit (Decimal.isDigit_of_mem_digits hc)
    · rw [List.mem_singleton.1 hc]
      decide
  rw [label_trailing, Text.trimChars_eq_self hblank]
  exact ⟨n, ⟨Decimal.digits n, 'H', rfl, Decimal.writes_digits n, .inl rfl⟩, hpos, hle, rfl⟩

/-- A range is read exactly from its names, and what was read has a label that is read the same. -/
theorem parse?_exact (s : String) :
    (parse? s = some .all ↔ NamesAll (Text.trimChars s.toList)) ∧
    (∀ window, parse? s = some (.trailing window) ↔
      NamesWindow (Text.trimChars s.toList) window) ∧
    (parse? s = none ↔ ¬ NamesAll (Text.trimChars s.toList) ∧
      ∀ window, ¬ NamesWindow (Text.trimChars s.toList) window) ∧
    ∀ r, parse? s = some r → parse? r.label = some r := by
  refine ⟨parse?_eq_all_iff s, parse?_eq_trailing_iff s, ?_, ?_⟩
  · simp only [← parse?_eq_all_iff, ← parse?_eq_trailing_iff]
    rw [Option.eq_none_iff_forall_ne_some]
    constructor
    · exact fun h => ⟨h .all, fun window => h (.trailing window)⟩
    · intro h r
      cases r with
      | all => exact h.1
      | trailing window => exact h.2 window
  · intro r hr
    cases r with
    | all => decide
    | trailing window =>
      rw [parse?_eq_trailing_iff] at hr ⊢
      exact hr.label

-- the longest window in full hours, and one more hour
example : parse? " +02562047788015h\n" = some (.trailing 9223372036854000000) := by decide
example : parse? "2562047788016H" = none := by decide

end Range

end EquityBoard
