import EquityBoard.Json.Printer
import EquityBoard.Json.Reader
import Mathlib.Data.List.Basic

/-!
# Strings read back

Every text has a written form between quotes, and reading it gives the text back. A character is
written as itself, with a backslash and one more character, or, if it is a control character without
such a form, in hexadecimal digits (`escape_cases`); each form is read as one piece that stands for
the character (`scan_escape`). Main statement: `read?_compact_string`.
-/

namespace EquityBoard.Json

namespace Quoted

/-! ## The written forms of a character -/

/-- Whether a character may not stand between quotes itself. -/
def NeedsEscape (c : Char) : Prop := c = '"' ∨ c = '\\' ∨ c.toNat < 0x20

instance (c : Char) : Decidable (NeedsEscape c) := inferInstanceAs (Decidable (_ ∨ _ ∨ _))

/-- The three forms of a character. -/
theorem escape_cases (c : Char) :
    (¬ NeedsEscape c ∧ escape c = [c]) ∨
      (NeedsEscape c ∧ ∃ e, short? e = some c ∧ escape c = ['\\', e]) ∨
      (c.toNat < 0x20 ∧ escape c =
        ['\\', 'u', '0', '0', hexDigit (c.toNat / 16), hexDigit (c.toNat % 16)]) := by
  unfold escape NeedsEscape
  split
  · exact .inr (.inl ⟨by decide, '"', rfl, rfl⟩)
  · exact .inr (.inl ⟨by decide, '\\', rfl, rfl⟩)
  · exact .inr (.inl ⟨by decide, 'b', rfl, rfl⟩)
  · exact .inr (.inl ⟨by decide, 'f', rfl, rfl⟩)
  · exact .inr (.inl ⟨by decide, 'n', rfl, rfl⟩)
  · exact .inr (.inl ⟨by decide, 'r', rfl, rfl⟩)
  · exact .inr (.inl ⟨by decide, 't', rfl, rfl⟩)
  · rename_i hquote hback _ _ _ _ _
    split
    · rename_i hcontrol
      exact .inr (.inr ⟨hcontrol, rfl⟩)
    · rename_i hcontrol
      refine .inl ⟨?_, rfl⟩
      rintro (heq | heq | hlt)
      · exact hquote heq
      · exact hback heq
      · exact hcontrol hlt

theorem escape_of_not_needsEscape {c : Char} (h : ¬ NeedsEscape c) : escape c = [c] := by
  rcases escape_cases c with ⟨-, hescape⟩ | ⟨hneeds, -⟩ | ⟨hcontrol, -⟩
  · exact hescape
  · exact absurd hneeds h
  · exact absurd (.inr (.inr hcontrol)) h

/-- An escape is longer than the character that it stands for. -/
theorem two_le_length_escape {c : Char} (h : NeedsEscape c) : 2 ≤ (escape c).length := by
  rcases escape_cases c with ⟨hplain, -⟩ | ⟨-, e, -, hescape⟩ | ⟨-, hescape⟩
  · exact absurd h hplain
  · rw [hescape]
    exact Nat.le_refl 2
  · rw [hescape]
    exact Nat.le_add_left 2 4

/-- Escapes do not make a text shorter. -/
theorem length_le_length_encode (cs : List Char) : cs.length ≤ (encode cs).length := by
  induction cs with
  | nil => exact Nat.le_refl 0
  | cons c cs ih =>
    have hfirst : 1 ≤ (escape c).length := by
      by_cases hneeds : NeedsEscape c
      · exact Nat.le_of_succ_le (two_le_length_escape hneeds)
      · rw [escape_of_not_needsEscape hneeds]
        exact Nat.le_refl 1
    have hlength : (encode (c :: cs)).length = (escape c).length + (encode cs).length :=
      List.length_append
    rw [hlength, List.length_cons]
    omega

/-- The body of a string is the text itself exactly if no character needs an escape. -/
theorem encode_eq_self_iff (cs : List Char) : encode cs = cs ↔ ∀ c ∈ cs, ¬ NeedsEscape c := by
  constructor
  · intro h c hc hneeds
    obtain ⟨before, after, rfl⟩ := List.append_of_mem hc
    have hsplit : encode (before ++ c :: after) = encode before ++ (escape c ++ encode after) :=
      List.flatMap_append
    have hlength := congrArg List.length (hsplit.symm.trans h)
    simp only [List.length_append, List.length_cons] at hlength
    have hbefore := length_le_length_encode before
    have hafter := length_le_length_encode after
    have hescape := two_le_length_escape hneeds
    omega
  · intro h
    calc encode cs = cs.flatMap fun c => [c] :=
          List.flatMap_congr fun c hc => escape_of_not_needsEscape (h c hc)
      _ = cs := List.flatMap_singleton' cs

/-! ## Reading a character -/

/-- Two hexadecimal digits behind two zeros write a control character. -/
theorem unit?_hexDigit : ∀ n < 0x20,
    unit? '0' '0' (hexDigit (n / 16)) (hexDigit (n % 16)) = some n := by
  decide

/-- A backslash and a letter are read as the character that they stand for. -/
theorem scan_short {e c : Char} (h : short? e = some c) (rest : List Char) :
    scan ('\\' :: e :: rest) = (scan rest).map fun (body, rest) => (.char c :: body, rest) := by
  rw [scan, h]
  -- the letter of an escape in digits is no short form
  rintro - - - - - rfl -
  exact Option.some_ne_none c h.symm

/-- A character that needs no escape is read as itself. -/
theorem scan_plain {c : Char} (h : ¬ NeedsEscape c) (rest : List Char) :
    scan (c :: rest) = (scan rest).map fun (body, rest) => (.char c :: body, rest) := by
  unfold NeedsEscape at h
  rw [not_or, not_or] at h
  obtain ⟨hquote, hback, hcontrol⟩ := h
  rw [scan, if_neg (not_or.2 ⟨hcontrol, hback⟩)]
  · exact hquote
  · rintro - - - - - heq -
    exact hback heq
  · rintro - - heq -
    exact hback heq

/-- A written character is read as one piece, and the text of the piece is the character. -/
theorem scan_escape (c : Char) :
    ∃ p : Piece,
      (∀ rest, scan (escape c ++ rest) = (scan rest).map fun (body, rest) => (p :: body, rest)) ∧
        ∀ body, text? (p :: body) = (text? body).map (c :: ·) := by
  rcases escape_cases c with ⟨hplain, hescape⟩ | ⟨-, e, hshort, hescape⟩ | ⟨hcontrol, hescape⟩
  · exact ⟨.char c, fun rest => hescape ▸ scan_plain hplain rest, fun body => rfl⟩
  · exact ⟨.char c, fun rest => hescape ▸ scan_short hshort rest, fun body => rfl⟩
  · refine ⟨.unit c.toNat, fun rest => ?_, fun body => ?_⟩
    · rw [hescape]
      show scan ('\\' :: 'u' :: '0' :: '0' :: _ :: _ :: rest) = _
      rw [scan, unit?_hexDigit c.toNat hcontrol]
    · have hunit : ofUnit? c.toNat = some c := by
        rw [ofUnit?, if_neg (by omega), Char.ofNat_toNat]
      rw [text?.eq_def]
      simp only [hunit]

/-! ## Reading a text -/

/-- The body of a text is read up to its closing quote. -/
theorem scan_encode (cs rest : List Char) :
    ∃ body, scan (encode cs ++ '"' :: rest) = some (body, rest) ∧ text? body = some cs := by
  induction cs with
  | nil => exact ⟨[], rfl, rfl⟩
  | cons c cs ih =>
    obtain ⟨body, hscan, htext⟩ := ih
    obtain ⟨p, hread, hstands⟩ := scan_escape c
    refine ⟨p :: body, ?_, ?_⟩
    · rw [encode, List.flatMap_cons, List.append_assoc, hread]
      rw [encode] at hscan
      rw [hscan]
      rfl
    · rw [hstands, htext]
      rfl

end Quoted

/-- A quoted text is read back as a string with this text. -/
theorem Written.read?_quote (cs : List Char) :
    ∃ body, Written.read? (Quoted.quote cs) = some (.string body) ∧ Quoted.text? body = some cs := by
  obtain ⟨body, hscan, htext⟩ := Quoted.scan_encode cs []
  refine ⟨body, ?_, htext⟩
  have hvalue (fuel : Nat) :
      readValue (fuel + 1) (Quoted.quote cs) = some (.string body, []) := by
    show (Quoted.scan (Quoted.encode cs ++ ['"'])).map
      (fun (body, rest) => (Written.string body, rest)) = _
    rw [hscan]
    rfl
  rw [read?, hvalue]
  rfl

/-- The written form of a text is read as the text. -/
theorem read?_compact_string (s : String) : read? (Json.string s).compact = some (.string s) := by
  obtain ⟨body, hread, htext⟩ := Written.read?_quote s.toList
  rw [compact, writeString, read?, String.toList_ofList, hread]
  show (Quoted.text? body).map (fun cs => Json.string (String.ofList cs)) = _
  rw [htext, Option.map_some, String.ofList_toList]

end EquityBoard.Json
