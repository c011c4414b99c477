import EquityBoard.Proofs.Chat.LeftoverEscapes
import EquityBoard.Proofs.Json.QuotedText

/-!
# Texts that arrive as strings of a document

A text that was written as a string of a document is decoded if an escaped line feed, tab or carriage
return shows that it was, which is the case exactly if the text has such a break or is not free of
escapes itself (`infix_encode_iff`). Without a break the quotes come off and the other escapes stay.
Main statement: `normalize_compact_string`.
-/

namespace EquityBoard.Chat.Markdown

open Json

/-- Whether a line feed, a tab or a carriage return occurs. -/
def HasBreak (cs : List Char) : Prop := ∃ p ∈ breaks, p.2 ∈ cs

instance (cs : List Char) : Decidable (HasBreak cs) :=
  inferInstanceAs (Decidable (∃ p ∈ breaks, p.2 ∈ cs))

/-! ## Escapes of a written text -/

/-- The letters of the escaped breaks are short escapes of their characters. -/
theorem breaks_short : ∀ p ∈ breaks, Quoted.short? p.1 = some p.2 ∧
    Quoted.escape p.2 = ['\\', p.1] ∧ ¬ Quoted.NeedsEscape p.1 ∧ p.1 ≠ 'u' := by
  decide

theorem hexDigit_ne_backslash : ∀ n < 16, Quoted.hexDigit n ≠ '\\' := by decide

variable {p : Char × Char}

/-- A written character brings in an escape if it is the break of that escape, or if it is a
backslash in front of the letter. -/
theorem infix_escape_iff (hp : p ∈ breaks) (c : Char) (rest : List Char) :
    ['\\', p.1] <:+: Quoted.escape c ++ rest ↔
      c = p.2 ∨ (c = '\\' ∧ rest.head? = some p.1) ∨ ['\\', p.1] <:+: rest := by
  obtain ⟨hshort, hbreak, hletter, hu⟩ := breaks_short p hp
  rcases Quoted.escape_cases c with ⟨hplain, hescape⟩ | ⟨-, e, he, hescape⟩ | ⟨hcontrol, hescape⟩
  · -- the character stands for itself, and a break does not
    have hne : c ≠ p.2 := by
      rintro rfl
      exact absurd (hescape.symm.trans hbreak) (by simp)
    rw [hescape, List.singleton_append, pair_infix_cons_iff, or_iff_right hne, eq_comm (a := c)]
  · -- the letter of the form tells the character
    have hc : c = p.2 ↔ p.1 = e := by
      constructor
      · rintro rfl
        exact (List.cons.inj (List.cons.inj (hbreak.symm.trans hescape)).2).1
      · rintro rfl
        exact Option.some.inj (he.symm.trans hshort)
    have hback : c = '\\' ↔ '\\' = e := by
      constructor
      · rintro rfl
        exact (List.cons.inj (List.cons.inj hescape).2).1
      · rintro rfl
        exact (Option.some.inj he).symm
    rw [hescape, List.cons_append, List.singleton_append, pair_infix_cons_iff, pair_infix_cons_iff,
      List.head?_cons, Option.some_inj, hc, hback, eq_comm (a := e)]
    tauto
  · -- no digit is a backslash
    have hne : c ≠ p.2 := by
      rintro rfl
      exact absurd (hescape.symm.trans hbreak) (by simp)
    have hback : c ≠ '\\' := by
      rintro rfl
      exact absurd hcontrol (by decide)
    have hhigh : '\\' ≠ Quoted.hexDigit (c.toNat / 16) :=
      (hexDigit_ne_backslash _ (by omega)).symm
    have hlow : '\\' ≠ Quoted.hexDigit (c.toNat % 16) :=
      (hexDigit_ne_backslash _ (by omega)).symm
    rw [hescape]
    simp [pair_infix_cons_iff, hne, hback, hhigh, hlow, hu.symm]

/-- Only the letter of a break itself is encoded with that letter in front. -/
theorem head?_encode_iff (hp : p ∈ breaks) (cs : List Char) :
    (Quoted.encode cs ++ ['"']).head? = some p.1 ↔ cs.head? = some p.1 := by
  obtain ⟨-, -, hletter, -⟩ := breaks_short p hp
  cases cs with
  | nil =>
    refine iff_of_false (fun h => hletter ?_) (Option.some_ne_none p.1).symm
    exact .inl (Option.some.inj h).symm
  | cons c cs =>
    rw [Quoted.encode, List.flatMap_cons, List.append_assoc, List.head?_cons, Option.some_inj]
    have hback : '\\' ≠ p.1 := fun h => hletter (.inr (.inl h.symm))
    rcases Quoted.escape_cases c with ⟨-, hescape⟩ | ⟨hneeds, e, -, hescape⟩ | ⟨hcontrol, hescape⟩
    · rw [hescape, List.singleton_append, List.head?_cons, Option.some_inj]
    · rw [hescape, List.cons_append, List.head?_cons, Option.some_inj]
      exact iff_of_false hback fun h => hletter (h ▸ hneeds)
    · rw [hescape, List.cons_append, List.head?_cons, Option.some_inj]
      exact iff_of_false hback fun h => hletter (h ▸ .inr (.inr hcontrol))

/-- The written form of a text has an escape exactly if the text has its break, or the escape
itself. -/
theorem infix_encode_iff (hp : p ∈ breaks) (cs : List Char) :
    ['\\', p.1] <:+: Quoted.encode cs ++ ['"'] ↔ p.2 ∈ cs ∨ ['\\', p.1] <:+: cs := by
  induction cs with
  | nil =>
    exact iff_of_false not_pair_infix_singleton
      (not_or.2 ⟨List.not_mem_nil, not_pair_infix_nil⟩)
  | cons c cs ih =>
    have hencode : Quoted.encode (c :: cs) ++ ['"'] =
        Quoted.escape c ++ (Quoted.encode cs ++ ['"']) := by
      rw [Quoted.encode, List.flatMap_cons, List.append_assoc]
      rfl
    rw [hencode, infix_escape_iff hp, head?_encode_iff hp, ih, List.mem_cons, pair_infix_cons_iff,
      eq_comm (a := c), eq_comm (a := c)]
    tauto

/-- The same holds with the quotes around it. -/
theorem infix_quote_iff (hp : p ∈ breaks) (cs : List Char) :
    ['\\', p.1] <:+: Quoted.quote cs ↔ p.2 ∈ cs ∨ ['\\', p.1] <:+: cs := by
  rw [Quoted.quote, pair_infix_cons_iff, infix_encode_iff hp]
  exact or_iff_right fun h => absurd h.1 (by decide)

/-- The escapes of the passes are those of the three letters. -/
theorem isFree_iff (cs : List Char) : IsFree cs ↔ ∀ p ∈ breaks, ¬ ['\\', p.1] <:+: cs := by
  simp [IsFree, breaks]

/-- A quoted text has no escaped break if the text has neither a break nor one escaped. -/
theorem isFree_quote_iff (cs : List Char) :
    IsFree (Quoted.quote cs) ↔ ¬ HasBreak cs ∧ IsFree cs := by
  rw [isFree_iff, isFree_iff, HasBreak]
  constructor
  · intro h
    refine ⟨?_, fun p hp hpart => h p hp ((infix_quote_iff hp cs).2 (.inr hpart))⟩
    rintro ⟨p, hp, hmem⟩
    exact h p hp ((infix_quote_iff hp cs).2 (.inl hmem))
  · rintro ⟨hbreak, hfree⟩ p hp hpart
    rcases (infix_quote_iff hp cs).1 hpart with hmem | hpart
    · exact hbreak ⟨p, hp, hmem⟩
    · exact hfree p hp hpart

/-! ## Decoding -/

/-- A written text is decoded exactly if an escape of a break shows in it. -/
theorem decodeQuoted_quote (s : String) :
    decodeQuoted (Quoted.quote s.toList) =
      if IsFree (Quoted.quote s.toList) then Quoted.quote s.toList else s.toList := by
  have hquoted : isQuoted (Quoted.quote s.toList) = true := (isQuoted_iff _).2 ⟨_, rfl⟩
  have hread : Json.read? (String.ofList (Quoted.quote s.toList)) = some (.string s) :=
    Json.read?_compact_string s
  unfold decodeQuoted
  rw [hquoted, Bool.true_and, hread]
  by_cases hfree : IsFree (Quoted.quote s.toList)
  · rw [if_pos hfree, (hasBreakEscape_eq_false_iff _).2 hfree]
    rfl
  · have hescape : hasBreakEscape (Quoted.quote s.toList) = true := by
      rw [← Bool.not_eq_false, hasBreakEscape_eq_false_iff]
      exact hfree
    rw [if_neg hfree, hescape]
    rfl

/-- A text without escapes and without quotes around it, written as a string of a document, comes
back as it was if it has a line feed, a tab or a carriage return. If it has none, the other escapes
of the written form stay; so it comes back as it was if nothing in it needed an escape, and only
then. -/
theorem normalize_compact_string {s : String} (hfree : IsFree s.toList)
    (hplain : ¬ IsEnclosed s.toList) :
    normalize (Json.string s).compact =
        (if HasBreak s.toList then s else String.ofList (Quoted.encode s.toList)) ∧
      (normalize (Json.string s).compact = s ↔
        HasBreak s.toList ∨ ∀ c ∈ s.toList, ¬ Quoted.NeedsEscape c) := by
  have hresult : normalize (Json.string s).compact =
      if HasBreak s.toList then s else String.ofList (Quoted.encode s.toList) := by
    rw [normalize_eq, Json.compact, Json.writeString, String.toList_ofList, decodeQuoted_quote]
    by_cases hbreak : HasBreak s.toList
    · have hescaped : ¬ IsFree (Quoted.quote s.toList) := fun h =>
        ((isFree_quote_iff _).1 h).1 hbreak
      rw [if_neg hescaped, if_pos hbreak, unescapeBreaks_eq_self hfree,
        unquote_of_not_enclosed hplain, String.ofList_toList]
    · have hunescaped : IsFree (Quoted.quote s.toList) :=
        (isFree_quote_iff _).2 ⟨hbreak, hfree⟩
      rw [if_pos hunescaped, if_neg hbreak, unescapeBreaks_eq_self hunescaped]
      exact congrArg String.ofList (unquote_enclosed _)
  refine ⟨hresult, ?_⟩
  rw [hresult]
  by_cases hbreak : HasBreak s.toList
  · rw [if_pos hbreak]
    exact iff_of_true rfl (.inl hbreak)
  · rw [if_neg hbreak, or_iff_right hbreak, ← Quoted.encode_eq_self_iff, ← String.toList_inj,
      String.toList_ofList]

/-- Two lines with a quotation, a path and a control character in them. -/
theorem normalize_compact_string_of_two_lines :
    let s := "he said \"hold\"\nC:\\books\x07"
    IsFree s.toList ∧ ¬ IsEnclosed s.toList ∧ normalize (Json.string s).compact = s := by
  intro s
  have hfree : IsFree s.toList := by decide
  have hplain : ¬ IsEnclosed s.toList := by decide
  have hbreak : HasBreak s.toList := by decide
  exact ⟨hfree, hplain, (normalize_compact_string hfree hplain).2.2 (.inl hbreak)⟩

/-- A quotation on one line keeps the backslashes of its written form. -/
theorem normalize_compact_string_ne :
    let s := "he said \"hold\" today"
    IsFree s.toList ∧ ¬ IsEnclosed s.toList ∧
      normalize (Json.string s).compact = "he said \\\"hold\\\" today" ∧
      normalize (Json.string s).compact ≠ s := by
  intro s
  have hresult : normalize (Json.string s).compact = "he said \\\"hold\\\" today" := by
    decide +kernel
  refine ⟨by decide, by decide, hresult, ?_⟩
  rw [hresult]
  decide

end EquityBoard.Chat.Markdown
