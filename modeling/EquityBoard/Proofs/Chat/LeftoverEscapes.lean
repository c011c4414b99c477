import EquityBoard.Chat.Markdown
import Mathlib.Data.List.Infix

/-!
# No escape is left over

A text for display holds no backslash in front of an `n`, a `t` or an `r`. Each of the three passes
removes its own escape and brings in no other one, since what it puts in is neither a backslash nor
a letter (`infix_unescape`); so it does not matter what the decoding of a quoted string gave. Taking
the quotes off keeps to the inside of the text, and in bytes it cuts between characters
(`unquoteBytes?_eq`). Main statement: `isFree_normalize`.
-/

namespace EquityBoard.Chat.Markdown

/-! ## Escapes that occur -/

/-- Whether no backslash stands right in front of an `n`, a `t` or an `r`. -/
def IsFree (cs : List Char) : Prop := ∀ letter ∈ ['n', 't', 'r'], ¬ ['\\', letter] <:+: cs

/-- A pair of characters stands at the front of a text or in what follows. -/
theorem pair_infix_cons_iff {a b c : Char} {cs : List Char} :
    [a, b] <:+: c :: cs ↔ (a = c ∧ cs.head? = some b) ∨ [a, b] <:+: cs := by
  rw [List.infix_cons_iff, List.cons_prefix_cons, List.singleton_prefix_iff_head?_eq_some]

theorem not_pair_infix_nil {a b : Char} : ¬ [a, b] <:+: ([] : List Char) := by
  intro h
  exact List.cons_ne_nil _ _ (List.infix_nil.1 h)

theorem not_pair_infix_singleton {a b c : Char} : ¬ [a, b] <:+: [c] := by
  intro h
  have hlength := h.length_le
  simp at hlength

/-- An escape is a backslash with the letter next to it. -/
theorem hasEscape_iff (letter : Char) (cs : List Char) :
    hasEscape letter cs = true ↔ ['\\', letter] <:+: cs := by
  fun_induction hasEscape letter cs with
  | case1 => simp
  | case2 c => simpa using not_pair_infix_singleton
  | case3 a b rest ih =>
    rw [Bool.or_eq_true, ih, pair_infix_cons_iff (c := a), Bool.and_eq_true, beq_iff_eq, beq_iff_eq,
      List.head?_cons, Option.some_inj, eq_comm (a := a)]

/-- A text without escaped breaks is free of them. -/
theorem hasBreakEscape_eq_false_iff (cs : List Char) : hasBreakEscape cs = false ↔ IsFree cs := by
  have hletter (letter : Char) : hasEscape letter cs = false ↔ ¬ ['\\', letter] <:+: cs := by
    rw [← hasEscape_iff, Bool.not_eq_true]
  simp only [hasBreakEscape, IsFree, Bool.or_eq_false_iff, hletter, List.forall_mem_cons,
    List.not_mem_nil, IsEmpty.forall_iff, implies_true, and_true, and_assoc]

instance (cs : List Char) : Decidable (IsFree cs) :=
  decidable_of_iff _ (hasBreakEscape_eq_false_iff cs)

/-! ## The passes -/

/-- The escapes of the passes, each with the character that takes its place. -/
def breaks : List (Char × Char) := [('n', '\n'), ('t', '\t'), ('r', '\r')]

/-- The passes over a text, one after the other. -/
def unescapeBreaks (cs : List Char) : List Char :=
  breaks.foldl (fun cs p => unescape p.1 p.2 cs) cs

variable {letter replacement : Char}

/-- To replace an escape can only change the first character into the replacement. -/
theorem head?_unescape_cons (letter replacement c : Char) (cs : List Char) :
    (unescape letter replacement (c :: cs)).head? = some c ∨
      (unescape letter replacement (c :: cs)).head? = some replacement := by
  cases cs with
  | nil => exact Or.inl rfl
  | cons d cs =>
    unfold unescape
    split
    · exact Or.inr rfl
    · exact Or.inl rfl

/-- A pass leaves no escape of its own letter, and every other one that it leaves was there before. -/
theorem infix_unescape {other : Char} {cs : List Char} (hback : replacement ≠ '\\')
    (hother : replacement ≠ other) (h : ['\\', other] <:+: unescape letter replacement cs) :
    other ≠ letter ∧ ['\\', other] <:+: cs := by
  fun_induction unescape letter replacement cs with
  | case1 => exact absurd h not_pair_infix_nil
  | case2 c => exact absurd h not_pair_infix_singleton
  | case3 a b rest hmatch ih =>
    -- the replacement is no backslash, so the escape stands behind it
    have hrest := (pair_infix_cons_iff.1 h).resolve_left fun hfirst => hback hfirst.1.symm
    obtain ⟨hne, hpart⟩ := ih hrest
    exact ⟨hne, pair_infix_cons_iff.2 (Or.inr (pair_infix_cons_iff.2 (Or.inr hpart)))⟩
  | case4 a b rest hmatch ih =>
    rcases pair_infix_cons_iff.1 h with ⟨ha, hhead⟩ | hrest
    · -- the letter behind the backslash is one of the text, since the replacement is another one
      have hb : b = other := by
        rcases head?_unescape_cons letter replacement b rest with hfirst | hfirst
        · exact Option.some.inj (hfirst.symm.trans hhead)
        · exact absurd (Option.some.inj (hfirst.symm.trans hhead)) hother
      have hne : other ≠ letter := by
        intro heq
        exact hmatch ⟨ha.symm, hb.trans heq⟩
      exact ⟨hne, pair_infix_cons_iff.2 (Or.inl ⟨ha, congrArg some hb⟩)⟩
    · obtain ⟨hne, hpart⟩ := ih hrest
      exact ⟨hne, pair_infix_cons_iff.2 (Or.inr hpart)⟩

/-- A pass over a text without the escape changes nothing. -/
theorem unescape_eq_self {cs : List Char} (h : ¬ ['\\', letter] <:+: cs) :
    unescape letter replacement cs = cs := by
  fun_induction unescape letter replacement cs with
  | case1 => rfl
  | case2 c => rfl
  | case3 a b rest hmatch ih =>
    exact absurd (pair_infix_cons_iff.2 (Or.inl ⟨hmatch.1.symm, by rw [hmatch.2]; rfl⟩)) h
  | case4 a b rest hmatch ih =>
    rw [ih fun hrest => h (pair_infix_cons_iff.2 (Or.inr hrest))]

/-- What an escaped break is replaced by makes no new escape. -/
theorem breaks_separate : ∀ p ∈ breaks, p.2 ≠ '\\' ∧ p.2 ∉ ['n', 't', 'r'] := by decide

/-- Each pass removes its escape and brings in none. -/
theorem infix_pass {p : Char × Char} (hp : p ∈ breaks) {other : Char}
    (hother : other ∈ ['n', 't', 'r']) {cs : List Char}
    (h : ['\\', other] <:+: unescape p.1 p.2 cs) : other ≠ p.1 ∧ ['\\', other] <:+: cs := by
  obtain ⟨hback, hletters⟩ := breaks_separate p hp
  exact infix_unescape hback (fun heq => hletters (heq ▸ hother)) h

/-- What is true of a pass is true of several of them. -/
theorem infix_passes {ps : List (Char × Char)} (hps : ∀ p ∈ ps, p ∈ breaks) {other : Char}
    (hother : other ∈ ['n', 't', 'r']) {cs : List Char}
    (h : ['\\', other] <:+: ps.foldl (fun cs p => unescape p.1 p.2 cs) cs) :
    (∀ p ∈ ps, other ≠ p.1) ∧ ['\\', other] <:+: cs := by
  induction ps generalizing cs with
  | nil => exact ⟨fun p hp => absurd hp List.not_mem_nil, h⟩
  | cons p ps ih =>
    rw [List.forall_mem_cons] at hps
    obtain ⟨hlater, hpart⟩ := ih hps.2 h
    obtain ⟨hfirst, hbefore⟩ := infix_pass hps.1 hother hpart
    exact ⟨List.forall_mem_cons.2 ⟨hfirst, hlater⟩, hbefore⟩

/-- After the replacements no escaped break is left. -/
theorem isFree_unescapeBreaks (cs : List Char) : IsFree (unescapeBreaks cs) := by
  intro other hother h
  have hremoved := (infix_passes (fun p hp => hp) hother h).1
  have hbreak : other ∈ breaks.map Prod.fst := hother
  obtain ⟨p, hp, heq⟩ := List.mem_map.1 hbreak
  exact hremoved p hp heq.symm

/-- A text without escaped breaks is left as it is. -/
theorem unescapeBreaks_eq_self {cs : List Char} (h : IsFree cs) : unescapeBreaks cs = cs := by
  show unescape 'r' _ (unescape 't' _ (unescape 'n' _ cs)) = cs
  rw [unescape_eq_self (h 'n' (by decide)), unescape_eq_self (h 't' (by decide)),
    unescape_eq_self (h 'r' (by decide))]

/-! ## The quotes -/

/-- Whether a text stands between double quotes. -/
def IsEnclosed (cs : List Char) : Prop := ∃ body, cs = '"' :: (body ++ ['"'])

/-- The quotes that are found enclose the text. -/
theorem isQuoted_iff (cs : List Char) : isQuoted cs = true ↔ IsEnclosed cs := by
  simp only [isQuoted, Bool.and_eq_true, decide_eq_true_eq, beq_iff_eq]
  constructor
  · rintro ⟨⟨hlength, hhead⟩, hlast⟩
    obtain ⟨rest, rfl⟩ := List.head?_eq_some_iff.1 hhead
    have hne : rest ≠ [] := by
      rintro rfl
      exact absurd hlength (by decide)
    obtain ⟨body, c, rfl⟩ := (List.eq_nil_or_concat' rest).resolve_left hne
    rw [List.getLast?_cons, List.getLast?_concat, Option.getD_some, Option.some_inj] at hlast
    exact ⟨body, by rw [hlast]⟩
  · rintro ⟨body, rfl⟩
    refine ⟨⟨by simp, rfl⟩, ?_⟩
    rw [List.getLast?_cons, List.getLast?_concat, Option.getD_some]

instance (cs : List Char) : Decidable (IsEnclosed cs) := decidable_of_iff _ (isQuoted_iff cs)

theorem unquote_enclosed (body : List Char) : unquote ('"' :: (body ++ ['"'])) = body := by
  rw [unquote, if_pos ((isQuoted_iff _).2 ⟨body, rfl⟩), List.tail_cons, List.dropLast_concat]

/-- Without enclosing quotes nothing is taken off. -/
theorem unquote_of_not_enclosed {cs : List Char} (h : ¬ IsEnclosed cs) : unquote cs = cs := by
  rw [unquote, if_neg fun hquoted => h ((isQuoted_iff cs).1 hquoted)]

/-- What is left between the quotes is a part of the text. -/
theorem isInfix_unquote (cs : List Char) : unquote cs <:+: cs := by
  unfold unquote
  split
  · exact (List.dropLast_prefix _).isInfix.trans (List.tail_suffix cs).isInfix
  · exact List.infix_refl cs

/-- To take quotes off makes no escape. -/
theorem IsFree.unquote {cs : List Char} (h : IsFree cs) : IsFree (unquote cs) := by
  intro letter hletter hpart
  exact h letter hletter (hpart.trans (isInfix_unquote cs))

/-! ## The quotes in bytes -/

/-- The text from one byte to another one. There is none if a byte lies behind the end of the text
or inside a character, or if the bytes are in the wrong order. -/
def cutBytes? (s : String) (first last : Nat) : Option String :=
  if h : (⟨first⟩ : String.Pos.Raw).IsValid s ∧ (⟨last⟩ : String.Pos.Raw).IsValid s ∧ first ≤ last
  then some (s.extract ⟨⟨first⟩, h.1⟩ ⟨⟨last⟩, h.2.1⟩)
  else none

/-- Takes one pair of quotes off a text by cutting its first and its last byte off. -/
def unquoteBytes? (s : String) : Option String :=
  if 1 < s.utf8ByteSize ∧ s.startsWith '"' = true ∧ s.endsWith '"' = true then
    cutBytes? s 1 (s.utf8ByteSize - 1)
  else some s

/-- A cut at the ends of a part gives that part. -/
theorem cutBytes?_append (before inside after : String) :
    cutBytes? (before ++ inside ++ after) before.utf8ByteSize
      (before.utf8ByteSize + inside.utf8ByteSize) = some inside := by
  have hfirst : (⟨before.utf8ByteSize⟩ : String.Pos.Raw).IsValid (before ++ inside ++ after) :=
    String.Pos.Raw.isValid_iff_exists_append.2
      ⟨before, inside ++ after, String.append_assoc, rfl⟩
  have hlast : (⟨before.utf8ByteSize + inside.utf8ByteSize⟩ : String.Pos.Raw).IsValid
      (before ++ inside ++ after) :=
    String.Pos.Raw.isValid_iff_exists_append.2
      ⟨before ++ inside, after, rfl, by rw [← String.utf8ByteSize_append]; rfl⟩
  have hbytes : (before ++ inside ++ after).toByteArray.extract before.utf8ByteSize
      (before.utf8ByteSize + inside.utf8ByteSize) = inside.toByteArray := by
    have hbehind := ByteArray.extract_append_size_add (a := before.toByteArray)
      (b := inside.toByteArray ++ after.toByteArray) (i := 0) (j := inside.toByteArray.size)
    rw [Nat.add_zero, ByteArray.extract_append_eq_left rfl] at hbehind
    rw [String.append_assoc, String.toByteArray_append, String.toByteArray_append]
    exact hbehind
  rw [cutBytes?, dif_pos ⟨hfirst, hlast, Nat.le_add_right _ _⟩, Option.some_inj]
  exact String.toByteArray_inj.1 hbytes

/-- Whether quotes enclose a text can be told by its bytes. -/
theorem isQuotedInBytes_iff (s : String) :
    (1 < s.utf8ByteSize ∧ s.startsWith '"' = true ∧ s.endsWith '"' = true) ↔
      IsEnclosed s.toList := by
  rw [← isQuoted_iff, isQuoted, String.startsWith_char_eq_head?, String.endsWith_char_eq_getLast?,
    Bool.and_eq_true, Bool.and_eq_true, decide_eq_true_eq, and_assoc]
  refine and_congr_left fun hends => ?_
  -- the quote in front is one byte, and only an empty rest has no bytes
  obtain ⟨rest, hrest⟩ := List.head?_eq_some_iff.1 (beq_iff_eq.1 hends.1)
  have hs : s = String.singleton '"' ++ String.ofList rest := by
    rw [← String.toList_inj, hrest, String.toList_append, String.toList_ofList]
    rfl
  have hsize : s.utf8ByteSize = 1 + (String.ofList rest).utf8ByteSize := by
    rw [hs, String.utf8ByteSize_append]
    rfl
  have hempty : (String.ofList rest).utf8ByteSize = 0 ↔ rest.length = 0 := by
    rw [String.utf8ByteSize_eq_zero_iff, ← String.toList_inj, String.toList_ofList,
      List.length_eq_zero_iff]
    rfl
  rw [hsize, hrest, List.length_cons]
  omega

/-- Taking the quotes off in bytes never cuts outside of the text or inside a character. -/
theorem unquoteBytes?_eq (s : String) :
    unquoteBytes? s = some (String.ofList (unquote s.toList)) := by
  unfold unquoteBytes?
  by_cases henclosed : IsEnclosed s.toList
  · rw [if_pos ((isQuotedInBytes_iff s).2 henclosed)]
    obtain ⟨body, hbody⟩ := henclosed
    have hs : s = String.singleton '"' ++ String.ofList body ++ String.singleton '"' := by
      rw [← String.toList_inj, hbody, String.toList_append, String.toList_append,
        String.toList_ofList]
      rfl
    have hsize : s.utf8ByteSize - 1 =
        (String.singleton '"').utf8ByteSize + (String.ofList body).utf8ByteSize := by
      rw [hs, String.utf8ByteSize_append, String.utf8ByteSize_append]
      exact Nat.add_sub_cancel _ 1
    have hcut := cutBytes?_append (String.singleton '"') (String.ofList body) (String.singleton '"')
    rw [← hs, ← hsize] at hcut
    rw [hbody, unquote_enclosed]
    exact hcut
  · rw [if_neg fun hquoted => henclosed ((isQuotedInBytes_iff s).1 hquoted),
      unquote_of_not_enclosed henclosed, String.ofList_toList]

/-! ## Texts for display -/

/-- A text is decoded, then freed from escapes and then from its quotes. -/
theorem normalize_eq (text : String) :
    normalize text = String.ofList (unquote (unescapeBreaks (decodeQuoted text.toList))) :=
  rfl

/-- No text for display has a backslash in front of an `n`, a `t` or an `r`. Whatever was decoded,
the passes leave none of them; a pass removes its own escape and brings in none, and neither does
taking the quotes off. In bytes the quotes come off without a cut outside of the text or inside a
character. -/
theorem isFree_normalize (text : String) :
    IsFree (normalize text).toList ∧
      unquoteBytes? (String.ofList (unescapeBreaks (decodeQuoted text.toList))) =
        some (normalize text) ∧
      (∀ decoded, IsFree (unescapeBreaks decoded)) ∧
      (∀ p ∈ breaks, ∀ letter ∈ ['n', 't', 'r'], ∀ cs, ['\\', letter] <:+: unescape p.1 p.2 cs →
        letter ≠ p.1 ∧ ['\\', letter] <:+: cs) ∧
      (∀ cs, IsFree cs → IsFree (unquote cs)) ∧
      ∀ s, unquoteBytes? s = some (String.ofList (unquote s.toList)) := by
  refine ⟨?_, ?_, isFree_unescapeBreaks, fun p hp letter hletter cs h => infix_pass hp hletter h,
    fun cs h => h.unquote, unquoteBytes?_eq⟩
  · rw [normalize_eq, String.toList_ofList]
    exact (isFree_unescapeBreaks _).unquote
  · rw [unquoteBytes?_eq, String.toList_ofList, normalize_eq]

/-- A backslash in front of an escape stays, and the line feed that takes the place of the escape
keeps it apart from the `n` behind it. -/
example : normalize "\\\\nn" = "\\\nn" := by decide +kernel

end EquityBoard.Chat.Markdown
