import EquityBoard.Text.Blank

/-!
# Words

A text is cut at the boundaries between its pieces (`cut_append`). So the words of a line are told
by how the line is written: gaps of white space, and between two words at least one blank. Main
statement: `hasWords_iff`.
-/

namespace EquityBoard.Text

/-! ## Pieces -/

section

variable {isCut : Char → Bool}

theorem cut_ne_nil (isCut : Char → Bool) (cs : List Char) : cut isCut cs ≠ [] := by
  induction cs with
  | nil => exact List.cons_ne_nil _ _
  | cons c cs ih =>
    unfold cut
    split
    · exact List.cons_ne_nil _ _
    · split <;> exact List.cons_ne_nil _ _

theorem cut_cons_of_neg {c : Char} (h : isCut c = false) {cs piece : List Char}
    {pieces : List (List Char)} (hcut : cut isCut cs = piece :: pieces) :
    cut isCut (c :: cs) = (c :: piece) :: pieces := by
  rw [cut, hcut]
  simp [h]

theorem cut_cons_of_pos {c : Char} (h : isCut c = true) (cs : List Char) :
    cut isCut (c :: cs) = [] :: cut isCut cs := by
  rw [cut]
  cases hcut : cut isCut cs with
  | nil => exact absurd hcut (cut_ne_nil isCut cs)
  | cons piece pieces => simp [h]

/-- A cut is a boundary: what stands before it and what stands after it are cut apart. -/
theorem cut_append {c : Char} (h : isCut c = true) (before after : List Char) :
    cut isCut (before ++ c :: after) = cut isCut before ++ cut isCut after := by
  induction before with
  | nil => exact cut_cons_of_pos h after
  | cons b before ih =>
    cases hb : isCut b with
    | true => rw [List.cons_append, cut_cons_of_pos hb, cut_cons_of_pos hb, ih, List.cons_append]
    | false =>
      -- the character joins the first piece of what is before the boundary
      obtain ⟨piece, pieces, hcut⟩ := List.exists_cons_of_ne_nil (cut_ne_nil isCut before)
      rw [hcut, List.cons_append] at ih
      rw [List.cons_append, cut_cons_of_neg hb ih, cut_cons_of_neg hb hcut, List.cons_append]

theorem cut_of_not_mem {cs : List Char} (h : ∀ c ∈ cs, isCut c = false) : cut isCut cs = [cs] := by
  induction cs with
  | nil => rfl
  | cons c cs ih =>
    rw [List.forall_mem_cons] at h
    exact cut_cons_of_neg h.1 (ih h.2)

end

/-! ## Words between gaps -/

/-- Whether a text is a word: not empty, and without white space. -/
def IsToken (w : List Char) : Prop := w ≠ [] ∧ ∀ c ∈ w, isBlank c = false

/-- Whether a text is white space only. -/
def IsGap (gap : List Char) : Prop := ∀ c ∈ gap, isBlank c = true

/-- Whether a text is written as these words. A gap may stand in front of each word and behind the
last one, and no word goes on in what stands behind it. -/
inductive HasWords : List Char → List (List Char) → Prop
  | gap {gap : List Char} (hgap : IsGap gap) : HasWords gap []
  | word {gap w rest : List Char} {ws : List (List Char)} (hgap : IsGap gap) (hw : IsToken w)
      (hend : ∀ c ∈ rest.head?, isBlank c = true) (hrest : HasWords rest ws) :
      HasWords (gap ++ w ++ rest) (w :: ws)

theorem HasWords.isToken {cs : List Char} {ws : List (List Char)} (h : HasWords cs ws) :
    ∀ w ∈ ws, IsToken w := by
  induction h with
  | gap => exact fun w hw => absurd hw List.not_mem_nil
  | word _ hw _ _ ih => exact List.forall_mem_cons.2 ⟨hw, ih⟩

/-- A blank in front of a text belongs to the gap there. -/
theorem HasWords.cons_blank {c : Char} {cs : List Char} {ws : List (List Char)}
    (hc : isBlank c = true) (h : HasWords cs ws) : HasWords (c :: cs) ws := by
  cases h with
  | gap hgap => exact .gap (List.forall_mem_cons.2 ⟨hc, hgap⟩)
  | word hgap hw hend hrest => exact .word (List.forall_mem_cons.2 ⟨hc, hgap⟩) hw hend hrest

/-- A character in front of a text begins a word, or joins the first one. -/
theorem HasWords.cons_letter {c : Char} {cs : List Char} {ws : List (List Char)}
    (hc : isBlank c = false) (h : HasWords cs ws) : ∃ vs, HasWords (c :: cs) vs := by
  have hsingle : IsToken [c] := ⟨List.cons_ne_nil _ _, List.forall_mem_singleton.2 hc⟩
  have hnone : IsGap [] := fun d hd => absurd hd List.not_mem_nil
  have hbegins (hend : ∀ d ∈ cs.head?, isBlank d = true) : HasWords (c :: cs) ([c] :: ws) :=
    .word hnone hsingle hend h
  cases h with
  | @gap gap hgap => exact ⟨_, hbegins fun d hd => hgap d (List.mem_of_mem_head? hd)⟩
  | @word gap w rest ws hgap hw hend hrest =>
    cases gap with
    | nil =>
      have hjoined : IsToken (c :: w) := ⟨List.cons_ne_nil _ _, List.forall_mem_cons.2 ⟨hc, hw.2⟩⟩
      exact ⟨_, .word hnone hjoined hend hrest⟩
    | cons d gap =>
      refine ⟨_, hbegins ?_⟩
      intro e he
      obtain rfl : d = e := Option.some.inj he
      exact hgap d List.mem_cons_self

theorem exists_hasWords (cs : List Char) : ∃ ws, HasWords cs ws := by
  induction cs with
  | nil => exact ⟨[], .gap fun c hc => absurd hc List.not_mem_nil⟩
  | cons c cs ih =>
    obtain ⟨ws, hws⟩ := ih
    cases hc : isBlank c with
    | true => exact ⟨ws, hws.cons_blank hc⟩
    | false => exact hws.cons_letter hc

/-! ## The words that are read -/

/-- A blank is a boundary between words. -/
theorem words_append {c : Char} (h : isBlank c = true) (before after : List Char) :
    words (before ++ c :: after) = words before ++ words after := by
  unfold words
  rw [cut_append h, List.filter_append]

theorem words_cons_of_blank {c : Char} (h : isBlank c = true) (cs : List Char) :
    words (c :: cs) = words cs :=
  words_append h [] cs

theorem words_gap_append {gap : List Char} (h : IsGap gap) (cs : List Char) :
    words (gap ++ cs) = words cs := by
  induction gap with
  | nil => rfl
  | cons c gap ih =>
    obtain ⟨hc, hgap⟩ := List.forall_mem_cons.1 h
    rw [List.cons_append, words_cons_of_blank hc, ih hgap]

theorem words_token {w : List Char} (h : IsToken w) : words w = [w] := by
  rw [words, cut_of_not_mem h.2]
  exact List.filter_cons_of_pos (by simpa using h.1)

/-- A word that ends is the first one, and the others follow. -/
theorem words_token_append {w rest : List Char} (h : IsToken w)
    (hend : ∀ c ∈ rest.head?, isBlank c = true) : words (w ++ rest) = w :: words rest := by
  cases rest with
  | nil => rw [List.append_nil, words_token h]; rfl
  | cons c rest =>
    have hc : isBlank c = true := hend c rfl
    rw [words_append hc, words_token h, words_cons_of_blank hc, List.singleton_append]

theorem HasWords.words_eq {cs : List Char} {ws : List (List Char)} (h : HasWords cs ws) :
    words cs = ws := by
  induction h with
  | @gap gap hgap =>
    have happend := words_gap_append hgap []
    rw [List.append_nil] at happend
    exact happend
  | word hgap hw hend _ ih =>
    rw [List.append_assoc, words_gap_append hgap, words_token_append hw hend, ih]

/-- The words of a text are those that it is written as. -/
theorem hasWords_iff {cs : List Char} {ws : List (List Char)} : HasWords cs ws ↔ words cs = ws := by
  constructor
  · exact HasWords.words_eq
  · rintro rfl
    obtain ⟨ws, hws⟩ := exists_hasWords cs
    rwa [hws.words_eq]

end EquityBoard.Text
