import EquityBoard.Chat.Rendition

/-!
# Entries of the book

What happens to the rendition of a card is entered into the book: a request is on its way, succeeds
or fails, and a reader switches between text and rendition. Entries may come in any order and for any
cards. `state_enter` says all that one entry can do to the states, and `state_enterAll` what many make
of the state of a card. So a card that shows its rendition has one (`hasShown_enterAll`), and a
rendition stays until a later one takes its place (`translated?_enterAll`). Main statement:
`renditions_enterAll`.
-/

namespace EquityBoard.Chat.RenditionBook

/-! ## Switches -/

/-- With a rendition a switch changes which text is shown. -/
theorem toggle_of_isTranslated {b : RenditionBook} {key : String}
    (h : b.isTranslated key = true) :
    b.toggle key = (b.update key fun s => { s with shown := !s.shown }, true) :=
  if_pos h

/-- Without a rendition there is nothing to switch to. -/
theorem toggle_of_not_isTranslated {b : RenditionBook} {key : String}
    (h : ¬ b.isTranslated key = true) : b.toggle key = (b, false) :=
  if_neg h

theorem toggle_snd (b : RenditionBook) (key : String) : (b.toggle key).2 = b.isTranslated key := by
  by_cases h : b.isTranslated key = true
  · rw [toggle_of_isTranslated h, h]
  · rw [toggle_of_not_isTranslated h, Bool.eq_false_iff.2 h]

/-- A switch that does nothing leaves the book as it was. -/
theorem toggle_fst_of_false {b : RenditionBook} {key : String} (h : (b.toggle key).2 = false) :
    (b.toggle key).1 = b := by
  rw [toggle_snd, ← Bool.not_eq_true] at h
  rw [toggle_of_not_isTranslated h]

theorem update_update (b : RenditionBook) (key : String)
    (first later : RenditionState → RenditionState) :
    (b.update key first).update key later = b.update key fun s => later (first s) := by
  unfold update
  congr 1
  apply KeyMap.ext_get?
  intro k
  rw [KeyMap.get?_insert, KeyMap.get?_insert, KeyMap.get?_insert]
  split
  · have hfirst := state_update b key key first
    rw [if_pos rfl] at hfirst
    exact congrArg (fun s => some (later s)) hfirst
  · rfl

/-- A card that has a rendition has an entry, so writing its state again changes nothing. -/
theorem update_of_isTranslated {b : RenditionBook} {key : String} (h : b.isTranslated key = true)
    {change : RenditionState → RenditionState} (hchange : change (b.state key) = b.state key) :
    b.update key change = b := by
  have hget : b.states.get? key = some (b.state key) := by
    unfold isTranslated state at *
    cases hs : b.states.get? key with
    | none =>
      rw [hs] at h
      cases h
    | some s => rfl
  unfold update
  rw [hchange]
  obtain ⟨states⟩ := b
  congr 1
  apply KeyMap.ext_get?
  intro k
  rw [KeyMap.get?_insert]
  split
  · rename_i hk
    rw [hk]
    exact hget.symm
  · rfl

/-- Two switches in a row restore the book. -/
theorem toggle_toggle (b : RenditionBook) (key : String) :
    ((b.toggle key).1.toggle key).1 = b := by
  by_cases h : b.isTranslated key = true
  · have hagain : (b.update key fun s => { s with shown := !s.shown }).isTranslated key = true := by
      unfold isTranslated
      rw [state_update, if_pos rfl]
      exact h
    simp only [toggle_of_isTranslated h, toggle_of_isTranslated hagain, update_update, Bool.not_not]
    exact update_of_isTranslated h rfl
  · rw [toggle_of_not_isTranslated h, toggle_of_not_isTranslated h]

/-! ## One entry -/

/-- What is entered into the book for a card. -/
inductive Entry where
  | started (key : String)
  | arrived (key text : String)
  | failed (key : String)
  | switched (key : String)

namespace Entry

/-- The card that an entry is about. -/
def key : Entry → String
  | .started key | .arrived key _ | .failed key | .switched key => key

/-- What an entry makes of the state of its card. -/
def change : Entry → RenditionState → RenditionState
  | .started _, s => { s with translating := true }
  | .arrived _ text, _ => { translated? := some text, shown := true }
  | .failed _, s => { s with translating := false, failed := true }
  | .switched _, s => if s.translated?.isSome then { s with shown := !s.shown } else s

/-- The rendition that an entry brings for a card. -/
def rendition? (card : String) : Entry → Option String
  | .arrived key text => if card = key then some text else none
  | _ => none

end Entry

/-- The book after an entry. -/
def enter (b : RenditionBook) : Entry → RenditionBook
  | .started key => b.start key
  | .arrived key text => b.complete key text
  | .failed key => b.fail key
  | .switched key => (b.toggle key).1

/-- An entry changes the state of its card, and no other one. -/
theorem state_enter (b : RenditionBook) (e : Entry) (card : String) :
    (b.enter e).state card =
      if card = e.key then e.change (b.state e.key) else b.state card := by
  cases e with
  | started key => exact state_update b key card _
  | arrived key text => exact state_update b key card _
  | failed key => exact state_update b key card _
  | switched key =>
    show (b.toggle key).1.state card = if card = key then
      (if b.isTranslated key = true then { b.state key with shown := !(b.state key).shown }
        else b.state key) else b.state card
    by_cases h : b.isTranslated key = true
    · rw [toggle_of_isTranslated h, if_pos h]
      exact state_update b key card _
    · rw [toggle_of_not_isTranslated h, if_neg h]
      by_cases hcard : card = key
      · rw [if_pos hcard, hcard]
      · rw [if_neg hcard]

/-! ## What is displayed -/

/-- What is displayed for a card goes by its state alone. -/
theorem display_congr {b b' : RenditionBook} {key : String} (h : b.state key = b'.state key)
    (text : String) : b.display key text = b'.display key text := by
  unfold display
  rw [h]

/-- While no rendition is shown a card displays its own text. -/
theorem display_of_hidden {b : RenditionBook} {key : String} (h : (b.state key).shown = false)
    (text : String) : b.display key text = if text.isEmpty then noSummary else text := by
  unfold display
  simp only [h]
  cases (b.state key).translated? <;> rfl

/-- Every card whose rendition is shown has one. -/
def HasShown (b : RenditionBook) : Prop :=
  ∀ key, (b.state key).shown = true → (b.state key).translated?.isSome = true

/-- A card that shows a rendition displays the one that it has. -/
theorem HasShown.display_of_shown {b : RenditionBook} (hb : b.HasShown) {key : String}
    (h : (b.state key).shown = true) (text : String) :
    (b.state key).translated? = some (b.display key text) := by
  obtain ⟨rendition, hrendition⟩ := Option.isSome_iff_exists.1 (hb key h)
  unfold display
  simp only [h, hrendition]

/-- Only an empty rendition is displayed as nothing. -/
theorem HasShown.display_eq_empty_iff {b : RenditionBook} (hb : b.HasShown) (key text : String) :
    b.display key text = "" ↔
      (b.state key).shown = true ∧ (b.state key).translated? = some "" := by
  cases hshown : (b.state key).shown with
  | true =>
    rw [hb.display_of_shown hshown text]
    simp
  | false =>
    rw [display_of_hidden hshown]
    by_cases hempty : text.isEmpty = true
    · rw [if_pos hempty]
      simp [noSummary]
    · rw [if_neg hempty]
      simpa [String.isEmpty_iff] using hempty

/-- No entry makes a card show a rendition that it does not have. -/
theorem HasShown.enter {b : RenditionBook} (hb : b.HasShown) (e : Entry) : (b.enter e).HasShown := by
  intro card hshown
  rw [state_enter] at hshown ⊢
  by_cases hcard : card = e.key
  · rw [if_pos hcard] at hshown ⊢
    cases e with
    | started key => exact hb key hshown
    | arrived key text => rfl
    | failed key => exact hb key hshown
    | switched key =>
      by_cases htranslated : (b.state key).translated?.isSome = true
      · simp [Entry.change, Entry.key, htranslated]
      · simp only [Entry.change, Entry.key, htranslated] at hshown ⊢
        exact hb key hshown
  · rw [if_neg hcard] at hshown ⊢
    exact hb card hshown

/-- An entry brings a rendition or leaves the one that there is. -/
theorem translated?_enter (b : RenditionBook) (e : Entry) (card : String) :
    ((b.enter e).state card).translated? =
      (e.rendition? card).or (b.state card).translated? := by
  rw [state_enter]
  by_cases hcard : card = e.key
  · rw [if_pos hcard, hcard]
    cases e with
    | started key => rfl
    | arrived key text => simp [Entry.key, Entry.change, Entry.rendition?]
    | failed key => rfl
    | switched key =>
      simp only [Entry.change, apply_ite RenditionState.translated?, ite_self]
      rfl
  · rw [if_neg hcard]
    cases e with
    | arrived key text =>
      have hnone : (Entry.arrived key text).rendition? card = none := if_neg hcard
      rw [hnone, Option.none_or]
    | _ => rfl

/-! ## Many entries -/

/-- The book after some entries. -/
def enterAll (b : RenditionBook) (entries : List Entry) : RenditionBook := entries.foldl enter b

/-- The state of a card is what its own entries make of it, in their order. -/
theorem state_enterAll (b : RenditionBook) (entries : List Entry) (card : String) :
    (b.enterAll entries).state card =
      (entries.filter fun e => e.key = card).foldl (fun s e => e.change s) (b.state card) := by
  induction entries generalizing b with
  | nil => rfl
  | cons e entries ih =>
    show ((b.enter e).enterAll entries).state card = _
    rw [ih, state_enter, List.filter_cons]
    by_cases hcard : e.key = card
    · simp only [hcard, if_true, decide_true, List.foldl_cons]
    · simp only [hcard, Ne.symm hcard, if_false, decide_false, Bool.false_eq_true]

/-- So no card of a book of entries shows a rendition that it does not have. -/
theorem hasShown_enterAll (entries : List Entry) : (empty.enterAll entries).HasShown := by
  have hall : ∀ b : RenditionBook, b.HasShown → (b.enterAll entries).HasShown := by
    induction entries with
    | nil => exact fun b hb => hb
    | cons e entries ih => exact fun b hb => ih (b.enter e) (hb.enter e)
  exact hall empty nofun

/-- The rendition of a card is the one that arrived last. -/
theorem translated?_enterAll (b : RenditionBook) (entries : List Entry) (card : String) :
    ((b.enterAll entries).state card).translated? =
      (entries.reverse.findSome? (·.rendition? card)).or (b.state card).translated? := by
  induction entries generalizing b with
  | nil => rfl
  | cons e entries ih =>
    show (((b.enter e).enterAll entries).state card).translated? = _
    rw [ih, translated?_enter, List.reverse_cons, List.findSome?_append, Option.or_assoc]
    cases hlast : e.rendition? card <;> simp [hlast]

/-- The book after any entries, in any order and for any cards. Where a rendition is shown there is
one, and it is what is displayed; else the text is, or what stands for an empty one. Later entries
keep a rendition or replace it by a newer one, and leave all cards alone but their own. A switch tells
whether there is a rendition, does nothing if there is none, and is undone by another switch. -/
theorem renditions_enterAll (entries : List Entry) :
    let b := empty.enterAll entries
    (∀ card, (b.state card).shown = true → (b.state card).translated?.isSome = true) ∧
      (∀ later card, ((b.enterAll later).state card).translated? =
        (later.reverse.findSome? (·.rendition? card)).or (b.state card).translated?) ∧
      (∀ e card, card ≠ e.key → (b.enter e).state card = b.state card ∧
        ∀ text, (b.enter e).display card text = b.display card text) ∧
      (∀ key, ((b.toggle key).2 = true ↔ (b.state key).translated?.isSome = true) ∧
        ((b.toggle key).2 = false → (b.toggle key).1 = b) ∧
        ((b.toggle key).1.toggle key).1 = b) ∧
      ∀ card text,
        ((b.state card).shown = true → (b.state card).translated? = some (b.display card text)) ∧
        ((b.state card).shown = false →
          b.display card text = if text.isEmpty then noSummary else text) ∧
        (b.display card text = "" ↔
          (b.state card).shown = true ∧ (b.state card).translated? = some "") := by
  intro b
  have hshown : b.HasShown := hasShown_enterAll entries
  refine ⟨hshown, translated?_enterAll b, fun e card hcard => ?_, fun key => ?_,
    fun card text => ?_⟩
  · have hstate : (b.enter e).state card = b.state card := by
      rw [state_enter, if_neg hcard]
    exact ⟨hstate, display_congr hstate⟩
  · refine ⟨?_, toggle_fst_of_false, b.toggle_toggle key⟩
    rw [toggle_snd]
    rfl
  · exact ⟨fun h => hshown.display_of_shown h text, fun h => display_of_hidden h text,
      hshown.display_eq_empty_iff card text⟩

end EquityBoard.Chat.RenditionBook
