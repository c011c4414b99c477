import EquityBoard.Proofs.Chat.BookEntries
import EquityBoard.Proofs.Chat.SharedKeys

/-!
# Failed requests

A request that fails is remembered and changes nothing else, so what was displayed before is
displayed after it (`shown?_fail`). A card shows a rendition if one has arrived and the reader has
switched an even number of times since (`shown?_enterAll`), and such a card goes on showing it when
a later request fails. Main statement: `display_fail_iff`, which says for which histories of the
book a failure leaves the text of the card displayed.
-/

namespace EquityBoard.Chat.RenditionBook

/-- Whether an entry switches a card. -/
def Entry.switches (card : String) : Entry → Bool
  | .switched key => key = card
  | _ => false

/-- Whether a card shows a rendition after some entries: it is the one that arrived last for the
card, and the card was switched an even number of times since. -/
def Shows (entries : List Entry) (card rendition : String) : Prop :=
  ∃ before after, entries = before ++ .arrived card rendition :: after ∧
    (∀ e ∈ after, e.rendition? card = none) ∧ after.countP (·.switches card) % 2 = 0

/-! ## Switches after an arrival -/

/-- As long as no other rendition arrives, a card that has one changes what it shows at switches
only. -/
theorem shown_enter {b : RenditionBook} {card : String}
    (hb : (b.state card).translated?.isSome = true) {e : Entry} (he : e.rendition? card = none) :
    ((b.enter e).state card).shown =
      if e.switches card then !(b.state card).shown else (b.state card).shown := by
  rw [state_enter]
  by_cases hcard : card = e.key
  · rw [if_pos hcard]
    cases e with
    | started key =>
      rw [hcard]
      rfl
    | arrived key text => exact absurd he (by simp [Entry.rendition?, hcard, Entry.key])
    | failed key =>
      rw [hcard]
      rfl
    | switched key =>
      subst hcard
      simp [Entry.key, Entry.change, Entry.switches, hb]
  · rw [if_neg hcard]
    have hother : e.switches card = false := by
      cases e with
      | switched key => exact decide_eq_false (Ne.symm hcard)
      | _ => rfl
    rw [hother]
    rfl

/-- A card without new renditions keeps the one that it has. -/
theorem translated?_enterAll_of_none {b : RenditionBook} {entries : List Entry} {card : String}
    (h : ∀ e ∈ entries, e.rendition? card = none) :
    ((b.enterAll entries).state card).translated? = (b.state card).translated? := by
  rw [translated?_enterAll, List.findSome?_eq_none_iff.2 fun e he => h e (List.mem_reverse.1 he),
    Option.none_or]

/-- Without new renditions an even number of switches leaves a card as it was. -/
theorem shown_enterAll {b : RenditionBook} {card : String}
    (hb : (b.state card).translated?.isSome = true) {entries : List Entry}
    (h : ∀ e ∈ entries, e.rendition? card = none) :
    ((b.enterAll entries).state card).shown =
      if entries.countP (·.switches card) % 2 = 0 then (b.state card).shown
      else !(b.state card).shown := by
  induction entries generalizing b with
  | nil => rfl
  | cons e entries ih =>
    rw [List.forall_mem_cons] at h
    have hstill : ((b.enter e).state card).translated?.isSome = true := by
      rw [translated?_enter, h.1, Option.none_or]
      exact hb
    show (((b.enter e).enterAll entries).state card).shown = _
    rw [ih hstill h.2, shown_enter hb h.1, List.countP_cons]
    cases e.switches card with
    | false => rfl
    | true =>
      -- one switch more turns an even number into an odd one
      by_cases heven : entries.countP (·.switches card) % 2 = 0
      · simp [heven, show (entries.countP (·.switches card) + 1) % 2 = 1 by omega]
      · simp [heven, show (entries.countP (·.switches card) + 1) % 2 = 0 by omega]

/-! ## What a card shows -/

/-- From the arrival of the last rendition on, the switches decide. -/
theorem shown?_enterAll_of_arrived (before after : List Entry) {card rendition : String}
    (h : ∀ e ∈ after, e.rendition? card = none) :
    (empty.enterAll (before ++ .arrived card rendition :: after)).shown? card =
      if after.countP (·.switches card) % 2 = 0 then some rendition else none := by
  have hsplit : empty.enterAll (before ++ .arrived card rendition :: after) =
      ((empty.enterAll before).enter (.arrived card rendition)).enterAll after :=
    List.foldl_append
  have harrived : (((empty.enterAll before).enter (.arrived card rendition)).state card) =
      { translated? := some rendition, shown := true } := by
    rw [state_enter]
    exact if_pos rfl
  unfold shown?
  rw [hsplit, shown_enterAll (by rw [harrived]; rfl) h, translated?_enterAll_of_none h, harrived]
  split <;> rfl

/-- What a card shows is the rendition of its history. -/
theorem shown?_enterAll (entries : List Entry) (card rendition : String) :
    (empty.enterAll entries).shown? card = some rendition ↔ Shows entries card rendition := by
  constructor
  · intro hshown
    have htranslated : ((empty.enterAll entries).state card).translated? = some rendition := by
      unfold shown? at hshown
      split at hshown
      · exact hshown
      · cases hshown
    rw [translated?_enterAll, state_empty, Option.or_none, List.findSome?_eq_some_iff]
      at htranslated
    obtain ⟨after, e, before, hentries, hrendition, hafter⟩ := htranslated
    obtain rfl : e = .arrived card rendition := by
      cases e with
      | arrived key text =>
        simp only [Entry.rendition?, Option.ite_none_right_eq_some, Option.some.injEq]
          at hrendition
        rw [hrendition.1, hrendition.2]
      | _ => cases hrendition
    have hsplit : entries = before.reverse ++ .arrived card rendition :: after.reverse := by
      rw [← List.reverse_reverse entries, hentries]
      simp
    have hnone : ∀ e ∈ after.reverse, e.rendition? card = none :=
      fun e he => hafter e (List.mem_reverse.1 he)
    refine ⟨before.reverse, after.reverse, hsplit, hnone, ?_⟩
    rw [hsplit, shown?_enterAll_of_arrived _ _ hnone] at hshown
    split at hshown
    · assumption
    · cases hshown
  · rintro ⟨before, after, rfl, hafter, heven⟩
    rw [shown?_enterAll_of_arrived _ _ hafter, if_pos heven]

/-! ## After a failure -/

/-- A failure is noted, and nothing is taken back from what is shown. -/
theorem state_fail (b : RenditionBook) (key : String) :
    (b.fail key).state key = { b.state key with translating := false, failed := true } := by
  unfold fail
  rw [state_update, if_pos rfl]

/-- What a card shows outlasts a failure. -/
theorem shown?_fail (b : RenditionBook) (key : String) :
    (b.fail key).shown? key = b.shown? key := by
  unfold shown?
  rw [state_fail]

/-- After a failed request no request is on its way for the card, and the failure is remembered. The
card displays its text, or what stands for an empty one, exactly if it shows no rendition by its
history, or one that is that very text; a rendition that it shows stays displayed. -/
theorem display_fail_iff (entries : List Entry) (key text : String) :
    let b := (empty.enterAll entries).fail key
    let own := if text.isEmpty then noSummary else text
    (b.state key).translating = false ∧ (b.state key).failed = true ∧
      (b.display key text = own ↔ ∀ rendition, Shows entries key rendition → rendition = own) ∧
      ∀ rendition, Shows entries key rendition → b.display key text = rendition := by
  intro b own
  have hdisplay : b.display key text = ((empty.enterAll entries).shown? key).getD own := by
    rw [display_eq_getD, shown?_fail]
  rw [state_fail, hdisplay]
  simp only [← shown?_enterAll]
  refine ⟨trivial, trivial, ?_, ?_⟩
  · cases (empty.enterAll entries).shown? key with
    | none => simp
    | some rendition => simp
  · intro rendition hshown
    rw [hshown]
    rfl

/-- A rendition has arrived and is shown when the next request for the card fails. It stays
displayed. -/
theorem display_fail_of_shown :
    let b := (empty.enterAll [.started "a:1", .arrived "a:1" "zh:one", .started "a:1"]).fail "a:1"
    (b.state "a:1").failed = true ∧ b.display "a:1" "one" = "zh:one" ∧
      b.display "a:1" "one" ≠ "one" := by
  decide +kernel

end EquityBoard.Chat.RenditionBook
