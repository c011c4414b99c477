import EquityBoard.Proofs.Chat.AutomaticJobs
import EquityBoard.Proofs.Chat.BookEntries
import EquityBoard.Proofs.Chat.ListedCards
import EquityBoard.Proofs.Decimal.WholeNumbers
import EquityBoard.Proofs.Text.Words

/-!
# Card keys

A key is the model id and the time stamp of a card with a colon between them. The id may have colons,
digits and minus signs of its own; the time stamp has no colon, so it is what stands behind the last
one (`cut_cardKey`), and its text tells which integer it is. So a key names one model and one time
stamp (`cardKey_inj`), and cards share a key only if their feed delivers a model and a time stamp
twice (`hasDistinctCards_refresh_iff`). Main statement: `cardKey_eq_iff`, on keys and on what the
book keeps under them.
-/

namespace EquityBoard.Chat

open Decimal Text

namespace Conversation

/-! ## The last piece of a key -/

theorem toList_cardKey (c : Conversation) :
    c.cardKey.toList = c.model.toList ++ ':' :: ofInt c.timestamp := by
  unfold cardKey
  rw [String.toList_append, String.toList_append, toList_intText, List.append_assoc]
  rfl

/-- Cut at its colons a key is the pieces of the model id, and then the time stamp. -/
theorem cut_cardKey (c : Conversation) :
    cut (· == ':') c.cardKey.toList =
      cut (· == ':') c.model.toList ++ [ofInt c.timestamp] := by
  have htime : ∀ x ∈ ofInt c.timestamp, (x == ':') = false := by
    intro x hx
    refine beq_eq_false_iff_ne.2 fun hcolon => ?_
    exact not_mem_ofInt (by decide) (by decide) c.timestamp (hcolon ▸ hx)
  rw [toList_cardKey, cut_append (by decide), cut_of_not_mem htime]

/-- What follows the last colon of a key is the time. -/
theorem timestamp_eq_of_cardKey_eq {c d : Conversation} (h : c.cardKey = d.cardKey) :
    c.timestamp = d.timestamp := by
  have hpieces : cut (· == ':') c.model.toList ++ [ofInt c.timestamp] =
      cut (· == ':') d.model.toList ++ [ofInt d.timestamp] := by
    rw [← cut_cardKey, ← cut_cardKey, h]
  have hlast : [ofInt c.timestamp] = [ofInt d.timestamp] := List.append_inj_right' hpieces rfl
  exact ofInt_inj.1 (List.singleton_inj.1 hlast)

/-- A key names one model and one time stamp. -/
theorem cardKey_inj {c d : Conversation} :
    c.cardKey = d.cardKey ↔ c.model = d.model ∧ c.timestamp = d.timestamp := by
  constructor
  · intro h
    have htime : c.timestamp = d.timestamp := timestamp_eq_of_cardKey_eq h
    have hchars : c.model.toList ++ ':' :: ofInt d.timestamp =
        d.model.toList ++ ':' :: ofInt d.timestamp := by
      rw [← toList_cardKey d, ← htime, ← toList_cardKey c, h]
    exact ⟨String.toList_inj.1 (List.append_cancel_right hchars), htime⟩
  · rintro ⟨hmodel, htime⟩
    unfold cardKey
    rw [hmodel, htime]

example : (⟨"a:-1", 2, "", "", .null, .null⟩ : Conversation).cardKey = "a:-1:2" := by
  decide +kernel

/-! ## Cards of a feed -/

/-- Keys repeat exactly if a model has two cards of one time. -/
theorem nodup_cardKeys_iff (cards : List Conversation) :
    (cards.map (·.cardKey)).Nodup ↔ (cards.map fun c => (c.model, c.timestamp)).Nodup := by
  unfold List.Nodup
  rw [List.pairwise_map, List.pairwise_map]
  simp only [ne_eq, cardKey_inj, Prod.mk.injEq]

/-- The lists of a feed have a key for each card, whatever the filter, exactly if no two entries of
the feed have one model and one time stamp. -/
theorem hasDistinctCards_refresh_iff (feed : ConversationFeed) :
    (∀ filter limit, (RenditionBook.Op.refresh feed filter limit).HasDistinctCards) ↔
      (feed.items.map fun c => (c.model, c.timestamp)).Nodup := by
  rw [← nodup_cardKeys_iff]
  constructor
  · intro h
    have hperm := (feed.list_perm .all).map (·.cardKey)
    rw [ConversationFeed.filter_accepts_all] at hperm
    exact hperm.nodup_iff.1 (h .all 0)
  · intro h filter limit
    have hperm := (feed.list_perm filter).map (·.cardKey)
    exact hperm.nodup_iff.2 (h.sublist (List.filter_sublist.map _))

/-! ## What is kept under a key -/

/-- Two cards have one key exactly if they have one model and one time stamp. So of all that is
entered into the book, what is entered for the one card alone decides the state of the other one if
they have one model and one time stamp, and leaves it as it was if they do not. -/
theorem cardKey_eq_iff (c d : Conversation) :
    (c.cardKey = d.cardKey ↔ c.model = d.model ∧ c.timestamp = d.timestamp) ∧
      ∀ (b : RenditionBook) (entries : List RenditionBook.Entry),
        (b.enterAll (entries.filter fun e => e.key = c.cardKey)).state d.cardKey =
          if c.model = d.model ∧ c.timestamp = d.timestamp then
            (b.enterAll entries).state d.cardKey
          else b.state d.cardKey := by
  refine ⟨cardKey_inj, fun b entries => ?_⟩
  rw [RenditionBook.state_enterAll, RenditionBook.state_enterAll, List.filter_filter]
  by_cases hsame : c.model = d.model ∧ c.timestamp = d.timestamp
  · rw [if_pos hsame, cardKey_inj.2 hsame]
    simp only [Bool.and_self]
  · have hkeys : c.cardKey ≠ d.cardKey := fun h => hsame (cardKey_inj.1 h)
    have hnone : (entries.filter fun e => e.key = d.cardKey && e.key = c.cardKey) = [] := by
      rw [List.filter_eq_nil_iff]
      intro e _ he
      simp only [Bool.and_eq_true, decide_eq_true_eq] at he
      exact hkeys (he.2.symm.trans he.1)
    rw [if_neg hsame, hnone]
    rfl

end Conversation

end EquityBoard.Chat
