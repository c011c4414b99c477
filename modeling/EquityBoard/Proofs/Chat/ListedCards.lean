import EquityBoard.Chat.Conversation
import EquityBoard.Proofs.StableOrder

/-!
# Listed cards

A list holds the cards of a feed that its filter accepts, greatest time stamp first. It is a stable
sort by the time stamps with the sign changed (`list_eq_mergeSort_key`), so the cards of one time
stamp stand in the order of delivery, and a filter takes its cards out of the list of all cards
without moving them (`list_eq_filter_list_all`). Main statement: `list_stable`.
-/

namespace EquityBoard.Chat

namespace ConversationFeed

variable (feed : ConversationFeed) (filter : ModelFilter)

theorem filter_accepts_all (cards : List Conversation) :
    (cards.filter fun c => ModelFilter.all.accepts c.model) = cards :=
  List.filter_eq_self.2 fun _ _ => rfl

/-- A list has the cards that the filter accepts, each as often as the feed. -/
theorem list_perm :
    (feed.list filter).Perm (feed.items.filter fun c => filter.accepts c.model) :=
  List.mergeSort_perm _ _

/-- A card is listed if the feed has it and the filter accepts it. -/
theorem mem_list (c : Conversation) :
    c ∈ feed.list filter ↔ c ∈ feed.items ∧ filter.accepts c.model = true := by
  rw [(feed.list_perm filter).mem_iff, List.mem_filter]

/-- To put the newest cards first is to sort by the negated time. -/
theorem list_eq_mergeSort_key :
    feed.list filter = (feed.items.filter fun c => filter.accepts c.model).mergeSort
      fun a b => -a.timestamp ≤ -b.timestamp := by
  unfold list
  simp only [Int.neg_le_neg_iff]

/-- The time stamps of a list descend. -/
theorem list_descending :
    (feed.list filter).Pairwise fun a b => b.timestamp ≤ a.timestamp := by
  rw [list_eq_mergeSort_key]
  have h := pairwise_mergeSort_key (fun c : Conversation => -c.timestamp)
    (feed.items.filter fun c => filter.accepts c.model)
  exact h.imp fun hab => Int.le_of_neg_le_neg hab

/-- The cards of one time stamp are listed in the order of delivery. -/
theorem filter_list (t : Int) :
    (feed.list filter).filter (fun c => c.timestamp = t) =
      feed.items.filter fun c => filter.accepts c.model ∧ c.timestamp = t := by
  have hkey := filter_mergeSort_key (fun c : Conversation => -c.timestamp)
    (feed.items.filter fun c => filter.accepts c.model) (-t)
  rw [← list_eq_mergeSort_key] at hkey
  simp only [Int.neg_inj, List.filter_filter] at hkey
  rw [hkey]
  simp only [Bool.decide_and, Bool.decide_eq_true, Bool.and_comm]

/-- To list the cards of a filter is to leave the others out of the whole list. -/
theorem list_eq_filter_list_all :
    feed.list filter = (feed.list .all).filter fun c => filter.accepts c.model := by
  rw [list_eq_mergeSort_key, list_eq_mergeSort_key, filter_accepts_all, mergeSort_filter_key]

/-- How the cards of a feed are listed. A list holds the cards that its filter accepts and no
others, each as often as it was delivered. The time stamps descend, and cards of one time stamp
stand in the order of delivery. It does not matter whether the cards are filtered before they are
put in order or after. -/
theorem list_stable :
    (feed.list filter).Perm (feed.items.filter fun c => filter.accepts c.model) ∧
      ((feed.list filter).Pairwise fun a b => b.timestamp ≤ a.timestamp) ∧
      (∀ t, (feed.list filter).filter (fun c => c.timestamp = t) =
        feed.items.filter fun c => filter.accepts c.model ∧ c.timestamp = t) ∧
      feed.list filter = (feed.list .all).filter fun c => filter.accepts c.model :=
  ⟨feed.list_perm filter, feed.list_descending filter, feed.filter_list filter,
    feed.list_eq_filter_list_all filter⟩

end ConversationFeed

end EquityBoard.Chat
