import EquityBoard.Calendar
import EquityBoard.Proofs.Chat.ListedCards
import EquityBoard.Proofs.Chat.SharedKeys
import Mathlib.Control.Monad.Basic
import Mathlib.Data.List.Pairwise

/-!
# The order of the cards

The list of a feed goes by the time stamps as they were sent, greatest first (`list_descending`). The
time of a card reads a time stamp up to `10 ^ 12` as seconds and a greater one as milliseconds, so a
card in milliseconds stands before every card in seconds, the later ones among them as well. Main
statement: `pairwise_instant_list_iff`, which says for which feeds the list is newest first.
-/

namespace EquityBoard.Chat

/-- The instant of a card in milliseconds. It is that of `Calendar.instant`, where 64 bits hold it. -/
def Conversation.instant (c : Conversation) : Int :=
  if 1000000000000 < c.timestamp then c.timestamp else c.timestamp * 1000

/-- A card in seconds is not later than a card in milliseconds. Of two other cards this says
nothing. -/
def Conversation.InUnitOrder (a b : Conversation) : Prop :=
  a.timestamp ≤ 1000000000000 → 1000000000000 < b.timestamp →
    a.timestamp * 1000 ≤ b.timestamp

/-- The time of a card is that of its instant if the milliseconds fit 64 bits. -/
theorem Conversation.instant_eq_calendar {c : Conversation}
    (h : -0x8000000000000000 ≤ c.timestamp * 1000) :
    Calendar.instant c.timestamp = .ok c.instant := by
  unfold Calendar.instant Conversation.instant
  split
  · rfl
  · refine Decimal.Width.multiply_eq_ok ?_
    show -0x8000000000000000 ≤ c.timestamp * 1000 ∧ c.timestamp * 1000 ≤ 0x7FFFFFFFFFFFFFFF
    omega

namespace ConversationFeed

variable (feed : ConversationFeed) (filter : ModelFilter)

/-- Of two cards in the order of their time stamps the instants can only be out of order if the
units differ. -/
theorem instant_le_instant_iff {a b : Conversation} (h : b.timestamp ≤ a.timestamp) :
    b.instant ≤ a.instant ↔ b.InUnitOrder a := by
  unfold Conversation.InUnitOrder Conversation.instant
  by_cases hmillis : 1000000000000 < b.timestamp
  · rw [if_pos hmillis, if_pos (by omega)]
    omega
  · rw [if_neg hmillis]
    split
    · omega
    · omega

/-- The cards of a feed are listed newest first exactly if none of them that gives its time in
seconds is later than one that gives it in milliseconds. -/
theorem pairwise_instant_list_iff :
    ((feed.list filter).Pairwise fun a b => b.instant ≤ a.instant) ↔
      ∀ a ∈ feed.items, filter.accepts a.model = true →
        ∀ b ∈ feed.items, filter.accepts b.model = true → a.InUnitOrder b := by
  have hdescending := feed.list_descending filter
  constructor
  · intro hinstants a ha hfa b hb hfb
    -- of two listed cards the one in milliseconds has the greater time stamp and stands first
    have hboth : (feed.list filter).Pairwise fun a b => a.InUnitOrder b ∧ b.InUnitOrder a := by
      refine (hdescending.and hinstants).imp fun {a b} hab => ⟨?_, ?_⟩
      · intro hseconds hmillis
        omega
      · exact (instant_le_instant_iff hab.1).1 hab.2
    have hself : ∀ c ∈ feed.list filter, c.InUnitOrder c ∧ c.InUnitOrder c :=
      fun c _ => ⟨fun _ _ => by omega, fun _ _ => by omega⟩
    have hsymm : Std.Symm fun a b : Conversation => a.InUnitOrder b ∧ b.InUnitOrder a :=
      ⟨fun _ _ hab => hab.symm⟩
    have hall := hboth.forall_of_forall hself
    exact (hall ((mem_list feed filter a).2 ⟨ha, hfa⟩) ((mem_list feed filter b).2 ⟨hb, hfb⟩)).1
  · intro hunits
    refine hdescending.imp_of_mem fun {a b} ha hb hab => (instant_le_instant_iff hab).2 ?_
    obtain ⟨ha, hfa⟩ := (mem_list feed filter a).1 ha
    obtain ⟨hb, hfb⟩ := (mem_list feed filter b).1 hb
    exact hunits b hb hfb a ha hfa

/-- One card gives the time of eight minutes past six in milliseconds, another one that of eight
minutes past seven in seconds. The earlier one is listed first. -/
theorem not_pairwise_instant_of_mixed_units :
    let entry (model : String) (time : Int) : Json :=
      .object [("model_id", .string model), ("timestamp", .ofInt time)]
    let feed := ofJson (.array [entry "a" 1709618880000, entry "b" 1709622480])
    (feed.list .all).map (fun c => (c.model, Calendar.cardTime c.timestamp)) =
        [("a", .ok "03/05 06:08:00"), ("b", .ok "03/05 07:08:00")] ∧
      ¬ (feed.list .all).Pairwise fun a b => b.instant ≤ a.instant := by
  intro entry feed
  let card (model : String) (time : Int) : Conversation := ⟨model, time, "", "", .null, .null⟩
  have hitems : feed.items = [card "a" 1709618880000, card "b" 1709622480] := by rfl
  have hlist : feed.list .all = [card "a" 1709618880000, card "b" 1709622480] := by
    rw [feed.list_of_newestFirst (by rw [hitems]; decide), hitems]
    rfl
  rw [hlist]
  refine ⟨by decide +kernel, fun hpairwise => ?_⟩
  have hle : (card "b" 1709622480).instant ≤ (card "a" 1709618880000).instant :=
    (List.pairwise_cons.1 hpairwise).1 _ List.mem_cons_self
  exact absurd hle (by decide)

end ConversationFeed

end EquityBoard.Chat
