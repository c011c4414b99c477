import EquityBoard.Board
import EquityBoard.Proofs.Chat.CardOrder

/-!
# The times on the cards

A feed can deliver any time stamp of 64 bits (`exists_timestamp_iff`). One that counts seconds becomes
milliseconds in 64 bits, too, so a card tells the time of its own instant only down to the second
`-9223372036854775`. What lies before has no date and should print as nothing, but the product
overflows, and the board stops with the first such card that it draws (`render_eq_error`). Main
statement: `tellsTime_iff`.
-/

namespace EquityBoard

/-! ## Texts of instants -/

namespace Calendar

/-- The instants between the bounds of the calendar are those with a date. -/
theorem ofMillis?_eq_none_iff (ms : Int) : ofMillis? ms = none ↔ ms < earliest ∨ latest < ms := by
  unfold ofMillis?
  split
  · exact iff_of_false (Option.some_ne_none _) (by omega)
  · exact iff_of_true rfl (by omega)

/-- Only instants outside the calendar have no text. -/
theorem cardText_eq_empty_iff (ms : Int) : cardText ms = "" ↔ ms < earliest ∨ latest < ms := by
  rw [← ofMillis?_eq_none_iff]
  unfold cardText text
  cases ofMillis? ms with
  | none => exact iff_of_true rfl rfl
  | some t =>
    refine iff_of_false (fun hempty => ?_) (Option.some_ne_none t)
    have hchars := congrArg String.toList hempty
    rw [String.toList_ofList] at hchars
    exact List.append_ne_nil_of_right_ne_nil _ (List.cons_ne_nil _ _) hchars

end Calendar

namespace Decimal

/-- A double becomes an integer of 64 bits. -/
theorem toInteger64_mem (whole : Dyadic → Int) (x : Float) :
    -0x8000000000000000 ≤ toInteger64 whole x ∧ toInteger64 whole x < 0x8000000000000000 := by
  unfold toInteger64 clamp64
  split
  · omega
  · split
    · split <;> omega
    · omega

end Decimal

namespace Chat

open Decimal

/-! ## Time stamps of a feed -/

/-- A time stamp has 64 bits, whatever a document says. -/
theorem timestamp?_mem {j : Json} {ts : Int} (h : timestamp? j = some ts) :
    -0x8000000000000000 ≤ ts ∧ ts < 0x8000000000000000 := by
  cases j with
  | number n =>
    cases n with
    | double x =>
      obtain rfl : truncate64 x = ts := Option.some.inj h
      exact toInteger64_mem _ x
    | whole n fits =>
      simp only [timestamp?, Number.integer?] at h
      by_cases hn : n < 0x8000000000000000
      · rw [if_pos hn] at h
        obtain rfl : n = ts := Option.some.inj h
        exact ⟨fits.1, hn⟩
      · rw [if_neg hn] at h
        obtain rfl := Option.some.inj h
        exact toInteger64_mem _ _
  | string s =>
    simp only [timestamp?] at h
    split at h
    · split at h
      · obtain rfl := Option.some.inj h
        exact toInteger64_mem _ _
      · exact absurd h (Option.some_ne_none ts).symm
    · exact absurd h (Option.some_ne_none ts).symm
  | null | bool b | array items | object fields => exact absurd h (Option.some_ne_none ts).symm

namespace Conversation

/-- What is read off one of several fields is read off a document. -/
theorem exists_of_firstField? {α : Type} {fields : KeyMap Json} {use : Json → Option α}
    {names : List String} {a : α} (h : firstField? fields use names = some a) :
    ∃ j, use j = some a := by
  obtain ⟨name, -, hname⟩ := List.exists_of_findSome?_eq_some h
  obtain ⟨j, -, hj⟩ := Option.bind_eq_some_iff.1 hname
  exact ⟨j, hj⟩

/-- So every card has a time stamp of 64 bits. -/
theorem timestamp_mem {j : Json} {c : Conversation} (h : ofJson? j = some c) :
    -0x8000000000000000 ≤ c.timestamp ∧ c.timestamp < 0x8000000000000000 := by
  unfold ofJson? at h
  split at h
  · exact absurd h (Option.some_ne_none c).symm
  · split at h
    · exact absurd h (Option.some_ne_none c).symm
    · rename_i fields _ _ _ _
      obtain rfl := Option.some.inj h
      show -_ ≤ (firstField? fields timestamp? _).getD 0 ∧
        (firstField? fields timestamp? _).getD 0 < _
      cases hfield : firstField? fields timestamp? ["timestamp", "inserted_at"] with
      | none => decide
      | some ts =>
        obtain ⟨j, hj⟩ := exists_of_firstField? hfield
        exact timestamp?_mem hj

/-- The entry of a model with a time stamp and nothing else. -/
def bareEntry (model : String) (ts : Int) : Json :=
  .object [("model_id", .string model), ("timestamp", .ofInt ts)]

/-- Every time stamp of 64 bits can be delivered. -/
theorem ofJson?_bareEntry {ts : Int} (hlow : -0x8000000000000000 ≤ ts)
    (hhigh : ts < 0x8000000000000000) :
    ofJson? (bareEntry "a" ts) = some ⟨"a", ts, "", "", .null, .null⟩ := by
  have hstamp : timestamp? (.ofInt ts) = some ts := by
    rw [Json.ofInt, dif_pos ⟨hlow, by omega⟩]
    simp only [timestamp?, Number.integer?]
    rw [if_pos hhigh]
  have hmodel : nonEmpty? (.string "a") = some "a" := by rfl
  simp [ofJson?, bareEntry, Json.object?, KeyMap.ofList, firstField?, hstamp, hmodel]

/-- The time stamps that a feed can deliver are those of 64 bits. -/
theorem exists_timestamp_iff (ts : Int) :
    (∃ j c, ofJson? j = some c ∧ c.timestamp = ts) ↔
      -0x8000000000000000 ≤ ts ∧ ts < 0x8000000000000000 := by
  constructor
  · rintro ⟨j, c, hc, rfl⟩
    exact timestamp_mem hc
  · rintro ⟨hlow, hhigh⟩
    exact ⟨bareEntry "a" ts, _, ofJson?_bareEntry hlow hhigh, rfl⟩

/-! ## Times of cards -/

/-- A card tells the time of its own instant: that has 64 bits of milliseconds, and its text is
printed. A time stamp of zero is none. -/
structure TellsTime (c : Conversation) : Prop where
  fits : -0x8000000000000000 ≤ c.instant ∧ c.instant < 0x8000000000000000
  prints : Calendar.cardTime c.timestamp =
    .ok (if c.timestamp = 0 then "" else Calendar.cardText c.instant)

variable {c : Conversation}

/-- The milliseconds of a time stamp have 64 bits from a certain second on. -/
theorem fits_instant_iff (hhigh : c.timestamp < 0x8000000000000000) :
    (-0x8000000000000000 ≤ c.instant ∧ c.instant < 0x8000000000000000) ↔
      -9223372036854775 ≤ c.timestamp := by
  unfold instant
  split <;> omega

/-- From that second on a card prints the text of its instant. -/
theorem cardTime_of_le (hlow : -9223372036854775 ≤ c.timestamp) :
    Calendar.cardTime c.timestamp =
      .ok (if c.timestamp = 0 then "" else Calendar.cardText c.instant) := by
  unfold Calendar.cardTime
  split
  · rfl
  · rw [instant_eq_calendar (by omega)]
    rfl

/-- An instant before that second has no date, but its milliseconds overflow. -/
theorem cardTime_of_lt (h : c.timestamp < -9223372036854775) :
    Calendar.cardText c.instant = "" ∧ Calendar.cardTime c.timestamp = .error .multiply := by
  have hinstant : c.instant = c.timestamp * 1000 := by
    rw [instant, if_neg (by omega)]
  have hoverflow : Calendar.instant c.timestamp = .error .multiply := by
    rw [Calendar.instant, if_neg (by omega)]
    refine Width.multiply_eq_error ?_
    show c.timestamp * 1000 < -0x8000000000000000
    omega
  constructor
  · rw [Calendar.cardText_eq_empty_iff, Calendar.earliest]
    omega
  · rw [Calendar.cardTime, if_neg (by omega), hoverflow]
    rfl

theorem tellsTime_of_le (hlow : -9223372036854775 ≤ c.timestamp)
    (hhigh : c.timestamp < 0x8000000000000000) : c.TellsTime :=
  ⟨(fits_instant_iff hhigh).2 hlow, cardTime_of_le hlow⟩

end Conversation

end Chat

/-! ## Drawn cards -/

namespace Board

open Chat (Conversation)

/-- Lines that all come out make a list. -/
theorem exists_mapM_eq_ok {α β ε : Type} {f : α → Except ε β} {l : List α}
    (h : ∀ a ∈ l, ∃ b, f a = .ok b) : ∃ bs, l.mapM f = .ok bs := by
  induction l with
  | nil => exact ⟨[], rfl⟩
  | cons a l ih =>
    rw [List.forall_mem_cons] at h
    obtain ⟨b, hb⟩ := h.1
    obtain ⟨bs, hbs⟩ := ih h.2
    refine ⟨b :: bs, ?_⟩
    rw [List.mapM_cons, hb, hbs]
    rfl

/-- The first line that does not come out is the only one that counts. -/
theorem mapM_eq_error {α β ε : Type} {f : α → Except ε β} {l : List α} {e : ε}
    (h : ∀ a ∈ l, (∃ b, f a = .ok b) ∨ f a = .error e) (hstop : ∃ a ∈ l, f a = .error e) :
    l.mapM f = .error e := by
  induction l with
  | nil =>
    obtain ⟨a, ha, -⟩ := hstop
    cases ha
  | cons a l ih =>
    rw [List.forall_mem_cons] at h
    rw [List.mapM_cons]
    rcases h.1 with ⟨b, hb⟩ | ha
    · have hlater : ∃ d ∈ l, f d = .error e := by
        obtain ⟨d, hd, hfd⟩ := hstop
        rcases List.mem_cons.1 hd with rfl | hd
        · rw [hb] at hfd
          cases hfd
        · exact ⟨d, hd, hfd⟩
      rw [hb, ih h.2 hlater]
      rfl
    · rw [ha]
      rfl

variable (b : Board)

theorem cardLine_of_le {c : Conversation} (h : -9223372036854775 ≤ c.timestamp) :
    ∃ line, b.cardLine c = .ok line := by
  unfold cardLine
  rw [Conversation.cardTime_of_le h]
  exact ⟨_, rfl⟩

/-- The line of a card stops with the overflow of its time. -/
theorem cardLine_of_lt {c : Conversation} (h : c.timestamp < -9223372036854775) :
    b.cardLine c = .error .multiply := by
  unfold cardLine
  rw [(Conversation.cardTime_of_lt h).2]
  rfl

/-- Without such a card a board is drawn. -/
theorem exists_render_eq_ok (h : ∀ c ∈ b.drawnCards, -9223372036854775 ≤ c.timestamp) (now : Int) :
    ∃ drawn, b.render now = .ok drawn := by
  obtain ⟨lines, hlines⟩ := exists_mapM_eq_ok fun c hc => b.cardLine_of_le (h c hc)
  unfold render
  rw [hlines]
  exact ⟨_, rfl⟩

/-- A board stops where it draws a card whose milliseconds overflow. -/
theorem render_eq_error (h : ∃ c ∈ b.drawnCards, c.timestamp < -9223372036854775) (now : Int) :
    b.render now = .error .multiply := by
  obtain ⟨c, hc, hlow⟩ := h
  have hlines : b.drawnCards.mapM b.cardLine = .error .multiply := by
    refine mapM_eq_error (fun d _ => ?_) ⟨c, hc, b.cardLine_of_lt hlow⟩
    by_cases hd : -9223372036854775 ≤ d.timestamp
    · exact .inl (b.cardLine_of_le hd)
    · exact .inr (b.cardLine_of_lt (by omega))
  unfold render
  rw [hlines]
  rfl

theorem exists_render_eq_ok_iff (now : Int) :
    (∃ drawn, b.render now = .ok drawn) ↔ ∀ c ∈ b.drawnCards, -9223372036854775 ≤ c.timestamp := by
  refine ⟨fun ⟨drawn, hdrawn⟩ c hc => ?_, fun h => b.exists_render_eq_ok h now⟩
  by_contra hlow
  rw [b.render_eq_error ⟨c, hc, by omega⟩] at hdrawn
  cases hdrawn

end Board

namespace Chat.Conversation

/-- A feed can deliver a time stamp exactly if that has 64 bits, and an instant has no text exactly if
it lies outside of the calendar. A card tells the time of its own instant if that is not before the
first second of 64 bits of milliseconds, and only then. An earlier instant has no text, but it is not
printed: the product overflows. So a board can be drawn exactly if none of the cards to be drawn has
such a time, and stops with the overflow otherwise. -/
theorem tellsTime_iff (ts : Int) :
    ((∃ j c, ofJson? j = some c ∧ c.timestamp = ts) ↔
      -0x8000000000000000 ≤ ts ∧ ts < 0x8000000000000000) ∧
    (∀ j c, ofJson? j = some c → c.timestamp = ts →
      (Calendar.cardText c.instant = "" ↔
        c.instant < Calendar.earliest ∨ Calendar.latest < c.instant) ∧
      (c.TellsTime ↔ -9223372036854775 ≤ ts) ∧
      (ts < -9223372036854775 →
        Calendar.cardText c.instant = "" ∧ Calendar.cardTime ts = .error .multiply)) ∧
    ∀ (b : Board) (now : Int),
      ((∃ drawn, b.render now = .ok drawn) ↔
        ∀ c ∈ b.drawnCards, -9223372036854775 ≤ c.timestamp) ∧
      ((∃ c ∈ b.drawnCards, c.timestamp < -9223372036854775) →
        b.render now = .error .multiply) := by
  refine ⟨exists_timestamp_iff ts, fun j c h hts => ?_, fun b now =>
    ⟨b.exists_render_eq_ok_iff now, fun hlow => b.render_eq_error hlow now⟩⟩
  subst hts
  obtain ⟨-, hhigh⟩ := timestamp_mem h
  refine ⟨Calendar.cardText_eq_empty_iff _, ?_, cardTime_of_lt⟩
  constructor
  · intro htells
    exact (fits_instant_iff hhigh).1 htells.fits
  · intro hlow
    exact tellsTime_of_le hlow hhigh

/-- A card with the least time stamp should show no time, but its milliseconds overflow. -/
theorem not_tellsTime_of_least_timestamp :
    ∃ c, ofJson? (.object [("model_id", .string "a"),
        ("timestamp", .ofInt (-0x8000000000000000))]) = some c ∧
      c.timestamp = -0x8000000000000000 ∧ Calendar.cardText c.instant = "" ∧
      Calendar.cardTime c.timestamp = .error .multiply ∧ ¬ c.TellsTime := by
  have hread : ofJson? (bareEntry "a" (-0x8000000000000000)) =
      some ⟨"a", -0x8000000000000000, "", "", .null, .null⟩ :=
    ofJson?_bareEntry (by decide) (by decide)
  obtain ⟨hempty, hstop⟩ := cardTime_of_lt
    (c := ⟨"a", -0x8000000000000000, "", "", .null, .null⟩) (by decide)
  exact ⟨_, hread, rfl, hempty, hstop, fun htells => absurd htells.fits.1 (by decide)⟩

end Chat.Conversation

end EquityBoard
