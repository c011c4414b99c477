import EquityBoard.Proofs.Chat.AutomaticJobs

/-!
# Cards that share a key

Renditions are kept by card key, that is by model and time stamp. Cards of one feed can have the same
key: entries of a model without a readable time stamp all count as of time zero. What a key shows is
the rendition that arrived last for any of its cards (`shown?_settle`), so a card displays a text of
its own exactly if the card that was rendered last under its key got a reply that suits it. Main
statement: `displaysOwn_afterRound_iff`. Otherwise one card displays what another one says
(`not_displaysOwn_of_missing_time`).
-/

namespace EquityBoard.Chat

/-- The text of a card, or what stands for it if it is empty. -/
def Conversation.ownText (c : Conversation) : String :=
  if c.summary.isEmpty then noSummary else c.summary

/-- A feed that comes newest first is listed as it comes. -/
theorem ConversationFeed.list_of_newestFirst {feed : ConversationFeed}
    (h : feed.items.Pairwise fun a b => b.timestamp ≤ a.timestamp) (filter : ModelFilter) :
    feed.list filter = feed.items.filter fun c => filter.accepts c.model :=
  List.mergeSort_of_pairwise ((h.filter _).imp decide_eq_true)

namespace RenditionBook

variable {σ : Type}

/-! ## What a key shows -/

/-- The rendition that is displayed for the cards of a key. -/
def shown? (b : RenditionBook) (key : String) : Option String :=
  if (b.state key).shown then (b.state key).translated? else none

/-- A card displays the rendition that its key shows, or else its text. -/
theorem display_eq_getD (b : RenditionBook) (key text : String) :
    b.display key text = (b.shown? key).getD (if text.isEmpty then noSummary else text) := by
  unfold display shown?
  generalize b.state key = s
  obtain ⟨translated?, _, _, shown⟩ := s
  cases translated? <;> cases shown <;> rfl

/-- A card displays the rendition that is shown under its key, or its own text. -/
theorem display_eq (b : RenditionBook) (c : Conversation) :
    b.display c.cardKey c.summary = (b.shown? c.cardKey).getD c.ownText :=
  b.display_eq_getD c.cardKey c.summary

/-- Whether a job brought a rendition for a key. -/
def JobReport.renders (r : JobReport) (key : String) : Bool :=
  r.key = key && r.outcome.toOption.isSome

/-- A rendition is shown as soon as it arrives; a failure leaves what was shown before. -/
theorem shown?_record (b : RenditionBook) (r : JobReport) (key : String) :
    ((b.start r.key).record r).shown? key =
      if r.renders key then r.outcome.toOption else b.shown? key := by
  unfold shown? JobReport.renders
  rw [state_record]
  by_cases hkey : r.key = key
  · cases r.outcome <;> simp [hkey, Except.toOption, Except.isOk, Except.toBool]
  · simp [hkey]

/-- After some jobs a key shows the rendition that arrived last for it. -/
theorem shown?_settle (b : RenditionBook) (reports : List JobReport) (key : String) :
    (b.settle reports).shown? key =
      match reports.reverse.find? fun r => r.renders key with
      | some r => r.outcome.toOption
      | none => b.shown? key := by
  induction reports generalizing b with
  | nil => rfl
  | cons r reports ih =>
    show (((b.start r.key).record r).settle reports).shown? key = _
    rw [ih, List.reverse_cons, List.find?_append]
    -- the first job counts only if no later one brought a rendition for the key
    cases reports.reverse.find? fun r => r.renders key with
    | some later => rfl
    | none =>
      rw [shown?_record, Option.none_or, List.find?_singleton]
      cases r.renders key <;> rfl

/-! ## A round -/

/-- The book after a first round of automatic renditions, for a translator that goes by the text
alone. -/
def afterRound (translate : String → Except String String) (newestFirst : List Conversation)
    (limit : Nat) : RenditionBook :=
  ((empty.runJobs (fun text => (pure (translate text) : StateM Unit _))
    (empty.pending newestFirst limit)).run ()).1.1

/-- The text of a job decides how it ends. -/
theorem reports_runJobs (translate : String → Except String String) (b : RenditionBook)
    (jobs : List Job) (st : σ) :
    ((b.runJobs (fun text => pure (translate text)) jobs).run st).1.2 =
      jobs.map fun job => ⟨job.key, translate job.text⟩ := by
  induction jobs generalizing b with
  | nil => rfl
  | cons job jobs ih => exact congrArg (_ :: ·) (ih _)

/-- The empty book was asked for no card. -/
theorem pending_empty (newestFirst : List Conversation) (limit : Nat) :
    empty.pending newestFirst limit =
      ((newestFirst.take limit).filter fun c => !c.summary.isEmpty).map
        fun c => ⟨c.cardKey, c.summary⟩ := by
  unfold pending
  congr 2
  funext c
  exact Bool.and_true _

/-- The card whose rendition a round leaves under a key: among the newest `limit` cards the last one
with the key that has a text for which there is a rendition. -/
def lastRendered? (translate : String → Except String String) (newestFirst : List Conversation)
    (limit : Nat) (key : String) : Option Conversation :=
  (newestFirst.take limit).reverse.find? fun d =>
    !d.summary.isEmpty ∧ d.cardKey = key ∧ (translate d.summary).toOption.isSome

/-- It is one of the list, has the key and got a rendition. -/
theorem of_lastRendered? {translate : String → Except String String}
    {newestFirst : List Conversation} {limit : Nat} {key : String} {d : Conversation}
    (h : d ∈ lastRendered? translate newestFirst limit key) :
    d ∈ newestFirst ∧ d.cardKey = key ∧ (translate d.summary).toOption.isSome := by
  have hmem := List.mem_reverse.1 (List.mem_of_find?_eq_some h)
  have hrendered := List.find?_some h
  simp only [decide_eq_true_eq] at hrendered
  exact ⟨List.mem_of_mem_take hmem, hrendered.2⟩

/-- After a round a key shows the rendition of the last card with it that was rendered. -/
theorem shown?_afterRound (translate : String → Except String String)
    (newestFirst : List Conversation) (limit : Nat) (key : String) :
    (afterRound translate newestFirst limit).shown? key =
      (lastRendered? translate newestFirst limit key).bind fun d =>
        (translate d.summary).toOption := by
  unfold afterRound lastRendered?
  rw [runJobs_fst, reports_runJobs, pending_empty, shown?_settle, List.map_map, ← List.map_reverse,
    ← List.filter_reverse, List.find?_map, List.find?_filter]
  simp only [Function.comp_def, JobReport.renders, Bool.and_eq_true, decide_eq_true_eq]
  cases (newestFirst.take limit).reverse.find? _ with
  | some d => rfl
  | none => rfl

/-! ## Texts of their own -/

/-- Whether a card displays a text of its own: its text, what stands for an empty one, or what the
translator makes of its text. -/
def DisplaysOwn (translate : String → Except String String) (b : RenditionBook)
    (c : Conversation) : Prop :=
  b.display c.cardKey c.summary = c.ownText ∨
    translate c.summary = .ok (b.display c.cardKey c.summary)

/-- So a card may display the rendition of another one. -/
theorem display_afterRound (translate : String → Except String String)
    (newestFirst : List Conversation) (limit : Nat) (c : Conversation) :
    (afterRound translate newestFirst limit).display c.cardKey c.summary =
      ((lastRendered? translate newestFirst limit c.cardKey).bind fun d =>
        (translate d.summary).toOption).getD c.ownText := by
  rw [display_eq, shown?_afterRound]

/-- A card displays its own text or rendition if the last one does as well for it. -/
theorem displaysOwn_afterRound (translate : String → Except String String)
    (newestFirst : List Conversation) (limit : Nat) (c : Conversation) :
    DisplaysOwn translate (afterRound translate newestFirst limit) c ↔
      ∀ d ∈ lastRendered? translate newestFirst limit c.cardKey,
        translate d.summary = translate c.summary ∨ translate d.summary = .ok c.ownText := by
  unfold DisplaysOwn
  rw [display_afterRound]
  cases hlast : lastRendered? translate newestFirst limit c.cardKey with
  | none => simp
  | some d =>
    have hreply := (of_lastRendered? hlast).2.2
    cases htext : translate d.summary with
    | error e =>
      rw [htext] at hreply
      cases hreply
    | ok text =>
      simp only [Option.bind_some, htext, Except.toOption, Option.getD_some, Option.mem_some_iff,
        forall_eq', Except.ok.injEq]
      rw [or_comm, eq_comm (a := Except.ok text)]

/-- Whose text the cards of a feed display after a first round. A card displays the reply to the card
that was rendered last under its key, and its own text if there is none. So it displays a text of its
own exactly if that card got the same reply as it would, or by chance its own text as a reply. All
cards do if those with one key have one text. -/
theorem displaysOwn_afterRound_iff (translate : String → Except String String)
    (feed : ConversationFeed) (filter : ModelFilter) (limit : Nat) :
    let cards := feed.list filter
    let book := afterRound translate cards limit
    (∀ c ∈ cards, book.display c.cardKey c.summary =
        ((lastRendered? translate cards limit c.cardKey).bind fun d =>
          (translate d.summary).toOption).getD c.ownText) ∧
      (∀ c ∈ cards, DisplaysOwn translate book c ↔
        ∀ d ∈ lastRendered? translate cards limit c.cardKey,
          translate d.summary = translate c.summary ∨ translate d.summary = .ok c.ownText) ∧
      ((∀ c ∈ cards, ∀ d ∈ cards, d.cardKey = c.cardKey → d.summary = c.summary) →
        ∀ c ∈ cards, DisplaysOwn translate book c) := by
  intro cards book
  refine ⟨fun c _ => display_afterRound translate cards limit c,
    fun c _ => displaysOwn_afterRound translate cards limit c, ?_⟩
  intro hsame c hc
  refine (displaysOwn_afterRound translate cards limit c).2 fun d hd => Or.inl ?_
  obtain ⟨hmem, hkey, _⟩ := of_lastRendered? hd
  rw [hsame c hc d hmem hkey]

/-- An entry that came twice, and one whose request fails. -/
theorem displaysOwn_afterRound_of_repeated :
    let card (model : String) (t : Int) (summary : String) : Conversation :=
      ⟨model, t, summary, "", .null, .null⟩
    let translate (text : String) : Except String String :=
      if text = "two" then .error "down" else .ok ("zh:" ++ text)
    let feed : ConversationFeed := ⟨[card "a" 2 "one", card "a" 2 "one", card "b" 1 "two"]⟩
    let cards := feed.list .all
    let book := afterRound translate cards 3
    (∀ c ∈ cards, ∀ d ∈ cards, d.cardKey = c.cardKey → d.summary = c.summary) ∧
      (∀ c ∈ cards, DisplaysOwn translate book c) ∧
      cards.map (fun c => book.display c.cardKey c.summary) = ["zh:one", "zh:one", "two"] := by
  intro card translate feed cards book
  have hlist : feed.list .all = feed.items.filter fun _ => true :=
    feed.list_of_newestFirst (by decide) .all
  have hsame : ∀ c ∈ feed.list .all, ∀ d ∈ feed.list .all,
      d.cardKey = c.cardKey → d.summary = c.summary := by
    rw [hlist]
    decide +kernel
  refine ⟨hsame, (displaysOwn_afterRound_iff translate feed .all 3).2.2 hsame, ?_⟩
  show (feed.list .all).map (fun c =>
    (afterRound translate (feed.list .all) 3).display c.cardKey c.summary) = _
  rw [hlist]
  decide +kernel

/-- Two entries of a model come without a time stamp, and the newest one alone is translated. The
other one displays its rendition. -/
theorem not_displaysOwn_of_missing_time :
    let entry (summary : String) : Json :=
      .object [("model_id", .string "a"), ("summary", .string summary)]
    let translate (text : String) : Except String String := .ok ("zh:" ++ text)
    let feed := ConversationFeed.ofJson (.array [entry "one", entry "two"])
    let cards := feed.list .all
    let book := afterRound translate cards 1
    ∃ c ∈ cards, c.summary = "two" ∧ book.display c.cardKey c.summary = "zh:one" ∧
      ¬ DisplaysOwn translate book c := by
  intro entry translate feed cards book
  let card (summary : String) : Conversation := ⟨"a", 0, summary, "", .null, .null⟩
  have hitems : feed.items = [card "one", card "two"] := rfl
  have hcards : cards = [card "one", card "two"] := by
    show feed.list .all = _
    rw [feed.list_of_newestFirst (by rw [hitems]; decide), hitems]
    rfl
  have hdisplay : book.display (card "two").cardKey (card "two").summary = "zh:one" := by
    show (afterRound translate cards 1).display _ _ = _
    rw [hcards]
    decide +kernel
  refine ⟨card "two", by rw [hcards]; exact .tail _ (.head _), rfl, hdisplay, ?_⟩
  -- neither the text of the card nor its rendition is displayed
  rintro (hown | hreply)
  · rw [hdisplay] at hown
    exact absurd hown (by decide +kernel)
  · rw [hdisplay] at hreply
    exact absurd (Except.ok.inj hreply) (by decide +kernel)

end RenditionBook

end EquityBoard.Chat
