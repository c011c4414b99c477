import EquityBoard.Chat.Rendition

/-!
# Automatic renditions

A round of automatic renditions asks for cards that were never asked for. `state_record` says all
that one request does to the book. Whatever comes of it, the book remembers it
(`wasRequested_settle`), and no later request or switch makes it forget (`wasRequested_toggle`). So
over any sequence of rounds, with switches and explicit requests between them, no card is asked for
twice by the rounds. Main statement: `nodup_jobs_run`.
-/

namespace EquityBoard.Chat.RenditionBook

variable {σ : Type}

/-! ## What jobs do to the book -/

/-- The book after jobs that ended as reported. -/
def settle (b : RenditionBook) (reports : List JobReport) : RenditionBook :=
  reports.foldl (fun b r => (b.start r.key).record r) b

/-- The translator decides how the jobs end, and nothing else about the book. -/
theorem runJobs_fst (translate : String → StateM σ (Except String String)) (b : RenditionBook)
    (jobs : List Job) (st : σ) :
    ((b.runJobs translate jobs).run st).1.1 =
      b.settle ((b.runJobs translate jobs).run st).1.2 := by
  induction jobs generalizing b st with
  | nil => rfl
  | cons job jobs ih => exact ih _ _

/-- Every job is reported, in the order of the jobs. -/
theorem keys_runJobs (translate : String → StateM σ (Except String String)) (b : RenditionBook)
    (jobs : List Job) (st : σ) :
    ((b.runJobs translate jobs).run st).1.2.map (·.key) = jobs.map (·.key) := by
  induction jobs generalizing b st with
  | nil => rfl
  | cons job jobs ih => exact congrArg (job.key :: ·) (ih _ _)

/-- A job decides the state of its card, and no other one. A failure leaves the rendition that there
is. -/
theorem state_record (b : RenditionBook) (r : JobReport) (key : String) :
    ((b.start r.key).record r).state key =
      if r.key = key then
        { translated? := r.outcome.toOption.or (b.state key).translated?
          translating := false
          failed := !r.outcome.isOk
          shown := r.outcome.isOk || (b.state key).shown }
      else b.state key := by
  obtain ⟨k, outcome⟩ := r
  unfold record start complete fail
  by_cases hkey : k = key
  · cases outcome <;> simp [hkey, Except.toOption, Except.isOk, Except.toBool]
  · cases outcome <;> simp [hkey, Ne.symm hkey]

/-! ## Cards that were asked for -/

/-- The latest request for a card ends with a rendition or a failure, and either is remembered. -/
theorem wasRequested_record (b : RenditionBook) (r : JobReport) (key : String) :
    ((b.start r.key).record r).wasRequested key = true ↔
      b.wasRequested key = true ∨ key = r.key := by
  unfold wasRequested
  rw [state_record]
  by_cases hkey : r.key = key
  · cases r.outcome <;> simp [hkey, Except.toOption, Except.isOk, Except.toBool]
  · simp [hkey, Ne.symm hkey]

/-- Jobs that are settled leave requests for their own cards behind. -/
theorem wasRequested_settle (b : RenditionBook) (reports : List JobReport) (key : String) :
    (b.settle reports).wasRequested key = true ↔
      b.wasRequested key = true ∨ key ∈ reports.map (·.key) := by
  induction reports generalizing b with
  | nil => simp [settle]
  | cons r reports ih =>
    show (((b.start r.key).record r).settle reports).wasRequested key = true ↔ _
    rw [ih, wasRequested_record, List.map_cons, List.mem_cons, or_assoc]

/-- Switching between text and rendition does not make the book forget a request. -/
theorem wasRequested_toggle (b : RenditionBook) (k key : String) :
    (b.toggle k).1.wasRequested key = b.wasRequested key := by
  unfold toggle
  split
  · unfold wasRequested
    by_cases hkey : key = k
    · simp [hkey]
    · simp [hkey]
  · rfl

/-! ## The jobs of a round -/

/-- The jobs are for the newest cards that have a text and were not requested before. -/
theorem keys_pending (b : RenditionBook) (newestFirst : List Conversation) (limit : Nat) :
    (b.pending newestFirst limit).map (·.key) =
      ((newestFirst.take limit).filter fun c =>
        !c.summary.isEmpty && !b.wasRequested c.cardKey).map (·.cardKey) := by
  rw [pending, List.map_map]
  rfl

/-- No job is for a card that was requested before. -/
theorem wasRequested_of_mem_pending {b : RenditionBook} {newestFirst : List Conversation}
    {limit : Nat} {key : String} (h : key ∈ (b.pending newestFirst limit).map (·.key)) :
    b.wasRequested key = false := by
  rw [keys_pending] at h
  obtain ⟨c, hc, rfl⟩ := List.mem_map.1 h
  have hnew := (List.mem_filter.1 hc).2
  rw [Bool.and_eq_true, Bool.not_eq_true'] at hnew
  exact Bool.not_eq_true' _ ▸ hnew.2

/-- With distinct cards there are no two jobs for one of them. -/
theorem nodup_pending (b : RenditionBook) {newestFirst : List Conversation}
    (h : (newestFirst.map (·.cardKey)).Nodup) (limit : Nat) :
    ((b.pending newestFirst limit).map (·.key)).Nodup := by
  rw [keys_pending]
  have hsublist := (List.filter_sublist (p := fun c : Conversation =>
    !c.summary.isEmpty && !b.wasRequested c.cardKey)).trans (List.take_sublist limit newestFirst)
  exact h.sublist (hsublist.map _)

/-! ## Runs -/

/-- What happens to a book: a round of automatic renditions after a poll, a switch of a card, or
jobs on explicit request. -/
inductive Op where
  | refresh (feed : ConversationFeed) (filter : ModelFilter) (limit : Nat)
  | toggle (key : String)
  | request (jobs : List Job)

/-- The book after an operation, and the automatic jobs of the operation. -/
def apply (translate : String → StateM σ (Except String String)) (b : RenditionBook) :
    Op → StateM σ (RenditionBook × List Job)
  | .refresh feed filter limit => do
    let jobs := b.pending (feed.list filter) limit
    let (b, _) ← b.runJobs translate jobs
    return (b, jobs)
  | .toggle key => return ((b.toggle key).1, [])
  | .request jobs => do
    let (b, _) ← b.runJobs translate jobs
    return (b, [])

/-- The book after a run of operations, and the automatic jobs of the run. -/
def run (translate : String → StateM σ (Except String String)) :
    RenditionBook → List Op → StateM σ (RenditionBook × List Job)
  | b, [] => return (b, [])
  | b, op :: ops => do
    let (b, first) ← b.apply translate op
    let (b, later) ← b.run translate ops
    return (b, first ++ later)

/-- Whether the cards that an operation lists have different keys. -/
def Op.HasDistinctCards : Op → Prop
  | .refresh feed filter _ => ((feed.list filter).map (·.cardKey)).Nodup
  | .toggle _ => True
  | .request _ => True

instance : ∀ op : Op, Decidable op.HasDistinctCards
  | .refresh feed filter _ =>
    inferInstanceAs (Decidable ((feed.list filter).map (·.cardKey)).Nodup)
  | .toggle _ => inferInstanceAs (Decidable True)
  | .request _ => inferInstanceAs (Decidable True)

/-- After its jobs have run a card has been requested, whatever came back. -/
theorem wasRequested_runJobs (translate : String → StateM σ (Except String String))
    (b : RenditionBook) (jobs : List Job) (st : σ) (key : String) :
    ((b.runJobs translate jobs).run st).1.1.wasRequested key = true ↔
      b.wasRequested key = true ∨ key ∈ jobs.map (·.key) := by
  rw [runJobs_fst, wasRequested_settle, keys_runJobs]

/-- An operation forgets no request, and remembers those of its own automatic jobs. -/
theorem wasRequested_apply (translate : String → StateM σ (Except String String))
    (b : RenditionBook) (op : Op) (st : σ) {key : String}
    (h : b.wasRequested key = true ∨
      key ∈ ((b.apply translate op).run st).1.2.map (·.key)) :
    ((b.apply translate op).run st).1.1.wasRequested key = true := by
  cases op with
  | refresh feed filter limit => exact (wasRequested_runJobs translate b _ st key).2 h
  | toggle k =>
    rcases h with h | h
    · exact (wasRequested_toggle b k key).trans h
    · cases h
  | request jobs =>
    rcases h with h | h
    · exact (wasRequested_runJobs translate b jobs st key).2 (Or.inl h)
    · cases h

/-- The automatic jobs of an operation are for cards that were never asked for, each once. -/
theorem jobs_apply (translate : String → StateM σ (Except String String)) (b : RenditionBook)
    {op : Op} (hop : op.HasDistinctCards) (st : σ) :
    (((b.apply translate op).run st).1.2.map (·.key)).Nodup ∧
      ∀ key ∈ ((b.apply translate op).run st).1.2.map (·.key), b.wasRequested key = false := by
  cases op with
  | refresh feed filter limit =>
    exact ⟨b.nodup_pending hop limit, fun _ hkey => wasRequested_of_mem_pending hkey⟩
  | toggle key => exact ⟨List.nodup_nil, nofun⟩
  | request jobs => exact ⟨List.nodup_nil, nofun⟩

theorem jobs_run_cons (translate : String → StateM σ (Except String String)) (b : RenditionBook)
    (op : Op) (ops : List Op) (st : σ) :
    let first := (b.apply translate op).run st
    ((b.run translate (op :: ops)).run st).1.2 =
      first.1.2 ++ ((first.1.1.run translate ops).run first.2).1.2 := rfl

/-- The automatic jobs of a run are for cards that were never asked for, each once. -/
theorem jobs_run (translate : String → StateM σ (Except String String)) (b : RenditionBook)
    {ops : List Op} (hops : ∀ op ∈ ops, op.HasDistinctCards) (st : σ) :
    (((b.run translate ops).run st).1.2.map (·.key)).Nodup ∧
      ∀ key ∈ ((b.run translate ops).run st).1.2.map (·.key), b.wasRequested key = false := by
  induction ops generalizing b st with
  | nil => exact ⟨List.nodup_nil, nofun⟩
  | cons op ops ih =>
    rw [List.forall_mem_cons] at hops
    obtain ⟨hfirst, hnew⟩ := jobs_apply translate b hops.1 st
    obtain ⟨hlater, hunasked⟩ := ih ((b.apply translate op).run st).1.1 hops.2
      ((b.apply translate op).run st).2
    -- no card of a later job was asked for before, neither by this operation
    have hfresh : ∀ key ∈ (((b.apply translate op).run st).1.1.run translate ops).run
        ((b.apply translate op).run st).2 |>.1.2.map (·.key),
        ¬ (b.wasRequested key = true ∨ key ∈ ((b.apply translate op).run st).1.2.map (·.key)) := by
      intro key hkey hasked
      have := wasRequested_apply translate b op st hasked
      rw [hunasked key hkey] at this
      cases this
    rw [jobs_run_cons, List.map_append]
    constructor
    · refine List.nodup_append.2 ⟨hfirst, hlater, ?_⟩
      rintro key hkey _ hkey' rfl
      exact hfresh key hkey' (Or.inr hkey)
    · intro key hkey
      rcases List.mem_append.1 hkey with hkey | hkey
      · exact hnew key hkey
      · exact Bool.eq_false_iff.2 fun hasked => hfresh key hkey (Or.inl hasked)

/-- Automatic rendition never asks twice. Over any run of rounds from the empty book, with switches
and explicit requests between them and a translator that succeeds and fails in any way, each card is
asked for at most once by the rounds, if the cards that a round lists have different keys. -/
theorem nodup_jobs_run (translate : String → StateM σ (Except String String)) {ops : List Op}
    (hops : ∀ op ∈ ops, op.HasDistinctCards) (st : σ) :
    (((empty.run translate ops).run st).1.2.map (·.key)).Nodup :=
  (jobs_run translate empty hops st).1

/-- The request for `a:1` fails. Later rounds list the card with another summary and under another
filter, and ask for the new card only; nor do they ask for that one again. -/
theorem nodup_jobs_run_of_failure :
    let card (model : String) (t : Int) (summary : String) : Conversation :=
      ⟨model, t, summary, "", .null, .null⟩
    let translate (text : String) : StateM Nat (Except String String) :=
      fun asked => (if asked = 0 then .error "down" else .ok text, asked + 1)
    let first : ConversationFeed := ⟨[card "a" 1 "one"]⟩
    let second : ConversationFeed := ⟨[card "a" 1 "changed", card "b" 2 "two"]⟩
    let ops : List Op := [.refresh first .all 3, .refresh second (.model "a") 3,
      .refresh second (.model "b") 3, .toggle "b:2", .request [⟨"b:2", "two"⟩],
      .refresh second (.model "b") 3]
    let jobs := ((empty.run translate ops).run 0).1.2
    (∀ op ∈ ops, op.HasDistinctCards) ∧ (jobs.map (·.key)).Nodup ∧
      jobs = [⟨"a:1", "one"⟩, ⟨"b:2", "two"⟩] := by
  intro card translate first second ops jobs
  have hops : ∀ op ∈ ops, op.HasDistinctCards := by decide +kernel
  have hjobs : jobs = [⟨"a:1", "one"⟩, ⟨"b:2", "two"⟩] := by decide +kernel
  exact ⟨hops, nodup_jobs_run translate hops 0, hjobs⟩

end EquityBoard.Chat.RenditionBook
