import EquityBoard.Proofs.Chat.AutomaticJobs
import Mathlib.Data.List.Induction

/-!
# Runs of jobs

Jobs are run one after another, whatever comes of them: the translator is asked once for each, in
their order, and each ends in a report (`runJobs_observed`). A later job of a card takes the place
of what an earlier one left, except that a failure leaves the rendition that there is. So the last
job of a card says whether it failed, and the last one that succeeded says what its rendition is
(`state_settle`). Main statement: `runJobs_settles`.
-/

namespace EquityBoard.Chat.RenditionBook

variable {σ : Type}

/-! ## What the translator sees -/

/-- A translator that keeps what it was asked and what it answered. -/
def observed (translate : String → StateM σ (Except String String)) (text : String) :
    StateM (σ × List (String × Except String String)) (Except String String) :=
  fun (st, asked) =>
    let (answer, st) := (translate text).run st
    (answer, st, asked ++ [(text, answer)])

/-- The reports of jobs that were answered in their order. -/
def reportsOf (jobs : List Job) (answers : List (Except String String)) : List JobReport :=
  List.zipWith (fun job answer => ⟨job.key, answer⟩) jobs answers

/-- The first job is asked for, its answer is recorded, and the other jobs follow. -/
theorem run_runJobs_cons (translate : String → StateM σ (Except String String)) (b : RenditionBook)
    (job : Job) (jobs : List Job) (st : σ) :
    (b.runJobs translate (job :: jobs)).run st =
      let first := (translate job.text).run st
      let book := (b.start job.key).record ⟨job.key, first.1⟩
      let later := (book.runJobs translate jobs).run first.2
      ((later.1.1, ⟨job.key, first.1⟩ :: later.1.2), later.2) :=
  rfl

/-- Each job is asked for once, in the order of the jobs, and is reported with its own answer. To
observe the translator changes nothing. -/
theorem runJobs_observed (translate : String → StateM σ (Except String String)) (b : RenditionBook)
    (jobs : List Job) (st : σ) (asked : List (String × Except String String)) :
    ∃ answers : List (Except String String), answers.length = jobs.length ∧
      ((b.runJobs translate jobs).run st).1.2 = reportsOf jobs answers ∧
      (b.runJobs (observed translate) jobs).run (st, asked) =
        (((b.runJobs translate jobs).run st).1, ((b.runJobs translate jobs).run st).2,
          asked ++ (jobs.map (·.text)).zip answers) := by
  induction jobs generalizing b st asked with
  | nil => exact ⟨[], rfl, rfl, by rw [List.map_nil, List.zip_nil_left, List.append_nil]; rfl⟩
  | cons job jobs ih =>
    let first := (translate job.text).run st
    obtain ⟨answers, hlength, hreports, hobserved⟩ :=
      ih ((b.start job.key).record ⟨job.key, first.1⟩) first.2 (asked ++ [(job.text, first.1)])
    have hfirst : (observed translate job.text).run (st, asked) =
        (first.1, first.2, asked ++ [(job.text, first.1)]) := rfl
    rw [run_runJobs_cons translate, run_runJobs_cons (observed translate), hfirst]
    refine ⟨first.1 :: answers, congrArg (· + 1) hlength,
      congrArg (List.cons (⟨job.key, first.1⟩ : JobReport)) hreports, ?_⟩
    simp only [hobserved, List.append_assoc]
    rfl

/-! ## What jobs leave in the book -/

/-- The report of the last job of a card. -/
def lastReport? (reports : List JobReport) (key : String) : Option JobReport :=
  (reports.filter fun r => r.key = key).getLast?

/-- The rendition that arrived last for a card. -/
def lastRendition? (reports : List JobReport) (key : String) : Option String :=
  ((reports.filter fun r => r.key = key).filterMap fun r => r.outcome.toOption).getLast?

/-- The last report of a key is the new one if that is about the key. -/
theorem lastReport?_concat (reports : List JobReport) (r : JobReport) (key : String) :
    lastReport? (reports ++ [r]) key = if r.key = key then some r else lastReport? reports key := by
  unfold lastReport?
  rw [List.filter_append, List.getLast?_append]
  by_cases hkey : r.key = key <;> simp [hkey]

/-- A new success is the last rendition of its key, a failure leaves the one before. -/
theorem lastRendition?_concat (reports : List JobReport) (r : JobReport) (key : String) :
    lastRendition? (reports ++ [r]) key =
      if r.key = key then r.outcome.toOption.or (lastRendition? reports key)
      else lastRendition? reports key := by
  unfold lastRendition?
  rw [List.filter_append, List.filterMap_append, List.getLast?_append]
  by_cases hkey : r.key = key
  · cases houtcome : r.outcome <;> simp [hkey, houtcome, Except.toOption]
  · simp [hkey]

theorem lastReport?_eq_none_iff (reports : List JobReport) (key : String) :
    lastReport? reports key = none ↔ key ∉ reports.map (·.key) := by
  unfold lastReport?
  rw [List.getLast?_eq_none_iff, List.filter_eq_nil_iff, List.mem_map]
  simp

/-- After some jobs the last job of a card says whether it failed, and the last one that succeeded
says what its rendition is. -/
theorem state_settle (b : RenditionBook) (reports : List JobReport) (key : String) :
    (b.settle reports).state key =
      { translated? := (lastRendition? reports key).or (b.state key).translated?
        translating := if (lastReport? reports key).isSome then false else (b.state key).translating
        failed := match lastReport? reports key with
          | some r => !r.outcome.isOk
          | none => (b.state key).failed
        shown := (lastRendition? reports key).isSome || (b.state key).shown } := by
  induction reports using List.reverseRecOn with
  | nil => rfl
  | append_singleton reports r ih =>
    have hlast : b.settle (reports ++ [r]) = ((b.settle reports).start r.key).record r :=
      List.foldl_append
    rw [hlast, state_record, lastReport?_concat, lastRendition?_concat, ih]
    by_cases hkey : r.key = key
    · cases houtcome : r.outcome <;>
        simp [hkey, houtcome, Except.toOption, Except.isOk, Except.toBool]
    · simp [hkey]

/-- Every key that a report is about has a last report. -/
theorem lastReport?_isSome_iff (reports : List JobReport) (key : String) :
    (lastReport? reports key).isSome = true ↔ key ∈ reports.map (·.key) := by
  rw [Option.isSome_iff_ne_none, ne_eq, lastReport?_eq_none_iff, not_not]

theorem lastRendition?_of_not_mem {reports : List JobReport} {key : String}
    (h : key ∉ reports.map (·.key)) : lastRendition? reports key = none := by
  have hnone : (reports.filter fun r => r.key = key) = [] :=
    List.getLast?_eq_none_iff.1 ((lastReport?_eq_none_iff reports key).2 h)
  unfold lastRendition?
  rw [hnone]
  rfl

/-! ## The run -/

/-- The log event of an answered job. -/
theorem event_reportsOf (jobs : List Job) (answers : List (Except String String)) :
    (reportsOf jobs answers).map (·.event) =
      List.zipWith (fun job answer => match answer with
        | .ok _ => Log.translated job.key none
        | .error message => Log.renditionFailed job.key (some message)) jobs answers :=
  List.map_zipWith

/-- The reports have the answers for their outcomes, in order. -/
theorem outcome_reportsOf {jobs : List Job} {answers : List (Except String String)}
    (h : answers.length = jobs.length) : (reportsOf jobs answers).map (·.outcome) = answers := by
  have hzip : (reportsOf jobs answers).map (·.outcome) = (jobs.zip answers).map (·.2) := by
    rw [reportsOf, List.zip, List.map_zipWith, List.map_zipWith]
  rw [hzip]
  exact List.map_snd_zip (by omega)

/-- The successes are counted by their outcomes. -/
theorem successes_eq_countP (reports : List JobReport) :
    successes reports = (reports.map (·.outcome)).countP (·.isOk) := by
  rw [List.countP_map]
  refine List.countP_congr fun r _ => ?_
  cases houtcome : r.outcome <;> simp [houtcome, Except.isOk, Except.toBool]

/-- How jobs run, whatever the translator answers. It is asked once for each job, in their order.
Each job is reported in that order with its own answer, and the successes are counted. A card
without a job keeps its state. For any other card no request is left on its way, its last job says
whether it failed, and its rendition is the one that arrived last, or the earlier one if none did.
-/
theorem runJobs_settles (translate : String → StateM σ (Except String String)) (b : RenditionBook)
    (jobs : List Job) (st : σ) :
    let ran := (b.runJobs (observed translate) jobs).run (st, [])
    let book := ran.1.1
    let reports := ran.1.2
    let asked := ran.2.2
    let answers := asked.map (·.2)
    (ran.1, ran.2.1) = (b.runJobs translate jobs).run st ∧
      asked.map (·.1) = jobs.map (·.text) ∧
      reports = List.zipWith (fun job answer => ⟨job.key, answer⟩) jobs answers ∧
      successes reports = answers.countP (·.isOk) ∧
      reports.map (·.event) = List.zipWith (fun job answer => match answer with
        | .ok _ => Log.translated job.key none
        | .error message => Log.renditionFailed job.key (some message)) jobs answers ∧
      (∀ key, key ∉ jobs.map (·.key) → book.state key = b.state key) ∧
      ∀ key ∈ jobs.map (·.key), ∃ last ∈ lastReport? reports key,
        (book.state key).translating = false ∧
          ((book.state key).failed = true ↔ last.outcome.isOk = false) ∧
          (book.state key).translated? =
            (lastRendition? reports key).or (b.state key).translated? := by
  obtain ⟨answers, hlength, hreports, hobserved⟩ := runJobs_observed translate b jobs st []
  have hbook := runJobs_fst translate b jobs st
  have hkeys := keys_runJobs translate b jobs st
  have hanswers : ((jobs.map (·.text)).zip answers).map (·.2) = answers :=
    List.map_snd_zip (by rw [List.length_map]; omega)
  simp only [hobserved, List.nil_append, hanswers]
  refine ⟨rfl, ?_, hreports, ?_, ?_, ?_, ?_⟩
  · exact List.map_fst_zip (by rw [List.length_map]; omega)
  · rw [hreports, successes_eq_countP, outcome_reportsOf hlength]
  · rw [hreports, event_reportsOf]
  · intro key hkey
    rw [← hkeys] at hkey
    rw [hbook, state_settle, (lastReport?_eq_none_iff _ key).2 hkey, lastRendition?_of_not_mem hkey]
    rfl
  · intro key hkey
    rw [← hkeys, ← lastReport?_isSome_iff, Option.isSome_iff_exists] at hkey
    obtain ⟨last, hlast⟩ := hkey
    refine ⟨last, hlast, ?_⟩
    rw [hbook, state_settle, hlast]
    exact ⟨rfl, by simp, rfl⟩

end EquityBoard.Chat.RenditionBook
