import EquityBoard.Command
import EquityBoard.Proofs.Chat.FilterChoices
import EquityBoard.Proofs.Series.RangeTexts
import EquityBoard.Proofs.Text.Words
import Mathlib.Data.List.Forall2

/-!
# Lines that are commands

A line is a command if its words are: a verb alone, or a verb and a valid argument (`Means`). What
stands between the words does not matter, and the range of a command is the one that the settings
give the same text; they take all times where the command is refused. Main statement: `parse_means`.
-/

namespace EquityBoard

namespace Text

/-! ## Words in either case -/

/-- Whether a text is a word of capitals, in letters of either case. -/
def Spells (s capitals : String) : Prop := List.Forall₂ IsLetter s.toList capitals.toList

/-- A text has certain capitals exactly if it spells them in letters of either case. -/
theorem map_toUpper_eq_iff {cs capitals : List Char} (h : ∀ c ∈ capitals, c.isLower = false) :
    cs.map Char.toUpper = capitals ↔ List.Forall₂ IsLetter cs capitals := by
  induction capitals generalizing cs with
  | nil => rw [List.forall₂_nil_right_iff, List.map_eq_nil_iff]
  | cons d ds ih =>
    obtain ⟨hd, hds⟩ := List.forall_mem_cons.1 h
    cases cs with
    | nil => exact iff_of_false (List.cons_ne_nil _ _).symm fun h => by cases h
    | cons c cs =>
      rw [List.map_cons, List.cons.injEq, toUpper_eq_iff hd, ih hds, List.forall₂_cons]

/-- Words in lower case are compared as they are in upper case. -/
theorem lower_eq_iff {s : String} (capitals : String) (h : ∀ c ∈ capitals.toList, c.isLower = false) :
    lower s = lower capitals ↔ Spells s capitals := by
  have hupper (cs : List Char) : (cs.map Char.toLower).map Char.toUpper = cs.map Char.toUpper := by
    rw [List.map_map]
    exact List.map_congr_left fun c _ => Char.toUpper_toLower_eq_toUpper c
  have hlower (cs : List Char) : (cs.map Char.toUpper).map Char.toLower = cs.map Char.toLower := by
    rw [List.map_map]
    exact List.map_congr_left fun c _ => Char.toLower_toUpper_eq_toLower c
  have hself : capitals.toList.map Char.toUpper = capitals.toList := by
    refine (List.map_congr_left fun c hc => ?_).trans (List.map_id _)
    exact Char.toUpper_eq_of_not_isLower (by rw [h c hc]; exact Bool.false_ne_true)
  unfold Spells
  rw [lower, lower, String.ofList_inj, ← map_toUpper_eq_iff h]
  constructor
  · intro hsame
    rw [← hupper s.toList, hsame, hupper, hself]
  · intro hsame
    rw [← hlower s.toList, hsame]

/-- A word keeps its ends when it is trimmed. -/
theorem IsToken.trim_eq {s : String} (h : IsToken s.toList) : trim s = s := by
  rw [trim, trimChars_eq_self h.2, String.ofList_toList]

end Text

open Text (HasWords IsToken Spells)

/-! ## Arguments -/

/-- The words for a mode. -/
def Mode.words : Mode → List String
  | .absolute => ["$", "ABS", "ABSOLUTE", "USD"]
  | .percent => ["%", "PCT", "PERCENT"]

/-- Whether a word is one for a mode, in either case. -/
def Mode.Named (m : Mode) (a : String) : Prop := ∃ name ∈ m.words, Spells a name

/-- A word is read as a mode exactly if it is one of the names of the mode. -/
theorem Mode.parse?_eq_some_iff {a : String} (ha : IsToken a.toList) {m : Mode} :
    parse? a = some m ↔ m.Named a := by
  have hcapitals : ∀ name ∈ m.words, ∀ c ∈ name.toList, c.isLower = false := by
    cases m <;> simp [words]
  have hnamed : m.Named a ↔ Text.lower a ∈ m.words.map Text.lower := by
    rw [List.mem_map]
    refine exists_congr fun name => and_congr_right fun hname => ?_
    rw [← Text.lower_eq_iff name (hcapitals name hname), eq_comm]
  rw [hnamed, parse?, ha.trim_eq]
  generalize Text.lower a = l
  have habsolute : Mode.absolute.words.map Text.lower = ["$", "abs", "absolute", "usd"] := rfl
  have hpercent : Mode.percent.words.map Text.lower = ["%", "pct", "percent"] := rfl
  cases m with
  | absolute => rw [habsolute]; split <;> simp_all
  | percent => rw [hpercent]; split <;> simp_all

/-- Whether a word names a range: the window of the settings, all times, or a window of its own. -/
inductive Settings.NamesRange (settings : Settings) (a : String) : Range → Prop
  | window (h : Spells a "WINDOW") : NamesRange settings a settings.window
  | all (h : Range.NamesAll a.toList) : NamesRange settings a .all
  | trailing {window : Int} (h : Range.NamesWindow a.toList window) :
      NamesRange settings a (.trailing window)

/-- A word names a range by the word for the configured window or by a text of the range. -/
theorem Settings.namesRange_iff {settings : Settings} {a : String} (ha : IsToken a.toList)
    {r : Range} : settings.NamesRange a r ↔
      (Spells a "WINDOW" ∧ r = settings.window) ∨ Range.parse? a = some r := by
  have htrim : Text.trimChars a.toList = a.toList := Text.trimChars_eq_self ha.2
  constructor
  · intro h
    cases h with
    | window h => exact .inl ⟨h, rfl⟩
    | all h => exact .inr ((Range.parse?_eq_all_iff a).2 (by rwa [htrim]))
    | trailing h => exact .inr ((Range.parse?_eq_trailing_iff a _).2 (by rwa [htrim]))
  · rintro (⟨h, rfl⟩ | h)
    · exact .window h
    · cases r with
      | all =>
        rw [Range.parse?_eq_all_iff, htrim] at h
        exact .all h
      | trailing window =>
        rw [Range.parse?_eq_trailing_iff, htrim] at h
        exact .trailing h

/-- The word for the window of the settings names no other range. -/
theorem Range.parse?_of_window {a : String} (ha : IsToken a.toList) (h : Spells a "WINDOW") :
    parse? a = none := by
  have hupper : a.toList.map Char.toUpper = "WINDOW".toList :=
    (Text.map_toUpper_eq_iff (by simp)).2 h
  rw [parse?, Text.trimChars_eq_self ha.2, hupper]
  rfl

/-- Whether a word names the models of a filter: all models, or the one that has it as its id. -/
inductive Chat.ModelFilter.Named (a : String) : Chat.ModelFilter → Prop
  | all (h : Spells a "ALL") : Named a .all
  | model (h : ¬ Spells a "ALL") : Named a (.model a)

/-- Every word is read as the filter that it names. -/
theorem Chat.ModelFilter.parse_eq_iff {a : String} (ha : IsToken a.toList)
    {f : Chat.ModelFilter} : parse a = f ↔ Named a f := by
  have hall : asksForAll a = true ↔ Spells a "ALL" := by
    have hne : a.isEmpty = false := by
      rw [← Bool.not_eq_true, String.isEmpty_iff]
      rintro rfl
      exact ha.1 rfl
    rw [asksForAll, ha.trim_eq, hne, Bool.false_or, beq_iff_eq]
    exact Text.lower_eq_iff "ALL" (by simp)
  rw [parse_eq, ha.trim_eq]
  by_cases hspells : Spells a "ALL"
  · rw [if_pos (hall.2 hspells)]
    constructor
    · rintro rfl
      exact .all hspells
    · intro h
      cases h with
      | all => rfl
      | model h => exact absurd hspells h
  · rw [if_neg fun h => hspells (hall.1 h)]
    constructor
    · rintro rfl
      exact .model hspells
    · intro h
      cases h with
      | all h => exact absurd h hspells
      | model => rfl

namespace Command

/-! ## The language -/

/-- What the words of a command mean. -/
inductive Means (settings : Settings) : List String → Command → Prop
  | totals {verb} (h : Spells verb "TOTALS") : Means settings [verb] .totals
  | frame {verb} (h : Spells verb "FRAME") : Means settings [verb] .frame
  | quit {verb} (h : Spells verb "QUIT" ∨ Spells verb "EXIT") : Means settings [verb] .quit
  | range {verb a r} (h : Spells verb "RANGE") (ha : settings.NamesRange a r) :
      Means settings [verb, a] (.range r)
  | mode {verb a m} (h : Spells verb "MODE") (ha : Mode.Named m a) :
      Means settings [verb, a] (.mode m)
  | toggle {verb a} (h : Spells verb "TOGGLE") : Means settings [verb, a] (.toggle a)
  | resize {verb a width} (h : Spells verb "RESIZE") (ha : Decimal.Writes a.toList width)
      (hwidth : width ≤ 0xFFFFFFFF) : Means settings [verb, a] (.resize width)
  | filter {verb a f} (h : Spells verb "FILTER") (ha : Chat.ModelFilter.Named a f) :
      Means settings [verb, a] (.filter f)
  | translate {verb a} (h : Spells verb "TRANSLATE" ∨ Spells verb "ORIGINAL") :
      Means settings [verb, a] (.translate a)

variable {settings : Settings} {a verb : String} {command : Command}

theorem lower_eq_window_iff : Text.lower a = "window" ↔ Spells a "WINDOW" :=
  Text.lower_eq_iff "WINDOW" (by simp)

/-- The range command takes the words that name a range. -/
theorem ofRange_eq_ok_iff (ha : IsToken a.toList) :
    ofRange settings a = .ok command ↔ ∃ r, settings.NamesRange a r ∧ command = .range r := by
  rw [ofRange]
  by_cases hwindow : Text.lower a = "window"
  · have hspells := lower_eq_window_iff.1 hwindow
    have hnames (r : Range) : settings.NamesRange a r ↔ r = settings.window := by
      rw [settings.namesRange_iff ha, Range.parse?_of_window ha hspells]
      simp [hspells]
    rw [if_pos hwindow, Except.ok.injEq, eq_comm]
    simp only [hnames, exists_eq_left]
  · have hnames (r : Range) : settings.NamesRange a r ↔ Range.parse? a = some r := by
      rw [settings.namesRange_iff ha, ← lower_eq_window_iff]
      simp [hwindow]
    rw [if_neg hwindow]
    simp only [hnames]
    cases Range.parse? a <;> simp [eq_comm]

/-- The mode command takes the names of modes. -/
theorem ofMode_eq_ok_iff (ha : IsToken a.toList) :
    ofMode a = .ok command ↔ ∃ m, Mode.Named m a ∧ command = .mode m := by
  simp only [← Mode.parse?_eq_some_iff ha, ofMode]
  cases Mode.parse? a <;> simp [eq_comm]

/-- The resize command takes the numerals of 32 bits. -/
theorem ofWidth_eq_ok_iff : ofWidth a = .ok command ↔
    ∃ width, (Decimal.Writes a.toList width ∧ width ≤ 0xFFFFFFFF) ∧ command = .resize width := by
  have hread (width : Nat) : Decimal.natural? .unsigned32 a = some width ↔
      Decimal.Writes a.toList width ∧ width ≤ 0xFFFFFFFF := by
    rw [Decimal.natural?_eq_some_iff rfl]
    exact and_congr_right fun _ => Int.ofNat_le
  simp only [← hread, ofWidth]
  cases Decimal.natural? .unsigned32 a <;> simp [eq_comm]

/-- What the settings take a word for is what a range command takes it for, and all times where the
command is refused. -/
theorem ofRange_eq (settings : Settings) (ha : IsToken a.toList) :
    ofRange settings a = .ok (.range (settings.range a)) ∨
      ofRange settings a = .error (.unknownRange a) ∧ settings.range a = .all := by
  unfold ofRange Settings.range
  rw [ha.trim_eq]
  by_cases hwindow : Text.lower a = "window"
  · rw [if_pos hwindow, if_pos hwindow]
    exact .inl rfl
  · rw [if_neg hwindow, if_neg hwindow]
    cases Range.parse? a with
    | none => exact .inr ⟨rfl, rfl⟩
    | some r => exact .inl rfl

/-- What is read off a verb and its argument is what the two mean. -/
theorem means_of_ofVerb {argument? : Option String} (ha : ∀ a ∈ argument?, IsToken a.toList)
    (h : ofVerb settings (Text.lower verb) argument? = .ok command) :
    Means settings (verb :: argument?.toList) command := by
  have hspells {capitals : String} (hcapitals : ∀ c ∈ capitals.toList, c.isLower = false)
      (hverb : Text.lower verb = Text.lower capitals) : Spells verb capitals :=
    (Text.lower_eq_iff _ hcapitals).1 hverb
  unfold ofVerb at h
  split at h
  · rename_i hverb
    obtain ⟨r, hr, rfl⟩ := (ofRange_eq_ok_iff (ha _ rfl)).1 h
    exact .range (hspells (by simp) hverb) hr
  · rename_i hverb
    obtain ⟨m, hm, rfl⟩ := (ofMode_eq_ok_iff (ha _ rfl)).1 h
    exact .mode (hspells (by simp) hverb) hm
  · rename_i hverb
    cases h
    exact .toggle (hspells (by simp) hverb)
  · rename_i hverb
    obtain ⟨width, hwidth, rfl⟩ := ofWidth_eq_ok_iff.1 h
    exact .resize (hspells (by simp) hverb) hwidth.1 hwidth.2
  · rename_i hverb
    cases h
    exact .filter (hspells (by simp) hverb) ((Chat.ModelFilter.parse_eq_iff (ha _ rfl)).1 rfl)
  · rename_i hverb
    cases h
    exact .translate (.inl (hspells (by simp) hverb))
  · rename_i hverb
    cases h
    exact .translate (.inr (hspells (by simp) hverb))
  · rename_i hverb
    cases h
    exact .totals (hspells (by simp) hverb)
  · rename_i hverb
    cases h
    exact .frame (hspells (by simp) hverb)
  · rename_i hverb
    cases h
    exact .quit (.inl (hspells (by simp) hverb))
  · rename_i hverb
    cases h
    exact .quit (.inr (hspells (by simp) hverb))
  · cases h

/-- What a verb and its argument mean is read off them. -/
theorem Means.ofVerb_eq {argument? : Option String} (ha : ∀ a ∈ argument?, IsToken a.toList)
    (h : Means settings (verb :: argument?.toList) command) :
    ofVerb settings (Text.lower verb) argument? = .ok command := by
  have hlower {capitals : String} (hspells : Spells verb capitals)
      (hcapitals : ∀ c ∈ capitals.toList, c.isLower = false) :
      Text.lower verb = Text.lower capitals :=
    (Text.lower_eq_iff _ hcapitals).2 hspells
  cases argument? with
  | none =>
    cases h with
    | totals h => rw [hlower h (by simp)]; rfl
    | frame h => rw [hlower h (by simp)]; rfl
    | quit h =>
      rcases h with h | h
      · rw [hlower h (by simp)]; rfl
      · rw [hlower h (by simp)]; rfl
  | some a =>
    have ha : IsToken a.toList := ha a rfl
    cases h with
    | range h hr =>
      rw [hlower h (by simp)]
      exact (ofRange_eq_ok_iff ha).2 ⟨_, hr, rfl⟩
    | mode h hm =>
      rw [hlower h (by simp)]
      exact (ofMode_eq_ok_iff ha).2 ⟨_, hm, rfl⟩
    | toggle h => rw [hlower h (by simp)]; rfl
    | resize h hwrites hwidth =>
      rw [hlower h (by simp)]
      exact ofWidth_eq_ok_iff.2 ⟨_, ⟨hwrites, hwidth⟩, rfl⟩
    | filter h hf =>
      rw [hlower h (by simp), ← (Chat.ModelFilter.parse_eq_iff ha).2 hf]
      rfl
    | translate h =>
      rcases h with h | h
      · rw [hlower h (by simp)]; rfl
      · rw [hlower h (by simp)]; rfl

theorem ofVerb_eq_ok_iff (argument? : Option String) (ha : ∀ a ∈ argument?, IsToken a.toList) :
    ofVerb settings (Text.lower verb) argument? = .ok command ↔
      Means settings (verb :: argument?.toList) command :=
  ⟨means_of_ofVerb ha, Means.ofVerb_eq ha⟩

/-! ## Lines -/

/-- One verb and at most one argument are taken for a command. -/
theorem ofWords_of_le (rest : List String) (h : rest.length ≤ 1) (line : String) :
    ofWords settings line (verb :: rest) = ofVerb settings (Text.lower verb) rest.head? := by
  rw [ofWords]
  cases ofVerb settings (Text.lower verb) rest.head? with
  | error e => rfl
  | ok command => exact if_pos h

/-- A third word is refused, unless the first two are. -/
theorem ofWords_of_lt (rest : List String) (h : 1 < rest.length) (line : String) :
    ofWords settings line (verb :: rest) =
      (ofVerb settings (Text.lower verb) rest.head?).bind fun _ =>
        .error (.tooManyArguments (Text.trim line)) := by
  rw [ofWords]
  cases ofVerb settings (Text.lower verb) rest.head? with
  | error e => rfl
  | ok command => exact if_neg (Nat.not_le.2 h)

/-- Words are accepted exactly for what they mean. -/
theorem ofWords_eq_ok_iff {ws : List String} (hws : ∀ w ∈ ws, IsToken w.toList) (line : String) :
    ofWords settings line ws = .ok command ↔ Means settings ws command := by
  match ws with
  | [] => exact iff_of_false (fun h => by cases h) fun h => by cases h
  | [verb] =>
    rw [ofWords_of_le [] (Nat.zero_le 1)]
    exact ofVerb_eq_ok_iff none fun a ha => by cases ha
  | [verb, a] =>
    have ha : ∀ b ∈ some a, IsToken b.toList := by
      rintro b ⟨⟩
      exact hws a (.tail _ (.head _))
    rw [ofWords_of_le [a] (Nat.le_refl 1)]
    exact ofVerb_eq_ok_iff (some a) ha
  | verb :: a :: b :: rest =>
    -- no command has three words
    rw [ofWords_of_lt (a :: b :: rest) (Nat.succ_lt_succ (Nat.succ_pos _))]
    refine iff_of_false (fun h => ?_) fun h => by cases h
    cases hverb : ofVerb settings (Text.lower verb) (a :: b :: rest).head? with
    | error e => rw [hverb] at h; cases h
    | ok found => rw [hverb] at h; cases h

/-- Lines with the same words are answered alike, except that an error may show the line. -/
theorem ofWords_line (settings : Settings) (line other : String) (ws : List String) :
    ofWords settings other ws = ofWords settings line ws ∨
      ofWords settings other ws = .error (.tooManyArguments (Text.trim other)) ∧
        ofWords settings line ws = .error (.tooManyArguments (Text.trim line)) := by
  cases ws with
  | nil => exact .inl rfl
  | cons verb rest =>
    by_cases hlength : rest.length ≤ 1
    · rw [ofWords_of_le rest hlength, ofWords_of_le rest hlength]
      exact .inl rfl
    · rw [ofWords_of_lt rest (Nat.not_le.1 hlength), ofWords_of_lt rest (Nat.not_le.1 hlength)]
      cases ofVerb settings (Text.lower verb) rest.head? with
      | error e => exact .inl rfl
      | ok command => exact .inr ⟨rfl, rfl⟩

theorem map_toList_words (line : String) :
    ((Text.words line.toList).map String.ofList).map String.toList = Text.words line.toList := by
  rw [List.map_map]
  exact (List.map_congr_left fun w _ => String.toList_ofList).trans (List.map_id _)

/-- The words of a line are the only ones that it has. -/
theorem hasWords_map_iff {line : String} {ws : List String} :
    HasWords line.toList (ws.map String.toList) ↔
      ws = (Text.words line.toList).map String.ofList := by
  rw [Text.hasWords_iff]
  constructor
  · intro h
    rw [h, List.map_map]
    exact ((List.map_congr_left fun w _ => String.ofList_toList).trans (List.map_id _)).symm
  · rintro rfl
    exact (map_toList_words line).symm

/-- A line is accepted exactly for what its words mean, which are the ones that stand between its
white space; nothing else about the line matters, except to the text of an error. A range command
asks for the range that the settings give its argument, or is refused where they fall back to all
times. -/
theorem parse_means (settings : Settings) (line : String) :
    ∃ ws : List String, (∀ vs, HasWords line.toList (vs.map String.toList) ↔ vs = ws) ∧
      (∀ command, parse settings line = .ok command ↔ Means settings ws command) ∧
      (∀ other : String, HasWords other.toList (ws.map String.toList) →
        parse settings other = parse settings line ∨
        parse settings other = .error (.tooManyArguments (Text.trim other)) ∧
          parse settings line = .error (.tooManyArguments (Text.trim line))) ∧
      ∀ verb a, ws = [verb, a] → Spells verb "RANGE" →
        parse settings line = .ok (.range (settings.range a)) ∨
        parse settings line = .error (.unknownRange a) ∧ settings.range a = .all := by
  have hwords : ∀ w ∈ (Text.words line.toList).map String.ofList, IsToken w.toList := by
    intro w hw
    obtain ⟨cs, hcs, rfl⟩ := List.mem_map.1 hw
    rw [String.toList_ofList]
    exact (Text.hasWords_iff.2 rfl).isToken cs hcs
  refine ⟨_, fun vs => hasWords_map_iff, fun command => ofWords_eq_ok_iff hwords line, ?_, ?_⟩
  · intro other hother
    rw [parse, ← hasWords_map_iff.1 hother]
    exact ofWords_line settings line other _
  · intro verb a hws hverb
    have hlower : Text.lower verb = Text.lower "RANGE" :=
      (Text.lower_eq_iff "RANGE" (by simp)).2 hverb
    have ha : IsToken a.toList := hwords a (by rw [hws]; exact .tail _ (.head _))
    have hparse : parse settings line = ofRange settings a := by
      rw [parse, hws, ofWords_of_le [a] (Nat.le_refl 1), hlower]
      rfl
    rw [hparse]
    exact ofRange_eq settings ha

-- a third word, and a second one where the verb takes none
example (settings : Settings) :
    parse settings "\u3000FRAME\t" = .ok .frame ∧
      parse settings " range  72h now\n" = .error (.tooManyArguments "range  72h now") ∧
      parse settings "quit now" = .error (.unrecognized "quit") :=
  ⟨rfl, rfl, rfl⟩

end Command

end EquityBoard
