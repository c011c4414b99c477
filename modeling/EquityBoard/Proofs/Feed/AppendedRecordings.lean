import EquityBoard.Proofs.Feed.Responses
import EquityBoard.Proofs.Text.Words

/-!
# Appended recordings

A recording is read line by line, and no line disturbs another one. So a file that goes on after the
end of a line is read as its two parts are (`ofText_append`), and a line adds to the recording of
what stands around it what it holds, a batch or a bad line or nothing (`AddedBy`). Main statement:
`ofBytes_append`.
-/

namespace EquityBoard

/-! ## Lines of appended texts -/

namespace Text

/-- A line without the carriage return that belongs to its end. -/
def withoutReturn (line : List Char) : List Char :=
  if line.getLast? = some '\r' then line.dropLast else line

/-- The lines of a text are what stands between the line feeds, except that nothing after the last
one is no line. -/
theorem lines_eq {cs last : List Char} {front : List (List Char)}
    (h : cut (· == '\n') cs = front ++ [last]) :
    lines cs = front.map withoutReturn ++ if last.isEmpty then [] else [last] := by
  simp only [lines, h, List.dropLast_concat, List.getLast?_concat, Option.filter_some]
  cases last <;> rfl

/-- White space at the end of a line is trimmed with the line. -/
theorem trimChars_concat {c : Char} (h : isBlank c = true) (cs : List Char) :
    trimChars (cs ++ [c]) = trimChars cs := by
  unfold trimChars trimEnd trimStart
  rw [List.dropWhile_append]
  split
  · rename_i hblank
    rw [List.isEmpty_iff.1 hblank, List.dropWhile_cons_of_pos h]
    rfl
  · rw [List.reverse_append, List.reverse_singleton, List.singleton_append,
      List.dropWhile_cons_of_pos h]

theorem trimChars_withoutReturn (line : List Char) :
    trimChars (withoutReturn line) = trimChars line := by
  unfold withoutReturn
  split
  · rename_i hlast
    obtain ⟨front, rfl⟩ := List.getLast?_eq_some_iff.1 hlast
    rw [List.dropLast_concat, trimChars_concat (by decide)]
  · rfl

end Text

namespace Feed.Recording

/-! ## Recordings of appended texts -/

/-- The batches of two recordings one after the other, and the bad lines of both. -/
def append (r s : Recording) : Recording := ⟨r.batches ++ s.batches, r.badLines + s.badLines⟩

instance : Append Recording := ⟨append⟩

theorem ofLines_append (first later : List RecordedLine) :
    ofLines (first ++ later) = ofLines first ++ ofLines later := by
  unfold ofLines
  rw [List.filterMap_append, List.countP_append]
  rfl

theorem append_empty (r : Recording) : r ++ (⟨[], 0⟩ : Recording) = r := by
  show append r _ = r
  simp [append]

theorem empty_append (r : Recording) : (⟨[], 0⟩ : Recording) ++ r = r := by
  show append _ r = r
  simp [append]

theorem ofChars_withoutReturn (line : List Char) :
    RecordedLine.ofChars (Text.withoutReturn line) = RecordedLine.ofChars line := by
  unfold RecordedLine.ofChars
  rw [Text.trimChars_withoutReturn]

/-- The recording of a text is that of what stands between its line feeds. -/
theorem ofText_eq (text : String) :
    ofText text = ofLines ((Text.cut (· == '\n') text.toList).map RecordedLine.ofChars) := by
  obtain ⟨front, last, hcut⟩ :=
    (List.eq_nil_or_concat _).resolve_left (Text.cut_ne_nil (· == '\n') text.toList)
  rw [List.concat_eq_append] at hcut
  have hfront : (front.map Text.withoutReturn).map RecordedLine.ofChars =
      front.map RecordedLine.ofChars := by
    rw [List.map_map]
    exact List.map_congr_left fun line _ => ofChars_withoutReturn line
  rw [ofText, Text.lines_eq hcut, hcut, List.map_append, hfront, List.map_append, ofLines_append,
    ofLines_append]
  -- an empty piece at the end is no line, and a blank line holds nothing
  cases last <;> rfl

/-- A line feed is a boundary. -/
theorem ofText_newline (before after : String) :
    ofText (before ++ "\n" ++ after) = ofText before ++ ofText after := by
  have htext : (before ++ "\n" ++ after).toList = before.toList ++ '\n' :: after.toList := by
    rw [String.toList_append, String.toList_append, List.append_assoc]
    rfl
  rw [ofText_eq, ofText_eq before, ofText_eq after, htext, Text.cut_append rfl, List.map_append,
    ofLines_append]

/-- Whether a text is empty or ends with the end of a line. -/
def EndsLine (text : String) : Prop := text = "" ∨ text.toList.getLast? = some '\n'

theorem ofText_append {before : String} (h : EndsLine before) (after : String) :
    ofText (before ++ after) = ofText before ++ ofText after := by
  rcases h with rfl | hlast
  · rw [String.empty_append]
    exact (empty_append _).symm
  · obtain ⟨front, hfront⟩ := List.getLast?_eq_some_iff.1 hlast
    obtain rfl : before = String.ofList front ++ "\n" := by
      rw [← String.toList_inj, hfront, String.toList_append, String.toList_ofList]
      rfl
    -- nothing comes after the last line feed, and nothing is recorded there
    have hbefore : ofText (String.ofList front ++ "\n") = ofText (String.ofList front) := by
      rw [← String.append_empty (s := String.ofList front ++ "\n"), ofText_newline]
      exact append_empty _
    rw [ofText_newline, hbefore]

/-! ## Lines -/

/-- A text without a line feed is one line. -/
theorem ofText_of_line {line : String} (h : '\n' ∉ line.toList) :
    ofText line = ofLines [RecordedLine.ofChars line.toList] := by
  have hcut : Text.cut (· == '\n') line.toList = [line.toList] := by
    refine Text.cut_of_not_mem fun c hc => beq_eq_false_iff_ne.2 ?_
    rintro rfl
    exact h hc
  rw [ofText_eq, hcut]
  rfl

/-- A carriage return at the end of a line does not matter. -/
theorem ofText_return {line : String} (h : '\n' ∉ line.toList) :
    ofText (line ++ "\r") = ofText line := by
  have htext : (line ++ "\r").toList = line.toList ++ ['\r'] := String.toList_append
  have hreturn : '\n' ∉ (line ++ "\r").toList := by
    rw [htext, List.mem_append, not_or]
    exact ⟨h, by decide⟩
  rw [ofText_of_line hreturn, ofText_of_line h, htext, RecordedLine.ofChars,
    Text.trimChars_concat (by decide)]
  rfl

/-- What a line adds does not depend on what stands around it. -/
theorem ofText_line {before line eol : String} (h : EndsLine before) (hline : '\n' ∉ line.toList)
    (heol : eol ∈ ["\n", "\r\n"]) (after : String) :
    ofText (before ++ line ++ eol ++ after) = ofText before ++ ofText line ++ ofText after := by
  simp only [List.mem_cons, List.not_mem_nil, or_false] at heol
  rcases heol with rfl | rfl
  · rw [ofText_newline, ofText_append h]
  · have hreturn : before ++ line ++ "\r\n" ++ after =
        before ++ (line ++ "\r") ++ "\n" ++ after := by
      simp only [← String.toList_inj, String.toList_append, List.append_assoc]
      rfl
    rw [hreturn, ofText_newline, ofText_append h, ofText_return hline]

/-- Whether a line is blank or a comment, white space at its ends aside. -/
def IsSkipped (line : String) : Prop :=
  Text.trim line = "" ∨ (Text.trim line).toList.head? = some '#'

instance (line : String) : Decidable (IsSkipped line) := inferInstanceAs (Decidable (_ ∨ _))

/-- What a line adds to a recording: nothing, or else the batch that it writes, or else a bad line. -/
structure AddedBy (line : String) (r : Recording) : Prop where
  skipped : IsSkipped line → r = ⟨[], 0⟩
  batch : ¬ IsSkipped line → ∀ b, Batch.read? (Text.trim line) = some b → r = ⟨[b], 0⟩
  bad : ¬ IsSkipped line → Batch.read? (Text.trim line) = none → r = ⟨[], 1⟩

theorem response?_eq (line : String) :
    response? line.toList = if IsSkipped line then none else some (Text.trim line) := by
  have hskipped : IsSkipped line ↔ ((Text.trimChars line.toList).isEmpty ||
      (Text.trimChars line.toList).head? == some '#') = true := by
    simp [IsSkipped, Text.trim]
  simp only [response?, Text.trim, hskipped]

theorem addedBy_ofText {line : String} (h : '\n' ∉ line.toList) :
    AddedBy line (ofText line) := by
  rw [ofText_of_line h, ofChars_eq, response?_eq]
  refine ⟨fun hskipped => ?_, fun hcontent b hb => ?_, fun hcontent hnone => ?_⟩
  · rw [if_pos hskipped]
    rfl
  · rw [if_neg hcontent]
    simp only [hb]
    rfl
  · rw [if_neg hcontent]
    simp only [hnone]
    rfl

/-! ## Totals -/

/-- The number of batches and bad lines. -/
def total (r : Recording) : Nat := r.batches.length + r.badLines

theorem total_append (r s : Recording) : (r ++ s).total = r.total + s.total := by
  show (r.batches ++ s.batches).length + (r.badLines + s.badLines) = _
  rw [List.length_append, total, total]
  omega

theorem total_ofLine (line : List Char) :
    (ofLines [RecordedLine.ofChars line]).total = ([line].filterMap response?).length := by
  rw [ofChars_eq]
  cases hresponse : response? line with
  | none => rw [List.filterMap_cons_none hresponse]; rfl
  | some body =>
    rw [List.filterMap_cons_some hresponse]
    cases hread : Batch.read? body with
    | none => simp only [hread]; rfl
    | some b => simp only [hread]; rfl

/-- Every response is a batch or a bad line. -/
theorem total_ofText (text : String) : (ofText text).total = (responses text).length := by
  unfold ofText responses
  generalize Text.lines text.toList = lines
  induction lines with
  | nil => rfl
  | cons line lines ih =>
    rw [← List.singleton_append, List.map_append, ofLines_append, total_append, ih,
      List.filterMap_append, List.length_append]
    exact congrArg (· + _) (total_ofLine line)

/-- The points are counted over all batches. -/
theorem pointCount_eq_length (r : Recording) :
    r.pointCount = (r.batches.flatMap (·.points)).length := by
  have hfoldl (batches : List Batch) (n : Nat) :
      batches.foldl (fun total b => total + b.points.length) n =
        n + (batches.flatMap (·.points)).length := by
    induction batches generalizing n with
    | nil => rfl
    | cons b batches ih =>
      rw [List.foldl_cons, ih, List.flatMap_cons, List.length_append, Nat.add_assoc]
  exact (hfoldl r.batches 0).trans (Nat.zero_add _)

/-! ## Files -/

/-- The bytes of a file that holds a text. -/
def file (text : String) : List UInt8 := text.toUTF8.data.toList

theorem file_append (before after : String) :
    file (before ++ after) = file before ++ file after := by
  unfold file
  rw [← ByteArray.toList_data_append]
  exact congrArg (·.data.toList) String.toByteArray_append

theorem ofBytes_file (text : String) : ofBytes (file text) = .ok (ofText text) :=
  ofBytes_toUTF8 text

/-- The recording of a file that goes on after the end of a line is that of its two parts. A line
between the parts adds what it holds, whatever the parts are and however the line ends: nothing if
it is blank or a comment, and else one batch or one bad line. The manifest of the file tells the
totals. -/
theorem ofBytes_append (before after : String) (h : EndsLine before) :
    let r := ofText before
    let s := ofText after
    ofBytes (file before) = .ok r ∧ ofBytes (file after) = .ok s ∧
      ofBytes (file before ++ file after) = .ok (r ++ s) ∧
      (∀ line, '\n' ∉ line.toList → ∃ added, AddedBy line added ∧
        ofBytes (file before ++ file line) = .ok (r ++ added) ∧
        ∀ eol ∈ ["\n", "\r\n"],
          ofBytes (file before ++ file line ++ file eol ++ file after) = .ok (r ++ added ++ s)) ∧
      ∀ path,
        let m := (r ++ s).manifest path (file before ++ file after)
        m.batches = r.batches.length + s.batches.length ∧
          m.points = ((r.batches ++ s.batches).flatMap (·.points)).length ∧
          m.badLines = r.badLines + s.badLines ∧
          m.batches + m.badLines = (responses (before ++ after)).length := by
  intro r s
  refine ⟨ofBytes_file before, ofBytes_file after, ?_, fun line hline => ?_, fun path => ?_⟩
  · rw [← file_append, ofBytes_file, ofText_append h]
  · refine ⟨ofText line, addedBy_ofText hline, ?_, fun eol heol => ?_⟩
    · rw [← file_append, ofBytes_file, ofText_append h]
    · rw [← file_append, ← file_append, ← file_append, ofBytes_file, ofText_line h hline heol]
  · have htotal := total_ofText (before ++ after)
    rw [ofText_append h] at htotal
    exact ⟨List.length_append, pointCount_eq_length (r ++ s), rfl, htotal⟩

/-- A comment and a batch, then a line that is no document and one that is no batch, with different
ends of lines. -/
theorem ofBytes_append_of_badLines :
    let before := "# captured\n  [\x7b\"timestamp\": 1, \"a\": 2\x7d]\r\n"
    let after := "\nnot json\r\n\x7b\"rows\": []\x7d"
    EndsLine before ∧
      ofBytes (file before ++ file after) = .ok (ofText before ++ ofText after) ∧
      (ofText before).batches.map (·.points.length) = [1] ∧ (ofText before).badLines = 0 ∧
      (ofText after).batches.length = 0 ∧ (ofText after).badLines = 2 := by
  intro before after
  have hends : EndsLine before := .inr (by decide +kernel)
  obtain ⟨-, -, happend, -⟩ := ofBytes_append before after hends
  have hbatches : (ofText before).batches.map (·.points.length) = [1] := by decide +kernel
  have hbad : (ofText before).badLines = 0 := by decide +kernel
  have hnone : (ofText after).batches.length = 0 := by decide +kernel
  have hboth : (ofText after).badLines = 2 := by decide +kernel
  exact ⟨hends, happend, hbatches, hbad, hnone, hboth⟩

end Feed.Recording

end EquityBoard
