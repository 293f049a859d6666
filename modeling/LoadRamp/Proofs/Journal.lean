import LoadRamp.Proofs.Decoding
import LoadRamp.Proofs.ReadBack
import LoadRamp.Proofs.Results
import LoadRamp.Proofs.Table
import LoadRamp.Summary.Journal

/-!
# What a journal gives back

A summary is one line of JSON without control characters (`plain_chars`), and it is
read from that line as it was, in whatever order its variables are written
(`reads_chars`).  So lines that are added at the end of a journal add their
summaries to it, and lines of blanks add none (`additions_hold`).

* `gives_back` is what loading finds after any additions, for one stored summary
  and for a text in general.
* `not_gives_back_nothing`: where nothing has been written there is no file, and
  loading it is an error rather than an empty list.
-/

namespace LoadRamp
namespace Summary

open Json (Reads Puts reads_text reads_natural reads_integer)

/-! ## One summary -/

/-- A field whose value reads back is put into any draft. -/
theorem reads_field {α σ : Type} {step : σ → String → Json.Reader σ} {reader : Json.Reader α}
    {name : String} {chars : List Char} {a : α} (h : Reads reader chars a) (put : σ → α → σ)
    (hstep : ∀ draft, step draft name = field reader (put draft)) (draft : σ) :
    Reads (step draft name) chars (put draft a) := by
  intro rest hrest
  rw [hstep, field, h rest hrest]
  rfl

theorem reads_stage {stage : StageSummary} (hduration : stage.durationMs < wordLimit)
    (htarget : stage.target < wordLimit) : Reads readStage (stageChars stage) stage := by
  have hputs : Puts readStageField ⟨0, 0⟩ [("duration_ms", Json.Write.natural stage.durationMs),
      ("target", Json.Write.natural stage.target)] stage :=
    .put (reads_field (reads_natural "u64" hduration) (fun d v => { d with durationMs := v })
      (fun _ => rfl) _) <|
    .put (reads_field (reads_natural "usize" htarget) (fun d v => { d with target := v })
      (fun _ => rfl) _) <|
    .done stage
  exact Json.reads_record "StageSummary" hputs rfl (by decide)

theorem opens_stageChars (stage : StageSummary) : Json.Opens (stageChars stage) :=
  ⟨'\x7b', _, rfl, by decide, by decide, by decide⟩

/-- A summary as it is written: a table has no order of its own, and its entries are written in
whatever order they are met. -/
structure WrittenAs (written s : Summary) : Prop where
  env : written.env.Perm s.env
  rest : { written with env := s.env } = s

/-- A summary is read from what is written of it. -/
theorem reads_chars {s written : Summary} (hs : s.Sound) (h : written.WrittenAs s) :
    Reads reader written.chars s := by
  obtain ⟨henv, hrest⟩ := h
  have hwritten : written = { s with env := written.env } := by rw [← hrest]
  have hstages : Reads (Json.list readStage) (Json.Write.array (s.stages.map stageChars))
      s.stages := Json.reads_list fun stage hstage =>
    ⟨opens_stageChars stage,
      reads_stage (hs.stages stage hstage).1 (hs.stages stage hstage).2⟩
  have hvariables := Json.reads_dictionary written.env
  rw [Ordered.ofList_eq_of_perm Ordered.strict_textBefore hs.env henv] at hvariables
  have hputs : Puts readField (make "" "" 0 [] 0 "") { s with env := written.env }.members s :=
    .put (reads_field (reads_text _) (fun d v => { d with runId := v }) (fun _ => rfl) _) <|
    .put (reads_field (reads_text _) (fun d v => { d with scenarioName := v }) (fun _ => rfl) _) <|
    .put (reads_field (reads_integer hs.startedAt.1 hs.startedAt.2)
      (fun d v => { d with startedAt := v }) (fun _ => rfl) _) <|
    .put (reads_field (reads_natural "u64" hs.runDuration) (fun d v => { d with runDuration := v })
      (fun _ => rfl) _) <|
    .put (reads_field hstages (fun d v => { d with stages := v }) (fun _ => rfl) _) <|
    .put (reads_field (reads_natural "usize" hs.startTarget)
      (fun d v => { d with startTarget := v }) (fun _ => rfl) _) <|
    .put (reads_field (reads_natural "usize" hs.peakUsers) (fun d v => { d with peakUsers := v })
      (fun _ => rfl) _) <|
    .put (reads_field (reads_natural "u64" hs.checksPassed)
      (fun d v => { d with checksPassed := v }) (fun _ => rfl) _) <|
    .put (reads_field (reads_natural "u64" hs.checksFailed)
      (fun d v => { d with checksFailed := v }) (fun _ => rfl) _) <|
    .put (reads_field (reads_natural "u64" hs.iterations) (fun d v => { d with iterations := v })
      (fun _ => rfl) _) <|
    .put (reads_field hvariables (fun d v => { d with env := v }) (fun _ => rfl) _) <|
    .put (reads_field (reads_text _) (fun d v => { d with version := v }) (fun _ => rfl) _) <|
    .done s
  rw [hwritten]
  exact Json.reads_record "RunSummary" hputs rfl (by decide)


theorem plain_chars (s : Summary) : Json.Plain s.chars := by
  have hstages : Json.Plain (Json.Write.array (s.stages.map stageChars)) := by
    refine Json.plain_array fun cs hcs => ?_
    obtain ⟨stage, -, rfl⟩ := List.mem_map.1 hcs
    refine Json.plain_object ?_
    simp [Json.plain_natural]
  have hvariables (f : String × String → String × List Char)
      (hvalue : ∀ entry, (f entry).2 = Json.Write.text entry.2) :
      Json.Plain (Json.Write.object (s.env.map f)) := by
    refine Json.plain_object fun m hm => ?_
    obtain ⟨entry, -, rfl⟩ := List.mem_map.1 hm
    rw [hvalue]
    exact Json.plain_text entry.2
  refine Json.plain_object ?_
  simp only [members, List.forall_mem_cons, List.not_mem_nil, false_implies, implies_true,
    and_true, Json.plain_text, Json.plain_integer, Json.plain_natural, hstages, true_and]
  exact hvariables _ fun _ => rfl

theorem toList_store (s : Summary) : s.store.toList = s.chars := String.toList_ofList

/-- The text of a summary is no text of blanks. -/
theorem allBlank_store (s : Summary) : Text.allBlank s.store.toList = false := by
  rw [toList_store]
  rfl

/-- What is written of a summary reads back as that summary. -/
theorem ofText_store {s written : Summary} (hs : s.Sound) (h : written.WrittenAs s) :
    ofText written.store = .ok s := by
  rw [ofText, Json.Input.ofText, toList_store]
  exact Json.whole_of_reads (reads_chars hs h)

theorem load_store {s written : Summary} (hs : s.Sound) (h : written.WrittenAs s) :
    load (Text.Utf8.encode written.store) = .ok s := by
  rw [load, Json.Input.ofBytes, Text.Utf8.pieces_encode, toList_store]
  exact Json.whole_of_reads (reads_chars hs h)

end Summary

namespace Journal

open Text.Utf8 (encode)

/-- Bytes that end where a line ends. -/
def Ended (content : List UInt8) : Prop := content = [] ∨ ∃ front, content = front ++ [10]

theorem ended_withLine (content : List UInt8) (line : String) : Ended (withLine content line) :=
  .inr ⟨content ++ encode line, rfl⟩

theorem lines_append {front : List UInt8} (h : Ended front) (back : List UInt8) :
    lines (front ++ back) = lines front ++ lines back := by
  rcases h with rfl | ⟨front, rfl⟩
  · rw [List.nil_append, lines, lines, Text.linesOf_nil, List.nil_append]
  · rw [List.append_assoc]
    exact Text.linesOf_append 10 13 front back

/-- What a file holds is what its lines hold that are not blank. -/
theorem read_eq_ok {content : List UInt8} {runs : List Summary} :
    read content = .ok runs ↔
      ∃ entries, List.Forall₂ (fun line entry => readLine line = .ok entry) (lines content) entries ∧
        entries.filterMap id = runs := by
  simp only [read, bind_eq_ok, mapM_eq_ok, Except.ok.injEq]

/-- Whole lines after one another are read after one another. -/
theorem read_append {front back : List UInt8} (h : Ended front) {earlier later : List Summary}
    (hfront : read front = .ok earlier) (hback : read back = .ok later) :
    read (front ++ back) = .ok (earlier ++ later) := by
  obtain ⟨first, hfirst, rfl⟩ := read_eq_ok.1 hfront
  obtain ⟨second, hsecond, rfl⟩ := read_eq_ok.1 hback
  refine read_eq_ok.2 ⟨first ++ second, ?_, List.filterMap_append⟩
  rw [lines_append h]
  exact List.rel_append hfirst hsecond

/-- The lines of a text that are not blank. -/
def documents (text : String) : List String :=
  ((Text.linesOf '\n' '\r' text.toList).map String.ofList).filter fun line =>
    !Text.allBlank line.toList

theorem lines_encode (text : String) :
    lines (encode text) =
      ((Text.linesOf '\n' '\r' text.toList).map String.ofList).map encode := by
  rw [lines, Text.Utf8.linesOf_encode, List.map_map]
  refine List.map_congr_left fun line _ => ?_
  rw [Function.comp_apply, Text.Utf8.encode_eq, String.toList_ofList]

theorem readLine_blank {line : String} (h : Text.allBlank line.toList = true) :
    readLine (encode line) = .ok none := by
  rw [readLine, Text.Utf8.strict?_encode]
  exact if_pos h

theorem readLine_document {line : String} (h : Text.allBlank line.toList = false)
    {entry : Option Summary} :
    readLine (encode line) = .ok entry ↔ ∃ s, Summary.ofText line = .ok s ∧ entry = some s := by
  have hsome : ¬ Text.allBlank line.toList = true := by simp [h]
  rw [readLine, Text.Utf8.strict?_encode]
  simp only [if_neg hsome]
  cases Summary.ofText line <;> simp [eq_comm]

/-- The documents of a text are those of some summaries, one each and in order. -/
def Documented (text : String) (runs : List Summary) : Prop :=
  List.Forall₂ (fun document s => Summary.ofText document = .ok s) (documents text) runs

/-- A text is read when every line of it that is not blank holds a summary. -/
theorem read_encode {text : String} {runs : List Summary} :
    read (encode text) = .ok runs ↔ Documented text runs := by
  rw [read_eq_ok, lines_encode, Documented, documents]
  generalize (Text.linesOf '\n' '\r' text.toList).map String.ofList = texts
  induction texts generalizing runs with
  | nil => simp [eq_comm]
  | cons line texts ih =>
    rw [List.map_cons, List.filter_cons]
    simp only [List.forall₂_cons_left_iff]
    cases hblank : Text.allBlank line.toList with
    | true =>
      refine Iff.trans ?_ ih
      constructor
      · rintro ⟨_, ⟨entry, entries, hentry, hentries, rfl⟩, rfl⟩
        rw [readLine_blank hblank] at hentry
        cases hentry
        exact ⟨entries, hentries, rfl⟩
      · rintro ⟨entries, hentries, rfl⟩
        exact ⟨none :: entries, ⟨none, entries, readLine_blank hblank, hentries, rfl⟩, rfl⟩
    | false =>
      rw [Bool.not_false, if_pos rfl, List.forall₂_cons_left_iff]
      simp only [readLine_document hblank, ← ih]
      constructor
      · rintro ⟨_, ⟨_, entries, ⟨s, hs, rfl⟩, hentries, rfl⟩, rfl⟩
        exact ⟨s, _, hs, ⟨entries, hentries, rfl⟩, rfl⟩
      · rintro ⟨s, _, hs, ⟨entries, hentries, rfl⟩, rfl⟩
        exact ⟨some s :: entries, ⟨_, entries, ⟨s, hs, rfl⟩, hentries, rfl⟩, rfl⟩

/-! ## Additions -/

theorem encode_line (line : String) : withLine [] line = encode (line ++ "\n") := by
  have hmark : String.utf8EncodeChar '\n' = [10] := by decide
  rw [withLine, Text.Utf8.encode_eq, Text.Utf8.encode_eq, String.toList_append,
    List.flatMap_append]
  simp [hmark]

/-- A line of its own is a document unless it is blank. -/
theorem documents_line {line : String} (hplain : Json.Plain line.toList)
    (h : Text.allBlank line.toList = false) : documents (line ++ "\n") = [line] := by
  have hmark : '\n' ∉ line.toList := fun hmem => absurd (hplain _ hmem) (by decide)
  have hlast : line.toList.getLast? ≠ some '\r' := fun hlast =>
    absurd (hplain _ (List.mem_of_getLast? hlast)) (by decide)
  rw [documents, String.toList_append]
  rw [show "\n".toList = ['\n'] from rfl, Text.linesOf_singleton _ _ hmark, Text.chopLine,
    if_neg hlast]
  simp [h]

/-- A text of blanks holds no document. -/
theorem documents_blanks {text : String} (h : Text.allBlank text.toList = true) :
    documents (text ++ "\n") = [] := by
  refine List.filter_eq_nil_iff.2 fun line hline => ?_
  obtain ⟨cs, hcs, rfl⟩ := List.mem_map.1 hline
  rw [String.toList_ofList, Bool.not_eq_true, Bool.not_eq_false', Text.allBlank, List.all_eq_true]
  intro c hc
  have hmem := Text.mem_of_mem_linesOf _ _ hcs hc
  rw [String.toList_append, List.mem_append] at hmem
  rcases hmem with hmem | hmem
  · exact List.all_eq_true.1 h c hmem
  · rw [show "\n".toList = ['\n'] from rfl, List.mem_singleton] at hmem
    exact hmem ▸ rfl

/-- Something that is written at the end of a journal: a summary, or a text of blanks. -/
inductive Addition
  | run (written : Summary)
  | blanks (text : String)

def Addition.add (place : Place) : Addition → Except FileError Place
  | .run written => append place written
  | .blanks text => addLine place text

/-- The summaries that come with some additions. -/
inductive Brings : List Addition → List Summary → Prop
  | nothing : Brings [] []
  | run {written s : Summary} {more : List Addition} {runs : List Summary} (hs : s.Sound)
      (hwritten : written.WrittenAs s) (rest : Brings more runs) :
      Brings (.run written :: more) (s :: runs)
  | blanks {text : String} {more : List Addition} {runs : List Summary}
      (hblank : Text.allBlank text.toList = true) (rest : Brings more runs) :
      Brings (.blanks text :: more) runs

/-- What a place for a journal holds: nothing yet, or the summaries of a file that ends where a
line ends. -/
inductive Holds : Place → List Summary → Prop
  | vacant : Holds .vacant []
  | file {content : List UInt8} {runs : List Summary} (hended : Ended content)
      (hread : read content = .ok runs) : Holds (.file content) runs

/-- A line whose documents are read is kept after what the place holds. -/
theorem addLine_holds {place : Place} {earlier later : List Summary} (h : Holds place earlier)
    {line : String} (hline : Documented (line ++ "\n") later) :
    ∃ content, addLine place line = .ok (.file content) ∧
      Holds (.file content) (earlier ++ later) := by
  have hlater : read (withLine [] line) = .ok later := by rwa [encode_line, read_encode]
  cases h with
  | vacant => exact ⟨_, rfl, .file (ended_withLine [] line) hlater⟩
  | @file content earlier hended hread =>
    refine ⟨_, rfl, .file (ended_withLine content line) ?_⟩
    have hall := read_append hended hread hlater
    rwa [withLine, List.nil_append, ← List.append_assoc] at hall

/-- Additions one after the other are kept after what the place holds, and there is a file as soon
as there is one of them. -/
theorem additions_hold {place : Place} {earlier : List Summary} (h : Holds place earlier)
    {additions : List Addition} {runs : List Summary} (hruns : Brings additions runs) :
    ∃ after, additions.foldlM Addition.add place = .ok after ∧ Holds after (earlier ++ runs) ∧
      (after = .vacant → place = .vacant ∧ additions = []) := by
  -- After the first addition there is a file, so the rest starts from a place that is not vacant.
  induction hruns generalizing place earlier with
  | nothing => exact ⟨place, rfl, by rwa [List.append_nil], fun hvacant => ⟨hvacant, rfl⟩⟩
  | @run written s more runs hs hwritten _ ih =>
    have hline : Documented (written.store ++ "\n") [s] := by
      rw [Documented, documents_line (Summary.toList_store written ▸ Summary.plain_chars written)
        (Summary.allBlank_store written)]
      exact .cons (Summary.ofText_store hs hwritten) .nil
    obtain ⟨content, hadd, hholds⟩ := addLine_holds h hline
    obtain ⟨after, hmore, hafter, hvacant⟩ := ih hholds
    refine ⟨after, ?_, by rwa [List.append_assoc] at hafter, fun hnone => nomatch (hvacant hnone).1⟩
    rw [List.foldlM_cons, Addition.add, append, hadd]
    exact hmore
  | @blanks text more runs hblank _ ih =>
    have hline : Documented (text ++ "\n") [] := by
      rw [Documented, documents_blanks hblank]
      exact .nil
    obtain ⟨content, hadd, hholds⟩ := addLine_holds h hline
    obtain ⟨after, hmore, hafter, hvacant⟩ := ih hholds
    refine ⟨after, ?_, by rwa [List.append_nil] at hafter, fun hnone => nomatch (hvacant hnone).1⟩
    rw [List.foldlM_cons, Addition.add, hadd]
    exact hmore

/-- A journal is spoilt by one document that holds no summary, and by nothing else. -/
theorem read_encode_error {text : String} :
    (∃ error, read (encode text) = .error error) ↔
      ∃ document ∈ documents text, ∀ s, Summary.ofText document ≠ .ok s := by
  have hread : (∃ error, read (encode text) = .error error) ↔
      ¬ ∃ runs, read (encode text) = .ok runs := by
    cases read (encode text) <;> simp
  rw [hread]
  simp only [read_encode, Documented, exists_forall₂, not_forall, not_exists, exists_prop, ne_eq]

/-- A journal gives back what was written.  Where there is a file that ends where a line ends, or
nothing yet, summaries can be appended, and they are loaded after those that were there before, as
they were, whatever lines of blanks stand between them; only where nothing has been written at all
there is no file to load.  A summary that is stored alone is loaded as it was.  A text in general
holds a summary for each line that is not blank, and nothing is loaded if one of these lines is no
summary. -/
theorem gives_back :
    (∀ (place : Place) (earlier : List Summary) (additions : List Addition) (runs : List Summary),
      Holds place earlier → Brings additions runs →
        ∃ after, additions.foldlM Addition.add place = .ok after ∧
          (¬ (place = .vacant ∧ additions = []) → load after = .ok (earlier ++ runs)) ∧
          (place = .vacant ∧ additions = [] → load after = .error (.file .notFound))) ∧
    (∀ s written : Summary, s.Sound → written.WrittenAs s →
      Summary.load (encode written.store) = .ok s) ∧
    (∀ (text : String) (runs : List Summary), load (.file (encode text)) = .ok runs ↔
      List.Forall₂ (fun document s => Summary.ofText document = .ok s) (documents text) runs) ∧
    (∀ text : String, (∃ error, load (.file (encode text)) = .error error) ↔
      ∃ document ∈ documents text, ∀ s, Summary.ofText document ≠ .ok s) := by
  refine ⟨fun place earlier additions runs hplace hruns => ?_,
    fun s written hs hwritten => Summary.load_store hs hwritten,
    fun text runs => read_encode, fun text => read_encode_error⟩
  obtain ⟨after, hadd, hholds, hvacant⟩ := additions_hold hplace hruns
  refine ⟨after, hadd, fun hfile => ?_, ?_⟩
  · generalize earlier ++ runs = all at hholds
    cases hholds with
    | vacant => exact absurd (hvacant rfl) hfile
    | file _ hread => exact hread
  · rintro ⟨rfl, rfl⟩
    cases hadd
    rfl

/-- Two summaries in a new file, with a text of blanks between them that holds line ends: words
at their limits, and texts with everything that is escaped, in an order of their own. -/
theorem gives_back_limits :
    let s : Summary := { Summary.make "a\"b\\\n\r\t\x00" "é世\x7f" (-9223372036854775808)
      [⟨18446744073709551615, 0⟩, ⟨1, 18446744073709551615⟩] 7 "0.1.0" with
      env := [("", "\x08\x0c\x1f"), ("A", "\"\\"), ("é", "")] }
    let written := { s with env := s.env.reverse }
    let t := { s with startedAt := 9223372036854775807, stages := [], env := [] }
    let additions := [Addition.run written, .blanks " \t\r\n\u3000", .run t]
    (∃ after, additions.foldlM Addition.add .vacant = .ok after ∧ load after = .ok [s, t]) ∧
      Summary.load (encode written.store) = .ok s := by
  intro s written t additions
  have hs : s.Sound := by constructor <;> decide
  have ht : t.Sound := by constructor <;> decide
  have hwritten : written.WrittenAs s := ⟨List.reverse_perm s.env, rfl⟩
  have hruns : Brings additions [s, t] :=
    .run hs hwritten <| .blanks (by decide) <| .run ht ⟨.refl _, rfl⟩ .nothing
  obtain ⟨after, hadd, hload, -⟩ := gives_back.1 .vacant [] additions [s, t] .vacant hruns
  exact ⟨⟨after, hadd, hload fun hnone => nomatch hnone.2⟩, gives_back.2.1 s written hs hwritten⟩

/-- Where there is no file and nothing is added, there is still nothing to load. -/
theorem not_gives_back_nothing :
    ¬ ∀ (place : Place) (earlier : List Summary) (additions : List Addition) (runs : List Summary),
      Holds place earlier → Brings additions runs →
        ∃ after, additions.foldlM Addition.add place = .ok after ∧
          load after = .ok (earlier ++ runs) := by
  intro h
  obtain ⟨after, hadd, hload⟩ := h .vacant [] [] [] .vacant .nothing
  cases hadd
  cases hload

end Journal
end LoadRamp
