import JsonnetLens.Proofs.Diagnostic.Batch
import JsonnetLens.Proofs.Diagnostic.Report
import JsonnetLens.Proofs.Source.Limits
import JsonnetLens.Proofs.Uri.File
/-!
# When a report answers

Reporting an error text fails when a location in it is beyond the limits, and only then
(`report_answers_iff`).  Without one the answer holds a record for every line that locates something.
With one the sink has already been cleared, and the other lines are lost with it.
-/
namespace JsonnetLens

namespace CompilerError

/-- The frame of a line that is no remark. -/
def frameOf? (line : Text) : Option Frame := if isRemark line then none else Frame.match? line

def staticFrame? (message : Text) : Option Frame := Frame.match? (message.drop staticMark.length)

/-- The message of a static error, given all that follows the file and what follows the range. -/
def detailOf (located rest : Text) : Text :=
  let detail := Text.trimLeft isDetailLead rest
  if detail.isEmpty then Text.trim Text.isBlank located else detail

/-- The record that a frame and the place in its text make, if both are there. -/
def recordAt? (frame : Option Frame) (text : Frame → Text) (record : Frame → Range × Text → Record) :
    Except Fault (Option Record) :=
  match frame with
  | none => .ok none
  | some frame => (placeAt? (text frame)).map (Option.map (record frame))

theorem frameRecord?_eq (message line : Text) :
    frameRecord? message line = recordAt? (frameOf? line) (fun frame => ':' :: frame.rest)
      (fun frame place => ⟨frame.file, place.1, message⟩) := by
  unfold frameRecord? frameOf?
  by_cases hremark : isRemark line = true
  · rw [if_pos hremark, if_pos hremark]
    rfl
  rw [if_neg hremark, if_neg hremark]
  rcases Frame.match? line with _ | frame
  · rfl
  simp only [recordAt?, placeAt?]
  rcases Span.match? (':' :: frame.rest) with fault | _ | ⟨span, rest⟩
  · rfl
  · rfl
  · simp only [bind, Except.bind]
    cases span.toRange <;> rfl

theorem staticRecord?_eq (message : Text) :
    staticRecord? message = recordAt? (staticFrame? message) Frame.rest
      (fun frame place => ⟨frame.file, place.1, detailOf frame.rest place.2⟩) := by
  unfold staticRecord? staticFrame?
  rcases Frame.match? (message.drop staticMark.length) with _ | frame
  · rfl
  simp only [recordAt?, placeAt?]
  rcases Span.match? frame.rest with fault | _ | ⟨span, rest⟩
  · rfl
  · rfl
  · simp only [bind, Except.bind]
    cases span.toRange <;> rfl

section
variable {frame : Option Frame} {text : Frame → Text} {record : Frame → Range × Text → Record}

theorem recordAt?_of_exceeds (h : frame.any (fun frame => (text frame).exceeds) = true) :
    ∃ fault, fault.isLimit = true ∧ recordAt? frame text record = .error fault := by
  obtain ⟨f, rfl, hf⟩ := (Option.any_eq_true _ _).1 h
  obtain ⟨fault, hfault, he⟩ := placeAt?_of_exceeds hf
  refine ⟨fault, hfault, ?_⟩
  rw [recordAt?, he]
  rfl

theorem recordAt?_of_not_exceeds (h : frame.any (fun frame => (text frame).exceeds) = false) :
    ∃ found, recordAt? frame text record = .ok found := by
  rcases frame with _ | f
  · exact ⟨none, rfl⟩
  · obtain ⟨place, hplace⟩ := placeAt?_isOk_iff.2 h
    rw [recordAt?, hplace]
    exact ⟨_, rfl⟩

theorem recordAt?_eq_some {r : Record} (h : recordAt? frame text record = .ok (some r)) :
    ∃ f place, frame = some f ∧ placeAt? (text f) = .ok (some place) ∧ r = record f place := by
  rcases frame with _ | f
  · cases h
  rw [recordAt?] at h
  rcases hplace : placeAt? (text f) with fault | _ | place
  · rw [hplace] at h
    cases h
  · rw [hplace] at h
    cases h
  · rw [hplace] at h
    cases h
    exact ⟨f, place, rfl, hplace, rfl⟩

end

/-! ## Lines beyond the limits -/

def lineExceeds (line : Text) : Bool :=
  (frameOf? line).any fun frame => Text.exceeds (':' :: frame.rest)

def exceeds : CompilerError → Bool
  | .static message => (staticFrame? message).any fun frame => Text.exceeds frame.rest
  | .runtime _ stack => stack.any lineExceeds
  | .unrecognized _ => false

/-- What one line locates, nothing when it cannot be read. -/
def recordOf? (found : Except Fault (Option Record)) : Option Record := found.toOption.join

/-- What the lines of an error locate, in their order, those that cannot be read left out. -/
def records : CompilerError → List Record
  | .static message => (recordOf? (staticRecord? message)).toList
  | .runtime message stack => stack.filterMap fun line => recordOf? (frameRecord? message line)
  | .unrecognized _ => []

theorem frameRecord?_of_exceeds {line : Text} (h : lineExceeds line = true) (message : Text) :
    ∃ fault, fault.isLimit = true ∧ frameRecord? message line = .error fault := by
  rw [frameRecord?_eq]
  exact recordAt?_of_exceeds h

theorem frameRecord?_of_not_exceeds {line : Text} (h : lineExceeds line = false) (message : Text) :
    ∃ found, frameRecord? message line = .ok found := by
  rw [frameRecord?_eq]
  exact recordAt?_of_not_exceeds h

theorem locate_of_exceeds {stack : List Text} (h : stack.any lineExceeds = true) (message : Text) :
    ∃ fault, fault.isLimit = true ∧ locate message stack = .error fault := by
  induction stack with
  | nil => cases h
  | cons line stack ih =>
    by_cases hline : lineExceeds line = true
    · obtain ⟨fault, hfault, he⟩ := frameRecord?_of_exceeds hline message
      exact ⟨fault, hfault, by rw [locate, he]⟩
    · obtain ⟨found, hfound⟩ := frameRecord?_of_not_exceeds (by simpa using hline) message
      obtain ⟨fault, hfault, he⟩ := ih (by simpa [hline] using h)
      refine ⟨fault, hfault, ?_⟩
      rw [locate, hfound]
      cases found with
      | none => exact he
      | some record => simp only [he]; rfl

theorem locate_of_not_exceeds {stack : List Text} (h : stack.any lineExceeds = false) (message : Text) :
    locate message stack = .ok (records (.runtime message stack)) := by
  induction stack with
  | nil => rfl
  | cons line stack ih =>
    simp only [List.any_cons, Bool.or_eq_false_iff] at h
    obtain ⟨found, hfound⟩ := frameRecord?_of_not_exceeds h.1 message
    have hrecord : recordOf? (frameRecord? message line) = found := by
      rw [hfound]
      rfl
    have hrecords : records (.runtime message (line :: stack)) =
        found.toList ++ records (.runtime message stack) := by
      rw [records, List.filterMap_cons, hrecord]
      cases found <;> rfl
    rw [locate, hfound, ih h.2, hrecords]
    cases found <;> rfl

/-- **An error is read as a whole or not at all.** -/
theorem batch_of_exceeds {e : CompilerError} (h : e.exceeds = true) :
    ∃ fault, fault.isLimit = true ∧ e.batch = .error fault := by
  cases e with
  | static message =>
    obtain ⟨fault, hfault, he⟩ : ∃ fault, fault.isLimit = true ∧ staticRecord? message = .error fault := by
      rw [staticRecord?_eq]
      exact recordAt?_of_exceeds h
    refine ⟨fault, hfault, ?_⟩
    rw [batch, staticBatch, he]
    rfl
  | runtime message stack =>
    obtain ⟨fault, hfault, he⟩ := locate_of_exceeds h message
    refine ⟨fault, hfault, ?_⟩
    rw [batch, runtimeBatch_eq, he]
    rfl
  | unrecognized message => cases h

theorem batch_of_not_exceeds {e : CompilerError} (h : e.exceeds = false) :
    e.batch = .ok (Batch.ofRecords e.records) := by
  cases e with
  | static message =>
    obtain ⟨found, hfound⟩ : ∃ found, staticRecord? message = .ok found := by
      rw [staticRecord?_eq]
      exact recordAt?_of_not_exceeds h
    rw [batch, staticBatch, records, hfound]
    cases found <;> rfl
  | runtime message stack =>
    rw [batch, runtimeBatch_eq, locate_of_not_exceeds h]
    rfl
  | unrecognized message => rfl

/-- A batch that is answered holds what the lines locate, and none of them is beyond the limits. -/
theorem batch_eq_ok {e : CompilerError} {batch : Batch} (h : e.batch = .ok batch) :
    e.exceeds = false ∧ batch = Batch.ofRecords e.records := by
  cases hexceeds : e.exceeds with
  | true =>
    obtain ⟨fault, _, hfails⟩ := batch_of_exceeds hexceeds
    rw [hfails] at h
    cases h
  | false => exact ⟨rfl, (Except.ok.inj ((batch_of_not_exceeds hexceeds).symm.trans h)).symm⟩

end CompilerError

namespace Reporter

/-- How a document is named: by a path, or by the URI of an absolute path. -/
def NamesDocument (uri : Text) : Prop :=
  Text.after? "file:".toList uri = none ∨ ∃ path, Path.SingleRoot path ∧ FileUri.ofPath? path = .ok uri

theorem NamesDocument.documentPath {uri : Text} (h : NamesDocument uri) :
    ∃ document, documentPath uri = .ok document := by
  obtain ⟨document, hd⟩ : ∃ document, FileUri.normalPath? uri = .ok document := by
    rcases h with h | ⟨path, hroot, huri⟩
    · exact ⟨normalizePath uri, by rw [FileUri.normalPath?, h]; rfl⟩
    · obtain rfl := Except.ok.inj ((FileUri.ofPath?_of_singleRoot hroot).symm.trans huri)
      exact FileUri.exists_normalPath?_written hroot
  exact ⟨document, by rw [Reporter.documentPath, hd]; rfl⟩

theorem report_of_not_exceeds {uri text : Text} (h : NamesDocument uri)
    (he : (CompilerError.ofText text).exceeds = false) (directory : Option Text)
    (r : Reporter (WatchedCollection Text)) :
    ∃ document r', Reporter.documentPath uri = .ok document ∧
      (report uri text directory).perform r =
        (.ok (Batch.ofRecords (CompilerError.ofText text).records), r') ∧
      r'.shown = (posting? document (baseDirectory document directory) (CompilerError.ofText text)
        (Batch.ofRecords (CompilerError.ofText text).records)).toList := by
  obtain ⟨document, hd⟩ := h.documentPath
  refine ⟨document, _, hd, ?_, shown_afterReport document r _⟩
  rw [perform_report, hd]
  simp only [CompilerError.batch_of_not_exceeds he]

theorem report_of_exceeds {uri text : Text} (h : NamesDocument uri)
    (he : (CompilerError.ofText text).exceeds = true) (directory : Option Text)
    (r : Reporter (WatchedCollection Text)) :
    ∃ fault r', fault.isLimit = true ∧ (report uri text directory).perform r = (.error fault, r') ∧
      r'.shown = [] ∧ r'.publishedFor = [] := by
  obtain ⟨document, hd⟩ := h.documentPath
  obtain ⟨fault, hfault, hbatch⟩ := CompilerError.batch_of_exceeds he
  refine ⟨fault, afterReport document r none, hfault, ?_, shown_afterReport document r none, rfl⟩
  rw [perform_report, hd]
  simp only [hbatch]

/-- **A report answers just when no location in the text is beyond the limits.**  It answers a record
for each line that locates something, and shows those of the document.  Beyond the limits it fails,
and nothing is shown any more. -/
theorem report_answers_iff {uri : Text} (h : NamesDocument uri) (text : Text)
    (directory : Option Text) (r : Reporter (WatchedCollection Text)) :
    let error := CompilerError.ofText text
    ((∃ batch r', (report uri text directory).perform r = (.ok batch, r')) ↔ error.exceeds = false) ∧
    (error.exceeds = false → ∃ document r', Reporter.documentPath uri = .ok document ∧
      (report uri text directory).perform r = (.ok (Batch.ofRecords error.records), r') ∧
      r'.shown = (posting? document (baseDirectory document directory) error
        (Batch.ofRecords error.records)).toList) ∧
    (error.exceeds = true → ∃ fault r', fault.isLimit = true ∧
      (report uri text directory).perform r = (.error fault, r') ∧
      r'.shown = [] ∧ r'.publishedFor = []) := by
  intro error
  refine ⟨⟨?_, fun he => ?_⟩, fun he => report_of_not_exceeds h he directory r,
    fun he => report_of_exceeds h he directory r⟩
  · rintro ⟨batch, r', hok⟩
    cases he : error.exceeds with
    | false => rfl
    | true =>
      obtain ⟨fault, _, _, hfails, _⟩ := report_of_exceeds h he directory r
      rw [hok] at hfails
      cases hfails
  · obtain ⟨_, r', _, hok, _⟩ := report_of_not_exceeds h he directory r
    exact ⟨_, r', hok⟩

/-- A line between two frames locates nothing, and both frames are answered and shown. -/
theorem report_answers_remark :
    let uri := "file:///w/a%20b.jsonnet".toList
    let text := ("jsonnet\nRUNTIME ERROR: boom\n\ta b.jsonnet:1:2\tf\n\tDuring manifestation\n" ++
      "\ta b.jsonnet:0:7\tg\n\t/w/a b.jsonnet:3:4-5\tobject\n").toList
    let first : Record := ⟨"a b.jsonnet".toList, ⟨⟨0, 1⟩, ⟨0, 2⟩⟩, "RUNTIME ERROR: boom".toList⟩
    let second : Record := ⟨"/w/a b.jsonnet".toList, ⟨⟨2, 3⟩, ⟨2, 5⟩⟩, "RUNTIME ERROR: boom".toList⟩
    NamesDocument uri ∧ ∀ r : Reporter (WatchedCollection Text), ∃ r',
      (report uri text none).perform r = (.ok [(first.file, [first]), (second.file, [second])], r') ∧
      r'.shown = [("/w/a b.jsonnet".toList, [first, second])] := by
  intro uri text first second
  have hname : NamesDocument uri :=
    .inr ⟨"/w/a b.jsonnet".toList, ⟨_, rfl, by decide⟩, Attempt.eq_ok_of_toOption (by decide +kernel)⟩
  refine ⟨hname, fun r => ?_⟩
  obtain ⟨document, r', hd, hok, hshown⟩ :=
    (report_answers_iff hname text none r).2.1 (by decide +kernel)
  obtain rfl : "/w/a b.jsonnet".toList = document := by
    have hpath : Reporter.documentPath uri = .ok "/w/a b.jsonnet".toList :=
      Attempt.eq_ok_of_toOption (by decide +kernel)
    exact Except.ok.inj (hpath.symm.trans hd)
  have hbatch : Batch.ofRecords (CompilerError.ofText text).records =
      [(first.file, [first]), (second.file, [second])] := by decide +kernel
  rw [hbatch] at hok hshown
  exact ⟨r', hok, hshown.trans (by decide +kernel)⟩

/-- A column beyond the protocol: the report fails and shows nothing, though another line of the
trace can be located. -/
theorem not_report_answers_column :
    let uri := "/w/a.jsonnet".toList
    let text := ("jsonnet\nRUNTIME ERROR: boom\n\t/w/a.jsonnet:1:99999999999\tf\n" ++
      "\t/w/a.jsonnet:2:3-5\tobject\n").toList
    let fresh : Reporter (WatchedCollection Text) := { sink := {} }
    let record : Record := ⟨uri, ⟨⟨1, 2⟩, ⟨1, 5⟩⟩, "RUNTIME ERROR: boom".toList⟩
    (CompilerError.ofText text).records = [record] ∧
    ((report uri text none).perform fresh).1.toOption = none ∧
    ((report uri text none).perform fresh).2.shown = [] ∧
    ¬ ∀ (uri text : Text) (directory : Option Text) (r : Reporter (WatchedCollection Text)),
      NamesDocument uri → ∃ batch r', (report uri text directory).perform r = (.ok batch, r') := by
  intro uri text fresh record
  have hfails : ((report uri text none).perform fresh).1.toOption = none := by decide +kernel
  refine ⟨by decide +kernel, hfails, by decide +kernel, fun h => ?_⟩
  obtain ⟨batch, r', hok⟩ := h uri text none fresh (.inl (by decide))
  rw [hok] at hfails
  cases hfails

end Reporter
end JsonnetLens
