import JsonnetLens.Proofs.Diagnostic.Batch
import JsonnetLens.Proofs.Diagnostic.Lines
import JsonnetLens.Proofs.Diagnostic.Report
import JsonnetLens.Proofs.Source.Notation
/-!
# Stack traces of a document

A stack trace as the compiler writes it: the message, then lines of which some are frames in the
document, and the others locate nothing or something elsewhere.  Reporting it publishes just the
frames in the document (`report_trace`).
-/
namespace JsonnetLens

open CompilerError (LineBreak IsLine runtimeMark frameRecord? locate)

inductive TraceLine where
  /-- A frame in the document. -/
  | frame (location : RangeText) (description : Text)
  | other (line : Text)

namespace TraceLine

def text (name : Text) : TraceLine → Text
  | frame location description => '\t' :: name ++ ':' :: (location.text ++ '\t' :: description)
  | other line => line

def range? : TraceLine → Option Range
  | frame location _ => location.span.toOption.bind fun span => span.toRange.toOption
  | other _ => none

/-- A frame has a location that a client can be told, another line is not in the document. -/
def Fits (message document : Text) (base : Path) : TraceLine → Prop
  | frame location _ => ∃ span range, location.Denotes span ∧ span.toRange = .ok range
  | other line => frameRecord? message line = .ok none ∨ ∃ record,
    frameRecord? message line = .ok (some record) ∧ Reporter.resolve base record.file ≠ document

end TraceLine

structure StackTrace where
  message : Text
  /-- How the frames name the document. -/
  name : Text
  lines : List (LineBreak × TraceLine)
  ending : Option LineBreak

namespace StackTrace

def headline (t : StackTrace) : Text := runtimeMark ++ t.message

def stack (t : StackTrace) : List (LineBreak × Text) :=
  t.lines.map fun line => (line.1, line.2.text t.name)

def text (t : StackTrace) : Text := CompilerError.joined t.headline t.stack t.ending

/-- What the frames in the document locate. -/
def records (t : StackTrace) : List Record :=
  (t.lines.filterMap fun line => line.2.range?).map fun range => ⟨t.name, range, t.headline⟩

/-- What a compiler may write about a document when it runs in the directory `base`. -/
structure Fits (t : StackTrace) (document : Text) (base : Path) : Prop where
  isName : Frame.isName t.name = true
  notRemark : Text.after? CompilerError.manifestationMark t.name = none
  isLine : ∀ line ∈ t.headline :: t.stack.map Prod.snd, IsLine line
  fits : ∀ line ∈ t.lines, line.2.Fits t.headline document base

end StackTrace

/-! ## Lines -/

theorem isRemark_frame {name : Text} (hname : Frame.isName name = true)
    (hremark : Text.after? CompilerError.manifestationMark name = none) (rest : Text) :
    CompilerError.isRemark ('\t' :: name ++ ':' :: rest) = false := by
  have htab : Text.isBlank '\t' = true := by decide
  have hcolon : Text.isBlank ':' = false := by decide
  have hmark : ':' ∉ CompilerError.manifestationMark := by decide
  have hleft : Text.trimLeft Text.isBlank ('\t' :: name ++ ':' :: rest) = name ++ ':' :: rest := by
    rcases name with _ | ⟨c, name⟩
    · cases hname
    · have hc : Text.isBlank c = false := by
        simp only [Frame.isName, List.head?_cons, Option.any_some, Bool.and_eq_true,
          Bool.not_eq_true'] at hname
        exact hname.1
      simp [Text.trimLeft, htab, hc]
  obtain ⟨rest', hright⟩ := Text.trimRight_append_cons hcolon name rest
  rw [CompilerError.isRemark, Text.trim, hleft, hright, Text.after?_append_cons hmark, hremark]
  simp

theorem frameRecord?_frame {message name description : Text} {location : RangeText} {span : Span}
    {range : Range} (hname : Frame.isName name = true)
    (hremark : Text.after? CompilerError.manifestationMark name = none)
    (hspan : location.Denotes span) (hrange : span.toRange = .ok range) :
    frameRecord? message ((TraceLine.frame location description).text name) =
      .ok (some ⟨name, range, message⟩) := by
  have htab : ∀ c ∈ ['\t'], Text.isBlank c = true := by
    intro c hc
    obtain rfl := List.mem_singleton.1 hc
    decide
  have hframe : Frame.match? ('\t' :: name ++ ':' :: (location.text ++ '\t' :: description)) =
      some ⟨['\t'], name, location.text ++ '\t' :: description⟩ := Frame.match?_append htab hname _
  have hmatch : Span.match? (':' :: (location.text ++ '\t' :: description)) =
      .ok (some (span, '\t' :: description)) := Span.match?_text hspan (.inr rfl) rfl
  rw [TraceLine.text, frameRecord?, isRemark_frame hname hremark, hframe]
  simp only [Bool.false_eq_true, if_false, hmatch]
  simp only [bind, Except.bind, hrange, pure, Except.pure]

/-! ## Traces -/

variable {t : StackTrace} {document : Text} {base : Path}

/-- **Every line of a trace can be read**, and the frames in the document are those of its records. -/
theorem StackTrace.Fits.locate_eq_ok (h : t.Fits document base)
    (hname : Reporter.resolve base t.name = document) :
    ∃ records, locate t.headline (t.stack.map Prod.snd) = .ok records ∧
      (∀ r ∈ records, Reporter.resolve base r.file = document → r.file = t.name) ∧
      records.filter (fun r => Reporter.resolve base r.file = document) = t.records := by
  have hfits := h.fits
  unfold StackTrace.stack StackTrace.records
  generalize t.lines = lines at hfits
  induction lines with
  | nil => exact ⟨[], rfl, fun r hr => (nomatch hr), rfl⟩
  | cons line lines ih =>
    obtain ⟨records, hlocate, hfile, hrecords⟩ := ih fun l hl => hfits l (List.mem_cons_of_mem _ hl)
    have hline := hfits line List.mem_cons_self
    obtain ⟨b, line⟩ := line
    simp only [List.map_cons, locate]
    cases line with
    | frame location description =>
      obtain ⟨span, range, hspan, hrange⟩ := hline
      have hrange? : (TraceLine.frame location description).range? = some range := by
        simp [TraceLine.range?, hspan.2.1, hrange, Except.toOption]
      refine ⟨⟨t.name, range, t.headline⟩ :: records, ?_, ?_, ?_⟩
      · rw [frameRecord?_frame h.isName h.notRemark hspan hrange]
        simp only [hlocate]
        rfl
      · intro r hr
        rcases List.mem_cons.1 hr with rfl | hr
        · exact fun _ => rfl
        · exact hfile r hr
      · simp [hname, hrange?, hrecords]
    | other text =>
      have htext : (TraceLine.other text).text t.name = text := rfl
      rw [htext]
      rcases hline with hnone | ⟨record, hsome, hne⟩
      · exact ⟨records, by rw [hnone]; exact hlocate, hfile, hrecords⟩
      · refine ⟨record :: records, ?_, ?_, ?_⟩
        · rw [hsome]
          simp only [hlocate]
          rfl
        · intro r hr
          rcases List.mem_cons.1 hr with rfl | hr
          · exact fun hr => absurd hr hne
          · exact hfile r hr
        · rw [List.filter_cons_of_neg (by simpa using hne)]
          exact hrecords

theorem ofLines_runtime (message : Text) (stack : List Text) :
    CompilerError.ofLines ((runtimeMark ++ message) :: stack) =
      .runtime (runtimeMark ++ message) stack := by
  have hruntime : runtimeMark = 'R' :: runtimeMark.tail := by decide
  have hstatic : CompilerError.staticMark = 'S' :: CompilerError.staticMark.tail := by decide
  have hnone : Text.after? CompilerError.staticMark (runtimeMark ++ message) = none := by
    rw [hruntime, hstatic]
    simp [Text.after?]
  rw [CompilerError.ofLines, hnone, Text.after?_append]
  rfl

/-- The text of a trace is read as a runtime error with its lines, an empty last one apart. -/
theorem StackTrace.Fits.ofLines_lines (h : t.Fits document base) :
    ∃ stack, CompilerError.ofLines (CompilerError.lines t.text) = .runtime t.headline stack ∧
      locate t.headline stack = locate t.headline (t.stack.map Prod.snd) := by
  rcases CompilerError.lines_joined h.isLine t.ending with hlines | hlines
  · exact ⟨t.stack.map Prod.snd, by rw [StackTrace.text, hlines]; exact ofLines_runtime _ _, rfl⟩
  · rw [← StackTrace.text] at hlines
    rcases hread : CompilerError.lines t.text with _ | ⟨first, stack⟩
    · rw [hread] at hlines
      have hnil : ([] : Text) = t.headline := (List.cons.inj hlines).1
      have hmark : runtimeMark = 'R' :: runtimeMark.tail := by decide
      rw [StackTrace.headline, hmark] at hnil
      cases hnil
    · rw [hread] at hlines
      obtain ⟨rfl, hstack⟩ := List.cons.inj hlines
      refine ⟨stack, ofLines_runtime _ _, ?_⟩
      rw [← hstack]
      exact (CompilerError.locate_append_empty _ _).symm

/-- **A report of a trace publishes the frames in the document**, in their order, and nothing else. -/
theorem report_trace (h : t.Fits document base) (hname : Reporter.resolve base t.name = document)
    {r : Reporter (WatchedCollection Text)}
    {uri first : Text} {directory : Option Text} (huri : Reporter.documentPath uri = .ok document)
    (hbase : Reporter.baseDirectory document directory = base) (hfirst : '\n' ∉ first) :
    ∃ batch r', (Reporter.report uri (first ++ '\n' :: t.text) directory).perform r =
        (.ok batch, r') ∧
      r'.shown = if t.records = [] then [] else [(document, t.records)] := by
  obtain ⟨stack, herror, hstack⟩ := h.ofLines_lines
  obtain ⟨records, hlocate, hfile, hrecords⟩ := h.locate_eq_ok hname
  have hbatch : CompilerError.runtimeBatch t.headline stack = .ok (Batch.ofRecords records) := by
    rw [CompilerError.runtimeBatch_eq, hstack, hlocate]
    rfl
  have hposting : Reporter.documentRecords document base (Batch.ofRecords records) = t.records := by
    rw [Reporter.documentRecords_ofRecords hfile, hrecords]
  rw [Reporter.perform_report, huri, CompilerError.ofText_append hfirst, herror]
  simp only [CompilerError.batch, hbatch, hbase]
  refine ⟨_, _, rfl, ?_⟩
  rw [Reporter.shown_afterReport, Reporter.posting?, hposting]
  by_cases hempty : t.records = []
  · simp [hempty]
  · simp [hempty]

end JsonnetLens
