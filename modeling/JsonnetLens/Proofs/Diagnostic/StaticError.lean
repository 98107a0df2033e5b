import JsonnetLens.Proofs.Diagnostic.Lines
import JsonnetLens.Proofs.Diagnostic.Report
import JsonnetLens.Proofs.Source.Limits
import JsonnetLens.Proofs.Source.Notation
/-!
# Static errors

A static error as the compiler writes it: the file, where in it, and what is wrong.  Reporting it
publishes just this one record, whole, under the path of the file (`report_static`), and clearing the
document it was reported for takes it away, wherever the file is.
-/
namespace JsonnetLens

open CompilerError (staticMark isDetailLead)

/-- What stands between a location and what is wrong there. -/
inductive Separator where
  | blank
  | colon
  deriving DecidableEq, Repr

def Separator.text : Separator → Text
  | blank => [' ']
  | colon => [':', ' ']

structure StaticError where
  file : Text
  location : RangeText
  separator : Separator
  detail : Text

namespace StaticError

/-- What follows the file. -/
def located (e : StaticError) : Text := e.location.text ++ (e.separator.text ++ e.detail)

def text (e : StaticError) : Text := staticMark ++ (e.file ++ ':' :: e.located)

/-- What the error says of its file, when the location is this span. -/
def record (e : StaticError) (span : Span) : Record := ⟨e.file, span.range, e.detail⟩

/-- What a compiler may write: a file that can be told from its location, a span that a client can be
told, and a detail that can be told from what separates it. -/
structure Fits (e : StaticError) (span : Span) : Prop where
  isName : Frame.isName e.file = true
  file : '\n' ∉ e.file
  denotes : e.location.Denotes span
  fits : span.range.fits = true
  isDetail : e.detail.head?.any (!isDetailLead ·) = true
  detail : '\n' ∉ e.detail

end StaticError

theorem RangeText.newline_not_mem_text {r : RangeText} (hr : r.isWritten = true) : '\n' ∉ r.text := by
  have hnumber : ∀ t : Text, isNumber t = true → '\n' ∉ t := by
    intro t ht hmem
    exact absurd (List.all_eq_true.1 (all_isDigit_of_isNumber ht) _ hmem) (by decide)
  simp only [isWritten, Bool.and_eq_true] at hr
  have hl := hnumber _ hr.1.1.1
  have hc := hnumber _ hr.1.1.2
  have hl' := hnumber _ hr.1.2
  have hc' := hnumber _ hr.2
  cases r <;> simp_all [text, fields]

namespace StaticError

variable {e : StaticError} {span : Span}

theorem Fits.newline_not_mem (h : e.Fits span) : '\n' ∉ e.text := by
  have hmark : '\n' ∉ staticMark := by decide
  have hlocation := RangeText.newline_not_mem_text h.denotes.1
  have hseparator : '\n' ∉ e.separator.text := by
    cases e.separator <;> decide
  simp [text, located, hmark, h.file, hlocation, hseparator, h.detail]

/-- What separates the detail from the location is cut off, and no more. -/
theorem trimLeft_eq (hdetail : e.detail.head?.any (!isDetailLead ·) = true) :
    Text.trimLeft isDetailLead (e.separator.text ++ e.detail) = e.detail := by
  have hall : e.separator.text.all isDetailLead = true := by
    cases e.separator <;> rfl
  have hhead : e.detail.head?.all (!isDetailLead ·) = true := by
    cases hd : e.detail.head? with
    | none => rfl
    | some c => rwa [hd] at hdetail
  exact (Text.takeWhile_append_of_all (List.all_eq_true.1 hall) hhead).2

/-- **A static error is read back**: its file, its range and its detail, line breaks included. -/
theorem staticBatch_text (hname : Frame.isName e.file = true) (hspan : e.location.Denotes span)
    (hfits : span.range.fits = true) (hdetail : e.detail.head?.any (!isDetailLead ·) = true) :
    CompilerError.staticBatch e.text = .ok [(e.file, [e.record span])] := by
  have hdrop : e.text.drop staticMark.length = e.file ++ ':' :: e.located := List.drop_left
  have hblank : ∀ c ∈ ([] : Text), Text.isBlank c = true := nofun
  have hframe : Frame.match? (e.file ++ ':' :: e.located) = some ⟨[], e.file, e.located⟩ :=
    Frame.match?_append hblank hname _
  have hstop : RangeText.isStop (e.separator.text ++ e.detail) = true := by
    cases e.separator <;> rfl
  have hmatch : Span.match? e.located = .ok (some (span, e.separator.text ++ e.detail)) :=
    Span.match?_text hspan (.inl rfl) hstop
  have hrange : span.toRange = .ok span.range := Span.toRange_of_fits hspan.2.2 hfits
  have hne : e.detail ≠ [] := by
    intro hnil
    rw [hnil] at hdetail
    cases hdetail
  have hempty : e.detail.isEmpty = false := by simpa using hne
  have hrecord : CompilerError.staticRecord? e.text = .ok (some (e.record span)) := by
    rw [CompilerError.staticRecord?, hdrop, hframe]
    simp only [hmatch, hrange, bind, Except.bind, pure, Except.pure, trimLeft_eq hdetail, hempty,
      Bool.false_eq_true, if_false]
    rfl
  rw [CompilerError.staticBatch, hrecord]
  rfl

theorem Fits.ofText_append (h : e.Fits span) {first : Text} (hfirst : '\n' ∉ first) :
    CompilerError.ofText (first ++ '\n' :: e.text) = .static e.text := by
  have hmark : (Text.after? staticMark e.text).isSome = true := by
    rw [text, Text.after?_append]
    rfl
  have hne : e.text ≠ [] := by
    intro hnil
    have hempty : (Text.after? staticMark []).isSome = false := by decide
    rw [hnil, hempty] at hmark
    cases hmark
  rw [CompilerError.ofText_append hfirst, CompilerError.lines_of_not_mem h.newline_not_mem, if_neg hne,
    CompilerError.ofLines, if_pos hmark]

end StaticError

/-- **A static error is published whole**, whatever was published before: the answer and what is
shown is its one record, under the path of its file as seen from the directory of the compiler.
Clearing the document leaves nothing, even where the file is another one. -/
theorem report_static {e : StaticError} {span : Span} (h : e.Fits span) {uri document first : Text}
    (huri : Reporter.documentPath uri = .ok document) (hfirst : '\n' ∉ first) (directory : Option Text)
    (r : Reporter (WatchedCollection Text)) :
    ∃ r' r'', (Reporter.report uri (first ++ '\n' :: e.text) directory).perform r =
        (.ok [(e.file, [e.record span])], r') ∧
      r'.shown =
        [(Reporter.resolve (Reporter.baseDirectory document directory) e.file, [e.record span])] ∧
      (Reporter.clear uri).perform r' = (.ok (), r'') ∧ r''.shown = [] := by
  have hreport : (Reporter.report uri (first ++ '\n' :: e.text) directory).perform r =
      (.ok [(e.file, [e.record span])], Reporter.afterReport document r
        (some (Reporter.resolve (Reporter.baseDirectory document directory) e.file, [e.record span]))) := by
    rw [Reporter.perform_report, huri, h.ofText_append hfirst]
    simp only [CompilerError.batch, StaticError.staticBatch_text h.isName h.denotes h.fits h.isDetail]
    rfl
  obtain ⟨r'', hclear⟩ : ∃ r'', (Reporter.clear uri).perform (Reporter.afterReport document r
      (some (Reporter.resolve (Reporter.baseDirectory document directory) e.file, [e.record span]))) =
        (.ok (), r'') := ⟨_, by rw [Reporter.perform_clear, huri]⟩
  refine ⟨_, r'', hreport, Reporter.shown_afterReport document r _, hclear, ?_⟩
  rcases Reporter.clear_after_report hreport hclear with hnil | ⟨-, hne⟩
  · exact hnil
  · exact absurd rfl hne

/-- An error in a library whose name and whose detail look like spans, after an error elsewhere. -/
theorem report_static_library :
    let e : StaticError := ⟨"../lib 1-2.libsonnet".toList, .within ['3'] ['1'] "10".toList, .colon,
      "5:6-7: too deep\r".toList⟩
    let uri := "file:///w/a.jsonnet".toList
    let fresh : Reporter (WatchedCollection Text) := { sink := {} }
    let r := ((Reporter.report uri "jsonnet\nSTATIC ERROR: b:1:2 old".toList none).perform fresh).2
    let record : Record := ⟨e.file, ⟨⟨2, 0⟩, ⟨2, 10⟩⟩, e.detail⟩
    e.Fits ⟨⟨3, 1⟩, ⟨3, 10⟩⟩ ∧ r.shown ≠ [] ∧ ∃ r' r'',
      (Reporter.report uri ("jsonnet -J lib\r\nSTATIC ERROR: ../lib 1-2.libsonnet:3:1-10: ".toList ++ e.detail)
        (some "/w/sub".toList)).perform r = (.ok [(e.file, [record])], r') ∧
      r'.shown = [("/w/lib 1-2.libsonnet".toList, [record])] ∧
      (Reporter.clear uri).perform r' = (.ok (), r'') ∧ r''.shown = [] := by
  intro e uri fresh r record
  have hdenotes : e.location.Denotes ⟨⟨3, 1⟩, ⟨3, 10⟩⟩ :=
    ⟨by decide +kernel, Attempt.eq_ok_of_toOption (by decide +kernel), by decide⟩
  have hfits : e.Fits ⟨⟨3, 1⟩, ⟨3, 10⟩⟩ :=
    ⟨by decide, by decide, hdenotes, by decide, by decide, by decide⟩
  have huri : Reporter.documentPath uri = .ok "/w/a.jsonnet".toList :=
    Attempt.eq_ok_of_toOption (by decide +kernel)
  have hpath : Reporter.resolve (Reporter.baseDirectory "/w/a.jsonnet".toList (some "/w/sub".toList)) e.file =
      "/w/lib 1-2.libsonnet".toList := by decide +kernel
  have hfirst : '\n' ∉ "jsonnet -J lib\r".toList := by decide
  have htext : "jsonnet -J lib\r".toList ++ '\n' :: e.text =
      "jsonnet -J lib\r\nSTATIC ERROR: ../lib 1-2.libsonnet:3:1-10: ".toList ++ e.detail := by decide +kernel
  obtain ⟨r', r'', hreport, hshown, hclear, hnil⟩ :=
    report_static hfits huri hfirst (some "/w/sub".toList) r
  rw [htext] at hreport
  rw [hpath] at hshown
  exact ⟨hfits, by decide +kernel, r', r'', hreport, hshown, hclear, hnil⟩

end JsonnetLens
