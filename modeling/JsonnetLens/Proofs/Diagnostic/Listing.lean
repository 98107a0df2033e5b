import JsonnetLens.Proofs.Diagnostic.Ownership
import JsonnetLens.Proofs.Diagnostic.StaticError
import JsonnetLens.Proofs.Text.Decimal
/-!
# Listed records are read back

A batch is listed with one line for each record: the file, the range with all its numbers counted
from one, and the message.  Such a line is a static error in all but its mark, so it can be read again,
and what is read is the same place in the same file (`lines_read_back`).
-/
namespace JsonnetLens

open CompilerError (staticMark)

/-! ## What a terminal shows -/

theorem shown_append (s t : Text) : shown (s ++ t) = shown s ++ shown t := List.filter_append ..

theorem shown_eq_self {t : Text} (h : ∀ c ∈ t, isTerminalControl c = false) : shown t = t := by
  refine List.filter_eq_self.2 fun c hc => ?_
  rw [h c hc, Bool.not_false]

theorem isTerminalControl_of_isAsciiDigit {c : Char} (h : c.isDigit = true) :
    isTerminalControl c = false := by
  by_contra hc
  simp only [Bool.not_eq_false, isTerminalControl, Bool.or_eq_true, decide_eq_true_eq] at hc
  rcases hc with (((hc | hc) | hc) | hc) | hc <;> subst hc <;> exact absurd h (by decide)

theorem shown_ofNat (n : Nat) : shown (Text.ofNat n) = Text.ofNat n :=
  shown_eq_self fun _ hc => isTerminalControl_of_isAsciiDigit (Text.isAsciiDigit_of_mem_ofNat hc)

/-! ## Ranges as they are listed -/

theorem RangeText.isNumber_ofNat (n : Nat) : isNumber (Text.ofNat n) = true := by
  have hne : (Text.ofNat n).isEmpty = false := by simpa using Text.ofNat_ne_nil n
  have hall : (Text.ofNat n).all Text.isDigit = true :=
    List.all_eq_true.2 fun _ hc => Text.isDigit_of_isAsciiDigit (Text.isAsciiDigit_of_mem_ofNat hc)
  rw [isNumber, hne, hall]
  rfl

/-- A number that a position can hold, or one more, is far from being too long. -/
theorem readDigits_ofNat {n : Nat} (h : n ≤ Fault.greatestCoordinate + 1) :
    readDigits (Text.ofNat n) = .ok n := by
  have hbound : n < 10 ^ 10 := by
    have hgreatest : Fault.greatestCoordinate = 2147483647 := rfl
    omega
  have hlength : (Text.ofNat n).length ≤ 10 := Text.length_ofNat_le (by decide) hbound
  have hlimit : Text.digitLimit = 4300 := rfl
  rw [readDigits, if_neg (by omega), Text.digitsValue_ofNat]

/-- The notation of a range in a listing: all its numbers count from one, and the last column, which
the range excludes, is the one that a span includes. -/
def Range.listed (r : Range) : RangeText :=
  .across (Text.ofNat (r.start.line + 1)) (Text.ofNat (r.start.character + 1))
    (Text.ofNat (r.stop.line + 1)) (Text.ofNat r.stop.character)

/-- **The listed notation denotes the span** that the range is of, whichever notation it was read from. -/
theorem Span.denotes_listed {s : Span} (h : s.isProper = true) (hfits : s.range.fits = true) :
    s.range.listed.Denotes s := by
  obtain ⟨hl, hc, hl', hc', -⟩ := isProper_iff.1 h
  simp only [Range.fits, Position.fits, Bool.and_eq_true, decide_eq_true_eq] at hfits
  obtain ⟨⟨hline, hcolumn⟩, hline', hcolumn'⟩ := hfits
  simp only [Span.range] at hline hcolumn hline' hcolumn'
  have hlisted : s.range.listed = .across (Text.ofNat s.first.line) (Text.ofNat s.first.column)
      (Text.ofNat s.last.line) (Text.ofNat s.last.column) := by
    have e1 : s.first.line - 1 + 1 = s.first.line := by omega
    have e2 : s.first.column - 1 + 1 = s.first.column := by omega
    have e3 : s.last.line - 1 + 1 = s.last.line := by omega
    simp only [Range.listed, Span.range, e1, e2, e3]
  rw [hlisted]
  refine ⟨?_, ?_, h⟩
  · simp only [RangeText.isWritten, RangeText.fields, RangeText.isNumber_ofNat, Bool.and_self]
  · have h1 : readDigits (Text.ofNat s.first.line) = .ok s.first.line := readDigits_ofNat (by omega)
    have h2 : readDigits (Text.ofNat s.first.column) = .ok s.first.column := readDigits_ofNat (by omega)
    have h3 : readDigits (Text.ofNat s.last.line) = .ok s.last.line := readDigits_ofNat (by omega)
    have h4 : readDigits (Text.ofNat s.last.column) = .ok s.last.column := readDigits_ofNat (by omega)
    simp only [RangeText.span, RangeText.fields, h1, h2, h3, h4]
    rfl

/-! ## Records as they are listed -/

/-- A record that was located: a frame can name its file, and its range is that of a span in order. -/
def Record.IsLocated (r : Record) : Prop :=
  Frame.isName r.file = true ∧
    ∃ span : Span, span.isProper = true ∧ r.range = span.range ∧ span.range.fits = true

namespace CompilerError

theorem isLocated_of_staticRecord? {message : Text} {record : Record}
    (h : staticRecord? message = .ok (some record)) : record.IsLocated := by
  rw [staticRecord?_eq] at h
  obtain ⟨frame, place, hframe, hplace, rfl⟩ := recordAt?_eq_some h
  obtain ⟨span, hproper, hrange, hfits, -⟩ := exists_span_of_placeAt? hplace
  exact ⟨Frame.isName_of_match? hframe, span, hproper, hrange, hfits⟩

theorem isLocated_of_frameRecord? {message line : Text} {record : Record}
    (h : frameRecord? message line = .ok (some record)) : record.IsLocated := by
  rw [frameRecord?_eq] at h
  obtain ⟨frame, place, hframe, hplace, rfl⟩ := recordAt?_eq_some h
  obtain ⟨span, hproper, hrange, hfits, -⟩ := exists_span_of_placeAt? hplace
  unfold frameOf? at hframe
  split at hframe
  · cases hframe
  · exact ⟨Frame.isName_of_match? hframe, span, hproper, hrange, hfits⟩

theorem isLocated_of_mem_records {e : CompilerError} {record : Record} (h : record ∈ e.records) :
    record.IsLocated := by
  cases e with
  | static message =>
    rw [records, Option.mem_toList] at h
    exact isLocated_of_staticRecord? (eq_some_of_recordOf? h)
  | runtime message stack =>
    rw [records] at h
    obtain ⟨line, -, hline⟩ := List.mem_filterMap.1 h
    exact isLocated_of_frameRecord? (eq_some_of_recordOf? hline)
  | unrecognized message => cases h

end CompilerError

namespace Record

/-- The static error that the line of a record spells, its mark apart. -/
def listed (r : Record) : StaticError :=
  ⟨r.file, r.range.listed, .blank, "error: ".toList ++ shown r.message⟩

theorem text_listed {r : Record} (hfile : ∀ c ∈ r.file, isTerminalControl c = false) :
    r.listed.text = staticMark ++ r.line r.file := by
  have hcolon : ∀ t : Text, shown (':' :: t) = ':' :: shown t := fun _ => rfl
  have hminus : ∀ t : Text, shown ('-' :: t) = '-' :: shown t := fun _ => rfl
  have hword : shown " error: ".toList = " error: ".toList := by decide
  have hline : r.line r.file = r.file ++ ':' :: Text.ofNat (r.range.start.line + 1) ++
      ':' :: Text.ofNat (r.range.start.character + 1) ++ '-' :: Text.ofNat (r.range.stop.line + 1) ++
      ':' :: Text.ofNat r.range.stop.character ++ " error: ".toList ++ shown r.message := by
    simp only [Record.line, shown_append, shown_eq_self hfile, hcolon, hminus, shown_ofNat, hword]
  rw [hline]
  simp [StaticError.text, StaticError.located, listed, Range.listed, RangeText.text, Separator.text]

/-- **The line of a record is read back** as a record of the same file and the same range. -/
theorem IsLocated.staticBatch_line {r : Record} (h : r.IsLocated)
    (hfile : ∀ c ∈ r.file, isTerminalControl c = false) :
    CompilerError.staticBatch (staticMark ++ r.line r.file) =
      .ok [(r.file, [⟨r.file, r.range, "error: ".toList ++ shown r.message⟩])] := by
  obtain ⟨hname, span, hproper, hrange, hfits⟩ := h
  have hdenotes : r.listed.location.Denotes span := by
    change r.range.listed.Denotes span
    rw [hrange]
    exact Span.denotes_listed hproper hfits
  have hdetail : r.listed.detail.head?.any (!CompilerError.isDetailLead ·) = true := rfl
  rw [← text_listed hfile, StaticError.staticBatch_text hname hdenotes hfits hdetail,
    StaticError.record, ← hrange]
  rfl

end Record

/-- **A listing is read back.**  The batch of any error is listed with one line for each record, in
their order, and the line of a record, read as a static error, locates just this record: the same file,
provided that all of its name is shown, the same range, and what is shown of the message. -/
theorem Batch.lines_read_back {e : CompilerError} {batch : Batch} (h : e.batch = .ok batch) :
    batch.lines = batch.records.map (fun r => r.line r.file) ∧
    ∀ group ∈ batch, ∀ r ∈ group.2, r.file = group.1 ∧
      ((∀ c ∈ group.1, isTerminalControl c = false) →
        CompilerError.staticBatch (staticMark ++ r.line group.1) =
          .ok [(group.1, [⟨group.1, r.range, "error: ".toList ++ shown r.message⟩])]) := by
  obtain ⟨-, rfl⟩ := CompilerError.batch_eq_ok h
  have hkeyed := Batch.keyed_ofRecords e.records
  refine ⟨hkeyed.lines_eq, fun group hgroup r hr => ?_⟩
  have hfile : r.file = group.1 := hkeyed group hgroup r hr
  have hlocated : r.IsLocated :=
    CompilerError.isLocated_of_mem_records ((Batch.holds_ofRecords e.records group hgroup).2 r hr)
  refine ⟨hfile, fun hshown => ?_⟩
  rw [← hfile] at hshown ⊢
  exact hlocated.staticBatch_line hshown

/-- Two files, one with blanks, a line break and a tab in its name, spans in the four notations and in
digits of another script, and a message with a control character and a location of its own. -/
theorem Batch.lines_read_back_notations :
    let message := "RUNTIME ERROR: a:1:2-3\x07 b".toList
    let odd := "x y\n\t.jsonnet".toList
    let stack := ["\ta:3:5\tf".toList, "  ".toList ++ odd ++ ":(2:1)-(4:1)".toList, "a:٣:1-٩".toList,
      "a: 1:2-3:1:".toList]
    let batch : Batch :=
      [(['a'], [⟨['a'], ⟨⟨2, 4⟩, ⟨2, 5⟩⟩, message⟩, ⟨['a'], ⟨⟨2, 0⟩, ⟨2, 9⟩⟩, message⟩,
        ⟨['a'], ⟨⟨0, 1⟩, ⟨2, 1⟩⟩, message⟩]), (odd, [⟨odd, ⟨⟨1, 0⟩, ⟨3, 1⟩⟩, message⟩])]
    let detail := "error: RUNTIME ERROR: a:1:2-3 b".toList
    let line := odd ++ ":2:1-4:1 ".toList ++ detail
    CompilerError.runtimeBatch message stack = .ok batch ∧
    batch.lines = ["a:3:5-3:5 ".toList ++ detail, "a:3:1-3:9 ".toList ++ detail,
      "a:1:2-3:1 ".toList ++ detail, line] ∧
    CompilerError.staticBatch (staticMark ++ line) = .ok [(odd, [⟨odd, ⟨⟨1, 0⟩, ⟨3, 1⟩⟩, detail⟩])] := by
  intro message odd stack batch detail line
  have hbatch : CompilerError.runtimeBatch message stack = .ok batch :=
    Attempt.eq_ok_of_toOption (by decide +kernel)
  obtain ⟨hlines, hback⟩ := Batch.lines_read_back (e := .runtime message stack) hbatch
  have hnone : (odd.all (!isTerminalControl ·)) = true := by decide +kernel
  have hodd : ∀ c ∈ odd, isTerminalControl c = false := fun c hc => by
    simpa using List.all_eq_true.1 hnone c hc
  have hread := (hback _ (by decide +kernel : (odd, [⟨odd, ⟨⟨1, 0⟩, ⟨3, 1⟩⟩, message⟩]) ∈ batch) _
    List.mem_cons_self).2 hodd
  refine ⟨hbatch, hlines.trans (by decide +kernel), ?_⟩
  have hline : Record.line odd ⟨odd, ⟨⟨1, 0⟩, ⟨3, 1⟩⟩, message⟩ = line := by decide +kernel
  have hdetail : "error: ".toList ++ shown message = detail := by decide +kernel
  rw [hline, hdetail] at hread
  exact hread

end JsonnetLens
