import JsonnetLens.Diagnostic.Record
import Mathlib.Data.List.TakeWhile
/-!
# Locations beyond the limits

A location can be in the right notation and still not be one that a client can be told: a run of
digits can be too long to be converted, and a coordinate can be too great for the protocol.
`RangeText.exceeds` says so on the notation; what is read of a text fails there and nowhere else
(`placeAt?_isOk_iff`).
-/
namespace JsonnetLens

/-- The faults of a location beyond the limits. -/
def Fault.isLimit : Fault → Bool
  | .tooManyDigits _ => true
  | .coordinateRange .. => true
  | _ => false

namespace Position

theorem checkCoordinate_natCast (coordinate : Coordinate) (n : Nat) :
    checkCoordinate coordinate n =
      if n ≤ Fault.greatestCoordinate then .ok n else .error (.coordinateRange coordinate n) := by
  unfold checkCoordinate
  by_cases h : n ≤ Fault.greatestCoordinate
  · have hn : (0 : Int) ≤ n ∧ (n : Int) ≤ Fault.greatestCoordinate := by omega
    rw [if_pos hn, if_pos h, Int.toNat_natCast]
  · have hn : ¬ ((0 : Int) ≤ n ∧ (n : Int) ≤ Fault.greatestCoordinate) := by omega
    rw [if_neg hn, if_neg h]

/-- Both coordinates fit the protocol. -/
def fits (p : Position) : Bool :=
  p.line ≤ Fault.greatestCoordinate && p.character ≤ Fault.greatestCoordinate

theorem ofInts?_of_fits {p : Position} (h : p.fits = true) : ofInts? p.line p.character = .ok p := by
  simp only [fits, Bool.and_eq_true, decide_eq_true_eq] at h
  rw [ofInts?, checkCoordinate_natCast, checkCoordinate_natCast, if_pos h.1, if_pos h.2]
  rfl

theorem ofInts?_of_not_fits {p : Position} (h : p.fits = false) :
    ∃ fault, fault.isLimit = true ∧ ofInts? p.line p.character = .error fault := by
  rw [ofInts?, checkCoordinate_natCast, checkCoordinate_natCast]
  by_cases hl : p.line ≤ Fault.greatestCoordinate
  · have hc : ¬ p.character ≤ Fault.greatestCoordinate := by
      intro hc
      simp [fits, hl, hc] at h
    rw [if_pos hl, if_neg hc]
    exact ⟨_, rfl, rfl⟩
  · rw [if_neg hl]
    exact ⟨_, rfl, rfl⟩

end Position

namespace Span

/-- The range of a span in order, whether or not it fits the protocol. -/
def range (s : Span) : Range :=
  ⟨⟨s.first.line - 1, s.first.column - 1⟩, ⟨s.last.line - 1, s.last.column⟩⟩

theorem isProper_iff {s : Span} :
    s.isProper = true ↔ 1 ≤ s.first.line ∧ 1 ≤ s.first.column ∧ 1 ≤ s.last.line ∧
      1 ≤ s.last.column ∧ (s.first.line < s.last.line ∨
        s.first.line = s.last.line ∧ s.first.column ≤ s.last.column) := by
  simp [isProper, Spot.le, and_assoc]

theorem toRange_eq {s : Span} (h : s.isProper = true) :
    s.toRange = (Position.ofInts? s.range.start.line s.range.start.character).bind fun start =>
      (Position.ofInts? s.range.stop.line s.range.stop.character).map fun stop => ⟨start, stop⟩ := by
  obtain ⟨hl, hc, hl', _, _⟩ := isProper_iff.1 h
  have hline : (s.first.line : Int) - 1 = s.range.start.line := by
    simp only [range]
    omega
  have hcharacter : (s.first.column : Int) - 1 = s.range.start.character := by
    simp only [range]
    omega
  have hstop : (s.last.line : Int) - 1 = s.range.stop.line := by
    simp only [range]
    omega
  rw [toRange, Range.ofInts?, hline, hcharacter, hstop]
  rfl

end Span

def Range.fits (r : Range) : Bool := r.start.fits && r.stop.fits

theorem Span.toRange_of_fits {s : Span} (h : s.isProper = true) (hf : s.range.fits = true) :
    s.toRange = .ok s.range := by
  rw [Range.fits, Bool.and_eq_true] at hf
  rw [toRange_eq h, Position.ofInts?_of_fits hf.1, Position.ofInts?_of_fits hf.2]
  rfl

theorem Span.toRange_of_not_fits {s : Span} (h : s.isProper = true) (hf : s.range.fits = false) :
    ∃ fault, fault.isLimit = true ∧ s.toRange = .error fault := by
  rw [toRange_eq h]
  by_cases hs : s.range.start.fits = true
  · have hstop : s.range.stop.fits = false := by simpa [Range.fits, hs] using hf
    obtain ⟨fault, hfault, he⟩ := Position.ofInts?_of_not_fits hstop
    rw [Position.ofInts?_of_fits hs, he]
    exact ⟨fault, hfault, rfl⟩
  · obtain ⟨fault, hfault, he⟩ := Position.ofInts?_of_not_fits (by simpa using hs)
    rw [he]
    exact ⟨fault, hfault, rfl⟩

/-! ## Notations -/

namespace RangeText

def runs (r : RangeText) : List Text := [r.fields.1, r.fields.2.1, r.fields.2.2.1, r.fields.2.2.2]

/-- The span that the digits write, however many they are. -/
def value (r : RangeText) : Span :=
  ⟨⟨Text.digitsValue r.fields.1, Text.digitsValue r.fields.2.1⟩,
    ⟨Text.digitsValue r.fields.2.2.1, Text.digitsValue r.fields.2.2.2⟩⟩

/-- One of the numbers has more digits than are converted. -/
def isLong (r : RangeText) : Bool := r.runs.any fun digits => digits.length > Text.digitLimit

/-- A number cannot be converted, or the span is in order and does not fit the protocol. -/
def exceeds (r : RangeText) : Bool := r.isLong || (r.value.isProper && !r.value.range.fits)

theorem span_eq_ok {r : RangeText} (h : r.isLong = false) : r.span = .ok r.value := by
  have hread : ∀ digits ∈ r.runs, readDigits digits = .ok (Text.digitsValue digits) := by
    intro digits hd
    have hlength := List.any_eq_false.1 h digits hd
    rw [decide_eq_true_eq] at hlength
    rw [readDigits, if_neg hlength]
  simp only [runs, List.forall_mem_cons] at hread
  obtain ⟨hl, hc, hl', hc', _⟩ := hread
  simp only [span, hl, hc, hl', hc']
  rfl

theorem span_eq_error {r : RangeText} (h : r.isLong = true) :
    ∃ fault, fault.isLimit = true ∧ r.span = .error fault := by
  have hread : ∀ digits, (∃ n, readDigits digits = .ok n ∧ ¬ digits.length > Text.digitLimit) ∨
      readDigits digits = .error (.tooManyDigits digits.length) := by
    intro digits
    by_cases hd : digits.length > Text.digitLimit
    · exact .inr (if_pos hd)
    · exact .inl ⟨_, if_neg hd, hd⟩
  -- the runs are read in order, and the first long one is the fault
  rcases hread r.fields.1 with ⟨_, hl, nl⟩ | hl
  · rcases hread r.fields.2.1 with ⟨_, hc, nc⟩ | hc
    · rcases hread r.fields.2.2.1 with ⟨_, hl', nl'⟩ | hl'
      · rcases hread r.fields.2.2.2 with ⟨_, hc', nc'⟩ | hc'
        · simp [isLong, runs, nl, nc, nl', nc'] at h
        · exact ⟨_, rfl, by simp only [span, hl, hc, hl', hc']; rfl⟩
      · exact ⟨_, rfl, by simp only [span, hl, hc, hl']; rfl⟩
    · exact ⟨_, rfl, by simp only [span, hl, hc]; rfl⟩
  · exact ⟨_, rfl, by simp only [span, hl]; rfl⟩

/-- The notation at the front of a text, after a colon and blanks that may lead to it, and the text
after it. -/
def front? (t : Text) : Option (RangeText × Text) := take? ((Span.dropColon t).dropWhile Text.isBlank)

end RangeText

/-! ## Places -/

/-- The range at the front of a text and the text after it: the span is read and then converted. -/
def placeAt? (t : Text) : Except Fault (Option (Range × Text)) := do
  match ← Span.match? t with
  | none => return none
  | some (span, rest) => return some (← span.toRange, rest)

/-- The text begins with a location beyond the limits. -/
def Text.exceeds (t : Text) : Bool := (RangeText.front? t).any fun found => found.1.exceeds

theorem placeAt?_of_exceeds {t : Text} (h : t.exceeds = true) :
    ∃ fault, fault.isLimit = true ∧ placeAt? t = .error fault := by
  obtain ⟨⟨r, rest⟩, hfront, hr⟩ := (Option.any_eq_true _ _).1 h
  rw [RangeText.front?] at hfront
  simp only [placeAt?, Span.match?, hfront]
  by_cases hlong : r.isLong = true
  · obtain ⟨fault, hfault, he⟩ := RangeText.span_eq_error hlong
    rw [he]
    exact ⟨fault, hfault, rfl⟩
  · have hspan := RangeText.span_eq_ok (r := r) (by simpa using hlong)
    simp only [RangeText.exceeds, hlong, Bool.false_or, Bool.and_eq_true, Bool.not_eq_true'] at hr
    obtain ⟨fault, hfault, he⟩ := Span.toRange_of_not_fits hr.1 hr.2
    simp only [hspan, hr.1, if_true, bind, Except.bind, he]
    exact ⟨fault, hfault, rfl⟩

theorem placeAt?_of_not_exceeds {t : Text} (h : t.exceeds = false) :
    placeAt? t = .ok ((RangeText.front? t).bind fun found =>
      if found.1.value.isProper then some (found.1.value.range, found.2) else none) := by
  rcases hfront : RangeText.front? t with _ | ⟨r, rest⟩
  · rw [RangeText.front?] at hfront
    simp only [placeAt?, Span.match?, hfront]
    rfl
  · have hr : r.exceeds = false := by simpa [Text.exceeds, hfront] using h
    rw [RangeText.exceeds, Bool.or_eq_false_iff, Bool.and_eq_false_imp] at hr
    rw [RangeText.front?] at hfront
    simp only [placeAt?, Span.match?, hfront, RangeText.span_eq_ok hr.1, Option.bind_some]
    by_cases hproper : r.value.isProper = true
    · have hrange := Span.toRange_of_fits hproper (by simpa using hr.2 hproper)
      simp only [hproper, if_true, bind, Except.bind, hrange]
      rfl
    · simp only [hproper]
      rfl

/-- **Reading a place fails just where the text begins with a location beyond the limits.** -/
theorem placeAt?_isOk_iff {t : Text} : (∃ place, placeAt? t = .ok place) ↔ t.exceeds = false := by
  cases h : t.exceeds with
  | false => simp [placeAt?_of_not_exceeds h]
  | true =>
    obtain ⟨fault, _, he⟩ := placeAt?_of_exceeds h
    simp [he]

/-! ## What a place is -/

def Position.before (p q : Position) : Bool :=
  p.line < q.line || (p.line = q.line && p.character < q.character)

theorem Span.before_range {s : Span} (h : s.isProper = true) : s.range.start.before s.range.stop = true := by
  obtain ⟨hl, hc, hl', hc', horder⟩ := isProper_iff.1 h
  simp only [Position.before, Bool.or_eq_true, Bool.and_eq_true, decide_eq_true_eq]
  simp only [range]
  omega

theorem RangeText.exists_of_front? {t : Text} {found : RangeText × Text} (h : front? t = some found) :
    ∃ c ∈ t, Text.isBlank c = false := by
  have hne : (Span.dropColon t).dropWhile Text.isBlank ≠ [] := by
    intro hnil
    rw [front?, hnil] at h
    cases h
  obtain ⟨c, hc, hblank⟩ : ∃ c ∈ Span.dropColon t, ¬ Text.isBlank c = true := by
    simpa [List.dropWhile_eq_nil_iff] using hne
  refine ⟨c, ?_, by simpa using hblank⟩
  unfold Span.dropColon at hc
  split at hc
  · exact List.mem_cons_of_mem _ hc
  · exact hc

/-- A place that is read is the range of a span in order, which fits the protocol. -/
theorem exists_span_of_placeAt? {t rest : Text} {range : Range}
    (h : placeAt? t = .ok (some (range, rest))) :
    ∃ span : Span, span.isProper = true ∧ range = span.range ∧ span.range.fits = true ∧
      ∃ found, RangeText.front? t = some found := by
  cases hexceeds : t.exceeds with
  | true =>
    obtain ⟨fault, _, he⟩ := placeAt?_of_exceeds hexceeds
    rw [he] at h
    cases h
  | false =>
    rw [placeAt?_of_not_exceeds hexceeds, Except.ok.injEq] at h
    obtain ⟨⟨r, rest'⟩, hfront, hr⟩ := Option.bind_eq_some_iff.1 h
    have hr' : r.exceeds = false := by simpa [Text.exceeds, hfront] using hexceeds
    rw [RangeText.exceeds, Bool.or_eq_false_iff, Bool.and_eq_false_imp] at hr'
    by_cases hproper : r.value.isProper = true
    · rw [if_pos hproper, Option.some.injEq, Prod.mk.injEq] at hr
      have hfits : r.value.range.fits = true := by simpa using hr'.2 hproper
      exact ⟨r.value, hproper, hr.1.symm, hfits, _, hfront⟩
    · rw [if_neg hproper] at hr
      cases hr

/-- **A place that is read** fits the protocol, holds something and stands in no blank text. -/
theorem sound_of_placeAt? {t rest : Text} {range : Range} (h : placeAt? t = .ok (some (range, rest))) :
    range.fits = true ∧ range.start.before range.stop = true ∧ ∃ c ∈ t, Text.isBlank c = false := by
  obtain ⟨span, hproper, rfl, hfits, found, hfront⟩ := exists_span_of_placeAt? h
  exact ⟨hfits, Span.before_range hproper, RangeText.exists_of_front? hfront⟩

end JsonnetLens
