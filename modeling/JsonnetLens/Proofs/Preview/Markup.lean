import JsonnetLens.Proofs.Preview.Format
import JsonnetLens.Proofs.Text.Entity
/-!
# Pages hold no foreign markup

Whatever a compiler prints stands in a page between fixed markup of two kinds, one for what was compiled
and one for what failed.  Between them there is no markup, and all of the text is there
(`render_holds_no_markup`): a page tells its text, and tells a failure from a success.
-/
namespace JsonnetLens.Page

open Entity (HoldsNoMarkup escape unescape)

/-- What is shown in place of a preview, in its markup. -/
def noticeFrame (inner : Text) : Text :=
  "<html><body><i><pre>".toList ++ inner ++ "</pre></i></body></html>".toList

/-- What was compiled, in its markup. -/
def codeFrame (inner : Text) : Text :=
  "<html><body><pre><code>".toList ++ inner ++ "</code></pre></body></html>".toList

theorem body_errorMessage (text : Text) : body (errorMessage text) = noticeFrame (escape text) := by
  unfold body errorMessage noticeFrame
  simp only [String.reduceToList, List.append_assoc, List.cons_append, List.nil_append]

theorem body_code (text : Text) : body (code text) = codeFrame (escape text) := by
  unfold body code codeFrame
  simp only [String.reduceToList, List.append_assoc, List.cons_append, List.nil_append]

theorem noticeFrame_injective {s t : Text} (h : noticeFrame s = noticeFrame t) : s = t :=
  List.append_cancel_left (List.append_cancel_right h)

theorem noticeFrame_ne_codeFrame (s t : Text) : noticeFrame s ≠ codeFrame t := by
  unfold noticeFrame codeFrame
  simp only [String.reduceToList, List.cons_append, ne_eq, List.cons.injEq, Char.reduceEq, false_and,
    and_false, not_false_eq_true]

section

variable [Nesting]

theorem render_failed (failure : Failure) (outputFormat : OutputFormat) :
    render (some (.failed failure)) outputFormat = .ok (noticeFrame (escape failure.error)) := by
  rw [render, body_errorMessage]

theorem render_output (text : Text) (outputFormat : OutputFormat) :
    render (some (.output text)) outputFormat =
      (formatOrKeep text outputFormat).map fun shown => codeFrame (escape shown) := by
  simp only [render, body_code]

/-- What is shown of a text is its value, written anew, or the text itself when it has none. -/
theorem formatOrKeep_eq_ok {text shown : Text} {outputFormat : OutputFormat}
    (h : formatOrKeep text outputFormat = .ok shown) :
    (∀ value, Json.read text = .ok value → shown = writeValue value outputFormat) ∧
      ((∀ value, Json.read text ≠ .ok value) → shown = text) := by
  rcases hread : Json.read text with (e | limit) | value
  · rw [formatOrKeep_of_badSyntax hread] at h
    obtain rfl := Except.ok.inj h
    refine ⟨fun value hv => ?_, fun _ => rfl⟩
    cases hv
  · rw [formatOrKeep_of_beyond hread] at h
    cases h
  · rw [formatOrKeep_of_value hread] at h
    split at h
    · obtain rfl := Except.ok.inj h
      refine ⟨fun other hv => ?_, fun hnone => absurd rfl (hnone value)⟩
      rw [← Except.ok.inj hv]
    · cases h

/-- **A page is fixed markup around a text that holds none**, and putting the entities back gives
exactly what it shows: the notice, the error of a failure, or what was compiled, written anew if it is
JSON and as it is if not.  So pages of failures differ when their errors do, whatever the formats, and
no page of a failure is the page of anything compiled. -/
theorem render_holds_no_markup (outputFormat : OutputFormat) :
    (∃ inner, HoldsNoMarkup inner ∧ unescape inner = noPreview ∧
      render none outputFormat = .ok (noticeFrame inner)) ∧
    (∀ failure, ∃ inner, HoldsNoMarkup inner ∧ unescape inner = failure.error ∧
      render (some (.failed failure)) outputFormat = .ok (noticeFrame inner)) ∧
    (∀ text page, render (some (.output text)) outputFormat = .ok page →
      ∃ inner, HoldsNoMarkup inner ∧ page = codeFrame inner ∧
        (∀ value, Json.read text = .ok value → unescape inner = writeValue value outputFormat) ∧
        ((∀ value, Json.read text ≠ .ok value) → unescape inner = text)) ∧
    (∀ failure other otherFormat,
      render (some (.failed failure)) outputFormat = render (some (.failed other)) otherFormat →
      failure.error = other.error) ∧
    ∀ failure text otherFormat,
      render (some (.failed failure)) outputFormat ≠ render (some (.output text)) otherFormat := by
  refine ⟨⟨escape noPreview, Entity.holdsNoMarkup_escape _, Entity.unescape_escape _, ?_⟩,
    fun failure => ⟨escape failure.error, Entity.holdsNoMarkup_escape _, Entity.unescape_escape _,
      render_failed failure outputFormat⟩, fun text page hpage => ?_, fun failure other otherFormat h => ?_,
    fun failure text otherFormat h => ?_⟩
  · rw [render, body_errorMessage]
  · rw [render_output] at hpage
    rcases hshown : formatOrKeep text outputFormat with fault | shown
    · rw [hshown] at hpage
      cases hpage
    rw [hshown] at hpage
    obtain rfl := Except.ok.inj hpage
    obtain ⟨hvalue, hkept⟩ := formatOrKeep_eq_ok hshown
    refine ⟨escape shown, Entity.holdsNoMarkup_escape _, rfl, fun value hread => ?_, fun hnone => ?_⟩
    · rw [Entity.unescape_escape, hvalue value hread]
    · rw [Entity.unescape_escape, hkept hnone]
  · rw [render_failed, render_failed] at h
    exact Entity.escape_injective (noticeFrame_injective (Except.ok.inj h))
  · rw [render_failed, render_output] at h
    rcases hshown : formatOrKeep text otherFormat with fault | shown
    · rw [hshown] at h
      cases h
    rw [hshown] at h
    exact noticeFrame_ne_codeFrame _ _ (Except.ok.inj h)

end

/-- A compiled list of one string with markup and an entity in it, shown as YAML, and a text that
is no JSON, shown as it is. -/
theorem render_holds_no_markup_entity :
    let _ : Nesting := .usual
    let text := "[\"<b>&amp; it's\"]".toList
    let page := "<html><body><pre><code>- &lt;b&gt;&amp;amp; it&#x27;s\n</code></pre></body></html>".toList
    let broken := "\"&lt;".toList
    let brokenPage := "<html><body><pre><code>&quot;&amp;lt;</code></pre></body></html>".toList
    (render (some (.output text)) .yaml = .ok page ∧ ∃ inner, HoldsNoMarkup inner ∧
      page = codeFrame inner ∧ unescape inner = "- <b>&amp; it's\n".toList) ∧
    render (some (.output broken)) .yaml = .ok brokenPage ∧ ∃ inner, HoldsNoMarkup inner ∧
      brokenPage = codeFrame inner ∧ unescape inner = broken := by
  intro _ text page broken brokenPage
  have hpage : render (some (.output text)) .yaml = .ok page := Attempt.eq_ok_of_toOption (by decide +kernel)
  have hbroken : render (some (.output broken)) .yaml = .ok brokenPage :=
    Attempt.eq_ok_of_toOption (by decide +kernel)
  obtain ⟨-, -, houtput, -, -⟩ := render_holds_no_markup .yaml
  obtain ⟨inner, hinner, hframe, hvalue, -⟩ := houtput text page hpage
  obtain ⟨inner', hinner', hframe', -, hkept⟩ := houtput broken brokenPage hbroken
  refine ⟨⟨hpage, inner, hinner, hframe, ?_⟩, hbroken, inner', hinner', hframe', hkept fun value h => ?_⟩
  · have hread : Json.read text = .ok (.array [.string (WideText.ofText "<b>&amp; it's".toList)]) := by rfl
    rw [hvalue _ hread]
    decide +kernel
  · have hread : (Json.read broken).toOption.isSome = false := by rfl
    rw [h] at hread
    cases hread

end JsonnetLens.Page
