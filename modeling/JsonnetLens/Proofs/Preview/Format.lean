import JsonnetLens.Preview.Page
import JsonnetLens.Proofs.Json.RoundTrip
/-!
# What a preview shows

Output that is JSON is written anew, and in JSON nothing of its value is lost
(`format_json_keeps_value`).  Output that is no JSON is shown as it is, whatever makes it so.  What leaves
nothing to show is an integer that is too long to be converted, and a value that nests too deep to be read
or to be written (`render_output_answers_iff`).
-/
namespace JsonnetLens.Page

section

variable [Nesting] {text : Text} {outputFormat : OutputFormat}

theorem format_of_value {value : Json} (h : Json.read text = .ok value) :
    format text outputFormat =
      if fits value outputFormat then .ok (writeValue value outputFormat) else .error .tooDeep := by
  rw [format, h]
  rfl

theorem formatOrKeep_of_value {value : Json} (h : Json.read text = .ok value) :
    formatOrKeep text outputFormat =
      if fits value outputFormat then .ok (writeValue value outputFormat) else .error .tooDeep := by
  rw [formatOrKeep, format_of_value h]
  by_cases hfits : fits value outputFormat = true
  · rw [if_pos hfits]
  · rw [if_neg hfits]

theorem formatOrKeep_of_badSyntax {e : Json.SyntaxError} (h : Json.read text = .error (.badSyntax e)) :
    formatOrKeep text outputFormat = .ok text := by
  rw [formatOrKeep, format, h]
  rfl

theorem formatOrKeep_of_beyond {limit : Json.Limit} (h : Json.read text = .error (.beyond limit)) :
    formatOrKeep text outputFormat = .error (.ofLimit limit) := by
  rw [formatOrKeep, format, h]
  cases limit <;> rfl

/-! ## Values are kept -/

theorem format_eq_ok {t out : Text} (h : format t outputFormat = .ok out) :
    ∃ value, Json.read t = .ok value ∧ fits value outputFormat = true ∧
      out = writeValue value outputFormat := by
  rcases hread : Json.read t with e | value
  · rw [format, hread] at h
    cases h
  · rw [format_of_value hread] at h
    split at h
    · next hfits => exact ⟨value, rfl, hfits, (Except.ok.inj h).symm⟩
    · cases h

/-- **Writing JSON anew keeps its value.**  What is read from the new text is what was read from the old
one, unless a float is in it: the same names in the same order, the same integers, the same code points.
So a text that was written anew stays as it is when that is done again. -/
theorem format_json_keeps_value {t out : Text} (h : format t .json = .ok out)
    (hfree : ∀ value, Json.read t = .ok value → value.isFloatFree = true) :
    (∃ value, Json.read t = .ok value ∧ Json.read out = .ok value) ∧ format out .json = .ok out := by
  obtain ⟨value, hread, hfits, rfl⟩ := format_eq_ok h
  have hback : Json.read value.indented = .ok value :=
    Json.read_indented (Json.isReadable_of_read hread) (hfree value hread) (Json.depth_le_of_read hread)
  exact ⟨⟨value, hread, hback⟩, (format_of_value hback).trans (if_pos hfits)⟩

end

/-- A name that is set twice, and one of a surrogate pair, half a pair, a letter and a control
character. -/
theorem format_json_keeps_value_halves :
    let _ : Nesting := .usual
    let text := ("\x7b\"b\": [1, -0, \x7b\x7d], \"\\ud83d\\ude00\\ud83d\u00e9\\u0001\\/\": " ++
      "-12345678901234567890, \"b\": [null, \x7b\"\": true\x7d]\x7d").toList
    let out := ("\x7b\n    \"b\": [\n        null,\n        \x7b\n            \"\": true\n        \x7d\n" ++
      "    ],\n    \"\\ud83d\\ude00\\ud83d\\u00e9\\u0001/\": -12345678901234567890\n\x7d").toList
    let value : Json := .object [(WideText.ofText ['b'], .array [.null, .object [([], .bool true)]]),
      ([0x1F600, 0xD83D, 0xE9, 0x01, 0x2F], .int (-12345678901234567890))]
    format text .json = .ok out ∧ Json.read text = .ok value ∧ value.isFloatFree = true ∧
      Json.read out = .ok value ∧ format out .json = .ok out := by
  intro _ text out value
  have hformat : format text .json = .ok out := Attempt.eq_ok_of_toOption (by decide +kernel)
  have hread : Json.read text = .ok value := by rfl
  have hfree : ∀ v, Json.read text = .ok v → v.isFloatFree = true := by
    intro v hv
    rw [hread] at hv
    obtain rfl := Except.ok.inj hv
    rfl
  obtain ⟨⟨v, hv, hback⟩, hagain⟩ := format_json_keeps_value hformat hfree
  rw [hread] at hv
  obtain rfl := Except.ok.inj hv
  exact ⟨hformat, hread, rfl, hback, hagain⟩

/-! ## What can be shown -/

section

variable [Nesting] {text : Text} {outputFormat : OutputFormat}

theorem render_of_value {value : Json} (h : Json.read text = .ok value) :
    render (some (.output text)) outputFormat =
      if fits value outputFormat then .ok (body (code (writeValue value outputFormat)))
      else .error .tooDeep := by
  rw [render, formatOrKeep_of_value h]
  by_cases hfits : fits value outputFormat = true
  · rw [if_pos hfits, if_pos hfits]
    rfl
  · rw [if_neg hfits, if_neg hfits]
    rfl

theorem render_of_exceeds {limit : Json.Limit} (h : Json.Exceeds text limit) :
    render (some (.output text)) outputFormat = .error (.ofLimit limit) := by
  rw [render, formatOrKeep_of_beyond (Json.read_eq_beyond_iff.2 h)]
  rfl

/-- A text within the limits is shown as it is, when it is no JSON. -/
theorem render_of_not_exceeds (h : ∀ limit, ¬ Json.Exceeds text limit) :
    (∃ value, Json.read text = .ok value) ∨
      render (some (.output text)) outputFormat = .ok (body (code text)) := by
  rcases hread : Json.read text with (e | limit) | value
  · refine .inr ?_
    rw [render, formatOrKeep_of_badSyntax hread]
    rfl
  · exact absurd (Json.read_eq_beyond_iff.1 hread) (h limit)
  · exact .inl ⟨value, rfl⟩

/-- **Whatever a compiler prints can be shown, in both formats, but for what is beyond a limit.**
A text that has a value is shown as that value, written anew, if the value does not nest too deep for the
writer; any other text is shown as it is.  There is no page where a value is expected and an integer of
more digits than are converted comes, or an array or object inside too many others; then the text has that
many digits next to each other, or is itself longer than values nest. -/
theorem render_output_answers_iff (text : Text) (outputFormat : OutputFormat) :
    ((∃ page, render (some (.output text)) outputFormat = .ok page) ↔
      (∀ limit, ¬ Json.Exceeds text limit) ∧
        ∀ value, Json.read text = .ok value → fits value outputFormat = true) ∧
    (∀ value, Json.read text = .ok value → render (some (.output text)) outputFormat =
      if fits value outputFormat then .ok (body (code (writeValue value outputFormat)))
      else .error .tooDeep) ∧
    ((∀ value, Json.read text ≠ .ok value) → (∀ limit, ¬ Json.Exceeds text limit) →
      render (some (.output text)) outputFormat = .ok (body (code text))) ∧
    (∀ limit, Json.Exceeds text limit →
      render (some (.output text)) outputFormat = .error (.ofLimit limit)) ∧
    (∀ count, Json.Exceeds text (.digits count) → ∃ digits, digits <:+: text ∧
      (∀ c ∈ digits, c.isDigit = true) ∧ digits.length = count ∧ Text.digitLimit < count) ∧
    (Json.Exceeds text .depth → Nesting.reading < text.length) := by
  refine ⟨⟨?_, ?_⟩, fun _ => render_of_value, fun hread hnone => ?_, fun _ => render_of_exceeds,
    fun _ => Json.Exceeds.exists_digits, Json.Exceeds.lt_length⟩
  · rintro ⟨page, hpage⟩
    refine ⟨fun limit h => ?_, fun value hvalue => ?_⟩
    · rw [render_of_exceeds h] at hpage
      cases hpage
    · rw [render_of_value hvalue] at hpage
      split at hpage
      · next hfits => exact hfits
      · cases hpage
  · rintro ⟨hnone, hfits⟩
    rcases render_of_not_exceeds hnone with ⟨value, hvalue⟩ | hkept
    · exact ⟨_, (render_of_value hvalue).trans (if_pos (hfits value hvalue))⟩
    · exact ⟨_, hkept⟩
  · rcases render_of_not_exceeds hnone with ⟨value, hvalue⟩ | hkept
    · exact absurd hvalue (hread value)
    · exact hkept

end

/-- A text that is no JSON, the least integer of more digits than are converted, brackets that nest too
deep to be read, and an array that is read and nests too deep to be written as YAML. -/
theorem render_output_answers_text :
    let _ : Nesting := .usual
    let text := "not json".toList
    let long := Text.ofNat (10 ^ 4300)
    let brackets := List.replicate 3000 '['
    let deep := List.replicate 400 '[' ++ List.replicate 400 ']'
    (∀ value, Json.read text ≠ .ok value) ∧ (∀ limit, ¬ Json.Exceeds text limit) ∧
    render (some (.output text)) .yaml = .ok (body (code text)) ∧
    body (code text) = "<html><body><pre><code>not json</code></pre></body></html>".toList ∧
    Json.Exceeds long (.digits 4301) ∧
    render (some (.output long)) .yaml = .error (.tooManyDigits 4301) ∧
    Json.Exceeds brackets .depth ∧ render (some (.output brackets)) .yaml = .error .tooDeep ∧
    ∃ value, Json.read deep = .ok value ∧ value.depth = 400 ∧
      render (some (.output deep)) .yaml = .error .tooDeep ∧
      render (some (.output deep)) .json = .ok (body (code value.indented)) := by
  intro _ text long brackets deep
  have hread : Json.read text = .error (.badSyntax ⟨.expectedValue, 1, 1, 0⟩) := by rfl
  have hnone : ∀ value, Json.read text ≠ .ok value := fun value h => by
    rw [hread] at h
    cases h
  have hwithin : ∀ limit, ¬ Json.Exceeds text limit := fun limit h => by
    rw [← Json.read_eq_beyond_iff, hread] at h
    cases h
  have hlong : Json.Exceeds long (.digits 4301) := Json.exceeds_pow (Nat.le_refl 4300)
  have hfull : Json.Exceeds brackets .depth := Json.exceeds_brackets (by decide)
  obtain ⟨value, hvalue, hdepth, hyaml, hjson⟩ : ∃ value, Json.read deep = .ok value ∧
      value.depth = 400 ∧ fits value .yaml = false ∧ fits value .json = true := by
    have h : (Json.read deep).toOption.map (fun value => (value.depth, fits value .yaml, fits value .json)) =
        some (400, false, true) := by decide +kernel
    obtain ⟨value, hvalue, hmeasured⟩ := Option.map_eq_some_iff.1 h
    obtain ⟨hdepth, hwritten⟩ := Prod.mk.inj hmeasured
    exact ⟨value, Attempt.eq_ok_of_toOption hvalue, hdepth, Prod.mk.inj hwritten⟩
  obtain ⟨-, hdeepYaml, -⟩ := render_output_answers_iff deep .yaml
  obtain ⟨-, hdeepJson, -⟩ := render_output_answers_iff deep .json
  obtain ⟨-, -, hverbatim, -⟩ := render_output_answers_iff text .yaml
  obtain ⟨-, -, -, hrefused, -⟩ := render_output_answers_iff long .yaml
  obtain ⟨-, -, -, htooDeep, -⟩ := render_output_answers_iff brackets .yaml
  exact ⟨hnone, hwithin, hverbatim hnone hwithin, by decide +kernel, hlong, hrefused _ hlong, hfull,
    htooDeep _ hfull, value, hvalue, hdepth,
    (hdeepYaml value hvalue).trans (if_neg (Bool.eq_false_iff.1 hyaml)),
    (hdeepJson value hvalue).trans (if_pos hjson)⟩

/-- The least integer of more digits than are converted cannot be shown, nor can three thousand brackets. -/
theorem not_render_answers_power :
    let _ : Nesting := .usual
    render (some (.output (Text.ofNat (10 ^ 4300)))) .json = .error (.tooManyDigits 4301) ∧
    render (some (.output (List.replicate 3000 '['))) .json = .error .tooDeep ∧
    ¬ ∀ (text : Text) (outputFormat : OutputFormat),
      ∃ page, render (some (.output text)) outputFormat = .ok page := by
  intro _
  have hlong : Json.Exceeds (Text.ofNat (10 ^ 4300)) (.digits 4301) := Json.exceeds_pow (Nat.le_refl 4300)
  have hdeep : Json.Exceeds (List.replicate 3000 '[') .depth := Json.exceeds_brackets (by decide)
  refine ⟨render_of_exceeds hlong, render_of_exceeds hdeep, fun h => ?_⟩
  obtain ⟨page, hpage⟩ := h (Text.ofNat (10 ^ 4300)) .json
  rw [render_of_exceeds hlong] at hpage
  cases hpage

end JsonnetLens.Page
