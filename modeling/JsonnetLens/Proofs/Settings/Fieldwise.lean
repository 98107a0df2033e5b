import JsonnetLens.Proofs.Settings.Overrides
/-!
# Settings one by one

Each of the eight settings has a variable and a reading of its own (`Setting.read?`).  An environment
gives a setting what its variable says, or else leaves it as it was (`value_overridden`), and looks at no
other; so a setting that an environment decides comes out the same whatever the settings were.
-/
namespace JsonnetLens

inductive Setting where
  | jsonnetExecutable
  | ksExecutable
  | extStrs
  | libPaths
  | outputFormat
  | environment
  | marker
  | timeout
  deriving DecidableEq, Repr

namespace Setting

@[reducible] def Value : Setting → Type
  | jsonnetExecutable | ksExecutable | environment => Json
  | extStrs => Table WideText WideText
  | libPaths => List WideText
  | outputFormat => OutputFormat
  | marker => Text
  | timeout => Float

def value : (setting : Setting) → Settings → setting.Value
  | jsonnetExecutable => Settings.jsonnetExecutable
  | ksExecutable => Settings.ksExecutable
  | extStrs => Settings.extStrs
  | libPaths => Settings.libPaths
  | outputFormat => Settings.outputFormat
  | environment => Settings.environment
  | marker => Settings.marker
  | timeout => Settings.timeout

/-- The name of the variable, without what all variables begin with. -/
def override : Setting → String
  | jsonnetExecutable => "JSONNET_EXECUTABLE"
  | ksExecutable => "KS_EXECUTABLE"
  | extStrs => "EXT_STRS"
  | libPaths => "LIB_PATHS"
  | outputFormat => "OUTPUT_FORMAT"
  | environment => "ENVIRONMENT"
  | marker => "MARKER"
  | timeout => "TIMEOUT"

/-- Nothing but the eight settings makes a difference. -/
theorem eq_of_value_eq {s s' : Settings} (h : ∀ setting : Setting, setting.value s = setting.value s') :
    s = s' := by
  cases s
  cases s'
  rw [Settings.mk.injEq]
  exact ⟨h .jsonnetExecutable, h .ksExecutable, h .extStrs, h .libPaths, h .outputFormat,
    h .environment, h .marker, h .timeout⟩

variable [Nesting]

/-- What the text of the variable makes of the setting; `none` where it cannot be read. -/
def read? : (setting : Setting) → Text → Option setting.Value
  | jsonnetExecutable, t | ksExecutable, t | environment, t => some (Json.ofText t)
  | extStrs, t => Environ.extStrsOf? t
  | libPaths, t => some (Environ.readLibPaths t)
  | outputFormat, t => some (OutputFormat.ofName t)
  | marker, t => some t
  | timeout, t => readFloat? t

/-- What an environment says of the setting. -/
def override? (setting : Setting) (environ : Environ) : Option setting.Value :=
  (environ.override? setting.override).bind setting.read?

theorem isSome_read?_iff {setting : Setting} {t : Text} :
    (setting.read? t).isSome ↔
      (setting = .extStrs → ∃ fields, Json.read t = .ok (.object fields)) ∧
      (setting = .timeout → ∃ x, readFloat? t = some x) := by
  cases setting with
  | extStrs =>
    simp only [forall_const, reduceCtorEq, false_imp_iff, and_true]
    change (Environ.extStrsOf? t).isSome ↔ _
    unfold Environ.extStrsOf?
    split
    · rename_i fields hread
      simp [hread]
    · rename_i hread
      simpa using hread
  | timeout => simp [read?, Option.isSome_iff_exists]
  | _ => simp [read?]

/-- **A setting is what the environment says of it, and else what it was.** -/
theorem value_overridden (setting : Setting) (s : Settings) (environ : Environ) :
    setting.value (s.overridden environ) = (setting.override? environ).getD (setting.value s) := by
  cases setting with
  | extStrs | timeout => rfl
  | _ =>
    simp only [override?, override, read?, value, Settings.overridden]
    cases environ.override? _ <;> rfl

end Setting

namespace Environ

theorem override?_eq_some_iff {environ : Environ} {name : String} {t : Text} :
    environ.override? name = some t ↔
      environ.get? (variablePrefix ++ name.toList) = some t ∧ t ≠ [] := by
  simp [override?, Option.filter_eq_some_iff]

end Environ

/-- An environment says something of a setting if its variable is set and not empty, and its text is an
object for external variables and a number for the time limit. -/
theorem Setting.isSome_override?_iff [Nesting] {setting : Setting} {environ : Environ} :
    (setting.override? environ).isSome ↔
      ∃ t, environ.get? (Environ.variablePrefix ++ setting.override.toList) = some t ∧ t ≠ [] ∧
        (setting = .extStrs → ∃ fields, Json.read t = .ok (.object fields)) ∧
        (setting = .timeout → ∃ x, readFloat? t = some x) := by
  simp only [← isSome_read?_iff, ← and_assoc, ← Environ.override?_eq_some_iff]
  rw [override?]
  cases environ.override? setting.override <;> simp

namespace Settings

section

variable [Nesting] {environ : Environ} {s s' : Settings}

/-- Whether an environment is taken does not depend on the settings. -/
theorem withEnviron_eq_ok_overridden (h : s.withEnviron environ = .ok s') (r : Settings) :
    r.withEnviron environ = .ok (r.overridden environ) := by
  rcases environ.extStrs?_cases with ⟨hread, _⟩ | ⟨t, limit, _, _, hread⟩
  · exact withEnviron_of_ok hread r
  · rw [withEnviron_of_error hread] at h
    cases h

theorem overridden_overridden (s : Settings) (environ : Environ) :
    (s.overridden environ).overridden environ = s.overridden environ := by
  refine Setting.eq_of_value_eq fun setting => ?_
  rw [setting.value_overridden, setting.value_overridden]
  cases setting.override? environ <;> rfl

/-! ## Settings as they come to be -/

/-- Settings that were read from a configuration and then overridden any number of times. -/
inductive IsObtained : Settings → Prop
  | configured {config : Json} {s : Settings} (h : ofConfig config = .ok s) : IsObtained s
  | overridden {environ : Environ} {s s' : Settings} (hs : IsObtained s)
      (h : s.withEnviron environ = .ok s') : IsObtained s'

theorem isObtained_default : IsObtained {} :=
  .configured (show ofConfig .null = .ok {} from rfl)

/-- Settings can be obtained that share none of the defaults. -/
theorem exists_isObtained_ne_default :
    ∃ s, IsObtained s ∧ ∀ setting : Setting, setting.value s ≠ setting.value {} := by
  let plain : Settings :=
    { jsonnetExecutable := .int 5, ksExecutable := .int 5, extStrs := [([], WideText.ofText ['5'])]
      libPaths := [WideText.ofText ['5']], outputFormat := .json, environment := .int 5, timeout := 5.0 }
  have hplain : ofConfig (.object [(WideText.ofText "executablePath".toList, .int 5),
      (WideText.ofText "ksPath".toList, .int 5),
      (WideText.ofText "extStrs".toList, .object [([], .int 5)]),
      (WideText.ofText "libPaths".toList, .array [.int 5]),
      (WideText.ofText "outputFormat".toList, .ofText "json".toList),
      (WideText.ofText "environment".toList, .int 5),
      (WideText.ofText "timeout".toList, .int 5)]) = .ok plain := by rfl
  -- no configuration has a marker
  have hmarker : plain.withEnviron [("KSONNET_TOOLING_MARKER".toList, ['5'])] =
      .ok { plain with marker := ['5'] } := by rfl
  refine ⟨_, .overridden (.configured hplain) hmarker, fun setting => ?_⟩
  cases setting with
  | jsonnetExecutable | ksExecutable | environment => exact nofun
  | extStrs | libPaths => exact List.cons_ne_nil _ _
  | outputFormat | marker | timeout => exact of_decide_eq_true rfl

/-! ## What an environment decides -/

/-- The setting comes out of the environment the same, whatever the settings were. -/
def IsDecidedBy (environ : Environ) (setting : Setting) : Prop :=
  ∃ v, ∀ s s', IsObtained s → s.withEnviron environ = .ok s' → setting.value s' = v

theorem isDecidedBy_iff (h : s.withEnviron environ = .ok s') {setting : Setting} :
    IsDecidedBy environ setting ↔ (setting.override? environ).isSome := by
  constructor
  · rintro ⟨v, hv⟩
    by_contra hnot
    have hnone := Option.not_isSome_iff_eq_none.1 hnot
    -- a setting that is left alone would have the same value in all settings there are
    have hkept : ∀ r, IsObtained r → setting.value r = v := fun r hr => by
      have hvalue := hv r _ hr (withEnviron_eq_ok_overridden h r)
      rwa [setting.value_overridden, hnone, Option.getD_none] at hvalue
    obtain ⟨r, hr, hne⟩ := exists_isObtained_ne_default
    exact hne setting ((hkept r hr).trans (hkept {} isObtained_default).symm)
  · intro hsome
    obtain ⟨v, hv⟩ := Option.isSome_iff_exists.1 hsome
    refine ⟨v, fun r r' _ hr' => ?_⟩
    rw [eq_overridden hr', setting.value_overridden, hv, Option.getD_some]

theorem value_of_not_isDecidedBy (h : s.withEnviron environ = .ok s') {setting : Setting}
    (hnot : ¬ IsDecidedBy environ setting) : setting.value s' = setting.value s := by
  rw [isDecidedBy_iff h, Option.not_isSome_iff_eq_none] at hnot
  rw [eq_overridden h, setting.value_overridden, hnot, Option.getD_none]

/-- **An environment overrides setting by setting.**  A setting that it decides comes out the same
whatever the settings were, and each other setting stays as it was.  It decides those whose variable is
set and not empty, and readable where the variable is that of the external variables or the time limit.
The output format has one of two names, and overriding a second time changes nothing. -/
theorem withEnviron_fieldwise {s₁ s₂ s₁' s₂' : Settings} (hs₁ : IsObtained s₁) (hs₂ : IsObtained s₂)
    (h₁ : s₁.withEnviron environ = .ok s₁') (h₂ : s₂.withEnviron environ = .ok s₂') :
    (∀ setting : Setting,
      IsDecidedBy environ setting ∧ setting.value s₁' = setting.value s₂' ∨
      ¬ IsDecidedBy environ setting ∧ setting.value s₁' = setting.value s₁) ∧
    (∀ setting : Setting, IsDecidedBy environ setting ↔
      ∃ t, environ.get? (Environ.variablePrefix ++ setting.override.toList) = some t ∧ t ≠ [] ∧
        (setting = .extStrs → ∃ fields, Json.read t = .ok (.object fields)) ∧
        (setting = .timeout → ∃ x, readFloat? t = some x)) ∧
    s₁'.outputFormat.name ∈ ["json".toList, "yaml".toList] ∧
    (∀ t ∈ ["json".toList, "yaml".toList], environ.override? "OUTPUT_FORMAT" = some t →
      s₁'.outputFormat.name = t) ∧
    s₁'.withEnviron environ = .ok s₁' := by
  refine ⟨fun setting => ?_, fun setting => ?_, ?_, fun t ht hoverride => ?_, ?_⟩
  · by_cases hdecided : IsDecidedBy environ setting
    · obtain ⟨v, hv⟩ := id hdecided
      exact .inl ⟨hdecided, (hv s₁ s₁' hs₁ h₁).trans (hv s₂ s₂' hs₂ h₂).symm⟩
    · exact .inr ⟨hdecided, value_of_not_isDecidedBy h₁ hdecided⟩
  · rw [isDecidedBy_iff h₁, Setting.isSome_override?_iff]
  · cases s₁'.outputFormat <;> decide
  · have hformat := Setting.outputFormat.value_overridden s₁ environ
    simp only [Setting.value, Setting.override?, Setting.override, hoverride, Option.bind_some,
      Setting.read?, Option.getD_some] at hformat
    rw [eq_overridden h₁, hformat]
    rcases List.mem_pair.1 ht with rfl | rfl <;> rfl
  · rw [withEnviron_eq_ok_overridden h₁, eq_overridden h₁, overridden_overridden]

end

/-- Of five variables that are set, an empty one and a time limit in words decide nothing; an output
format by another name does. -/
theorem withEnviron_fieldwise_mixed :
    let _ : Nesting := .usual
    let environ : Environ := [("KSONNET_TOOLING_EXT_STRS".toList, "\x7b\"env\": \"dev\"\x7d".toList),
      ("KSONNET_TOOLING_LIB_PATHS".toList, "/a::/b".toList),
      ("KSONNET_TOOLING_OUTPUT_FORMAT".toList, "toml".toList),
      ("KSONNET_TOOLING_MARKER".toList, []), ("KSONNET_TOOLING_TIMEOUT".toList, "soon".toList)]
    let config := Json.object [(WideText.ofText "outputFormat".toList, .ofText "json".toList),
      (WideText.ofText "timeout".toList, .int 5)]
    ∃ s s' plain, ofConfig config = .ok s ∧ s.withEnviron environ = .ok s' ∧
      withEnviron {} environ = .ok plain ∧
      (∀ setting ∈ [Setting.extStrs, .libPaths, .outputFormat],
        IsDecidedBy environ setting ∧ setting.value s' = setting.value plain) ∧
      (∀ setting ∈ [Setting.ksExecutable, .marker, .timeout],
        ¬ IsDecidedBy environ setting ∧ setting.value s' = setting.value s) ∧
      s'.outputFormat ≠ s.outputFormat ∧ s'.withEnviron environ = .ok s' := by
  intro _ environ config
  let s : Settings := { outputFormat := .json, timeout := 5.0 }
  let plain : Settings :=
    { extStrs := [(WideText.ofText "env".toList, WideText.ofText "dev".toList)]
      libPaths := [WideText.ofText "/a".toList, WideText.ofText "/b".toList] }
  have hs : ofConfig config = .ok s := by rfl
  have h₁ : s.withEnviron environ = .ok { plain with timeout := 5.0 } := by rfl
  have h₂ : withEnviron {} environ = .ok plain := by rfl
  obtain ⟨hvalue, hdecided, -, -, hagain⟩ :=
    withEnviron_fieldwise (.configured hs) isObtained_default h₁ h₂
  have hdecisive : ∀ setting ∈ [Setting.extStrs, .libPaths, .outputFormat],
      (setting.override? environ).isSome = true := by decide +kernel
  have hsilent : ∀ setting ∈ [Setting.ksExecutable, .marker, .timeout],
      (setting.override? environ).isSome = false := by decide +kernel
  refine ⟨s, _, plain, hs, h₁, h₂, fun setting hsetting => ?_, fun setting hsetting => ?_, by decide,
    hagain⟩
  · exact (hvalue setting).resolve_right fun h =>
      h.1 ((isDecidedBy_iff h₁).2 (hdecisive setting hsetting))
  · exact (hvalue setting).resolve_left fun h =>
      absurd ((isDecidedBy_iff h₁).1 h.1) (Bool.eq_false_iff.1 (hsilent setting hsetting))

end Settings
end JsonnetLens
