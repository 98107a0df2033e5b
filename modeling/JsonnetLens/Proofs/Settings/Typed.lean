import JsonnetLens.Json.Field
import JsonnetLens.Proofs.Compiler.Arguments
import JsonnetLens.Proofs.Settings.Overrides
/-!
# The kinds of settings

Three settings are kept as the kind of value that was configured (`rawSettings`), and all others are
converted.  So settings that were accepted are typed just when those three were texts, were left out or
are overridden (`isTyped_accepted_iff`), and a command can be put together just when its executable is a
text or says nothing.
-/
namespace JsonnetLens

/-- A setting that is kept as it is configured: its name in a configuration, the name of its variable,
and the setting itself. -/
structure RawSetting where
  field : String
  override : String
  value : Settings → Json

def rawSettings : List RawSetting :=
  [⟨"executablePath", "JSONNET_EXECUTABLE", Settings.jsonnetExecutable⟩,
    ⟨"ksPath", "KS_EXECUTABLE", Settings.ksExecutable⟩,
    ⟨"environment", "ENVIRONMENT", Settings.environment⟩]

namespace Json

variable {config : Json} {name : String}

/-- The field is not there, or null, or a text. -/
def IsTextAt (name : String) (config : Json) : Prop :=
  ∀ value, config.field? name = some value → value = .null ∨ value.IsText

theorem field?_of_isVoid (h : config.isVoid = true) : config.field? name = none := by
  cases config with
  | object fields =>
    obtain rfl := List.isEmpty_iff.1 h
    rfl
  | _ => rfl

end Json

namespace Settings

variable {config : Json} {environ : Environ} {plain s : Settings} {raw : RawSetting}

theorem isTyped_iff : s.IsTyped ↔ ∀ raw ∈ rawSettings, (raw.value s).IsText := by
  simp only [rawSettings, List.forall_mem_cons, List.not_mem_nil, false_imp_iff, implies_true,
    and_true]
  exact ⟨fun ⟨hjsonnet, hks, henvironment⟩ => ⟨hjsonnet, hks, henvironment⟩,
    fun ⟨hjsonnet, hks, henvironment⟩ => ⟨hjsonnet, hks, henvironment⟩⟩

theorem isTyped_default : IsTyped {} := ⟨⟨_, rfl⟩, ⟨_, rfl⟩, ⟨_, rfl⟩⟩

/-! ## Where the values come from -/

theorem value_ofFields {fields : Table WideText Json} (h : ofFields fields = .ok s)
    (hraw : raw ∈ rawSettings) :
    raw.value s = (given? fields raw.field).getD (raw.value {}) := by
  unfold ofFields at h
  obtain ⟨extStrs, _, h⟩ := Attempt.exists_of_bind_eq_ok h
  obtain ⟨libPaths, _, h⟩ := Attempt.exists_of_bind_eq_ok h
  obtain ⟨timeout, _, h⟩ := Attempt.exists_of_bind_eq_ok h
  obtain rfl := Except.ok.inj h
  simp only [rawSettings, List.mem_cons, List.not_mem_nil, or_false] at hraw
  rcases hraw with rfl | rfl | rfl <;> rfl

theorem value_overridden [Nesting] (s : Settings) (environ : Environ) (hraw : raw ∈ rawSettings) :
    raw.value (s.overridden environ) =
      ((environ.override? raw.override).map Json.ofText).getD (raw.value s) := by
  simp only [rawSettings, List.mem_cons, List.not_mem_nil, or_false] at hraw
  rcases hraw with rfl | rfl | rfl <;> rfl

/-- A field that is given as no text is kept as such. -/
theorem isText_given_iff {fields : Table WideText Json} {default : Json} (h : default.IsText)
    (name : String) :
    ((given? fields name).getD default).IsText ↔ (Json.object fields).IsTextAt name := by
  simp only [given?, Json.IsTextAt, Json.field?]
  rcases Table.get? (WideText.ofText name.toList) fields with _ | value
  · simp [h]
  · cases value with
    | null => simp [h]
    | _ => simp

theorem isText_value_iff (h : ofConfig config = .ok s) (hraw : raw ∈ rawSettings) :
    (raw.value s).IsText ↔ config.IsTextAt raw.field := by
  have hdefault : (raw.value {}).IsText := isTyped_iff.1 isTyped_default raw hraw
  unfold ofConfig at h
  split at h
  · rename_i hvoid
    obtain rfl := Except.ok.inj h
    refine iff_of_true hdefault fun value hvalue => ?_
    rw [Json.field?_of_isVoid hvoid] at hvalue
    cases hvalue
  · cases config with
    | object fields => rw [value_ofFields h hraw, isText_given_iff hdefault]
    | _ => cases h

theorem isText_value_overridden_iff [Nesting] (hraw : raw ∈ rawSettings) :
    (raw.value (s.overridden environ)).IsText ↔
      (environ.override? raw.override = none → (raw.value s).IsText) := by
  rw [value_overridden s environ hraw]
  rcases environ.override? raw.override with _ | t
  · simp
  · simpa using Json.isText_ofText t

theorem isText_applicationArguments_iff {environment : Json} (component : Text) :
    (∀ argument ∈ applicationArguments environment component, argument.IsText) ↔
      environment.IsText :=
  ⟨fun h => h environment (by simp [applicationArguments]),
    fun h => isText_applicationArguments h component⟩

/-! ## Accepted settings -/

/-- **Accepted settings are typed as far as what is not converted was a text.**  A configuration that is
accepted gives typed settings just when each executable and the environment is left out, null or a text;
with an environment, those that it overrides do not matter.  Everything else is converted, so the
arguments that compile a file are always texts.  The arguments that show a component are texts just when
the environment is one, and from texts a command can be put together just when the executable is a text
or says nothing. -/
theorem isTyped_accepted_iff [Nesting] (hplain : ofConfig config = .ok plain)
    (hs : plain.withEnviron environ = .ok s) :
    (plain.IsTyped ↔ ∀ raw ∈ rawSettings, config.IsTextAt raw.field) ∧
    (s.IsTyped ↔ ∀ raw ∈ rawSettings,
      environ.override? raw.override = none → config.IsTextAt raw.field) ∧
    (∀ source, ∀ argument ∈ s.standaloneArguments source, argument.IsText) ∧
    (∀ component, (∀ argument ∈ applicationArguments s.environment component, argument.IsText) ↔
      s.environment.IsText) ∧
    ∀ mode arguments, (∀ argument ∈ arguments, argument.IsText) →
      ((∃ line, Command.shellLine (s.executable mode :: arguments) = .ok line) ↔
        (s.executable mode).IsText ∨ (s.executable mode).isVoid = true) := by
  refine ⟨?_, ?_, s.isText_standaloneArguments, isText_applicationArguments_iff,
    fun mode arguments harguments => ?_⟩
  · rw [isTyped_iff]
    exact forall₂_congr fun raw hraw => isText_value_iff hplain hraw
  · obtain rfl := eq_overridden hs
    rw [isTyped_iff]
    refine forall₂_congr fun raw hraw => ?_
    rw [isText_value_overridden_iff hraw, isText_value_iff hplain hraw]
  · rw [Command.exists_shellLine_iff, List.forall_mem_cons]
    exact and_iff_left fun argument hmem => .inl (harguments argument hmem)

/-- Two fields that are no text, one of them overridden: components can be shown and no file can be
compiled. -/
theorem isTyped_accepted_iff_overridden :
    let _ : Nesting := .usual
    let config := Json.object [(WideText.ofText "executablePath".toList, .int 5),
      (WideText.ofText "ksPath".toList, .null), (WideText.ofText "environment".toList, .int 7)]
    let environ : Environ := [("KSONNET_TOOLING_ENVIRONMENT".toList, "prod".toList)]
    ∃ plain s, ofConfig config = .ok plain ∧ plain.withEnviron environ = .ok s ∧
      ¬ plain.environment.IsText ∧ s.environment.IsText ∧ ¬ s.IsTyped ∧
      (∃ line, Command.shellLine (s.executable .application ::
        applicationArguments s.environment "redis".toList) = .ok line) ∧
      ¬ ∃ line, Command.shellLine (s.executable .standalone ::
        s.standaloneArguments "/w/a.jsonnet".toList) = .ok line := by
  intro _ config environ
  let plain : Settings := { jsonnetExecutable := .int 5, environment := .int 7 }
  let s : Settings := { jsonnetExecutable := .int 5, environment := .ofText "prod".toList }
  have hplain : ofConfig config = .ok plain := by rfl
  have hs : plain.withEnviron environ = .ok s := by rfl
  obtain ⟨-, htyped, hfile, hcomponent, hcommand⟩ := isTyped_accepted_iff hplain hs
  refine ⟨plain, s, hplain, hs, nofun, ⟨_, rfl⟩, fun h => ?_, ?_, fun h => ?_⟩
  · have hfield := htyped.1 h ⟨"executablePath", "JSONNET_EXECUTABLE", Settings.jsonnetExecutable⟩
      List.mem_cons_self (by decide +kernel)
    rcases hfield (.int 5) rfl with hnull | ⟨t, ht⟩
    · cases hnull
    · cases ht
  · have harguments := (hcomponent "redis".toList).2 ⟨_, rfl⟩
    exact (hcommand .application _ harguments).2 (.inl ⟨_, rfl⟩)
  · rcases (hcommand .standalone _ (hfile _)).1 h with ⟨t, ht⟩ | hvoid
    · cases ht
    · cases hvoid

/-- A number for an executable is accepted, and no command can be put together with it. -/
theorem not_isTyped_accepted_number :
    let config := Json.object [(WideText.ofText "executablePath".toList, .int 5)]
    (∃ s, ofConfig config = .ok s ∧ ¬ s.IsTyped ∧
      Command.shellLine [s.executable .standalone, .ofText "a.jsonnet".toList] = .error .wrongKind) ∧
    ¬ ∀ (config : Json) (s : Settings), ofConfig config = .ok s → s.IsTyped := by
  intro config
  have haccepted : ofConfig config = .ok { jsonnetExecutable := .int 5 } := by rfl
  have hnot : ¬ ({ jsonnetExecutable := .int 5 } : Settings).IsTyped := fun h => by
    obtain ⟨t, ht⟩ := h.jsonnetExecutable
    cases ht
  exact ⟨⟨_, haccepted, hnot, rfl⟩, fun h => hnot (h config _ haccepted)⟩

end Settings
end JsonnetLens
