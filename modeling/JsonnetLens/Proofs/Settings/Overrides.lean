import JsonnetLens.Settings.Environment
import JsonnetLens.Proofs.Json.RoundTrip
/-!
# What an environment overrides

Each variable of an environment overrides one setting and leaves the others alone (`overridden`).  A
variable whose text cannot be read counts as if it were not set, but for external variables that go beyond
a limit, in the digits of an integer or in how deep they nest: these are not ignored, and then no setting
is overridden at all (`withEnviron_ignores`).
-/
namespace JsonnetLens

namespace Environ

variable {environ : Environ} {name other : String} {t : Text}

/-- The environment in which the variable of one setting is not set. -/
def without (name : String) (environ : Environ) : Environ :=
  Table.erase (variablePrefix ++ name.toList) environ

theorem override?_without_self (name : String) (environ : Environ) :
    (environ.without name).override? name = none := by
  rw [override?, without, Table.get?_erase_self, Option.filter_none]

theorem override?_without_of_ne (h : other ≠ name) (environ : Environ) :
    (environ.without name).override? other = environ.override? other := by
  have hkey : variablePrefix ++ other.toList ≠ variablePrefix ++ name.toList := fun hkey =>
    h (String.toList_injective (List.append_cancel_left hkey))
  rw [override?, without, Table.get?_erase_of_ne hkey, override?]

theorem override?_singleton (name : String) (h : t ≠ []) :
    override? [(variablePrefix ++ name.toList, t)] name = some t := by
  rw [override?, Table.get?, if_pos rfl, Option.filter_some, if_pos (by simpa using h)]

/-! ## External variables -/

section

variable [Nesting]

/-- The external variables of a text that is a JSON object. -/
def extStrsOf? (t : Text) : Option (Table WideText WideText) :=
  match Json.read t with
  | .ok (.object fields) => some (fields.map fun (name, value) => (name, value.display))
  | _ => none

theorem readExtStrs?_of_exceeds {limit : Json.Limit} (h : Json.Exceeds t limit) :
    readExtStrs? t = .error (.ofLimit limit) := by
  rw [readExtStrs?, Json.read_eq_beyond_iff.2 h]

theorem readExtStrs?_of_not_exceeds (h : ∀ limit, ¬ Json.Exceeds t limit) :
    readExtStrs? t = .ok (extStrsOf? t) := by
  unfold readExtStrs? extStrsOf?
  rcases hread : Json.read t with (e | limit) | value
  · rfl
  · exact absurd (Json.read_eq_beyond_iff.1 hread) (h limit)
  · cases value <;> rfl

theorem extStrsOf?_eq_none (h : ∀ fields, Json.read t ≠ .ok (.object fields)) : extStrsOf? t = none := by
  unfold extStrsOf?
  split
  · rename_i fields hread
    exact absurd hread (h fields)
  · rfl

/-- What the environment says of the external variables. -/
def extStrs? (environ : Environ) : Except Fault (Option (Table WideText WideText)) :=
  match environ.override? "EXT_STRS" with
  | none => .ok none
  | some t => readExtStrs? t

theorem extStrs?_cases (environ : Environ) :
    environ.extStrs? = .ok ((environ.override? "EXT_STRS").bind extStrsOf?) ∧
      (∀ t, environ.override? "EXT_STRS" = some t → ∀ limit, ¬ Json.Exceeds t limit) ∨
    ∃ t limit, environ.override? "EXT_STRS" = some t ∧ Json.Exceeds t limit ∧
      environ.extStrs? = .error (.ofLimit limit) := by
  unfold extStrs?
  rcases environ.override? "EXT_STRS" with _ | t
  · exact .inl ⟨rfl, nofun⟩
  · by_cases hexceeds : ∃ limit, Json.Exceeds t limit
    · obtain ⟨limit, hexceeds⟩ := hexceeds
      exact .inr ⟨t, limit, rfl, hexceeds, readExtStrs?_of_exceeds hexceeds⟩
    · have hwithin := not_exists.1 hexceeds
      refine .inl ⟨readExtStrs?_of_not_exceeds hwithin, fun _ ht => ?_⟩
      cases ht
      exact hwithin

end

end Environ

namespace Settings

section

variable [Nesting] {environ : Environ} {s s' : Settings}

/-- The settings with every override that says something. -/
def overridden (s : Settings) (environ : Environ) : Settings where
  jsonnetExecutable :=
    ((environ.override? "JSONNET_EXECUTABLE").map Json.ofText).getD s.jsonnetExecutable
  ksExecutable := ((environ.override? "KS_EXECUTABLE").map Json.ofText).getD s.ksExecutable
  extStrs := ((environ.override? "EXT_STRS").bind Environ.extStrsOf?).getD s.extStrs
  libPaths := ((environ.override? "LIB_PATHS").map Environ.readLibPaths).getD s.libPaths
  outputFormat := ((environ.override? "OUTPUT_FORMAT").map OutputFormat.ofName).getD s.outputFormat
  environment := ((environ.override? "ENVIRONMENT").map Json.ofText).getD s.environment
  marker := (environ.override? "MARKER").getD s.marker
  timeout := ((environ.override? "TIMEOUT").bind readFloat?).getD s.timeout

theorem withEnviron_of_ok
    (h : environ.extStrs? = .ok ((environ.override? "EXT_STRS").bind Environ.extStrsOf?)) (s : Settings) :
    s.withEnviron environ = .ok (s.overridden environ) := by
  -- `withEnviron` goes on after the variable in two branches, each with its own reading
  unfold Environ.extStrs? at h
  unfold withEnviron overridden
  rcases hoverride : environ.override? "EXT_STRS" with _ | t
  · rfl
  · simp only [hoverride, Option.bind_some] at h ⊢
    rw [h]
    rfl

theorem withEnviron_of_error {fault : Fault} (h : environ.extStrs? = .error fault) (s : Settings) :
    s.withEnviron environ = .error fault := by
  unfold Environ.extStrs? at h
  unfold withEnviron
  rcases hoverride : environ.override? "EXT_STRS" with _ | t
  · simp only [hoverride] at h
    cases h
  · simp only [hoverride] at h ⊢
    rw [h]
    rfl

theorem withEnviron_singleton_of_exceeds {t : Text} {limit : Json.Limit} (hne : t ≠ [])
    (h : Json.Exceeds t limit) (s : Settings) :
    s.withEnviron [("KSONNET_TOOLING_EXT_STRS".toList, t)] = .error (.ofLimit limit) := by
  have hext : Environ.override? [("KSONNET_TOOLING_EXT_STRS".toList, t)] "EXT_STRS" = some t :=
    Environ.override?_singleton "EXT_STRS" hne
  refine withEnviron_of_error ?_ s
  rw [Environ.extStrs?, hext]
  exact Environ.readExtStrs?_of_exceeds h

/-- **An environment is applied as a whole or, for its external variables, not at all.** -/
theorem withEnviron_cases (s : Settings) (environ : Environ) :
    s.withEnviron environ = .ok (s.overridden environ) ∧
      (∀ t, environ.override? "EXT_STRS" = some t → ∀ limit, ¬ Json.Exceeds t limit) ∨
    ∃ t limit, environ.override? "EXT_STRS" = some t ∧ Json.Exceeds t limit ∧
      s.withEnviron environ = .error (.ofLimit limit) := by
  rcases environ.extStrs?_cases with ⟨hread, hwithin⟩ | ⟨t, limit, ht, hexceeds, hread⟩
  · exact .inl ⟨withEnviron_of_ok hread s, hwithin⟩
  · exact .inr ⟨t, limit, ht, hexceeds, withEnviron_of_error hread s⟩

theorem eq_overridden (h : s.withEnviron environ = .ok s') : s' = s.overridden environ := by
  rcases s.withEnviron_cases environ with ⟨hok, _⟩ | ⟨_, _, _, _, herror⟩
  · exact Except.ok.inj (h.symm.trans hok)
  · rw [h] at herror
    cases herror

/-! ## Variables that do not count -/

theorem withEnviron_without_extStrs (s : Settings) (environ : Environ) :
    s.withEnviron (environ.without "EXT_STRS") = .ok (s.overridden (environ.without "EXT_STRS")) := by
  rcases s.withEnviron_cases (environ.without "EXT_STRS") with ⟨hok, _⟩ | ⟨_, _, ht, _⟩
  · exact hok
  · rw [Environ.override?_without_self] at ht
    cases ht

/-- External variables that say nothing are as good as none. -/
theorem overridden_without_extStrs (h : (environ.override? "EXT_STRS").bind Environ.extStrsOf? = none) :
    s.overridden (environ.without "EXT_STRS") = s.overridden environ := by
  unfold overridden
  rw [Environ.override?_without_self, h]
  simp [Environ.override?_without_of_ne]

theorem withEnviron_without_timeout (h : (environ.override? "TIMEOUT").bind readFloat? = none)
    (s : Settings) : s.withEnviron (environ.without "TIMEOUT") = s.withEnviron environ := by
  unfold withEnviron
  rw [Environ.override?_without_self, h]
  simp [Environ.override?_without_of_ne]

/-- **Variables that cannot be read are ignored, but for external variables beyond a limit.**  External
variables that are no JSON object and a time limit that is no number leave their settings alone, and the
outcome is that of the environment without them: every other override counts.  Only where the external
variables should have a value and have an integer of more digits than are converted, or an array or object
inside too many others, this fails, and then nothing is overridden. -/
theorem withEnviron_ignores (s : Settings) (environ : Environ) :
    ((∃ s', s.withEnviron environ = .ok s') ↔
      ∀ t, environ.override? "EXT_STRS" = some t → ∀ limit, ¬ Json.Exceeds t limit) ∧
    (∀ t limit, environ.override? "EXT_STRS" = some t → Json.Exceeds t limit →
      s.withEnviron environ = .error (.ofLimit limit)) ∧
    ∀ s', s.withEnviron environ = .ok s' → s' = s.overridden environ ∧
      ((∀ t, environ.override? "EXT_STRS" = some t → ∀ fields, Json.read t ≠ .ok (.object fields)) →
        s'.extStrs = s.extStrs ∧ s.withEnviron (environ.without "EXT_STRS") = .ok s') ∧
      ((∀ t, environ.override? "TIMEOUT" = some t → readFloat? t = none) →
        s'.timeout = s.timeout ∧ s.withEnviron (environ.without "TIMEOUT") = .ok s') := by
  refine ⟨⟨?_, fun hwithin => ?_⟩, fun t limit ht hexceeds => ?_, fun s' hs' => ?_⟩
  · rintro ⟨s', hs'⟩
    rcases s.withEnviron_cases environ with ⟨_, hwithin⟩ | ⟨_, _, _, _, herror⟩
    · exact hwithin
    · rw [hs'] at herror
      cases herror
  · rcases s.withEnviron_cases environ with ⟨hok, _⟩ | ⟨t, limit, ht, hexceeds, _⟩
    · exact ⟨_, hok⟩
    · exact absurd hexceeds (hwithin t ht limit)
  · rcases s.withEnviron_cases environ with ⟨_, hwithin⟩ | ⟨u, other, hu, hother, herror⟩
    · exact absurd hexceeds (hwithin t ht limit)
    · obtain rfl := Option.some.inj (ht.symm.trans hu)
      rw [herror, hexceeds.unique hother]
  · obtain rfl := eq_overridden hs'
    refine ⟨rfl, fun hnone => ?_, fun hnone => ?_⟩
    · have hnothing : (environ.override? "EXT_STRS").bind Environ.extStrsOf? = none :=
        Option.bind_eq_none_iff.2 fun t ht => Environ.extStrsOf?_eq_none (hnone t ht)
      refine ⟨by rw [overridden, hnothing, Option.getD_none], ?_⟩
      rw [withEnviron_without_extStrs, overridden_without_extStrs hnothing]
    · have hnothing : (environ.override? "TIMEOUT").bind readFloat? = none :=
        Option.bind_eq_none_iff.2 hnone
      refine ⟨by rw [overridden, hnothing, Option.getD_none], ?_⟩
      rw [withEnviron_without_timeout hnothing, hs']

end

/-- External variables that are no JSON and a time limit in words, beside a marker: only the marker
counts. -/
theorem withEnviron_ignores_words :
    let _ : Nesting := .usual
    let environ : Environ := [("KSONNET_TOOLING_EXT_STRS".toList, "not json".toList),
      ("KSONNET_TOOLING_TIMEOUT".toList, "soon".toList),
      ("KSONNET_TOOLING_MARKER".toList, "root.yaml".toList)]
    let plain : Settings := {}
    ∃ s, plain.withEnviron environ = .ok s ∧ s.marker = "root.yaml".toList ∧
      s.extStrs = plain.extStrs ∧ s.timeout = plain.timeout := by
  intro _ environ plain
  have hext : environ.override? "EXT_STRS" = some "not json".toList := by decide +kernel
  have hread : Json.read "not json".toList = .error (.badSyntax ⟨.expectedValue, 1, 1, 0⟩) := by rfl
  obtain ⟨hreturns, -, hsettings⟩ := withEnviron_ignores plain environ
  obtain ⟨s, hs⟩ := hreturns.2 fun t ht limit hexceeds => by
    obtain rfl := Option.some.inj (hext.symm.trans ht)
    rw [← Json.read_eq_beyond_iff, hread] at hexceeds
    cases hexceeds
  obtain ⟨hwhole, hextStrs, htimeout⟩ := hsettings s hs
  refine ⟨s, hs, ?_, (hextStrs fun t ht fields hfields => ?_).1, (htimeout fun t ht => ?_).1⟩
  · rw [hwhole]
    decide +kernel
  · obtain rfl := Option.some.inj (hext.symm.trans ht)
    rw [hread] at hfields
    cases hfields
  · obtain rfl : "soon".toList = t :=
      Option.some.inj ((by decide +kernel : environ.override? "TIMEOUT" = some "soon".toList).symm.trans ht)
    rfl

/-- External variables that are the least integer of more digits than are converted cannot be ignored, nor
can three thousand brackets. -/
theorem not_withEnviron_answers_power :
    let _ : Nesting := .usual
    withEnviron {} [("KSONNET_TOOLING_EXT_STRS".toList, Text.ofNat (10 ^ 4300))] =
      .error (.tooManyDigits 4301) ∧
    withEnviron {} [("KSONNET_TOOLING_EXT_STRS".toList, List.replicate 3000 '[')] = .error .tooDeep ∧
    ¬ ∀ (s : Settings) (environ : Environ), ∃ s', s.withEnviron environ = .ok s' := by
  intro _
  have hlong : Json.Exceeds (Text.ofNat (10 ^ 4300)) (.digits 4301) := Json.exceeds_pow (Nat.le_refl 4300)
  have hdeep : Json.Exceeds (List.replicate 3000 '[') .depth := Json.exceeds_brackets (by decide)
  have hrefused := withEnviron_singleton_of_exceeds (Text.ofNat_ne_nil _) hlong {}
  refine ⟨hrefused, withEnviron_singleton_of_exceeds (List.cons_ne_nil '[' _) hdeep {}, fun h => ?_⟩
  obtain ⟨s', hs'⟩ := h {} [("KSONNET_TOOLING_EXT_STRS".toList, Text.ofNat (10 ^ 4300))]
  rw [hrefused] at hs'
  cases hs'

end Settings
end JsonnetLens
