import JsonnetLens.Compiler.Run
import JsonnetLens.Proofs.Compiler.Shell
/-!
# Arguments that are texts

Some settings are kept as values of any kind, and only from texts can a command line be built.
Where those settings are texts, so is every argument of a compilation, and a shell answers the call
unless it waits without end (`Compiler.answers_shell`).
-/
namespace JsonnetLens

def Json.IsText (v : Json) : Prop := ∃ t, v = .string t

/-- The settings that may be of any kind are texts. -/
structure Settings.IsTyped (s : Settings) : Prop where
  jsonnetExecutable : s.jsonnetExecutable.IsText
  ksExecutable : s.ksExecutable.IsText
  environment : s.environment.IsText

namespace Json

theorem isText_ofText (t : Text) : (Json.ofText t).IsText := ⟨_, rfl⟩

end Json

/-! ## What is passed -/

theorem isText_applicationArguments {environment : Json} (h : environment.IsText) (component : Text) :
    ∀ argument ∈ applicationArguments environment component, argument.IsText := by
  intro argument hmem
  simp only [applicationArguments, List.mem_cons, List.not_mem_nil, or_false] at hmem
  rcases hmem with rfl | rfl | rfl | rfl | rfl | rfl
  · exact Json.isText_ofText _
  · exact h
  all_goals exact Json.isText_ofText _

namespace Settings

theorem isText_standaloneArguments (s : Settings) (source : Text) :
    ∀ argument ∈ s.standaloneArguments source, argument.IsText := by
  intro argument hmem
  simp only [standaloneArguments, libPathArguments, extStrArguments, List.mem_append,
    List.mem_flatMap, List.mem_cons, List.not_mem_nil, or_false] at hmem
  rcases hmem with (⟨_, _, rfl | rfl⟩ | ⟨_, _, rfl | rfl⟩) | rfl <;> exact ⟨_, rfl⟩

theorem IsTyped.executable {s : Settings} (h : s.IsTyped) (mode : Mode) :
    (s.executable mode).IsText := by
  cases mode with
  | application => exact h.ksExecutable
  | standalone => exact h.jsonnetExecutable

end Settings

/-! ## Command lines -/

namespace Command

theorem exists_mapM_iff {α β ε : Type} {f : α → Except ε β} {l : List α} :
    (∃ bs, l.mapM f = .ok bs) ↔ ∀ a ∈ l, ∃ b, f a = .ok b := by
  induction l with
  | nil => exact ⟨nofun, fun _ => ⟨[], rfl⟩⟩
  | cons a l ih =>
    rw [List.forall_mem_cons, ← ih, List.mapM_cons]
    constructor
    · rintro ⟨bs, h⟩
      obtain ⟨b, hb, h⟩ := Attempt.exists_of_bind_eq_ok h
      obtain ⟨bs, hbs, _⟩ := Attempt.exists_of_bind_eq_ok h
      exact ⟨⟨b, hb⟩, bs, hbs⟩
    · rintro ⟨⟨b, hb⟩, bs, hbs⟩
      rw [hb, hbs]
      exact ⟨b :: bs, rfl⟩

variable {arguments : List Json}

theorem texts?_of_isText (h : ∀ argument ∈ arguments, argument.IsText) :
    ∃ texts, texts? arguments = .ok texts := by
  refine exists_mapM_iff.2 fun argument hmem => ?_
  obtain ⟨t, rfl⟩ := h argument hmem
  exact ⟨_, rfl⟩

theorem plainLine_of_isText (h : ∀ argument ∈ arguments, argument.IsText) :
    ∃ line, plainLine arguments = .ok line := by
  obtain ⟨words, hwords⟩ := texts?_of_isText h
  refine ⟨Text.join [' '] words, ?_⟩
  rw [plainLine, hwords]
  rfl

theorem exists_word?_iff {v : Json} : (∃ word, word? v = .ok word) ↔ v.IsText ∨ v.isVoid = true := by
  by_cases htext : v.IsText
  · obtain ⟨t, rfl⟩ := htext
    exact ⟨fun _ => .inl ⟨t, rfl⟩, fun _ => ⟨_, rfl⟩⟩
  · unfold word?
    split
    · exact absurd ⟨_, rfl⟩ htext
    · split <;> rename_i hvoid <;> simp [htext, hvoid]

/-- **A shell command can be put together** just when every argument is a text or says nothing. -/
theorem exists_shellLine_iff : (∃ line, shellLine arguments = .ok line) ↔
    ∀ argument ∈ arguments, argument.IsText ∨ argument.isVoid = true := by
  simp only [← exists_word?_iff, ← exists_mapM_iff, shellLine]
  constructor
  · rintro ⟨line, h⟩
    obtain ⟨words, hwords, _⟩ := Attempt.exists_of_bind_eq_ok h
    exact ⟨words, hwords⟩
  · rintro ⟨words, hwords⟩
    rw [hwords]
    exact ⟨_, rfl⟩

theorem shellLine_of_isText (h : ∀ argument ∈ arguments, argument.IsText) :
    ∃ line, shellLine arguments = .ok line :=
  exists_shellLine_iff.2 fun argument hmem => .inl (h argument hmem)

end Command

/-! ## Compilers that answer -/

/-- In this state the compiler takes any call whose arguments are texts: it finishes or is refused. -/
def Compiler.Answers {ι : Type} [Compiler ι] (compiler : ι) : Prop :=
  ∀ mode arguments directory, (∀ argument ∈ arguments, Json.IsText argument) →
    ∃ outcome, ((Compiler.invoke mode arguments directory).perform compiler).1 = .ok outcome

namespace Compiler

theorem answers_script (script : Script) : Answers script := fun _ _ _ _ => ⟨_, rfl⟩

/-- A shell whose executables are texts takes them too, whatever becomes of the process, if the wait
for it has an end. -/
theorem answers_shell {shell : Shell} (h : shell.settings.IsTyped)
    (hends : (nextAnswer (.runs 0 [] []) shell.fates).1.isEndless shell.settings = false) :
    Answers shell := by
  intro mode arguments directory harguments
  have hall : ∀ argument ∈ shell.settings.executable mode :: arguments, argument.IsText := by
    intro argument hmem
    rcases List.mem_cons.1 hmem with rfl | hmem
    · exact h.executable mode
    · exact harguments argument hmem
  obtain ⟨command, hcommand⟩ := Command.shellLine_of_isText hall
  obtain ⟨texts, htexts⟩ := Command.texts?_of_isText hall
  have hinvoke := Shell.perform_invoke mode arguments directory shell
  simp only [hcommand, htexts] at hinvoke
  obtain ⟨outcome, houtcome⟩ := (Shell.exists_conclude_iff _ _ command _).2 hends
  exact ⟨outcome, (congrArg Prod.fst hinvoke).trans houtcome⟩

end Compiler
end JsonnetLens
