import JsonnetLens.Compiler.Run
/-!
# What a shell does

`Shell.perform_invoke` is a call of the shell as one equation.  A command that cannot be written down, or
not be given to a process, starts nothing; else there is one more start, and what is done to the process
depends on the time limit only (`Shell.interventions_conclude`).  A limit that is no number is up at once,
as is one that is not positive; an infinite one is never up, and a process without an end is then waited
for in vain.
-/
namespace JsonnetLens

namespace Fate

/-- Whether there is a process that is not over when its time limit is up. -/
def exceeds (settings : Settings) : Fate → Bool
  | missing => false
  | refused _ => false
  | runs .. => !Shell.givesTime settings
  | outlasts => true
  | hangs => !Shell.isUnlimited settings

/-- Neither the process nor its time limit has an end. -/
def isEndless (settings : Settings) : Fate → Bool
  | hangs => Shell.isUnlimited settings
  | _ => false

/-- A process is over before the time limit and returns 0. -/
def Succeeds (settings : Settings) (fate : Fate) : Prop :=
  ∃ stdout stderr, fate = runs 0 stdout stderr ∧ Shell.givesTime settings = true

/-- A limit that is no number does not even let a process run that ends at once, and an infinite one
does not end a process that never ends. -/
example : exceeds { timeout := Binary64.notANumber } (.runs 0 [] []) = true ∧
    exceeds { timeout := Binary64.infinity false } .hangs = false ∧
    isEndless { timeout := Binary64.infinity false } .hangs = true := by decide

end Fate

namespace Shell

section
variable (settings : Settings) (executable : Json) (command : Text) (fate : Fate)

theorem interventions_conclude :
    (conclude settings executable command fate).2 =
      if fate.exceeds settings then [.kill, .await] else [] := by
  cases fate with
  | missing => rfl
  | refused reason => rfl
  | runs exitCode stdout stderr =>
    rw [conclude, Fate.exceeds]
    cases givesTime settings <;> rfl
  | outlasts => rfl
  | hangs =>
    rw [conclude, Fate.exceeds]
    cases isUnlimited settings <;> rfl

/-- There is an outcome unless the wait has no end. -/
theorem exists_conclude_iff :
    (∃ outcome, (conclude settings executable command fate).1 = .ok outcome) ↔
      fate.isEndless settings = false := by
  cases fate with
  | missing => exact ⟨fun _ => rfl, fun _ => ⟨_, rfl⟩⟩
  | refused reason => exact ⟨fun _ => rfl, fun _ => ⟨_, rfl⟩⟩
  | runs exitCode stdout stderr =>
    rw [conclude]
    exact ⟨fun _ => rfl, fun _ => by cases givesTime settings <;> exact ⟨_, rfl⟩⟩
  | outlasts => exact ⟨fun _ => rfl, fun _ => ⟨_, rfl⟩⟩
  | hangs =>
    rw [conclude, Fate.isEndless]
    cases isUnlimited settings with
    | false => exact ⟨fun _ => rfl, fun _ => ⟨_, rfl⟩⟩
    | true => exact ⟨nofun, nofun⟩

end

variable {settings : Settings} {executable : Json} {command : Text} {fate : Fate} {result : Result}

theorem eq_of_timedOut (h : (timedOut settings command).1 = .ok (.finished result)) :
    result.command = command ∧ result.exitCode = -1 := by
  obtain rfl := Outcome.finished.inj (Except.ok.inj h)
  exact ⟨rfl, rfl⟩

theorem command_of_conclude (h : (conclude settings executable command fate).1 = .ok (.finished result)) :
    result.command = command := by
  cases fate with
  | missing =>
    obtain rfl := Outcome.finished.inj (Except.ok.inj h)
    rfl
  | refused reason => cases h
  | runs exitCode stdout stderr =>
    rw [conclude] at h
    split at h
    · obtain rfl := Outcome.finished.inj (Except.ok.inj h)
      rfl
    · exact (eq_of_timedOut h).1
  | outlasts => exact (eq_of_timedOut h).1
  | hangs =>
    rw [conclude] at h
    split at h
    · cases h
    · exact (eq_of_timedOut h).1

/-- A result with code 0 is one of a process that returned it in time. -/
theorem exitCode_of_conclude (h : (conclude settings executable command fate).1 = .ok (.finished result)) :
    result.exitCode = 0 ↔ fate.Succeeds settings := by
  have hstopped (hfate : ¬ fate.Succeeds settings)
      (h : (timedOut settings command).1 = .ok (.finished result)) :
      result.exitCode = 0 ↔ fate.Succeeds settings := by
    rw [(eq_of_timedOut h).2]
    exact iff_of_false (by decide) hfate
  cases fate with
  | missing =>
    obtain rfl := Outcome.finished.inj (Except.ok.inj h)
    exact ⟨nofun, fun ⟨_, _, hruns, _⟩ => nomatch hruns⟩
  | refused reason => cases h
  | runs exitCode stdout stderr =>
    rw [conclude] at h
    split at h
    · next htime =>
      obtain rfl := Outcome.finished.inj (Except.ok.inj h)
      constructor
      · rintro rfl
        exact ⟨stdout, stderr, rfl, htime⟩
      · rintro ⟨_, _, ⟨⟩, _⟩
        rfl
    · next htime => exact hstopped (fun ⟨_, _, _, hin⟩ => htime hin) h
  | outlasts => exact hstopped (fun ⟨_, _, hruns, _⟩ => nomatch hruns) h
  | hangs =>
    rw [conclude] at h
    split at h
    · cases h
    · exact hstopped (fun ⟨_, _, hruns, _⟩ => nomatch hruns) h

/-! ## Calls -/

variable (mode : Mode) (arguments : List Json) (directory : Text) (shell : Shell)

/-- **A call of the shell, as one equation.** -/
theorem perform_invoke :
    (invoke mode arguments directory).perform shell =
      let executable := shell.settings.executable mode
      let all := executable :: arguments
      match Command.shellLine all, Command.texts? all with
      | .error fault, _ => (.error fault, shell)
      | .ok _, .error fault => (.error fault, shell)
      | .ok command, .ok _ =>
        let (fate, fates) := nextAnswer (.runs 0 [] []) shell.fates
        let (outcome, interventions) := conclude shell.settings executable command fate
        (outcome,
          { shell with fates, started := shell.started ++ [⟨all, directory, interventions⟩] }) := by
  rw [invoke, Attempt.perform_get_bind]
  simp only [Attempt.perform_bind, Attempt.perform_lift]
  rcases Command.shellLine (shell.settings.executable mode :: arguments) with fault | command
  · rfl
  rcases Command.texts? (shell.settings.executable mode :: arguments) with fault | texts
  · rfl
  · simp only [Attempt.perform_modify]

theorem settings_invoke :
    ((invoke mode arguments directory).perform shell).2.settings = shell.settings := by
  rw [perform_invoke]
  dsimp only
  split <;> rfl

variable {mode arguments directory shell}

theorem invoke_eq_ok {shell' : Shell} {outcome : Outcome}
    (h : (invoke mode arguments directory).perform shell = (.ok outcome, shell')) :
    let executable := shell.settings.executable mode
    let fate := (nextAnswer (.runs 0 [] []) shell.fates).1
    ∃ command, Command.shellLine (executable :: arguments) = .ok command ∧
      (conclude shell.settings executable command fate).1 = .ok outcome ∧
      shell'.started = shell.started ++ [⟨executable :: arguments, directory,
        (conclude shell.settings executable command fate).2⟩] := by
  rw [perform_invoke] at h
  dsimp only at h ⊢
  split at h
  · cases h
  · cases h
  · next command texts hline htexts =>
    obtain ⟨houtcome, rfl⟩ := Prod.mk.inj h
    exact ⟨command, hline, houtcome, rfl⟩

end Shell
end JsonnetLens
