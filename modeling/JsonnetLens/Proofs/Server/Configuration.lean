import JsonnetLens.Proofs.Compiler.Shell
import JsonnetLens.Proofs.Preview.Halves
import JsonnetLens.Proofs.Server.Events
/-!
# The settings of a running server

The cache and the compiler hold the settings each for itself.  Nothing but a configuration touches
either (`undisturbed_held`), and a configuration is read to its end before it touches anything
(`perform_configure`); so in every run both hold what the last accepted configuration says.
-/
namespace JsonnetLens

namespace Session

/-- The settings of the cache and those of the compiler. -/
def held {σ : Type} (s : Session Shell σ) : Settings × Settings :=
  (s.cache.settings, s.cache.compiler.settings)

theorem held_of_redeem {σ : Type} {s s' : Session Shell σ} {ticket : Ticket}
    (h : s'.cache = ((PreviewCache.redeem ticket).perform s.cache).2) : s'.held = s.held := by
  rw [held, h, PreviewCache.perform_redeem, PreviewCache.settings_putAll,
    PreviewCache.compiler_putAll]
  rfl

theorem held_start {σ : Type} (tree : FileTree) (document : Document) (s : Session Shell σ) :
    ((start tree document).perform s).2.held = s.held := by
  have hcache : ((start tree document).perform s).2.cache =
      ((PreviewCache.start tree document).perform s.cache).2 := rfl
  rw [held, hcache, PreviewCache.perform_start]
  rcases s.cache.get? document with _ | entry
  · unfold PreviewCache.order
    rcases PreviewCache.plan s.cache.settings tree document with
      fault | ⟨mode, arguments, directory⟩
    · rfl
    · exact congrArg (s.cache.settings, ·) (Shell.settings_invoke mode arguments directory _)
  · rfl

end Session

namespace EditorServer

/-- What decides the settings, and where they are held. -/
def held (s : EditorServer) : Environ × Settings × Settings := (s.environ, s.session.held)

theorem preserves_onSession {α : Type} {c : Environ × Settings × Settings}
    {x : Attempt (Session Shell Publisher) α} (hx : ∀ s, (x.perform s).2.held = s.held) :
    (onSession x).Preserves fun s => s.held = c := fun s hs => by
  rw [← hs]
  exact congrArg (s.environ, ·) (hx s.session)

theorem undisturbed_held [Nesting] (c : Environ × Settings × Settings) :
    Undisturbed fun s => s.held = c where
  documents := fun _ hs => hs
  logs := fun _ _ hs => hs
  starts := fun tree document => preserves_onSession fun s => s.held_start tree document
  forgets := fun _ => preserves_onSession fun _ => rfl
  closes := fun _ => preserves_onSession fun _ => rfl
  judges := fun document ticket => preserves_onSession fun s =>
    Session.held_of_redeem (Session.cache_finishOpen document ticket s)
  renders := fun document ticket => preserves_onSession fun s =>
    Session.held_of_redeem (congrArg Session.cache (Session.state_finishRender document ticket s))
  ends := fun _ hs => hs

/-! ## Configurations -/

/-- The settings that a configuration asks for, with the overrides of the environment. -/
def settingsOf [Nesting] (environ : Environ) (fields : Table WideText Json) : Except Fault Settings := do
  (← Settings.ofConfig (configurationOf fields)).withEnviron environ

def settingsMessage (settings : Settings) : LogMessage :=
  ⟨.debug, "settings: ".toList ++ settings.display⟩

/-- **A configuration is taken as a whole or not at all.** -/
theorem perform_configure [Nesting] (config : Json) (s : EditorServer) :
    (configure config).perform s =
      match config with
      | .object fields =>
        match settingsOf s.environ fields with
        | .error fault => (.error fault, s)
        | .ok settings =>
          let t := applySettings settings s
          (.ok (), { t with sent := t.sent ++ [.log (settingsMessage settings)] })
      | _ => (.ok (), s) := by
  cases config with
  | object fields =>
    simp only [configure, settingsOf, Attempt.perform_bind, Attempt.perform_lift]
    rcases Settings.ofConfig (configurationOf fields) with fault | plain
    · rfl
    · simp only [bind, Except.bind, Attempt.perform_get]
      rcases plain.withEnviron s.environ with fault | settings <;> rfl
  | _ => rfl

theorem state_configure_of_error [Nesting] {config : Json} {s : EditorServer} {fault : Fault}
    (h : ((configure config).perform s).1 = .error fault) :
    ((configure config).perform s).2 = s := by
  rw [perform_configure] at h ⊢
  cases config with
  | object fields =>
    rcases hsettings : settingsOf s.environ fields with _ | settings
    · simp only [hsettings]
    · simp only [hsettings] at h
      cases h
  | _ => cases h

end EditorServer

namespace ServerLoop

open EditorServer (settingsOf)

theorem perform_take_configured [Nesting] (config : Json) (l : ServerLoop) :
    (take (.hears (.configured config))).perform l =
      let (answer, server) := (EditorServer.configure config).perform l.server
      (answer, { l with server }) := by
  simp only [take, onServer, EditorServer.begin, EditorServer.handle, EditorServer.goOn,
    Attempt.perform_bind, Attempt.perform_onPart]
  rcases (EditorServer.configure config).perform l.server with ⟨fault | done, server⟩ <;> rfl

/-! ## What the settings are in a run -/

/-- The configuration that was accepted in a turn. -/
def accepted? : Turn × Except Fault Unit → Option (Table WideText Json)
  | (.hears (.configured (.object fields)), .ok _) => some fields
  | _ => none

/-- The settings after a history: those of the latest accepted configuration, or else those that the
server was started with. -/
def settingsDue [Nesting] (environ : Environ) (history : List (Turn × Except Fault Unit)) :
    Except Fault Settings :=
  match (history.filterMap accepted?).getLast? with
  | none => Settings.withEnviron {} environ
  | some fields => settingsOf environ fields

theorem settingsDue_append_singleton [Nesting] (environ : Environ)
    (history : List (Turn × Except Fault Unit)) (last : Turn × Except Fault Unit) :
    settingsDue environ (history ++ [last]) =
      match accepted? last with
      | none => settingsDue environ history
      | some fields => settingsOf environ fields := by
  rw [settingsDue, List.filterMap_append]
  rcases h : accepted? last with _ | fields
  · rw [List.filterMap_cons_none h, List.filterMap_nil, List.append_nil]
    rfl
  · rw [List.filterMap_cons_some h, List.filterMap_nil, List.getLast?_concat]

theorem holds_due_take [Nesting] {environ : Environ} {history : List (Turn × Except Fault Unit)}
    {l : ServerLoop} {settings : Settings} (hdue : settingsDue environ history = .ok settings)
    (hheld : l.server.held = (environ, settings, settings)) (turn : Turn) :
    ∃ settings, settingsDue environ (history ++ [(turn, ((take turn).perform l).1)]) = .ok settings ∧
      ((take turn).perform l).2.server.held = (environ, settings, settings) := by
  simp only [settingsDue_append_singleton]
  by_cases hturn : ∃ config, turn = .hears (.configured config)
  · obtain ⟨config, rfl⟩ := hturn
    rw [perform_take_configured, EditorServer.perform_configure]
    cases config with
    | object fields =>
      have henviron : l.server.environ = environ := congrArg Prod.fst hheld
      simp only [henviron]
      rcases hsettings : settingsOf environ fields with fault | new
      · exact ⟨settings, hdue, hheld⟩
      · exact ⟨new, hsettings, by rw [← henviron]; rfl⟩
    | _ => exact ⟨settings, hdue, hheld⟩
  · have hnone : accepted? (turn, ((take turn).perform l).1) = none := by
      unfold accepted?
      split
      · rename_i h
        exact absurd ⟨_, congrArg Prod.fst h⟩ hturn
      · rfl
    rw [hnone]
    refine ⟨settings, hdue, ?_⟩
    exact (EditorServer.undisturbed_held _).preserves_take turn
      (fun config h => absurd ⟨config, h⟩ hturn) l hheld

theorem Run.holds_due [Nesting] {environ : Environ} {fates : List Fate} {server : EditorServer}
    {history : List (Turn × Except Fault Unit)} {l : ServerLoop}
    (hlaunch : EditorServer.launch environ fates = .ok server) (run : Run ⟨server, []⟩ history l) :
    ∃ settings, settingsDue environ history = .ok settings ∧
      l.server.held = (environ, settings, settings) := by
  induction run with
  | start =>
    obtain ⟨settings, hsettings, rfl⟩ := EditorServer.launch_eq_ok hlaunch
    exact ⟨settings, hsettings, rfl⟩
  | next turn _ ih =>
    obtain ⟨settings, hdue, hheld⟩ := ih
    exact holds_due_take hdue hheld turn

end ServerLoop
end JsonnetLens
