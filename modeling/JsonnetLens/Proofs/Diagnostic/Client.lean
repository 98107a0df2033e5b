import JsonnetLens.Diagnostic.Sink
import JsonnetLens.Proofs.Uri.File
import JsonnetLens.Proofs.Diagnostic.Report
/-!
# What the client is left with

A client keeps the last list it was sent for a URI.  No message takes everything back, so a publisher
has to remember each path it has sent records for.  `Mirrors` relates the client to a collection that
takes the same steps: every step keeps it, and `client_eq_collection` reads it off after a run.
-/
namespace JsonnetLens

/-! ## Clients -/

/-- The last list that came for each URI. -/
abbrev Client := Table Text (List Diagnostic)

namespace Client

def receive (c : Client) (p : Publication) : Client := Table.insert p.uri p.diagnostics c

def diagnostics (c : Client) (uri : Text) : List Diagnostic := (Table.get? uri c).getD []

theorem diagnostics_receive (c : Client) (p : Publication) (uri : Text) :
    (c.receive p).diagnostics uri = if uri = p.uri then p.diagnostics else c.diagnostics uri := by
  unfold diagnostics receive
  by_cases h : uri = p.uri
  · rw [if_pos h, h, Table.get?_insert_self, Option.getD_some]
  · rw [if_neg h, Table.get?_insert_of_ne h]

theorem diagnostics_foldl_receive_empty (uris : List Text) (c : Client) (uri : Text) :
    ((uris.map fun uri => (⟨uri, []⟩ : Publication)).foldl receive c).diagnostics uri =
      if uri ∈ uris then [] else c.diagnostics uri := by
  induction uris generalizing c with
  | nil => simp
  | cons first uris ih =>
    rw [List.map_cons, List.foldl_cons, ih, diagnostics_receive]
    by_cases hm : uri ∈ uris
    · simp [hm]
    · by_cases hf : uri = first <;> simp [hm, hf, Publication.diagnostics]

end Client

/-- The client that was sent everything up to now. -/
def Publisher.client (p : Publisher) : Client := p.sent.foldl Client.receive []

/-! ## The steps of a sink -/

inductive SinkStep where
  | set (path : Text) (records : List Record)
  | delete (path : Text)
  | clearAll

namespace SinkStep

def IsLocal : SinkStep → Prop
  | set path _ => Path.IsLocal path
  | delete path => Path.IsLocal path
  | clearAll => True

def handle {σ : Type} [Sink σ] : SinkStep → Attempt σ Unit
  | set path records => Sink.set path records
  | delete path => Sink.delete path
  | clearAll => Sink.clearAll

def run {σ : Type} [Sink σ] (steps : List SinkStep) : Attempt σ Unit := steps.forM handle

end SinkStep

/-! ## Each step on the collection -/

namespace WatchedCollection

theorem get_set (w : WatchedCollection Text) (path other : Text) (records : List Record) :
    (w.set path records).collection.get other =
      if other = path then records else w.collection.get other := by
  change (Table.get? other (Table.insert path records w.collection.entries)).getD [] = _
  by_cases h : other = path
  · rw [if_pos h, h, Table.get?_insert_self, Option.getD_some]
  · rw [if_neg h, Table.get?_insert_of_ne h, Collection.get]

theorem get_delete (w : WatchedCollection Text) (path other : Text) :
    (w.delete path).collection.get other = if other = path then [] else w.collection.get other := by
  rw [Collection.get, entries_delete]
  by_cases h : other = path
  · rw [if_pos h, h, Table.get?_erase_self, Option.getD_none]
  · rw [if_neg h, Table.get?_erase_of_ne h, Collection.get]

end WatchedCollection

/-! ## Each step on the publisher -/

namespace Publisher

open FileUri (written)

def RemembersLocal (p : Publisher) : Prop := ∀ path ∈ p.published, ∃ t, path = some t ∧ Path.IsLocal t

theorem perform_publish {path : Text} (h : Path.IsLocal path) (records : List Record) (p : Publisher) :
    (publish (some path) records).perform p =
      (.ok (), { p with sent := p.sent ++ [⟨written path, records⟩] }) := by
  simp only [publish, FileUri.ofPath?_of_singleRoot h.1, Attempt.perform_modify]

theorem perform_set {path : Text} (h : Path.IsLocal path) (records : List Record) (p : Publisher) :
    (Publisher.set (some path) records).perform p =
      (.ok (), { sent := p.sent ++ [⟨written path, records⟩]
                 published := if p.published.contains (some path) then p.published
                   else p.published ++ [some path] }) := by
  rw [Publisher.set, Attempt.perform_bind, perform_publish h]
  rfl

theorem perform_delete {path : Text} (h : Path.IsLocal path) (p : Publisher) :
    (Publisher.delete (some path)).perform p =
      (.ok (), { sent := p.sent ++ [⟨written path, []⟩]
                 published := p.published.filter (· ≠ some path) }) := by
  rw [Publisher.delete, Attempt.perform_bind, perform_publish h]
  rfl

def urisOf (paths : List (Option Text)) : List Text := paths.filterMap (·.map written)

theorem mem_urisOf {path : Text} {paths : List (Option Text)} (h : some path ∈ paths) :
    written path ∈ urisOf paths :=
  List.mem_filterMap.2 ⟨some path, h, rfl⟩

theorem perform_forM_publish {paths : List (Option Text)}
    (h : ∀ path ∈ paths, ∃ t, path = some t ∧ Path.IsLocal t) (p : Publisher) :
    (paths.forM fun path => publish path []).perform p =
      (.ok (), { p with sent := p.sent ++ (urisOf paths).map fun uri => ⟨uri, []⟩ }) := by
  induction paths generalizing p with
  | nil => simp [urisOf]
  | cons path paths ih =>
    obtain ⟨t, rfl, ht⟩ := h path List.mem_cons_self
    have htail := fun p => ih (fun path hp => h path (List.mem_cons_of_mem _ hp)) p
    simp only [List.forM_eq_forM, List.forM_cons] at htail ⊢
    rw [Attempt.perform_bind, perform_publish ht]
    simp only [htail]
    simp [urisOf]

theorem ordered_of_remembersLocal {p : Publisher} (h : p.RemembersLocal) :
    ordered p.published = .ok (p.published.mergeSort pathLe) := by
  have hsome : none ∉ p.published := fun hmem => by
    obtain ⟨t, ht, _⟩ := h none hmem
    cases ht
  simp [ordered, hsome]

theorem perform_clearAll {p : Publisher} (h : p.RemembersLocal) :
    clearAll.perform p =
      (.ok (), { sent := p.sent ++ (urisOf (p.published.mergeSort pathLe)).map fun uri => ⟨uri, []⟩
                 published := [] }) := by
  have hlocal : ∀ path ∈ p.published.mergeSort pathLe, ∃ t, path = some t ∧ Path.IsLocal t :=
    fun path hp => h path (List.mem_mergeSort.1 hp)
  unfold clearAll
  simp only [Attempt.perform_bind, Attempt.perform_get, ordered_of_remembersLocal h,
    perform_forM_publish hlocal, Attempt.perform_modify]

theorem mem_remembered {known path : Option Text} {published : List (Option Text)} :
    known ∈ (if published.contains path then published else published ++ [path]) ↔
      known ∈ published ∨ known = path := by
  split
  · rename_i hc
    have hpath : path ∈ published := by simpa using hc
    exact ⟨.inl, fun h => h.elim id (· ▸ hpath)⟩
  · simp

theorem diagnostics_client_append (p : Publisher) (path : Text) (records : List Record)
    (published : List (Option Text)) (uri : Text) :
    (client ⟨published, p.sent ++ [⟨written path, records⟩]⟩).diagnostics uri =
      if uri = written path then records.map Record.toDiagnostic else p.client.diagnostics uri := by
  rw [client, List.foldl_append, List.foldl_cons, List.foldl_nil, Client.diagnostics_receive]
  rfl

end Publisher

/-! ## Every step keeps the two alike -/

open FileUri (written written_inj)

/-- The client has what the collection holds, and the publisher knows where the client has something. -/
structure Mirrors (p : Publisher) (w : WatchedCollection Text) : Prop where
  remembersLocal : p.RemembersLocal
  agrees : ∀ path, Path.IsLocal path →
    p.client.diagnostics (written path) = (w.collection.get path).map Record.toDiagnostic
  remembered : ∀ uri, p.client.diagnostics uri ≠ [] → ∃ path, some path ∈ p.published ∧ uri = written path

variable {p : Publisher} {w : WatchedCollection Text}

theorem mirrors_fresh : Mirrors {} {} :=
  ⟨fun _ h => (nomatch h), fun _ _ => rfl, fun _ h => absurd rfl h⟩

namespace Mirrors

/-- What both are given for one path, they have there; elsewhere they keep what they had. -/
theorem agrees_append (h : Mirrors p w) {path : Text} (hl : Path.IsLocal path) (records : List Record)
    (published : List (Option Text)) {w' : WatchedCollection Text}
    (hget : ∀ other, w'.collection.get other = if other = path then records else w.collection.get other)
    {other : Text} (ho : Path.IsLocal other) :
    (Publisher.client ⟨published, p.sent ++ [⟨written path, records⟩]⟩).diagnostics (written other) =
      (w'.collection.get other).map Record.toDiagnostic := by
  rw [Publisher.diagnostics_client_append, hget, h.agrees other ho]
  by_cases hp : other = path
  · simp [hp]
  · rw [if_neg hp, if_neg fun heq => hp (written_inj ho hl heq)]

theorem set (h : Mirrors p w) {path : Text} (hl : Path.IsLocal path) (records : List Record) :
    ∃ p', (Publisher.set (some path) records).perform p = (.ok (), p') ∧ Mirrors p' (w.set path records) := by
  refine ⟨_, Publisher.perform_set hl records p, fun known hknown => ?_,
    fun other ho => h.agrees_append hl records _ (fun other => w.get_set path other records) ho,
    fun uri hne => ?_⟩
  · rcases Publisher.mem_remembered.1 hknown with hknown | hknown
    · exact h.remembersLocal known hknown
    · exact ⟨path, hknown, hl⟩
  · rw [Publisher.diagnostics_client_append] at hne
    by_cases hu : uri = written path
    · exact ⟨path, Publisher.mem_remembered.2 (.inr rfl), hu⟩
    · rw [if_neg hu] at hne
      obtain ⟨other, ho, rfl⟩ := h.remembered uri hne
      exact ⟨other, Publisher.mem_remembered.2 (.inl ho), rfl⟩

theorem delete (h : Mirrors p w) {path : Text} (hl : Path.IsLocal path) :
    ∃ p', (Publisher.delete (some path)).perform p = (.ok (), p') ∧ Mirrors p' (w.delete path) := by
  refine ⟨_, Publisher.perform_delete hl p,
    fun known hknown => h.remembersLocal known (List.mem_filter.1 hknown).1,
    fun other ho => h.agrees_append hl [] _ (w.get_delete path) ho, fun uri hne => ?_⟩
  rw [Publisher.diagnostics_client_append] at hne
  by_cases hu : uri = written path
  · simp [hu] at hne
  · rw [if_neg hu] at hne
    obtain ⟨other, ho, rfl⟩ := h.remembered uri hne
    have hother : some other ≠ some path := fun heq => hu (congrArg written (Option.some.inj heq))
    exact ⟨other, List.mem_filter.2 ⟨ho, decide_eq_true hother⟩, rfl⟩

/-- The publisher knows every place where the client has something, so clearing empties the client. -/
theorem diagnostics_cleared (h : Mirrors p w) (uri : Text) :
    (Publisher.client ⟨[], p.sent ++ (Publisher.urisOf (p.published.mergeSort Publisher.pathLe)).map
      fun uri => ⟨uri, []⟩⟩).diagnostics uri = [] := by
  rw [Publisher.client, List.foldl_append, Client.diagnostics_foldl_receive_empty]
  split
  · rfl
  · rename_i hnot
    by_cases hne : p.client.diagnostics uri = []
    · exact hne
    · obtain ⟨path, hpath, rfl⟩ := h.remembered uri hne
      exact absurd (Publisher.mem_urisOf (List.mem_mergeSort.2 hpath)) hnot

theorem clearAll (h : Mirrors p w) :
    ∃ p', Publisher.clearAll.perform p = (.ok (), p') ∧ Mirrors p' w.clearAll ∧
      ∀ uri, p'.client.diagnostics uri = [] := by
  refine ⟨_, Publisher.perform_clearAll h.remembersLocal, ⟨?_, fun path _ => ?_, fun uri hne => ?_⟩,
    h.diagnostics_cleared⟩
  · exact fun _ hmem => nomatch hmem
  · exact h.diagnostics_cleared (written path)
  · exact absurd (h.diagnostics_cleared uri) hne

theorem handle (h : Mirrors p w) {step : SinkStep} (hl : step.IsLocal) :
    ∃ p' w', step.handle.perform p = (.ok (), p') ∧ step.handle.perform w = (.ok (), w') ∧
      Mirrors p' w' ∧ (step = .clearAll → ∀ uri, p'.client.diagnostics uri = []) := by
  cases step with
  | set path records =>
    obtain ⟨p', hperform, hmirrors⟩ := h.set hl records
    exact ⟨p', _, hperform, rfl, hmirrors, nofun⟩
  | delete path =>
    obtain ⟨p', hperform, hmirrors⟩ := h.delete hl
    exact ⟨p', _, hperform, rfl, hmirrors, nofun⟩
  | clearAll =>
    obtain ⟨p', hperform, hmirrors, hempty⟩ := h.clearAll
    exact ⟨p', _, hperform, rfl, hmirrors, fun _ => hempty⟩

end Mirrors

/-! ## Runs -/

theorem SinkStep.perform_run_cons {σ : Type} [Sink σ] {step : SinkStep} {s s' : σ}
    (h : step.handle.perform s = (.ok (), s')) (steps : List SinkStep) :
    (run (step :: steps)).perform s = (run steps).perform s' := by
  have hrun : (run (step :: steps) : Attempt σ Unit) = (step.handle >>= fun _ => run steps) := rfl
  rw [hrun, Attempt.perform_bind, h]

theorem Mirrors.run (h : Mirrors p w) {steps : List SinkStep} (hl : ∀ step ∈ steps, step.IsLocal) :
    ∃ p' w', (SinkStep.run steps).perform p = (.ok (), p') ∧
      (SinkStep.run steps).perform w = (.ok (), w') ∧ Mirrors p' w' ∧
      (steps.getLast? = some .clearAll → ∀ uri, p'.client.diagnostics uri = []) := by
  induction steps generalizing p w with
  | nil => exact ⟨p, w, rfl, rfl, h, nofun⟩
  | cons step steps ih =>
    obtain ⟨p₁, w₁, hp, hw, hmirrors, hlast⟩ := h.handle (hl step List.mem_cons_self)
    rw [SinkStep.perform_run_cons hp, SinkStep.perform_run_cons hw]
    cases steps with
    | nil =>
      refine ⟨p₁, w₁, rfl, rfl, hmirrors, fun h => hlast ?_⟩
      simpa using h
    | cons next steps =>
      obtain ⟨p', w', hp', hw', hmirrors', hlast'⟩ :=
        ih hmirrors fun step hstep => hl step (List.mem_cons_of_mem _ hstep)
      exact ⟨p', w', hp', hw', hmirrors', by rwa [List.getLast?_cons_cons]⟩

/-- **The client has what the collection holds.**  No step fails; each path has a URI of its own, and
there the client has the records of the path; it has nothing anywhere else, and nothing at all when
everything has just been cleared. -/
theorem client_eq_collection {steps : List SinkStep} (h : ∀ step ∈ steps, step.IsLocal) :
    ∃ p w, (SinkStep.run steps).perform ({} : Publisher) = (.ok (), p) ∧
      (SinkStep.run steps).perform ({} : WatchedCollection Text) = (.ok (), w) ∧
      (∀ path, Path.IsLocal path → ∃ uri, FileUri.ofPath? path = .ok uri ∧
        p.client.diagnostics uri = (w.collection.get path).map Record.toDiagnostic ∧
        ∀ other, Path.IsLocal other → FileUri.ofPath? other = .ok uri → other = path) ∧
      (∀ uri, p.client.diagnostics uri ≠ [] →
        ∃ path, Path.IsLocal path ∧ FileUri.ofPath? path = .ok uri) ∧
      (steps.getLast? = some .clearAll → ∀ uri, p.client.diagnostics uri = []) := by
  obtain ⟨p, w, hp, hw, hmirrors, hlast⟩ := mirrors_fresh.run h
  refine ⟨p, w, hp, hw, fun path hl => ?_, fun uri hne => ?_, hlast⟩
  · refine ⟨written path, FileUri.ofPath?_of_singleRoot hl.1, hmirrors.agrees path hl, fun other ho heq => ?_⟩
    rw [FileUri.ofPath?_of_singleRoot ho.1] at heq
    exact written_inj ho hl (Except.ok.inj heq)
  · obtain ⟨path, hpath, rfl⟩ := hmirrors.remembered uri hne
    obtain ⟨_, heq, hl⟩ := hmirrors.remembersLocal _ hpath
    obtain rfl := Option.some.inj heq
    exact ⟨path, hl, FileUri.ofPath?_of_singleRoot hl.1⟩

/-- A path that coding changes, next to one that was taken back. -/
theorem client_eq_collection_blank :
    let record : Record := ⟨"lib".toList, ⟨⟨0, 1⟩, ⟨0, 2⟩⟩, "boom".toList⟩
    let steps : List SinkStep :=
      [.set "/w/b.jsonnet".toList [record, record], .set "/w/my lib.jsonnet".toList [record],
        .delete "/w/b.jsonnet".toList]
    (∀ step ∈ steps, step.IsLocal) ∧
      ∃ p, (SinkStep.run steps).perform ({} : Publisher) = (.ok (), p) ∧
        p.client.diagnostics "file:///w/my%20lib.jsonnet".toList = [record.toDiagnostic] ∧
        p.client.diagnostics "file:///w/b.jsonnet".toList = [] := by
  intro record steps
  have hlib : Path.IsLocal "/w/my lib.jsonnet".toList :=
    ⟨⟨_, rfl, by decide⟩, Path.not_hasDrive_of_third (by decide)⟩
  have hb : Path.IsLocal "/w/b.jsonnet".toList :=
    ⟨⟨_, rfl, by decide⟩, Path.not_hasDrive_of_third (by decide)⟩
  have hsteps : ∀ step ∈ steps, step.IsLocal := by
    intro step hstep
    simp only [steps, List.mem_cons, List.not_mem_nil, or_false] at hstep
    rcases hstep with rfl | rfl | rfl
    · exact hb
    · exact hlib
    · exact hb
  obtain ⟨p, w, hp, hw, hshows, _⟩ := client_eq_collection hsteps
  have hcollection : w = ((SinkStep.run steps).perform ({} : WatchedCollection Text)).2 := by rw [hw]
  obtain ⟨uri, huri, hrecords, _⟩ := hshows _ hlib
  obtain ⟨uri', huri', hrecords', _⟩ := hshows _ hb
  have hlibUri : FileUri.ofPath? "/w/my lib.jsonnet".toList = .ok "file:///w/my%20lib.jsonnet".toList :=
    Attempt.eq_ok_of_toOption (by decide +kernel)
  have hbUri : FileUri.ofPath? "/w/b.jsonnet".toList = .ok "file:///w/b.jsonnet".toList :=
    Attempt.eq_ok_of_toOption (by decide +kernel)
  obtain rfl := Except.ok.inj (hlibUri.symm.trans huri)
  obtain rfl := Except.ok.inj (hbUri.symm.trans huri')
  rw [hcollection] at hrecords hrecords'
  exact ⟨hsteps, p, hp, hrecords, hrecords'⟩

end JsonnetLens
