import JsonnetLens.Proofs.Diagnostic.Answers
/-!
# Every diagnostic has an owner

A static error is shown under another path than the one of the document it was reported for, and the
reporter remembers that path.  `Owned` ties what is shown to one document over every order of reports
and clears, those that fail included: a clear of that document leaves nothing behind, and a clear of
another one takes its own path only.
-/
namespace JsonnetLens

/-- What is told to a client about one place: it fits the protocol, is not empty and says something. -/
structure Record.IsSound (r : Record) : Prop where
  fits : r.range.fits = true
  before : r.range.start.before r.range.stop = true
  message : r.message ≠ []

namespace CompilerError

theorem detailOf_ne_nil {located rest : Text} (h : ∃ c ∈ located, Text.isBlank c = false) :
    detailOf located rest ≠ [] := by
  unfold detailOf
  by_cases hd : (Text.trimLeft isDetailLead rest).isEmpty = true
  · simpa only [hd, if_true] using Text.trim_ne_nil h
  · rw [if_neg hd]
    exact fun hnil => hd (List.isEmpty_iff.2 hnil)

theorem isSound_of_staticRecord? {message : Text} {record : Record}
    (h : staticRecord? message = .ok (some record)) : record.IsSound := by
  rw [staticRecord?_eq] at h
  obtain ⟨frame, place, _, hplace, rfl⟩ := recordAt?_eq_some h
  obtain ⟨hfits, hbefore, hblank⟩ := sound_of_placeAt? hplace
  exact ⟨hfits, hbefore, detailOf_ne_nil hblank⟩

theorem isSound_of_frameRecord? {message line : Text} {record : Record} (hm : message ≠ [])
    (h : frameRecord? message line = .ok (some record)) : record.IsSound := by
  rw [frameRecord?_eq] at h
  obtain ⟨frame, place, _, hplace, rfl⟩ := recordAt?_eq_some h
  obtain ⟨hfits, hbefore, _⟩ := sound_of_placeAt? hplace
  exact ⟨hfits, hbefore, hm⟩

theorem eq_some_of_recordOf? {found : Except Fault (Option Record)} {record : Record}
    (h : recordOf? found = some record) : found = .ok (some record) := by
  rcases found with fault | _ | other
  · cases h
  · cases h
  · rw [Option.some.inj h]

theorem message_ne_nil {t message : Text} {stack : List Text} (h : ofText t = .runtime message stack) :
    message ≠ [] := by
  rw [ofText] at h
  generalize (lines t).drop 1 = read at h
  rcases read with _ | ⟨first, rest⟩
  · cases h
  rw [ofLines] at h
  split at h
  · cases h
  split at h
  · rename_i hmark
    cases h
    rintro rfl
    revert hmark
    decide
  · cases h

/-- **What an error text locates is sound.** -/
theorem isSound_of_mem_records {t : Text} {record : Record} (h : record ∈ (ofText t).records) :
    record.IsSound := by
  rcases he : ofText t with message | ⟨message, stack⟩ | message
  · rw [he, records, Option.mem_toList] at h
    exact isSound_of_staticRecord? (eq_some_of_recordOf? h)
  · rw [he, records] at h
    obtain ⟨line, _, hline⟩ := List.mem_filterMap.1 h
    exact isSound_of_frameRecord? (message_ne_nil he) (eq_some_of_recordOf? hline)
  · rw [he] at h
    cases h

theorem holds_batch {e : CompilerError} {batch : Batch} (h : e.batch = .ok batch) :
    batch.Holds e.records := by
  rw [(batch_eq_ok h).2]
  exact Batch.holds_ofRecords _

end CompilerError

namespace Reporter

/-- Records under one path as a client is told them. -/
def AreSound (records : List Record) : Prop := records ≠ [] ∧ ∀ record ∈ records, record.IsSound

theorem areSound_posting? {document : Text} {base : Path} {t : Text} {batch : Batch}
    {posting : Text × List Record} (h : (CompilerError.ofText t).batch = .ok batch)
    (hp : posting? document base (CompilerError.ofText t) batch = some posting) : AreSound posting.2 := by
  have hholds := CompilerError.holds_batch h
  have hsound : ∀ group ∈ batch, AreSound group.2 := fun group hg =>
    ⟨(hholds group hg).1, fun r hr => CompilerError.isSound_of_mem_records ((hholds group hg).2 r hr)⟩
  clear h hholds
  generalize CompilerError.ofText t = e at hp
  rcases e with message | ⟨message, stack⟩ | message
  · obtain ⟨group, hgroup, rfl⟩ := Option.map_eq_some_iff.1 hp
    exact hsound group (List.mem_of_head? hgroup)
  · simp only [posting?] at hp
    split at hp
    · cases hp
    · rename_i hne
      obtain rfl := Option.some.inj hp
      refine ⟨by simpa using hne, fun record hr => ?_⟩
      obtain ⟨group, hgroup, hrecord⟩ := List.mem_flatMap.1 hr
      exact (hsound group (List.mem_filter.1 hgroup).1).2 record hrecord
  · cases hp

/-- **The invariant**: one document owns all that is shown. -/
structure Owned (document : Text) (r : Reporter (WatchedCollection Text)) : Prop where
  atMostOne : r.shown.length ≤ 1
  sound : ∀ entry ∈ r.shown, AreSound entry.2
  onlyKey : ∀ other, other ≠ document → Table.contains other r.publishedFor = false
  owned : ∀ entry ∈ r.shown, entry.1 = document ∨ entry.1 ∈ r.strays document

variable {document : Text} {r : Reporter (WatchedCollection Text)}

theorem owned_fresh (document : Text) : Owned document { sink := {} } :=
  ⟨Nat.zero_le 1, fun _ h => (nomatch h), fun _ _ => rfl, fun _ h => (nomatch h)⟩

/-! ## Reports -/

theorem Owned.of_posting {posting : Option (Text × List Record)}
    (h : ∀ p, posting = some p → AreSound p.2) (r : Reporter (WatchedCollection Text)) :
    Owned document (afterReport document r posting) := by
  refine ⟨?_, ?_, fun other hne => publishedFor_afterReport hne r posting, owned_afterReport document r posting⟩
  · rw [shown_afterReport]
    cases posting <;> simp
  · intro entry hentry
    rw [shown_afterReport, Option.mem_toList] at hentry
    exact h entry hentry

/-- A report hands over what is shown to its document, or fails before it changes anything. -/
theorem Owned.report (h : Owned document r) (uri text : Text) (directory : Option Text) :
    ∃ owner, Owned owner ((Reporter.report uri text directory).perform r).2 := by
  rw [perform_report]
  rcases documentPath uri with fault | reported
  · exact ⟨document, h⟩
  simp only
  rcases hb : (CompilerError.ofText text).batch with fault | batch
  · have hnone : ∀ p, (none : Option (Text × List Record)) = some p → AreSound p.2 := nofun
    exact ⟨reported, Owned.of_posting hnone r⟩
  · exact ⟨reported, Owned.of_posting (fun _ hp => areSound_posting? hb hp) r⟩

/-! ## Clears -/

theorem Owned.shown_clear_owner (h : Owned document r) : (afterClear document r).shown = [] := by
  rw [shown_afterClear, List.filter_eq_nil_iff]
  intro entry hentry
  rcases h.owned entry hentry with howned | howned <;> simp [howned]

theorem Owned.strays_other (h : Owned document r) {other : Text} (hne : other ≠ document) :
    r.strays other = [] := by
  have hnone : r.publishedFor.get? other = none := by simpa [Table.contains] using h.onlyKey other hne
  rw [strays, hnone, Option.getD_none]

theorem Owned.shown_clear_other (h : Owned document r) {other : Text} (hne : other ≠ document) :
    (afterClear other r).shown = r.shown.erase other := by
  rw [shown_afterClear, h.strays_other hne, Table.erase]
  exact List.filter_congr fun entry _ => by simp

theorem Owned.onlyKey_clear (h : Owned document r) (cleared : Text) :
    ∀ other, other ≠ document → Table.contains other (afterClear cleared r).publishedFor = false := by
  intro other hne
  refine Table.contains_eq_false_iff.2 fun entry hentry => ?_
  exact Table.contains_eq_false_iff.1 (h.onlyKey other hne) entry (List.mem_filter.1 hentry).1

theorem Owned.afterClear (h : Owned document r) (cleared : Text) :
    Owned document (afterClear cleared r) := by
  by_cases hc : cleared = document
  · subst hc
    have hnil := h.shown_clear_owner
    refine ⟨?_, ?_, h.onlyKey_clear cleared, ?_⟩
    · simp [hnil]
    · simp [hnil]
    · simp [hnil]
  · have hshown := h.shown_clear_other hc
    have hmem : ∀ entry ∈ (Reporter.afterClear cleared r).shown, entry ∈ r.shown := by
      intro entry hentry
      rw [hshown] at hentry
      exact (List.mem_filter.1 hentry).1
    have hstrays : (Reporter.afterClear cleared r).strays document = r.strays document := by
      rw [strays, Reporter.afterClear, Table.get?_erase_of_ne (Ne.symm hc), strays]
    refine ⟨?_, fun entry he => h.sound entry (hmem entry he), h.onlyKey_clear cleared, fun entry he => ?_⟩
    · rw [hshown]
      exact Nat.le_trans (List.length_filter_le _ _) h.atMostOne
    · rw [hstrays]
      exact h.owned entry (hmem entry he)

theorem Owned.clear (h : Owned document r) (uri : Text) :
    Owned document ((Reporter.clear uri).perform r).2 := by
  rw [perform_clear]
  rcases documentPath uri with fault | cleared
  · exact h
  · exact h.afterClear cleared

/-! ## Runs -/

/-- What a reporter is asked to do. -/
inductive Request where
  | report (uri text : Text) (directory : Option Text)
  | clear (uri : Text)

/-- The reporter after a request, whether or not it fails. -/
def after (r : Reporter (WatchedCollection Text)) : Request → Reporter (WatchedCollection Text)
  | .report uri text directory => ((report uri text directory).perform r).2
  | .clear uri => ((clear uri).perform r).2

/-- The reporter after some requests, with nothing shown at first. -/
def afterAll (requests : List Request) : Reporter (WatchedCollection Text) :=
  requests.foldl after { sink := {} }

theorem Owned.after (h : Owned document r) (request : Request) :
    ∃ owner, Owned owner (r.after request) := by
  cases request with
  | report uri text directory => exact h.report uri text directory
  | clear uri => exact ⟨document, h.clear uri⟩

theorem owned_afterAll (requests : List Request) : ∃ owner, Owned owner (afterAll requests) := by
  have hfold : ∀ (r : Reporter (WatchedCollection Text)) (owner : Text), Owned owner r →
      ∃ owner, Owned owner (requests.foldl Reporter.after r) := by
    induction requests with
    | nil => exact fun r owner h => ⟨owner, h⟩
    | cons request requests ih =>
      intro r owner h
      obtain ⟨next, hnext⟩ := h.after request
      exact ih _ next hnext
  exact hfold _ [] (owned_fresh [])

/-- **All that is shown belongs to one document, which can take it away.**  A clear of the owner
leaves nothing, and a clear of another document takes away its own path and no other. -/
theorem exists_owner (requests : List Request) :
    ∃ document, Owned document (afterAll requests) ∧
      (∀ uri, documentPath uri = .ok document →
        ∃ r', (clear uri).perform (afterAll requests) = (.ok (), r') ∧ r'.shown = []) ∧
      (∀ uri other, documentPath uri = .ok other → other ≠ document →
        ∃ r', (clear uri).perform (afterAll requests) = (.ok (), r') ∧
          r'.shown = (afterAll requests).shown.erase other) := by
  obtain ⟨document, h⟩ := owned_afterAll requests
  refine ⟨document, h, fun uri huri => ?_, fun uri other huri hne => ?_⟩
  · exact ⟨_, by rw [perform_clear, huri], h.shown_clear_owner⟩
  · exact ⟨_, by rw [perform_clear, huri], h.shown_clear_other hne⟩

end Reporter
end JsonnetLens
