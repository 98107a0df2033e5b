import JsonnetLens.Diagnostic.Reporter
/-!
# What a report leaves behind

A report into a watched collection and a clear, each as one equation on the state of the reporter.
A report leaves at most one path, its *posting*, whatever was published before; a clear takes away
the path of its document and the paths that were published for it, and nothing else.
-/
namespace JsonnetLens.Reporter

/-- What is published, by path. -/
def shown (r : Reporter (WatchedCollection Text)) : Table Text (List Record) :=
  r.sink.collection.entries

/-- The one path that a report of a document publishes, with its records. -/
def posting? (document : Text) (base : Path) : CompilerError → Batch → Option (Text × List Record)
  | .static _, batch => batch.head?.map fun group => (resolve base group.1, group.2)
  | .runtime .., batch =>
    let records := documentRecords document base batch
    if records.isEmpty then none else some (document, records)
  | .unrecognized _, _ => none

/-- The state after a report with this posting. -/
def afterReport (document : Text) (r : Reporter (WatchedCollection Text)) :
    Option (Text × List Record) → Reporter (WatchedCollection Text)
  | none => { sink := r.sink.clearAll }
  | some (path, records) =>
    { sink := r.sink.clearAll.set path records
      publishedFor := if path = document then [] else [(document, [path])] }

/-- The other paths that a document has published. -/
def strays (r : Reporter (WatchedCollection Text)) (document : Text) : List Text :=
  (r.publishedFor.get? document).getD []

/-- The state after a clear. -/
def afterClear (document : Text) (r : Reporter (WatchedCollection Text)) :
    Reporter (WatchedCollection Text) :=
  { sink := ((r.strays document).mergeSort Text.le).foldl WatchedCollection.delete
      (r.sink.delete document)
    publishedFor := r.publishedFor.erase document }

/-! ## Reports -/

theorem staticBatch_cases {message : Text} {batch : Batch}
    (h : CompilerError.staticBatch message = .ok batch) :
    batch = [] ∨ ∃ record : Record, batch = [(record.file, [record])] := by
  unfold CompilerError.staticBatch at h
  rcases hr : CompilerError.staticRecord? message with _ | _ | record
  · rw [hr] at h
    cases h
  · rw [hr] at h
    cases h
    exact .inl rfl
  · rw [hr] at h
    cases h
    exact .inr ⟨record, rfl⟩

theorem perform_publishGroup (document : Text) (base : Path) (file : Text) (records : List Record)
    (r : Reporter (WatchedCollection Text)) :
    (publishGroup document base file records).perform (afterReport document r none) =
      (.ok (), afterReport document r (some (resolve base file, records))) := by
  by_cases hd : resolve base file = document
  · simp [publishGroup, onSink, Sink.set, afterReport, hd]
  · simp [publishGroup, Attempt.perform_bind, onSink, Sink.set, afterReport, hd, remember, Table.get?,
      Table.insert]

/-- **A report, as one equation.**  A document without a path changes nothing; a location that
cannot be read is noticed after the sink has been cleared. -/
theorem perform_report (r : Reporter (WatchedCollection Text)) (uri text : Text)
    (directory : Option Text) :
    (report uri text directory).perform r =
      match documentPath uri with
      | .error fault => (.error fault, r)
      | .ok document =>
        match (CompilerError.ofText text).batch with
        | .error fault => (.error fault, afterReport document r none)
        | .ok batch =>
          (.ok batch, afterReport document r
            (posting? document (baseDirectory document directory) (CompilerError.ofText text) batch)) := by
  unfold report
  rcases hd : documentPath uri with fault | document
  · simp [Attempt.perform_bind]
  have hclear : (onSink Sink.clearAll : Attempt (Reporter (WatchedCollection Text)) Unit).perform r =
      (.ok (), { r with sink := r.sink.clearAll }) := rfl
  simp only [Attempt.perform_bind, Attempt.perform_lift, hclear, Attempt.perform_modify]
  change (Attempt.perform _ (afterReport document r none)) = _
  generalize baseDirectory document directory = base
  rcases CompilerError.ofText text with message | ⟨message, stack⟩ | message
  · simp only [CompilerError.batch, Attempt.perform_bind, Attempt.perform_lift]
    rcases hb : CompilerError.staticBatch message with fault | batch
    · rfl
    rcases staticBatch_cases hb with rfl | ⟨record, rfl⟩
    · rfl
    · simp only [List.forM_eq_forM, List.forM_cons, List.forM_nil, Attempt.perform_bind, perform_publishGroup]
      rfl
  · simp only [CompilerError.batch, Attempt.perform_bind, Attempt.perform_lift]
    rcases hb : CompilerError.runtimeBatch message stack with fault | batch
    · rfl
    by_cases hr : documentRecords document base batch = []
    · simp [posting?, hr]
    · have hne : (documentRecords document base batch).isEmpty = false := by simpa using hr
      simp only [posting?, hne, Bool.not_false, if_true, Bool.false_eq_true, if_false, afterReport]
      rfl
  · rfl

theorem shown_afterReport (document : Text) (r : Reporter (WatchedCollection Text))
    (posting : Option (Text × List Record)) :
    (afterReport document r posting).shown = posting.toList := by
  rcases posting with _ | ⟨path, records⟩ <;> rfl

/-- A posting is in the document, or the reporter remembers its path for the document. -/
theorem owned_afterReport (document : Text) (r : Reporter (WatchedCollection Text))
    (posting : Option (Text × List Record)) :
    ∀ entry ∈ (afterReport document r posting).shown,
      entry.1 = document ∨ entry.1 ∈ (afterReport document r posting).strays document := by
  intro entry hentry
  rw [shown_afterReport] at hentry
  rcases posting with _ | ⟨path, records⟩
  · simp at hentry
  · simp only [Option.toList_some, List.mem_singleton] at hentry
    subst hentry
    by_cases hp : path = document
    · exact .inl hp
    · exact .inr (by simp [strays, afterReport, hp, Table.get?])

theorem publishedFor_afterReport {document other : Text} (hne : other ≠ document)
    (r : Reporter (WatchedCollection Text)) (posting : Option (Text × List Record)) :
    Table.contains other (afterReport document r posting).publishedFor = false := by
  rcases posting with _ | ⟨path, records⟩
  · rfl
  · by_cases hp : path = document
    · simp [afterReport, hp, Table.contains, Table.get?]
    · simp [afterReport, hp, Table.contains, Table.get?, Ne.symm hne]

theorem report_eq_ok {r r' : Reporter (WatchedCollection Text)} {uri text : Text}
    {directory : Option Text} {batch : Batch}
    (h : (report uri text directory).perform r = (.ok batch, r')) :
    ∃ document, documentPath uri = .ok document ∧ (CompilerError.ofText text).batch = .ok batch ∧
      r' = afterReport document r
        (posting? document (baseDirectory document directory) (CompilerError.ofText text) batch) := by
  rw [perform_report] at h
  rcases hd : documentPath uri with fault | document
  · simp [hd] at h
  rcases hb : (CompilerError.ofText text).batch with fault | batch'
  · simp [hd, hb] at h
  simp only [hd, hb, Prod.mk.injEq, Except.ok.injEq] at h
  obtain ⟨rfl, rfl⟩ := h
  exact ⟨document, rfl, rfl, rfl⟩

/-- **What a report publishes does not depend on what was published before.** -/
theorem shown_report {r r' other : Reporter (WatchedCollection Text)} {uri text : Text}
    {directory : Option Text} {batch : Batch}
    (h : (report uri text directory).perform r = (.ok batch, r')) :
    ((report uri text directory).perform other).2.shown = r'.shown := by
  obtain ⟨document, hd, hb, rfl⟩ := report_eq_ok h
  rw [perform_report]
  simp only [hd, hb, shown_afterReport]

/-! ## Clears -/

theorem perform_clear (r : Reporter (WatchedCollection Text)) (uri : Text) :
    (clear uri).perform r =
      match documentPath uri with
      | .error fault => (.error fault, r)
      | .ok document => (.ok (), afterClear document r) := by
  unfold clear
  rcases hd : documentPath uri with fault | document
  · simp [Attempt.perform_bind]
  have hdelete : ∀ (paths : List Text) (r : Reporter (WatchedCollection Text)),
      (paths.forM fun path => onSink (Sink.delete path)).perform r =
        (.ok (), { r with sink := paths.foldl WatchedCollection.delete r.sink }) := by
    intro paths
    induction paths with
    | nil => intro r; rfl
    | cons path paths ih =>
      intro r
      simp only [List.forM_eq_forM] at ih ⊢
      rw [List.forM_cons, Attempt.perform_bind]
      exact ih _
  simp only [Attempt.perform_bind, Attempt.perform_lift]
  exact hdelete _ _

/-- **What a clear takes away**: the document and what was published for it elsewhere. -/
theorem shown_afterClear (document : Text) (r : Reporter (WatchedCollection Text)) :
    (afterClear document r).shown =
      r.shown.filter fun entry => entry.1 ≠ document ∧ entry.1 ∉ r.strays document := by
  unfold shown afterClear
  rw [WatchedCollection.entries_foldl_delete, WatchedCollection.entries_delete, Table.erase,
    List.filter_filter]
  refine List.filter_congr fun entry _ => ?_
  by_cases h : entry.1 = document <;> simp [h]

theorem clear_eq_ok {r r' : Reporter (WatchedCollection Text)} {uri : Text}
    (h : (clear uri).perform r = (.ok (), r')) :
    ∃ document, documentPath uri = .ok document ∧ r' = afterClear document r := by
  rw [perform_clear] at h
  rcases hd : documentPath uri with fault | document
  · simp [hd] at h
  · simp only [hd, Prod.mk.injEq, true_and] at h
    exact ⟨document, rfl, h.symm⟩

theorem shown_clear_of_empty {r r' : Reporter (WatchedCollection Text)} {uri : Text}
    (h : (clear uri).perform r = (.ok (), r')) (he : r.shown = []) : r'.shown = [] := by
  obtain ⟨document, _, rfl⟩ := clear_eq_ok h
  rw [shown_afterClear, he, List.filter_nil]

theorem contains_clear {r r' : Reporter (WatchedCollection Text)} {uri : Text}
    (h : (clear uri).perform r = (.ok (), r')) :
    ∃ document, documentPath uri = .ok document ∧ r'.shown.contains document = false := by
  obtain ⟨document, hd, rfl⟩ := clear_eq_ok h
  refine ⟨document, hd, Table.contains_eq_false_iff.2 fun entry hentry => ?_⟩
  rw [shown_afterClear, List.mem_filter, decide_eq_true_eq] at hentry
  exact hentry.2.1

/-- Where a document neither shows nor has published anything, a clear changes nothing. -/
theorem afterClear_of_absent {document : Text} {r : Reporter (WatchedCollection Text)}
    (hs : r.shown.contains document = false) (hp : Table.contains document r.publishedFor = false) :
    afterClear document r = r := by
  have hstrays : r.strays document = [] := by
    have hn : r.publishedFor.get? document = none := by simpa [Table.contains] using hp
    rw [strays, hn, Option.getD_none]
  have hdelete : r.sink.delete document = r.sink := by
    have hc : ¬ r.sink.collection.entries.contains document = true := by simpa [shown] using hs
    simp [WatchedCollection.delete, Collection.delete, WatchedCollection.record, hc]
  rw [afterClear, hstrays, List.mergeSort_nil, List.foldl_nil, hdelete,
    Table.erase_of_not_contains hp]

/-- **A clear after a report** empties the sink or, being for another document, changes nothing. -/
theorem clear_after_report {first r r' : Reporter (WatchedCollection Text)} {uri other text : Text}
    {directory : Option Text} {batch : Batch}
    (hr : (report uri text directory).perform first = (.ok batch, r))
    (hc : (clear other).perform r = (.ok (), r')) :
    r'.shown = [] ∨ (r' = r ∧ documentPath other ≠ documentPath uri) := by
  obtain ⟨document, hd, _, rfl⟩ := report_eq_ok hr
  obtain ⟨cleared, ho, rfl⟩ := clear_eq_ok hc
  generalize posting? document (baseDirectory document directory) (CompilerError.ofText text) batch =
    posting at *
  by_cases hsame : cleared = document
  · subst hsame
    refine .inl ?_
    rw [shown_afterClear, List.filter_eq_nil_iff]
    intro entry hentry
    rcases owned_afterReport cleared first posting entry hentry with h | h <;> simp [h]
  rcases posting with _ | ⟨path, records⟩
  · exact .inl (shown_clear_of_empty hc (shown_afterReport document first none))
  by_cases hpath : path = cleared
  · refine .inl ?_
    rw [shown_afterClear, shown_afterReport, List.filter_eq_nil_iff]
    simp [hpath]
  · refine .inr ⟨afterClear_of_absent ?_ (publishedFor_afterReport hsame _ _), by simpa [ho, hd] using hsame⟩
    simp [shown_afterReport, Table.contains, Table.get?, hpath]

end JsonnetLens.Reporter
