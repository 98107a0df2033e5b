import JsonnetLens.Proofs.Diagnostic.Answers
/-!
# Stack traces by file

The batch of a stack trace is its frames grouped by file: nothing is lost, put twice or put in
another order.  A frame is found in one line, whatever stands in the others, so traces can be
read one after the other, and lines that locate nothing can come and go.
-/
namespace JsonnetLens.CompilerError

/-- What a line of a trace locates: a file and a range in it.  A remark locates nothing, nor does a
line whose file or whose range cannot be read. -/
def located? (line : Text) : Option (Text × Range) :=
  if isRemark line then none
  else (Frame.match? line).bind fun frame =>
    (placeAt? (':' :: frame.rest)).toOption.join.map fun place => (frame.file, place.1)

/-- What a trace locates, line by line. -/
def frames (message : Text) (stack : List Text) : List Record :=
  (stack.filterMap located?).map fun place => ⟨place.1, place.2, message⟩

theorem recordOf?_frameRecord? (message line : Text) :
    recordOf? (frameRecord? message line) =
      (located? line).map fun place => ⟨place.1, place.2, message⟩ := by
  rw [frameRecord?_eq, located?, frameOf?]
  by_cases hremark : isRemark line = true
  · rw [if_pos hremark, if_pos hremark]
    rfl
  rw [if_neg hremark, if_neg hremark]
  cases Frame.match? line with
  | none => rfl
  | some frame =>
    rw [recordAt?, Option.bind_some]
    rcases placeAt? (':' :: frame.rest) with fault | _ | place <;> rfl

theorem records_runtime (message : Text) (stack : List Text) :
    records (.runtime message stack) = frames message stack := by
  rw [records, frames, List.map_filterMap]
  exact List.filterMap_congr fun line _ => recordOf?_frameRecord? message line

theorem frames_append (message : Text) (first last : List Text) :
    frames message (first ++ last) = frames message first ++ frames message last := by
  rw [frames, List.filterMap_append, List.map_append]
  rfl

/-! ## Traces that can be read -/

theorem runtimeBatch_eq_ok {message : Text} {stack : List Text} {batch : Batch}
    (h : runtimeBatch message stack = .ok batch) :
    stack.any lineExceeds = false ∧ batch = Batch.ofRecords (frames message stack) := by
  obtain ⟨hread, hbatch⟩ := batch_eq_ok (e := .runtime message stack) h
  rw [records_runtime] at hbatch
  exact ⟨hread, hbatch⟩

theorem runtimeBatch_of_not_exceeds {stack : List Text} (h : stack.any lineExceeds = false)
    (message : Text) : runtimeBatch message stack = .ok (Batch.ofRecords (frames message stack)) := by
  rw [← records_runtime]
  exact batch_of_not_exceeds (e := .runtime message stack) h

/-- What a trace locates is all that its batch depends on. -/
theorem runtimeBatch_congr {stack other : List Text} (hread : other.any lineExceeds = false)
    (h : other.filterMap located? = stack.filterMap located?) (message : Text) :
    runtimeBatch message other = .ok (Batch.ofRecords (frames message stack)) := by
  have hframes : frames message other = frames message stack := by rw [frames, h, frames]
  rw [runtimeBatch_of_not_exceeds hread, hframes]

/-- **A batch is the frames of its trace by file**, the files as they first appear and the frames of
each in their order, none lost and none twice.  The batch of two traces is that of the first extended
by that of the second, and lines that locate nothing can come and go anywhere: every other trace that
can be read and locates the same has the same batch. -/
theorem runtimeBatch_groups {message : Text} {stack : List Text} {batch : Batch}
    (h : runtimeBatch message stack = .ok batch) :
    Table.keys batch = ((frames message stack).map Record.file).eraseDups ∧
    (∀ group ∈ batch, group.2 = (frames message stack).filter (fun r => r.file = group.1) ∧
      group.2 ≠ [] ∧ ∀ r ∈ group.2, r.file = group.1 ∧ r.message = message) ∧
    batch.records.Perm (frames message stack) ∧
    (∀ more batch', runtimeBatch message more = .ok batch' →
      runtimeBatch message (stack ++ more) = .ok (batch.extend batch')) ∧
    ∀ other, (∀ line ∈ other, line ∈ stack ∨ lineExceeds line = false) →
      other.filterMap located? = stack.filterMap located? →
      runtimeBatch message other = .ok batch := by
  obtain ⟨hread, rfl⟩ := runtimeBatch_eq_ok h
  refine ⟨?_, fun group hgroup => ?_, Batch.records_ofRecords_perm _, fun more batch' hmore => ?_,
    fun other hlines hother => ?_⟩
  · rw [Batch.ofRecords_eq, Batch.keys_groups]
    rfl
  · obtain ⟨hrecords, hne⟩ := Batch.mem_ofRecords hgroup
    refine ⟨hrecords, hne, fun r hr => ⟨Batch.keyed_ofRecords _ group hgroup r hr, ?_⟩⟩
    rw [hrecords] at hr
    obtain ⟨place, _, rfl⟩ := List.mem_map.1 (List.mem_filter.1 hr).1
    rfl
  · obtain ⟨hread', rfl⟩ := runtimeBatch_eq_ok hmore
    have hall : (stack ++ more).any lineExceeds = false := by
      rw [List.any_append, hread, hread']
      rfl
    rw [runtimeBatch_of_not_exceeds hall, frames_append, Batch.ofRecords_append]
  · have hreads : other.any lineExceeds = false := by
      refine List.any_eq_false.2 fun line hline => ?_
      rcases hlines line hline with hmem | hshort
      · exact List.any_eq_false.1 hread line hmem
      · exact Bool.eq_false_iff.1 hshort
    exact runtimeBatch_congr hreads hother message

/-- Files that recur between remarks and lines that cannot be read, the trace again after itself, and
the trace without its remark and with another one at its end. -/
theorem runtimeBatch_groups_interleaved :
    let line (t : String) : Text := t.toList
    let record (file : Text) (range : Range) : Record := ⟨file, range, line "boom"⟩
    let stack := [line "\tb:1:2\tf", line "During manifestation", line "\ta:3:4-5\tg", line "\tb:0:1\th",
      line " b:(6:7)-(8:9)"]
    let other := [line "\tb:1:2\tf", line "\ta:3:4-5\tg", line "\tb:0:1\th", line " b:(6:7)-(8:9)",
      line "\tDuring manifestation\t"]
    let first := record ['b'] ⟨⟨0, 1⟩, ⟨0, 2⟩⟩
    let last := record ['b'] ⟨⟨5, 6⟩, ⟨7, 9⟩⟩
    let middle := record ['a'] ⟨⟨2, 3⟩, ⟨2, 5⟩⟩
    let batch : Batch := [(['b'], [first, last]), (['a'], [middle])]
    runtimeBatch (line "boom") stack = .ok batch ∧
    frames (line "boom") stack = [first, middle, last] ∧
    batch.records.Perm [first, middle, last] ∧
    runtimeBatch (line "boom") (stack ++ stack) =
      .ok [(['b'], [first, last, first, last]), (['a'], [middle, middle])] ∧
    runtimeBatch (line "boom") other = .ok batch := by
  intro line record stack other first last middle batch
  have hstack : runtimeBatch (line "boom") stack = .ok batch :=
    Attempt.eq_ok_of_toOption (by decide +kernel)
  have hframes : frames (line "boom") stack = [first, middle, last] := by decide +kernel
  obtain ⟨-, -, hperm, happend, hother⟩ := runtimeBatch_groups hstack
  rw [hframes] at hperm
  refine ⟨hstack, hframes, hperm, ?_, hother other (by decide +kernel) (by decide +kernel)⟩
  rw [happend stack batch hstack]
  decide +kernel

end JsonnetLens.CompilerError
