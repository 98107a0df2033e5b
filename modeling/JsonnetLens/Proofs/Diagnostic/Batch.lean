import Mathlib.Data.List.Basic
import Mathlib.Data.List.Induction
import JsonnetLens.Diagnostic.Reporter
/-!
# Grouping the records of a trace

A stack trace is read line by line into records, and these are grouped by file.  The batch is one
equation in the records (`Batch.ofRecords_eq`): the files in the order in which they first appear,
each with its own records in their order.  So grouping commutes with leaving out files, goes on from
where it was when lines are added, and says of one file what its lines say.
-/
namespace JsonnetLens

namespace Batch

/-! ## First occurrences -/

theorem eraseDups_concat (files : List Text) (file : Text) :
    (files ++ [file]).eraseDups =
      if file ∈ files then files.eraseDups else files.eraseDups ++ [file] := by
  rw [List.eraseDups_append]
  by_cases h : file ∈ files
  · have hnone : [file].removeAll files = [] := by simp [List.removeAll, h]
    rw [if_pos h, hnone, List.eraseDups_nil, List.append_nil]
  · have hself : [file].removeAll files = [file] := by simp [List.removeAll, h]
    rw [if_neg h, hself, List.eraseDups_cons, List.filter_nil, List.eraseDups_nil]

theorem nodup_eraseDups (files : List Text) : files.eraseDups.Nodup := by
  induction files using List.reverseRecOn with
  | nil => exact List.nodup_nil
  | append_singleton files file ih =>
    rw [eraseDups_concat]
    by_cases h : file ∈ files
    · rwa [if_pos h]
    · rw [if_neg h, List.nodup_append]
      refine ⟨ih, by simp, fun other hother last hlast he => ?_⟩
      obtain rfl := List.mem_singleton.1 hlast
      exact h (he ▸ List.mem_eraseDups.1 hother)

theorem filter_eraseDups (p : Text → Bool) (files : List Text) :
    files.eraseDups.filter p = (files.filter p).eraseDups := by
  induction files using List.reverseRecOn with
  | nil => rfl
  | append_singleton files file ih =>
    rw [eraseDups_concat, List.filter_append]
    cases hp : p file with
    | false =>
      have hnone : [file].filter p = [] := by simp [hp]
      rw [hnone, List.append_nil, ← ih]
      split
      · rfl
      · rw [List.filter_append, hnone, List.append_nil]
    | true =>
      have hself : [file].filter p = [file] := by simp [hp]
      have hmem : file ∈ files.filter p ↔ file ∈ files := by simp [hp]
      rw [hself, eraseDups_concat]
      simp only [hmem]
      split
      · exact ih
      · rw [List.filter_append, hself, ih]

/-! ## Groups -/

/-- Adds a record to the group of its file. -/
def push (batch : Batch) (record : Record) : Batch := add batch record.file record

/-- Records grouped by their files. -/
def ofRecords (records : List Record) : Batch := records.foldl push []

/-- The files of records, each where it first appears. -/
def filesOf (records : List Record) : List Text := (records.map Record.file).eraseDups

/-- The records of each of some files. -/
def groups (files : List Text) (records : List Record) : Batch :=
  files.map fun file => (file, records.filter fun record => record.file = file)

theorem mem_filesOf {file : Text} {records : List Record} :
    file ∈ filesOf records ↔ ∃ r ∈ records, r.file = file := by
  rw [filesOf, List.mem_eraseDups, List.mem_map]

theorem filter_file_eq_nil {file : Text} {records : List Record} (h : file ∉ filesOf records) :
    records.filter (fun record => record.file = file) = [] := by
  rw [List.filter_eq_nil_iff]
  intro r hr he
  exact h (mem_filesOf.2 ⟨r, hr, of_decide_eq_true he⟩)

theorem groups_concat_of_not_mem {files : List Text} {record : Record} (h : record.file ∉ files)
    (records : List Record) : groups files (records ++ [record]) = groups files records := by
  unfold groups
  refine List.map_congr_left fun file hfile => ?_
  have hne : record.file ≠ file := fun he => h (he ▸ hfile)
  simp [List.filter_append, hne]

theorem push_groups_of_mem {files : List Text} (hn : files.Nodup) {record : Record}
    (h : record.file ∈ files) (records : List Record) :
    push (groups files records) record = groups files (records ++ [record]) := by
  induction files with
  | nil => cases h
  | cons file files ih =>
    obtain ⟨hnot, hn⟩ := List.nodup_cons.1 hn
    by_cases hf : file = record.file
    · subst hf
      have hrest := groups_concat_of_not_mem hnot records
      unfold groups at hrest ⊢
      rw [List.map_cons, List.map_cons, hrest, push, add, if_pos rfl]
      simp [List.filter_append]
    · have hmem : record.file ∈ files := (List.mem_cons.1 h).resolve_left (Ne.symm hf)
      have hrest := ih hn hmem
      unfold groups push at hrest ⊢
      rw [List.map_cons, List.map_cons, add, if_neg hf, hrest]
      simp [List.filter_append, Ne.symm hf]

theorem push_groups_of_not_mem {files : List Text} {record : Record} (h : record.file ∉ files)
    (records : List Record) :
    push (groups files records) record = groups files records ++ [(record.file, [record])] := by
  induction files with
  | nil => rfl
  | cons file files ih =>
    have hf : file ≠ record.file := fun he => h (he ▸ List.mem_cons_self)
    have hrest := ih fun hmem => h (List.mem_cons_of_mem _ hmem)
    unfold groups push at hrest ⊢
    rw [List.map_cons, add, if_neg hf, hrest]
    rfl

theorem ofRecords_concat (records : List Record) (record : Record) :
    ofRecords (records ++ [record]) = push (ofRecords records) record := by
  rw [ofRecords, List.foldl_append]
  rfl

/-- **Grouping, as one equation**: the files in the order in which they first appear, each with its
records in their order. -/
theorem ofRecords_eq (records : List Record) : ofRecords records = groups (filesOf records) records := by
  induction records using List.reverseRecOn with
  | nil => rfl
  | append_singleton records record ih =>
    have hfiles : filesOf (records ++ [record]) =
        if record.file ∈ records.map Record.file then filesOf records
        else filesOf records ++ [record.file] := by
      rw [filesOf, List.map_append, List.map_cons, List.map_nil, eraseDups_concat]
      rfl
    rw [ofRecords_concat, ih, hfiles]
    by_cases h : record.file ∈ records.map Record.file
    · rw [if_pos h]
      exact push_groups_of_mem (nodup_eraseDups _) (List.mem_eraseDups.2 h) records
    · have hnot : record.file ∉ filesOf records := mt List.mem_eraseDups.1 h
      have hnone := filter_file_eq_nil hnot
      rw [if_neg h, push_groups_of_not_mem hnot, ← groups_concat_of_not_mem hnot]
      simp [groups, List.filter_append, hnone]

/-- A group is there for its records, all of them and in their order. -/
theorem mem_ofRecords {records : List Record} {group : Text × List Record}
    (h : group ∈ ofRecords records) :
    group.2 = records.filter (fun record => record.file = group.1) ∧ group.2 ≠ [] := by
  rw [ofRecords_eq] at h
  obtain ⟨file, hfile, rfl⟩ := List.mem_map.1 h
  obtain ⟨record, hr, rfl⟩ := mem_filesOf.1 hfile
  exact ⟨rfl, List.ne_nil_of_mem (List.mem_filter.2 ⟨hr, decide_eq_true rfl⟩)⟩

/-! ## Some of the files -/

theorem filter_groups (p : Text → Bool) (files : List Text) (records : List Record) :
    (groups files records).filter (fun group => p group.1) =
      groups (files.filter p) (records.filter fun record => p record.file) := by
  unfold groups
  rw [List.filter_map]
  refine List.map_congr_left fun file hfile => ?_
  have hp : p file = true := (List.mem_filter.1 hfile).2
  rw [List.filter_filter]
  congr 1
  refine List.filter_congr fun record _ => ?_
  by_cases hr : record.file = file <;> simp [hr, hp]

theorem filter_ofRecords (p : Text → Bool) (records : List Record) :
    (ofRecords records).filter (fun group => p group.1) =
      ofRecords (records.filter fun record => p record.file) := by
  have hfiles : filesOf (records.filter fun record => p record.file) = (filesOf records).filter p := by
    rw [filesOf, filesOf, filter_eraseDups, List.filter_map]
    rfl
  rw [ofRecords_eq, ofRecords_eq, filter_groups, hfiles]

/-- The group of one file, which is there when it has records. -/
def ofFile (file : Text) (records : List Record) : Batch :=
  if records = [] then [] else [(file, records)]

theorem ofRecords_of_file {file : Text} {records : List Record} (h : ∀ r ∈ records, r.file = file) :
    ofRecords records = ofFile file records := by
  rw [ofRecords_eq, ofFile]
  cases records with
  | nil => rfl
  | cons record others =>
    have hfirst : record.file = file := h record List.mem_cons_self
    have hothers : (others.map Record.file).filter (fun other => !other == file) = [] := by
      rw [List.filter_eq_nil_iff]
      intro other hother
      obtain ⟨r, hr, rfl⟩ := List.mem_map.1 hother
      simp [h r (List.mem_cons_of_mem _ hr)]
    have hall : (record :: others).filter (fun r => r.file = file) = record :: others := by
      rw [List.filter_eq_self]
      intro r hr
      exact decide_eq_true (h r hr)
    rw [filesOf, List.map_cons, List.eraseDups_cons, hfirst, hothers, List.eraseDups_nil, groups,
      List.map_cons, List.map_nil, hall, if_neg (List.cons_ne_nil _ _)]

/-! ## What a batch holds -/

/-- A batch with no empty group and with these records only. -/
def Holds (batch : Batch) (records : List Record) : Prop :=
  ∀ group ∈ batch, group.2 ≠ [] ∧ ∀ r ∈ group.2, r ∈ records

/-- **Grouping makes up no record and no empty group.** -/
theorem holds_ofRecords (records : List Record) : (ofRecords records).Holds records := by
  intro group hgroup
  obtain ⟨hrecords, hne⟩ := mem_ofRecords hgroup
  refine ⟨hne, fun r hr => ?_⟩
  rw [hrecords] at hr
  exact (List.mem_filter.1 hr).1

/-- Each record is in the group of its file. -/
def Keyed (batch : Batch) : Prop := ∀ group ∈ batch, ∀ r ∈ group.2, r.file = group.1

theorem keyed_ofRecords (records : List Record) : (ofRecords records).Keyed := by
  intro group hgroup r hr
  rw [(mem_ofRecords hgroup).1] at hr
  exact of_decide_eq_true (List.mem_filter.1 hr).2

theorem Keyed.lines_eq {batch : Batch} (h : batch.Keyed) :
    batch.lines = batch.records.map fun r => r.line r.file := by
  rw [lines, records, List.map_flatMap]
  refine List.flatMap_congr fun group hgroup => List.map_congr_left fun r hr => ?_
  rw [h group hgroup r hr]

theorem records_cons (group : Text × List Record) (batch : Batch) :
    records (group :: batch) = group.2 ++ batch.records := by
  rw [records, List.flatMap_cons]
  rfl

theorem records_push_perm (batch : Batch) (record : Record) :
    (push batch record).records.Perm (batch.records ++ [record]) := by
  unfold push
  induction batch with
  | nil => exact List.Perm.refl _
  | cons group rest ih =>
    rw [add]
    by_cases hf : group.1 = record.file
    · rw [if_pos hf, records_cons, records_cons, List.append_assoc, List.append_assoc]
      exact List.Perm.append_left _ List.perm_append_comm
    · rw [if_neg hf, records_cons, records_cons, List.append_assoc]
      exact List.Perm.append_left _ ih

/-- **Grouping keeps each record once.** -/
theorem records_ofRecords_perm (records : List Record) : (ofRecords records).records.Perm records := by
  induction records using List.reverseRecOn with
  | nil => exact List.Perm.refl _
  | append_singleton records record ih =>
    rw [ofRecords_concat]
    exact (records_push_perm _ record).trans (ih.append_right [record])

/-! ## One batch after another -/

/-- A batch followed by another one: the records of a file that both have are put together. -/
def extend (batch more : Batch) : Batch :=
  batch.map (fun group => (group.1, group.2 ++ (Table.get? group.1 more).getD [])) ++
    more.filter fun group => group.1 ∉ Table.keys batch

theorem keys_groups (files : List Text) (records : List Record) :
    Table.keys (groups files records) = files := by
  rw [groups, Table.keys, List.map_map]
  exact List.map_id _

theorem get?_groups (file : Text) (files : List Text) (records : List Record) :
    Table.get? file (groups files records) =
      if file ∈ files then some (records.filter fun record => record.file = file) else none := by
  induction files with
  | nil => rfl
  | cons first files ih =>
    unfold groups at ih ⊢
    by_cases hf : first = file
    · simp [Table.get?, hf]
    · simp [Table.get?, hf, ih, Ne.symm hf]

/-- What a batch has of a file, with or without a group for it. -/
theorem getD_get?_ofRecords (file : Text) (records : List Record) :
    (Table.get? file (ofRecords records)).getD [] =
      records.filter fun record => record.file = file := by
  rw [ofRecords_eq, get?_groups]
  by_cases hf : file ∈ filesOf records
  · rw [if_pos hf, Option.getD_some]
  · rw [if_neg hf, Option.getD_none, filter_file_eq_nil hf]

theorem filesOf_append (first last : List Record) :
    filesOf (first ++ last) = filesOf first ++ (filesOf last).filter (· ∉ filesOf first) := by
  unfold filesOf
  rw [List.map_append, List.eraseDups_append, filter_eraseDups, List.removeAll]
  congr 2
  refine List.filter_congr fun file _ => ?_
  rw [List.elem_eq_mem, ← decide_not]
  exact decide_eq_decide.2 (not_congr List.mem_eraseDups.symm)

/-- **Grouping goes on from where it was.** -/
theorem ofRecords_append (first last : List Record) :
    ofRecords (first ++ last) = (ofRecords first).extend (ofRecords last) := by
  have hkeys : Table.keys (ofRecords first) = filesOf first := by rw [ofRecords_eq, keys_groups]
  rw [ofRecords_eq (first ++ last), filesOf_append, extend, hkeys]
  simp only [getD_get?_ofRecords]
  rw [ofRecords_eq, ofRecords_eq]
  unfold groups
  rw [List.map_append, List.map_map, List.filter_map]
  congr 1
  · refine List.map_congr_left fun file _ => ?_
    rw [List.filter_append]
    rfl
  · refine List.map_congr_left fun file hfile => ?_
    have hnot : file ∉ filesOf first := of_decide_eq_true (List.mem_filter.1 hfile).2
    rw [List.filter_append, filter_file_eq_nil hnot, List.nil_append]

end Batch

namespace CompilerError

/-- The records of some lines in order, unless one of the lines cannot be read. -/
def locate (message : Text) : List Text → Except Fault (List Record)
  | [] => .ok []
  | line :: rest =>
    match frameRecord? message line with
    | .error fault => .error fault
    | .ok none => locate message rest
    | .ok (some record) => (locate message rest).map (record :: ·)

/-- **A trace is located line by line, and then grouped.** -/
theorem runtimeBatch_eq (message : Text) (stack : List Text) :
    runtimeBatch message stack = (locate message stack).map Batch.ofRecords := by
  unfold runtimeBatch Batch.ofRecords
  generalize ([] : Batch) = batch
  -- on the lines that are left, for every batch so far
  induction stack generalizing batch with
  | nil => rfl
  | cons line stack ih =>
    rw [List.foldlM_cons, locate]
    rcases frameRecord? message line with fault | _ | record
    · rfl
    · exact ih batch
    · refine (ih (Batch.push batch record)).trans ?_
      cases locate message stack <;> rfl

theorem locate_append (message : Text) (stack more : List Text) :
    locate message (stack ++ more) =
      (locate message stack).bind fun records => (locate message more).map (records ++ ·) := by
  induction stack with
  | nil => cases h : locate message more <;> simp [locate, h, Except.bind, Except.map]
  | cons line stack ih =>
    rw [List.cons_append, locate, locate]
    rcases frameRecord? message line with fault | _ | record
    · rfl
    · exact ih
    · simp only [ih]
      cases locate message stack <;> cases locate message more <;> rfl

theorem locate_append_empty (message : Text) (stack : List Text) :
    locate message (stack ++ [[]]) = locate message stack := by
  have hempty : locate message [[]] = .ok [] := rfl
  rw [locate_append, hempty]
  cases locate message stack <;> simp [Except.bind, Except.map]

end CompilerError

namespace Reporter

/-- **Of a batch a document gets the records whose files lead to it**, in the order of their lines,
when they name it in one way. -/
theorem documentRecords_ofRecords {document name : Text} {base : Path} {records : List Record}
    (h : ∀ r ∈ records, resolve base r.file = document → r.file = name) :
    documentRecords document base (Batch.ofRecords records) =
      records.filter fun r => resolve base r.file = document := by
  have hfile : ∀ r ∈ records.filter (fun r => resolve base r.file = document), r.file = name := by
    intro r hr
    rw [List.mem_filter, decide_eq_true_eq] at hr
    exact h r hr.1 hr.2
  have hgroups := Batch.filter_ofRecords (fun file => resolve base file = document) records
  rw [documentRecords, hgroups, Batch.ofRecords_of_file hfile]
  unfold Batch.ofFile
  split <;> simp_all

end Reporter
end JsonnetLens
