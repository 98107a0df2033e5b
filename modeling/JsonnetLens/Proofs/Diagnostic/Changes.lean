import JsonnetLens.Diagnostic.Collection
/-!
# Following a collection by its changes

A change names keys and says nothing else of them.  A subscriber that asks the collection about just
these keys, whenever it is told of a change, still has a copy of the whole collection at all times
(`run_mirror`): every step names each key it touches, after it is done.
-/
namespace JsonnetLens

namespace WatchedCollection

variable {κ : Type} [DecidableEq κ]

/-- What is done with a collection. -/
inductive Step (κ : Type) where
  | set (key : κ) (records : List Record)
  | delete (key : κ)
  | clearAll

def next (w : WatchedCollection κ) : Step κ → WatchedCollection κ
  | .set key records => w.set key records
  | .delete key => w.delete key
  | .clearAll => w.clearAll

/-- The changes that are told in a step. -/
def told (w : WatchedCollection κ) (step : Step κ) : List (Change κ) :=
  (w.next step).changes.drop w.changes.length

section
variable (w : WatchedCollection κ)

theorem told_set (key : κ) (records : List Record) : w.told (.set key records) = [[key]] := by
  simp [told, next, set, record, Collection.set]

theorem told_delete (key : κ) :
    w.told (.delete key) = if key ∈ w.collection.keys then [[key]] else [] := by
  simp only [told, next, delete, record, Collection.delete, Collection.keys, Table.mem_keys]
  split <;> simp

theorem told_clearAll :
    w.told .clearAll = if w.collection.keys = [] then [] else [w.collection.keys] := by
  simp only [told, next, clearAll, record, Collection.clearAll, Collection.keys, Table.keys,
    List.map_eq_nil_iff, List.isEmpty_iff]
  split <;> simp

/-- Nothing that was told is taken back. -/
theorem changes_next (step : Step κ) : (w.next step).changes = w.changes ++ w.told step := by
  cases step <;> simp [told, next, set, delete, clearAll, record]

theorem entries_set (key : κ) (records : List Record) :
    (w.set key records).collection.entries = w.collection.entries.insert key records := rfl

theorem mem_keys_set (key : κ) (records : List Record) :
    key ∈ (w.set key records).collection.keys := by
  rw [Collection.keys, Table.mem_keys, entries_set, Table.contains, Table.get?_insert_self,
    Option.isSome_some]

end

theorem nodup_keys_next {w : WatchedCollection κ} (h : w.collection.keys.Nodup) (step : Step κ) :
    (w.next step).collection.keys.Nodup := by
  cases step with
  | set key records => exact Table.nodup_keys_insert h key records
  | delete key =>
    have hentries : (w.next (.delete key)).collection.entries = w.collection.entries.erase key :=
      w.entries_delete key
    rw [Collection.keys, hentries]
    exact Table.nodup_keys_erase h key
  | clearAll => exact List.nodup_nil

/-- What a change names, where no key is in the collection twice. -/
theorem of_mem_told {w : WatchedCollection κ} (h : w.collection.keys.Nodup) {step : Step κ}
    {change : Change κ} (hchange : change ∈ w.told step) :
    change ≠ [] ∧ change.Nodup ∧
      ∀ key ∈ change, key ∈ w.collection.keys ∨ ∃ records, step = .set key records := by
  cases step with
  | set key records =>
    rw [told_set, List.mem_singleton] at hchange
    subst hchange
    exact ⟨List.cons_ne_nil _ _, List.pairwise_singleton _ key,
      fun other hother => .inr ⟨records, by rw [List.mem_singleton.1 hother]⟩⟩
  | delete key =>
    rw [told_delete] at hchange
    split at hchange
    · rename_i hkey
      obtain rfl := List.mem_singleton.1 hchange
      exact ⟨List.cons_ne_nil _ _, List.pairwise_singleton _ key,
        fun other hother => .inl (List.mem_singleton.1 hother ▸ hkey)⟩
    · exact absurd hchange List.not_mem_nil
  | clearAll =>
    rw [told_clearAll] at hchange
    split at hchange
    · exact absurd hchange List.not_mem_nil
    · rename_i hkeys
      obtain rfl := List.mem_singleton.1 hchange
      exact ⟨hkeys, h, fun other hother => .inl hother⟩

theorem told_eq_nil_iff {w : WatchedCollection κ} {step : Step κ} :
    w.told step = [] ↔
      (∃ key, step = .delete key ∧ key ∉ w.collection.keys) ∨
        step = .clearAll ∧ w.collection.keys = [] := by
  cases step with
  | set key records => simp [told_set]
  | delete key => simp [told_delete]
  | clearAll => simp [told_clearAll]

theorem length_told_le (w : WatchedCollection κ) (step : Step κ) : (w.told step).length ≤ 1 := by
  cases step with
  | set key records => exact Nat.le_of_eq (congrArg List.length (told_set w key records))
  | delete key => rw [told_delete]; split <;> simp
  | clearAll => rw [told_clearAll]; split <;> simp

/-- A step that is not told does nothing. -/
theorem next_of_told_eq_nil {w : WatchedCollection κ} {step : Step κ} (h : w.told step = []) :
    w.next step = w := by
  rcases told_eq_nil_iff.1 h with ⟨key, rfl, hkey⟩ | ⟨rfl, hkeys⟩
  · rw [Collection.keys, Table.mem_keys] at hkey
    simp [next, delete, record, Collection.delete, hkey]
  · have hentries : w.collection.entries = [] := List.map_eq_nil_iff.1 hkeys
    obtain ⟨⟨entries⟩, changes⟩ := w
    cases hentries
    simp [next, clearAll, record, Collection.clearAll]

end WatchedCollection

/-! ## Followers -/

/-- A collection beside a subscriber's copy of it. -/
structure Follower (κ : Type) where
  watched : WatchedCollection κ := {}
  mirror : Table κ (List Record) := []

namespace Follower

open WatchedCollection (Step)

variable {κ : Type} [DecidableEq κ]

/-- The copy after a change: each of its keys is asked for, whether it is there and with what records. -/
def reread (contains : κ → Bool) (get : κ → List Record) (mirror : Table κ (List Record))
    (change : Change κ) : Table κ (List Record) :=
  change.foldl
    (fun mirror key => if contains key then mirror.insert key (get key) else mirror.erase key) mirror

def next (f : Follower κ) (step : Step κ) : Follower κ :=
  let watched := f.watched.next step
  ⟨watched, (f.watched.told step).foldl
    (reread watched.collection.contains watched.collection.get) f.mirror⟩

def run (steps : List (Step κ)) : Follower κ := steps.foldl next {}

theorem reread_of_absent (get : κ → List Record) (mirror : Table κ (List Record)) (change : Change κ) :
    reread (fun _ => false) get mirror change = mirror.filter fun entry => entry.1 ∉ change :=
  Table.foldl_erase change mirror

/-- **One step keeps the copy right.** -/
theorem mirror_next {f : Follower κ} (h : f.mirror = f.watched.collection.entries) (step : Step κ) :
    (f.next step).mirror = (f.next step).watched.collection.entries := by
  simp only [next, h]
  cases step with
  | set key records =>
    have hcontains : (f.watched.set key records).collection.contains key = true :=
      Table.mem_keys.1 (f.watched.mem_keys_set key records)
    have hget : (f.watched.set key records).collection.get key = records := by
      simp [Collection.get, WatchedCollection.entries_set]
    rw [WatchedCollection.told_set]
    simp only [WatchedCollection.next, reread, List.foldl_cons, List.foldl_nil, hcontains, hget,
      if_true]
    rfl
  | delete key =>
    have hentries : (f.watched.next (.delete key)).collection.entries =
        f.watched.collection.entries.erase key := f.watched.entries_delete key
    rw [WatchedCollection.told_delete, hentries]
    split
    · have hcontains : (f.watched.next (.delete key)).collection.contains key = false := by
        rw [Collection.contains, hentries, Table.contains, Table.get?_erase_self, Option.isSome_none]
      simp [reread, hcontains]
    · rename_i hkey
      rw [Collection.keys, Table.mem_keys, Bool.not_eq_true] at hkey
      exact (Table.erase_of_not_contains hkey).symm
  | clearAll =>
    have hcontains : (f.watched.next .clearAll).collection.contains = fun _ => false := rfl
    have hentries : (f.watched.next .clearAll).collection.entries = [] := rfl
    rw [WatchedCollection.told_clearAll, hcontains, hentries]
    split
    · rename_i hkeys
      exact List.map_eq_nil_iff.1 hkeys
    · rw [List.foldl_cons, List.foldl_nil, reread_of_absent, List.filter_eq_nil_iff]
      intro entry hentry
      have hkey : entry.1 ∈ f.watched.collection.keys := List.mem_map_of_mem (f := Prod.fst) hentry
      simp [hkey]

/-- The copy is right, and no key is in the collection twice. -/
structure IsFaithful (f : Follower κ) : Prop where
  mirror : f.mirror = f.watched.collection.entries
  nodup : f.watched.collection.keys.Nodup

theorem IsFaithful.next {f : Follower κ} (h : f.IsFaithful) (step : Step κ) :
    (f.next step).IsFaithful :=
  ⟨mirror_next h.mirror step, WatchedCollection.nodup_keys_next h.nodup step⟩

theorem isFaithful_foldl (steps : List (Step κ)) {f : Follower κ} (h : f.IsFaithful) :
    (steps.foldl Follower.next f).IsFaithful := by
  induction steps generalizing f with
  | nil => exact h
  | cons step steps ih => exact ih (h.next step)

theorem isFaithful_run (steps : List (Step κ)) : (run steps).IsFaithful :=
  isFaithful_foldl steps ⟨rfl, List.nodup_nil⟩

/-- **A collection can be followed by its changes.**  After any steps the subscriber's copy is the
collection, in its order.  From there each step is told at most once; what is told names at least one key
and none twice, and only keys that are there or are being set.  Not told are just the delete of a key
that is not there and the clearing of an empty collection, which do nothing.  A key that was set is
there, even without records. -/
theorem run_mirror (steps : List (Step κ)) :
    let w := (run steps).watched
    (run steps).mirror = w.collection.entries ∧
    ∀ step : Step κ,
      (w.next step).changes = w.changes ++ w.told step ∧ (w.told step).length ≤ 1 ∧
      (∀ change ∈ w.told step, change ≠ [] ∧ change.Nodup ∧
        ∀ key ∈ change, key ∈ w.collection.keys ∨ ∃ records, step = .set key records) ∧
      (w.told step = [] ↔
        (∃ key, step = .delete key ∧ key ∉ w.collection.keys) ∨
          step = .clearAll ∧ w.collection.keys = []) ∧
      (w.told step = [] → w.next step = w) ∧
      ∀ key records, step = .set key records → key ∈ (w.next step).collection.keys := by
  intro w
  have hfaithful := isFaithful_run steps
  refine ⟨hfaithful.mirror, fun step => ⟨w.changes_next step, w.length_told_le step,
    fun change => WatchedCollection.of_mem_told hfaithful.nodup, WatchedCollection.told_eq_nil_iff,
    WatchedCollection.next_of_told_eq_nil, ?_⟩⟩
  rintro key records rfl
  exact w.mem_keys_set key records

/-- A key without records is told and copied like any other. -/
example :
    (run [.set 'a' [], .set 'b' [], .delete 'a', .delete 'a', .clearAll, .set 'c' []]).watched.changes =
      [['a'], ['b'], ['a'], ['b'], ['c']] ∧
    (run [.set 'a' [], .set 'b' [], .delete 'a']).mirror = [('b', [])] := ⟨rfl, rfl⟩

end Follower
end JsonnetLens
