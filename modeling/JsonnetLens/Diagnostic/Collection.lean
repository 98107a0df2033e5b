import JsonnetLens.Diagnostic.Record
import JsonnetLens.Table
/-!
# Collections of diagnostics

A collection holds a list of records for each key.  Every operation also tells which keys it
changed: one for a set or a delete, all of them for a clear, and nothing is told where nothing
changed.  A key with an empty list of records is present.
-/
namespace JsonnetLens

structure Collection (κ : Type) where
  entries : Table κ (List Record) := []
  deriving Repr

/-- The keys whose records changed. -/
abbrev Change (κ : Type) := List κ

namespace Collection

variable {κ : Type} [DecidableEq κ]

def set (c : Collection κ) (key : κ) (records : List Record) : Collection κ × Option (Change κ) :=
  (⟨c.entries.insert key records⟩, some [key])

def delete (c : Collection κ) (key : κ) : Collection κ × Option (Change κ) :=
  if c.entries.contains key then (⟨c.entries.erase key⟩, some [key]) else (c, none)

def clearAll (c : Collection κ) : Collection κ × Option (Change κ) :=
  (⟨[]⟩, if c.entries.isEmpty then none else some c.entries.keys)

def get (c : Collection κ) (key : κ) : List Record := (c.entries.get? key).getD []

def contains (c : Collection κ) (key : κ) : Bool := c.entries.contains key

def keys (c : Collection κ) : List κ := c.entries.keys

def size (c : Collection κ) : Nat := c.entries.length

end Collection

/-- A collection with the changes that its subscriber has been told, in order. -/
structure WatchedCollection (κ : Type) where
  collection : Collection κ := {}
  changes : List (Change κ) := []
  deriving Repr

namespace WatchedCollection

variable {κ : Type} [DecidableEq κ]

/-- The collection after an operation, which is told when it changed something. -/
def record (w : WatchedCollection κ) (step : Collection κ × Option (Change κ)) :
    WatchedCollection κ :=
  ⟨step.1, w.changes ++ step.2.toList⟩

def set (w : WatchedCollection κ) (key : κ) (records : List Record) : WatchedCollection κ :=
  w.record (w.collection.set key records)

def delete (w : WatchedCollection κ) (key : κ) : WatchedCollection κ :=
  w.record (w.collection.delete key)

def clearAll (w : WatchedCollection κ) : WatchedCollection κ := w.record w.collection.clearAll

theorem entries_delete (w : WatchedCollection κ) (key : κ) :
    (w.delete key).collection.entries = w.collection.entries.erase key := by
  unfold delete Collection.delete record
  by_cases h : w.collection.entries.contains key = true
  · rw [if_pos h]
  · rw [if_neg h, Table.erase_of_not_contains (by simpa using h)]

theorem entries_foldl_delete (keys : List κ) (w : WatchedCollection κ) :
    (keys.foldl delete w).collection.entries =
      w.collection.entries.filter fun entry => entry.1 ∉ keys := by
  rw [← Table.foldl_erase]
  induction keys generalizing w with
  | nil => rfl
  | cons key keys ih => rw [List.foldl_cons, ih, entries_delete, List.foldl_cons]

end WatchedCollection
end JsonnetLens
