/-!
# Tables in insertion order

A table maps keys to values and remembers the order in which its keys came.  Setting a key that is
present keeps its place; erasing it and setting it again puts it last.
-/
namespace JsonnetLens

abbrev Table (κ α : Type) := List (κ × α)

namespace Table

variable {κ α : Type} [DecidableEq κ]

def get? (key : κ) : Table κ α → Option α
  | [] => none
  | entry :: rest => if entry.1 = key then some entry.2 else get? key rest

def contains (key : κ) (t : Table κ α) : Bool := (t.get? key).isSome

def insert (key : κ) (value : α) : Table κ α → Table κ α
  | [] => [(key, value)]
  | entry :: rest => if entry.1 = key then (key, value) :: rest else entry :: insert key value rest

def erase (key : κ) (t : Table κ α) : Table κ α := t.filter fun entry => entry.1 ≠ key

def keys (t : Table κ α) : List κ := t.map Prod.fst

@[simp] theorem get?_insert_self (key : κ) (value : α) (t : Table κ α) :
    (t.insert key value).get? key = some value := by
  induction t with
  | nil => simp [insert, get?]
  | cons entry rest ih => by_cases h : entry.1 = key <;> simp [insert, get?, h, ih]

theorem get?_insert_of_ne {key other : κ} (h : other ≠ key) (value : α) (t : Table κ α) :
    (t.insert key value).get? other = t.get? other := by
  induction t with
  | nil => simp [insert, get?, Ne.symm h]
  | cons entry rest ih =>
    by_cases hk : entry.1 = key
    · simp [insert, get?, hk, Ne.symm h]
    · simp [insert, get?, hk, ih]

@[simp] theorem get?_erase_self (key : κ) (t : Table κ α) : (t.erase key).get? key = none := by
  induction t with
  | nil => rfl
  | cons entry rest ih =>
    by_cases h : entry.1 = key
    · simpa [erase, h] using ih
    · simpa [erase, get?, h] using ih

theorem get?_erase_of_ne {key other : κ} (h : other ≠ key) (t : Table κ α) :
    (t.erase key).get? other = t.get? other := by
  induction t with
  | nil => rfl
  | cons entry rest ih =>
    by_cases hk : entry.1 = key
    · simpa [erase, get?, hk, Ne.symm h] using ih
    · simp only [erase, ne_eq, hk, not_false_eq_true, decide_true, List.filter_cons_of_pos, get?]
      split
      · rfl
      · exact ih

/-- A key is absent when no entry has it. -/
theorem contains_eq_false_iff {key : κ} {t : Table κ α} :
    t.contains key = false ↔ ∀ entry ∈ t, entry.1 ≠ key := by
  induction t with
  | nil => simp [contains, get?]
  | cons entry rest ih =>
    by_cases h : entry.1 = key
    · simp [contains, get?, h]
    · simpa [contains, get?, h] using ih

theorem contains_insert (key other : κ) (value : α) (t : Table κ α) :
    (t.insert key value).contains other = (other = key || t.contains other) := by
  by_cases h : other = key
  · simp [contains, h]
  · simp [contains, get?_insert_of_ne h, h]

theorem contains_erase (key other : κ) (t : Table κ α) :
    (t.erase key).contains other = (other ≠ key && t.contains other) := by
  by_cases h : other = key
  · simp [contains, h]
  · simp [contains, get?_erase_of_ne h, h]

theorem erase_of_not_contains {key : κ} {t : Table κ α} (h : t.contains key = false) :
    t.erase key = t := by
  refine List.filter_eq_self.2 fun entry hentry => ?_
  exact decide_eq_true (contains_eq_false_iff.1 h entry hentry)

/-- Erasing keys one by one leaves the entries of all others. -/
theorem foldl_erase (keys : List κ) (t : Table κ α) :
    keys.foldl (fun t key => t.erase key) t = t.filter fun entry => entry.1 ∉ keys := by
  induction keys generalizing t with
  | nil => exact (List.filter_eq_self.2 fun _ _ => by simp).symm
  | cons key keys ih =>
    rw [List.foldl_cons, ih, erase, List.filter_filter]
    refine List.filter_congr fun entry _ => ?_
    by_cases h : entry.1 = key <;> simp [h]

theorem mem_keys {key : κ} {t : Table κ α} : key ∈ t.keys ↔ t.contains key = true := by
  rw [← Bool.not_eq_false, contains_eq_false_iff]
  simp [keys]

theorem eq_or_mem_of_mem_insert {key : κ} {value : α} {entry : κ × α} {t : Table κ α}
    (h : entry ∈ t.insert key value) : entry = (key, value) ∨ entry ∈ t := by
  induction t with
  | nil => exact .inl (List.mem_singleton.1 h)
  | cons first rest ih =>
    by_cases hk : first.1 = key
    · rw [insert, if_pos hk] at h
      exact (List.mem_cons.1 h).imp_right (List.mem_cons_of_mem _)
    · rw [insert, if_neg hk] at h
      rcases List.mem_cons.1 h with rfl | h
      · exact .inr List.mem_cons_self
      · exact (ih h).imp_right (List.mem_cons_of_mem _)

/-- A new key comes last. -/
theorem insert_of_not_mem {key : κ} {t : Table κ α} (h : key ∉ t.keys) (value : α) :
    t.insert key value = t ++ [(key, value)] := by
  induction t with
  | nil => rfl
  | cons first rest ih =>
    obtain ⟨hk, hrest⟩ := not_or.1 (mt List.mem_cons.2 h)
    rw [insert, if_neg (Ne.symm hk), ih hrest, List.cons_append]

theorem nodup_keys_insert {t : Table κ α} (h : t.keys.Nodup) (key : κ) (value : α) :
    (t.insert key value).keys.Nodup := by
  induction t with
  | nil => simp [insert, keys]
  | cons entry rest ih =>
    obtain ⟨hnot, hrest⟩ := List.nodup_cons.1 h
    by_cases hk : entry.1 = key
    · rw [insert, if_pos hk]
      exact List.nodup_cons.2 ⟨hk ▸ hnot, hrest⟩
    · rw [insert, if_neg hk]
      refine List.nodup_cons.2 ⟨?_, ih hrest⟩
      change entry.1 ∉ (insert key value rest).keys
      rw [mem_keys, contains_insert, decide_eq_false hk, Bool.false_or, ← mem_keys]
      exact hnot

theorem nodup_keys_erase {t : Table κ α} (h : t.keys.Nodup) (key : κ) : (t.erase key).keys.Nodup :=
  h.sublist (List.filter_sublist.map Prod.fst)

end Table
end JsonnetLens
