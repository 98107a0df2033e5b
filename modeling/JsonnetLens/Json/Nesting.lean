import JsonnetLens.Json.Basic
/-!
# How deep values nest

Reading a value, and writing one, takes a part of the stack for every array or object that is open.  What
is left of the stack depends on who reads or writes, so how deep a value may nest is not a number of the
format: it is a `Nesting`, and everything that reads or writes is given one.
-/
namespace JsonnetLens

/-- How many levels of a value the stack has room for. -/
class Nesting where
  /-- Where a text is read. -/
  reading : Nat
  /-- Where a value is written as JSON. -/
  json : Nat
  /-- Where a value is written as YAML, which takes several calls for each level. -/
  yaml : Nat

/-- What a stack of a thousand calls leaves, most of it still free. -/
@[reducible] def Nesting.usual : Nesting := ⟨985, 985, 325⟩

namespace Json

mutual

/-- The levels of a value: an array or object is one around those of what it holds, and any other value
has as many as `leaf` says. -/
def levels (leaf : Json → Nat) : Json → Nat
  | .array items => levelsOfItems leaf items + 1
  | .object fields => levelsOfFields leaf fields + 1
  | v => leaf v

def levelsOfItems (leaf : Json → Nat) : List Json → Nat
  | [] => 0
  | x :: xs => max (levels leaf x) (levelsOfItems leaf xs)

def levelsOfFields (leaf : Json → Nat) : List (WideText × Json) → Nat
  | [] => 0
  | (_, x) :: fields => max (levels leaf x) (levelsOfFields leaf fields)

end

/-- How many arrays and objects stand inside each other, the value itself included. -/
def depth (v : Json) : Nat := levels (fun _ => 0) v

def depthOfItems (items : List Json) : Nat := levelsOfItems (fun _ => 0) items

def depthOfFields (fields : List (WideText × Json)) : Nat := levelsOfFields (fun _ => 0) fields

section

variable (x : Json) (items : List Json) (name : WideText) (fields : List (WideText × Json))

@[simp] theorem depth_array : depth (.array items) = depthOfItems items + 1 := rfl

@[simp] theorem depth_object : depth (.object fields) = depthOfFields fields + 1 := rfl

@[simp] theorem depthOfItems_nil : depthOfItems [] = 0 := rfl

@[simp] theorem depthOfItems_cons : depthOfItems (x :: items) = max (depth x) (depthOfItems items) := rfl

@[simp] theorem depthOfFields_nil : depthOfFields [] = 0 := rfl

@[simp] theorem depthOfFields_cons :
    depthOfFields ((name, x) :: fields) = max (depth x) (depthOfFields fields) := rfl

end

theorem depthOfItems_le_iff {n : Nat} :
    ∀ {items : List Json}, depthOfItems items ≤ n ↔ ∀ x ∈ items, depth x ≤ n
  | [] => by simp
  | x :: items => by rw [depthOfItems_cons, Nat.max_le, depthOfItems_le_iff, List.forall_mem_cons]

theorem depthOfFields_le_iff {n : Nat} :
    ∀ {fields : List (WideText × Json)}, depthOfFields fields ≤ n ↔ ∀ f ∈ fields, depth f.2 ≤ n
  | [] => by simp
  | (name, x) :: fields => by
    rw [depthOfFields_cons, Nat.max_le, depthOfFields_le_iff, List.forall_mem_cons]

/-- The order of the items does not count. -/
theorem depthOfItems_reverse (items : List Json) : depthOfItems items.reverse = depthOfItems items := by
  have hiff : ∀ n, depthOfItems items.reverse ≤ n ↔ depthOfItems items ≤ n := fun n => by
    simp only [depthOfItems_le_iff, List.mem_reverse]
  exact Nat.le_antisymm ((hiff _).2 (Nat.le_refl _)) ((hiff _).1 (Nat.le_refl _))

theorem depthOfFields_insert_le (name : WideText) (value : Json) (fields : List (WideText × Json)) :
    depthOfFields (Table.insert name value fields) ≤ max (depthOfFields fields) (depth value) := by
  refine depthOfFields_le_iff.2 fun f hf => ?_
  rcases Table.eq_or_mem_of_mem_insert hf with rfl | hf
  · exact Nat.le_max_right _ _
  · exact Nat.le_trans (depthOfFields_le_iff.1 (Nat.le_refl _) f hf) (Nat.le_max_left _ _)

end Json
end JsonnetLens
