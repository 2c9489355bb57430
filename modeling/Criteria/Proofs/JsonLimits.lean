import Criteria.Proofs.JsonNumbers

set_option autoImplicit false

/-
What it takes for a JSON value to be read from its text: it nests within a budget, and its
numbers are in range. A number may come back as a neighbour of what was written.
-/
namespace Criteria

namespace JsonNumber

/-- What is read in place of a number, as far as its text is read. -/
def reread (n : JsonNumber) : JsonNumber := n.reread?.getD n

/-- Whether the text of a number is read as that number. -/
def IsReadable (n : JsonNumber) : Prop := n.reread? = some n

theorem IsReadable.reread_eq {n : JsonNumber} (readable : n.IsReadable) : n.reread = n := by
  rw [reread, readable]
  rfl

end JsonNumber

namespace Json

mutual

/-- How deep arrays and objects nest. -/
def depth : Json → Nat
  | .array items => depthOfItems items + 1
  | .object members => depthOfMembers members + 1
  | _ => 0

def depthOfItems : List Json → Nat
  | [] => 0
  | item :: more => max item.depth (depthOfItems more)

def depthOfMembers : List (String × Json) → Nat
  | [] => 0
  | (_, value) :: more => max value.depth (depthOfMembers more)

end

mutual

/-- The numbers of a value, from left to right. -/
def numbers : Json → List JsonNumber
  | .number n => [n]
  | .array items => numbersOfItems items
  | .object members => numbersOfMembers members
  | _ => []

def numbersOfItems : List Json → List JsonNumber
  | [] => []
  | item :: more => item.numbers ++ numbersOfItems more

def numbersOfMembers : List (String × Json) → List JsonNumber
  | [] => []
  | (_, value) :: more => value.numbers ++ numbersOfMembers more

end

mutual

/-- The value with what is read in place of its numbers. -/
def reread : Json → Json
  | .number n => .number n.reread
  | .array items => .array (rereadItems items)
  | .object members => .object (rereadMembers members)
  | j => j

def rereadItems : List Json → List Json
  | [] => []
  | item :: more => item.reread :: rereadItems more

def rereadMembers : List (String × Json) → List (String × Json)
  | [] => []
  | (name, value) :: more => (name, value.reread) :: rereadMembers more

end

theorem rereadItems_eq_map (items : List Json) : rereadItems items = items.map reread := by
  induction items with
  | nil => rfl
  | cons item more ih => rw [rereadItems, ih, List.map_cons]

theorem rereadMembers_eq_map (members : List (String × Json)) :
    rereadMembers members = members.map fun member => (member.1, member.2.reread) := by
  induction members with
  | nil => rfl
  | cons member more ih => rw [rereadMembers, ih, List.map_cons]

mutual

theorem reread_eq_self : (j : Json) → (∀ n ∈ j.numbers, n.IsReadable) → j.reread = j
  | .null, _ | .bool _, _ | .string _, _ => rfl
  | .number n, readable => by
      rw [reread, (readable n (by simp [numbers])).reread_eq]
  | .array items, readable => by rw [reread, rereadItems_eq_self items readable]
  | .object members, readable => by rw [reread, rereadMembers_eq_self members readable]

theorem rereadItems_eq_self : (items : List Json) →
    (∀ n ∈ numbersOfItems items, n.IsReadable) → rereadItems items = items
  | [], _ => rfl
  | item :: more, readable => by
      rw [numbersOfItems, List.forall_mem_append] at readable
      rw [rereadItems, reread_eq_self item readable.1, rereadItems_eq_self more readable.2]

theorem rereadMembers_eq_self : (members : List (String × Json)) →
    (∀ n ∈ numbersOfMembers members, n.IsReadable) → rereadMembers members = members
  | [], _ => rfl
  | (name, value) :: more, readable => by
      rw [numbersOfMembers, List.forall_mem_append] at readable
      rw [rereadMembers, reread_eq_self value readable.1, rereadMembers_eq_self more readable.2]

end

section Limits

theorem depthOfItems_le_iff {items : List Json} {bound : Nat} :
    depthOfItems items ≤ bound ↔ ∀ j ∈ items, j.depth ≤ bound := by
  induction items with
  | nil => simp [depthOfItems]
  | cons j more ih => rw [depthOfItems, Nat.max_le, ih, List.forall_mem_cons]

theorem depthOfMembers_le_iff {members : List (String × Json)} {bound : Nat} :
    depthOfMembers members ≤ bound ↔ ∀ member ∈ members, member.2.depth ≤ bound := by
  induction members with
  | nil => simp [depthOfMembers]
  | cons member more ih => rw [depthOfMembers, Nat.max_le, ih, List.forall_mem_cons]

theorem forall_mem_numbersOfItems {items : List Json} {P : JsonNumber → Prop} :
    (∀ n ∈ numbersOfItems items, P n) ↔ ∀ j ∈ items, ∀ n ∈ j.numbers, P n := by
  induction items with
  | nil => simp [numbersOfItems]
  | cons j more ih => rw [numbersOfItems, List.forall_mem_append, ih, List.forall_mem_cons]

theorem forall_mem_numbersOfMembers {members : List (String × Json)} {P : JsonNumber → Prop} :
    (∀ n ∈ numbersOfMembers members, P n) ↔
      ∀ member ∈ members, ∀ n ∈ member.2.numbers, P n := by
  induction members with
  | nil => simp [numbersOfMembers]
  | cons member more ih =>
      rw [numbersOfMembers, List.forall_mem_append, ih, List.forall_mem_cons]

/-- Whether a value can be read: within a budget for its depth, and with numbers that are
in range. -/
structure Fits (budget : Nat) (j : Json) : Prop where
  shallow : j.depth ≤ budget
  readable : ∀ n ∈ j.numbers, n.reread?.isSome

variable {budget : Nat}

theorem fits_null : Fits budget .null := ⟨Nat.zero_le _, List.forall_mem_nil _⟩

theorem fits_bool (b : Bool) : Fits budget (.bool b) := ⟨Nat.zero_le _, List.forall_mem_nil _⟩

theorem fits_string (s : String) : Fits budget (.string s) :=
  ⟨Nat.zero_le _, List.forall_mem_nil _⟩

theorem fits_number_iff {n : JsonNumber} : Fits budget (.number n) ↔ n.reread?.isSome :=
  ⟨fun fits => fits.readable n (by simp [numbers]), fun readable =>
    ⟨Nat.zero_le _, List.forall_mem_singleton.mpr readable⟩⟩

theorem not_fits_array (items : List Json) : ¬ Fits 0 (.array items) :=
  fun fits => Nat.not_succ_le_zero _ fits.shallow

theorem not_fits_object (members : List (String × Json)) : ¬ Fits 0 (.object members) :=
  fun fits => Nat.not_succ_le_zero _ fits.shallow

/-- A level is taken from the budget for what is in an array. -/
theorem fits_array_iff {items : List Json} :
    Fits (budget + 1) (.array items) ↔ ∀ j ∈ items, Fits budget j := by
  constructor
  · intro fits j member
    exact ⟨depthOfItems_le_iff.mp (Nat.le_of_succ_le_succ fits.shallow) j member,
      forall_mem_numbersOfItems.mp fits.readable j member⟩
  · intro each
    exact ⟨Nat.succ_le_succ (depthOfItems_le_iff.mpr fun j member => (each j member).shallow),
      forall_mem_numbersOfItems.mpr fun j member => (each j member).readable⟩

theorem fits_object_iff {members : List (String × Json)} :
    Fits (budget + 1) (.object members) ↔ ∀ member ∈ members, Fits budget member.2 := by
  constructor
  · intro fits member inside
    exact ⟨depthOfMembers_le_iff.mp (Nat.le_of_succ_le_succ fits.shallow) member inside,
      forall_mem_numbersOfMembers.mp fits.readable member inside⟩
  · intro each
    exact ⟨Nat.succ_le_succ (depthOfMembers_le_iff.mpr fun member inside =>
      (each member inside).shallow), forall_mem_numbersOfMembers.mpr fun member inside =>
      (each member inside).readable⟩

/-- Where numbers are read as they are, only the depth counts. -/
theorem fits_iff_depth_le {j : Json} (readable : ∀ n ∈ j.numbers, n.IsReadable) :
    Fits budget j ↔ j.depth ≤ budget := by
  refine ⟨fun fits => fits.shallow, fun shallow => ⟨shallow, fun n member => ?_⟩⟩
  rw [readable n member]
  rfl

end Limits

end Json
end Criteria
