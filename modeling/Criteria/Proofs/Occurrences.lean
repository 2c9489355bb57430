import Mathlib.Data.List.Nodup
import Mathlib.Data.List.Perm.Lattice
import Criteria.Selection

set_option autoImplicit false

/- Lists without the repetitions of their items, and lists in groups. -/
namespace Criteria

theorem nodup_eraseDups {α : Type} [BEq α] [LawfulBEq α] (xs : List α) : xs.eraseDups.Nodup := by
  match xs with
  | [] => simp
  | x :: more =>
      rw [List.eraseDups_cons, List.nodup_cons, List.mem_eraseDups]
      exact ⟨by simp, nodup_eraseDups _⟩
termination_by xs.length
decreasing_by exact Nat.lt_succ_of_le (List.length_filter_le _ _)

/-- A list in groups by a key has the same items as before. -/
theorem perm_groups {α κ : Type} [BEq κ] [LawfulBEq κ] (key : α → κ) {keys : List κ}
    {xs : List α} (distinct : keys.Nodup) (all : ∀ x ∈ xs, key x ∈ keys) :
    (keys.flatMap fun k => xs.filter fun x => key x == k).Perm xs := by
  induction keys generalizing xs with
  | nil =>
      cases xs with
      | nil => rfl
      | cons x more => cases all x List.mem_cons_self
  | cons k keys ih =>
      obtain ⟨fresh, distinct⟩ := List.nodup_cons.mp distinct
      have rest : ∀ x ∈ xs.filter (fun x => !key x == k), key x ∈ keys := by
        intro x member
        obtain ⟨listed, other⟩ := List.mem_filter.mp member
        exact (List.mem_cons.mp (all x listed)).resolve_left (by simpa using other)
      -- A group of another key loses nothing when the items of this key are gone.
      have unchanged : (keys.flatMap fun k' =>
          (xs.filter fun x => !key x == k).filter fun x => key x == k') =
          keys.flatMap fun k' => xs.filter fun x => key x == k' := by
        apply List.flatMap_congr
        intro k' member
        have apart : k' ≠ k := fun same => fresh (same ▸ member)
        rw [List.filter_filter]
        apply List.filter_congr
        intro x _
        by_cases isKey : key x = k' <;> simp [isKey, apart]
      rw [List.flatMap_cons, ← unchanged]
      exact (List.Perm.append_left _ (ih distinct rest)).trans (List.filter_append_perm _ xs)

theorem eraseDups_of_nodup {α : Type} [BEq α] [LawfulBEq α] {xs : List α} (distinct : xs.Nodup) :
    xs.eraseDups = xs := by
  induction xs with
  | nil => rfl
  | cons x xs ih =>
      obtain ⟨fresh, distinct⟩ := List.nodup_cons.mp distinct
      have others : xs.filter (fun y => !y == x) = xs := by
        rw [List.filter_eq_self]
        intro y member
        have apart : y ≠ x := fun same => fresh (same ▸ member)
        simpa using apart
      rw [List.eraseDups_cons, others, ih distinct]

/-- What is left of lists of copies, one list for each of several items, is the items. -/
theorem eraseDups_flatMap {κ : Type} [BEq κ] [LawfulBEq κ] {copies : κ → List κ} {keys : List κ}
    (distinct : keys.Nodup) (nonempty : ∀ k ∈ keys, copies k ≠ [])
    (same : ∀ k, ∀ x ∈ copies k, x = k) : (keys.flatMap copies).eraseDups = keys := by
  induction keys with
  | nil => rfl
  | cons k keys ih =>
      obtain ⟨fresh, distinct⟩ := List.nodup_cons.mp distinct
      obtain ⟨some, others⟩ := List.forall_mem_cons.mp nonempty
      have first : (copies k).eraseDups = [k] := by
        obtain ⟨x, more, shape⟩ := List.exists_cons_of_ne_nil some
        have each := same k
        rw [shape, List.forall_mem_cons] at each
        obtain ⟨rfl, each⟩ := each
        have none : more.filter (fun y => !y == x) = [] := by
          rw [List.filter_eq_nil_iff]
          intro y member
          simp [each y member]
        rw [shape, List.eraseDups_cons, none, List.eraseDups_nil]
      have rest : (keys.flatMap copies).removeAll (copies k) = keys.flatMap copies := by
        rw [List.removeAll, List.filter_eq_self]
        intro x member
        obtain ⟨k', listed, inside⟩ := List.mem_flatMap.mp member
        have apart : x ∉ copies k := by
          intro inFirst
          rw [← same k' x inside, same k x inFirst] at listed
          exact fresh listed
        simpa using apart
      rw [List.flatMap_cons, List.eraseDups_append, first, rest, ih distinct others,
        List.singleton_append]

/-- A list in groups has the items of a key in the order in which they were. -/
theorem filter_groups {α κ : Type} [BEq κ] [LawfulBEq κ] (key : α → κ) {keys : List κ}
    (distinct : keys.Nodup) (xs : List α) {k : κ} (listed : k ∈ keys) :
    (keys.flatMap fun k' => xs.filter fun x => key x == k').filter (fun x => key x == k) =
      xs.filter fun x => key x == k := by
  have others {keys : List κ} (absent : k ∉ keys) :
      (keys.flatMap fun k' => xs.filter fun x => key x == k').filter (fun x => key x == k) = [] := by
    rw [List.filter_eq_nil_iff]
    intro x member isKey
    obtain ⟨k', inside, ofKey⟩ := List.mem_flatMap.mp member
    have same := eq_of_beq (List.mem_filter.mp ofKey).2
    rw [← same, eq_of_beq isKey] at inside
    exact absent inside
  induction keys with
  | nil => cases listed
  | cons k' keys ih =>
      obtain ⟨fresh, distinct⟩ := List.nodup_cons.mp distinct
      rw [List.flatMap_cons, List.filter_append, List.filter_filter]
      rcases List.mem_cons.mp listed with rfl | later
      · rw [others fresh, List.append_nil]
        simp only [Bool.and_self]
      · have apart : k ≠ k' := fun same => fresh (same ▸ later)
        have none : xs.filter (fun x => key x == k && key x == k') = [] := by
          rw [List.filter_eq_nil_iff]
          intro x _ both
          simp only [Bool.and_eq_true, beq_iff_eq] at both
          exact apart (both.1.symm.trans both.2)
        rw [none, List.nil_append, ih distinct later]

theorem insertNew_eraseDups (start : List String) (name : String) :
    insertNew start.eraseDups name = (start ++ [name]).eraseDups := by
  rw [insertNew, List.eraseDups_append]
  by_cases known : name ∈ start
  · simp [known, List.removeAll]
  · simp [known, List.removeAll, List.eraseDups_cons]

theorem foldl_insertNew (start names : List String) :
    names.foldl insertNew start.eraseDups = (start ++ names).eraseDups := by
  induction names generalizing start with
  | nil => rw [List.foldl_nil, List.append_nil]
  | cons name more ih =>
      rw [List.foldl_cons, insertNew_eraseDups, ih, List.append_assoc, List.singleton_append]

end Criteria
