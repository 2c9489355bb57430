import Criteria.Proofs.NodeForms

set_option autoImplicit false

/-
Reading groups and their nodes from JSON text. A group is read from the texts of each of its
forms: from an object whatever the order of its members, and from an array of them.
-/
namespace Criteria

open Json

namespace Node

/-- A node is read from the texts of its forms. -/
theorem reads_form {node : Node} {j : Json} (form : node.Form j) {fuel : Nat}
    (enough : j.tokens.length ≤ fuel) (budget : Nat) :
    Reads (Node.read fuel budget) budget j node.reread :=
  reads_shaped (node.ofJson?_reread _ form) enough budget

theorem forall₂_reads : {nodes : List Node} → {items : List Json} → Forms nodes items →
    ∀ {fuel : Nat}, (∀ j ∈ items, j.tokens.length ≤ fuel) → ∀ budget,
      List.Forall₂ (Reads (Node.read fuel budget) budget) items (rereads nodes)
  | [], _, .nil, _, _, _ => .nil
  | _ :: _, _, .cons form forms, _, enough, budget => by
      obtain ⟨first, others⟩ := List.forall_mem_cons.mp enough
      exact .cons (reads_form form first budget) (forall₂_reads forms others budget)

/-- Nodes are read from the texts of an array of their forms. -/
theorem reads_children {nodes : List Node} {items : List Json} (forms : Forms nodes items)
    {fuel : Nat} (enough : (tokens (.array items)).length ≤ fuel) (budget : Nat) :
    Reads (readList (Node.read fuel) fuel budget) budget (.array items) (rereads nodes) :=
  reads_list (forall₂_reads forms fun _ member => length_tokens_le_of_mem_array member enough)
    enough budget

end Node

namespace Group

def reread (g : Group) : Group := { g with children := Node.rereads g.children }

/-- What a part of a record holds and what is still to come for it: the part, or the one value
that it is read from. -/
inductive Slot {α : Type} (j : Json) (a : α) : Option α → List Json → Prop where
  | empty : Slot j a none [j]
  | full : Slot j a (some a) []

namespace Slot

variable {α : Type} {j value : Json} {a : α} {got : Option α} {left : List Json}

theorem of_nil (slot : Slot j a got []) : got = some a := by
  cases slot
  rfl

/-- What comes for a part is what it is read from, and after it nothing is to come. -/
theorem of_cons (slot : Slot j a got (value :: left)) :
    value = j ∧ got = none ∧ Slot j a (some a) left := by
  cases slot
  exact ⟨rfl, rfl, .full⟩

end Slot

/-- All that is read of a group. -/
def wireParts (g : Group) : Parts where
  id := some g.id
  combinator := some g.combinator
  children := some g.children

/-- Some of the parts of a group have been read, and the others are to come. -/
structure Parts.Awaits (g : Group) (items : List Json) (parts : Parts)
    (members : List (String × Json)) : Prop where
  id : Slot (.string g.id) g.id parts.id (under "id" members)
  combinator : Slot (.string g.combinator.name) g.combinator parts.combinator
    (under "combinator" members)
  children : Slot (.array items) g.children parts.children (under "rules" members)
  others : ∀ member ∈ members, member.1 ∉ record.members.map (·.name) → member.2.IsPlain

theorem find?_eq_none {name : String} (unknown : name ∉ record.members.map (·.name)) :
    record.members.find? (·.name == name) = none := by
  rw [List.find?_eq_none]
  intro member known same
  exact unknown (List.mem_map.mpr ⟨member, known, beq_iff_eq.mp same⟩)

variable {g : Group} {items : List Json} {fuel budget : Nat}

/-- Whatever the order of its members, a group takes each for its part. -/
theorem takes_awaited
    (children : Reads (readList (Node.read fuel) fuel budget) budget (.array items) g.children)
    {members : List (String × Json)} {parts : Parts} (awaits : parts.Awaits g items members) :
    Record.Takes record.members fuel budget members parts g.wireParts := by
  -- A member fills the slot of its name, which is empty, or is passed over. At the end all
  -- slots are full.
  induction members generalizing parts with
  | nil =>
      obtain ⟨id, combinator, rules, -⟩ := awaits
      have same : parts = g.wireParts := by
        rw [wireParts, ← id.of_nil, ← combinator.of_nil, ← rules.of_nil]
      rw [← same]
      exact .nil _
  | cons member more ih =>
      obtain ⟨name, value⟩ := member
      obtain ⟨id, combinator, rules, others⟩ := awaits
      obtain ⟨here, later⟩ := List.forall_mem_cons.mp others
      by_cases isId : name = "id"
      · subst isId
        rw [under_cons_self] at id
        rw [under_cons_of_ne (by decide)] at combinator rules
        obtain ⟨rfl, unset, filled⟩ := id.of_cons
        exact .cons _ rfl (by simp [unset]) ((reads_text "a string" g.id budget).map fun id =>
          ({ parts with id := some id } : Parts)) (ih ⟨filled, combinator, rules, later⟩)
      by_cases isCombinator : name = "combinator"
      · subst isCombinator
        rw [under_cons_self] at combinator
        rw [under_cons_of_ne (by decide)] at id rules
        obtain ⟨rfl, unset, filled⟩ := combinator.of_cons
        have named : Reads (Combinator.read budget) budget (.string g.combinator.name)
            g.combinator := reads_named g.combinator.ofName?_name budget
        exact .cons _ rfl (by simp [unset]) (named.map fun combinator =>
          ({ parts with combinator := some combinator } : Parts)) (ih ⟨id, filled, rules, later⟩)
      by_cases isRules : name = "rules"
      · subst isRules
        rw [under_cons_self] at rules
        rw [under_cons_of_ne (by decide)] at id combinator
        obtain ⟨rfl, unset, filled⟩ := rules.of_cons
        exact .cons _ rfl (by simp [unset]) (children.map fun children =>
          ({ parts with children := some children } : Parts)) (ih ⟨id, combinator, filled, later⟩)
      · have unknown : name ∉ record.members.map (·.name) := by
          simp [record, isId, isCombinator, isRules]
        rw [under_cons_of_ne isId] at id
        rw [under_cons_of_ne isCombinator] at combinator
        rw [under_cons_of_ne isRules] at rules
        exact .skip (find?_eq_none unknown) (here unknown) (ih ⟨id, combinator, rules, later⟩)

/-- Before the first member of a group is read, all of its parts are to come. -/
theorem awaits_start {members : List (String × Json)}
    (order : Rearranges [("id", .string g.id), ("combinator", .string g.combinator.name),
      ("rules", .array items)] members) : Parts.Awaits g items {} members where
  id := by
    rw [order.under_eq_singleton (by decide) rfl]
    exact .empty
  combinator := by
    rw [order.under_eq_singleton (by decide) rfl]
    exact .empty
  children := by
    rw [order.under_eq_singleton (by decide) rfl]
    exact .empty
  others := by
    obtain ⟨extras, plain, perm⟩ := order
    intro member inside unknown
    rcases List.mem_append.mp (perm.mem_iff.mp inside) with isOwn | isExtra
    · refine absurd ?_ unknown
      simp only [List.mem_cons, List.not_mem_nil, or_false] at isOwn
      rcases isOwn with rfl | rfl | rfl <;> simp [record]
    · exact (plain member isExtra).2

/-- A group is read from the texts of its forms. -/
theorem reads_form {j : Json} (form : g.toNode.Form j) (enough : j.tokens.length ≤ fuel)
    (budget : Nat) : Reads (Group.record.read fuel budget) budget j g.reread := by
  cases form with
  | @object _ _ _ items members forms order =>
      have inside : (tokens (.array items)).length ≤ fuel := by
        obtain ⟨extras, -, perm⟩ := order
        have member : ("rules", Json.array items) ∈ members :=
          perm.mem_iff.mpr (List.mem_append_left _ (by simp))
        exact length_tokens_le_of_mem_object member enough
      have takes (budget : Nat) : Record.Takes record.members fuel budget members {}
          g.reread.wireParts :=
        takes_awaited (Node.reads_children forms inside budget) (awaits_start order)
      exact record.reads_object takes rfl enough budget
  | @array _ _ _ items forms =>
      have inside : (tokens (.array items)).length ≤ fuel := by
        have member : Json.array items ∈
            [.string g.id, .string g.combinator.name, .array items] := by simp
        exact length_tokens_le_of_mem_array member enough
      have combinator (budget : Nat) : Reads (Combinator.read budget) budget
          (.string g.combinator.name) g.combinator := reads_named g.combinator.ofName?_name budget
      have fills (budget : Nat) : Record.Fills fuel budget record.members
          [.string g.id, .string g.combinator.name, .array items] {} g.reread.wireParts :=
        .cons ((reads_text "a string" g.id budget).map fun id => ({ id := some id } : Parts)) <|
        .cons ((combinator budget).map fun combinator =>
          ({ id := some g.id, combinator := some combinator } : Parts)) <|
        .cons ((Node.reads_children forms inside budget).map fun children =>
          (⟨some g.id, some g.combinator, some children⟩ : Parts)) (.nil _)
      exact record.reads_array fills rfl budget

end Group
end Criteria
