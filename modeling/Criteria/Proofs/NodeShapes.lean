import Mathlib
import Criteria.Proofs.WireForm

set_option autoImplicit false

/-
Groups and rules as objects. An object is read as a group where its members are those of
a group, and only where they are not as a rule. Members of other names make no difference
to a rule, so that a combinator alone does not make a group.
-/
namespace Criteria

namespace Json

/-- What an object holds under a name, as often as the name is given. -/
def under (name : String) (members : List (String × Json)) : List Json :=
  (members.filter (·.1 == name)).map Prod.snd

theorem under_eq_nil_iff {name : String} {members : List (String × Json)} :
    under name members = [] ↔ ∀ j, (name, j) ∉ members := by
  rw [under, List.map_eq_nil_iff, List.filter_eq_nil_iff]
  constructor
  · intro others j member
    exact others (name, j) member (beq_self_eq_true name)
  · rintro absent ⟨other, j⟩ member same
    obtain rfl := beq_iff_eq.mp same
    exact absent j member

theorem under_cons_self (name : String) (j : Json) (members : List (String × Json)) :
    under name ((name, j) :: members) = j :: under name members := by
  simp [under]

theorem under_cons_of_ne {name other : String} (different : other ≠ name) (j : Json)
    (members : List (String × Json)) : under name ((other, j) :: members) = under name members := by
  simp [under, different]

section
variable {name : String} {members : List (String × Json)}

theorem member?_eq_none_iff : member? name members = some none ↔ under name members = [] := by
  rw [member?, under]
  generalize members.filter (·.1 == name) = found
  rcases found with _ | ⟨first, _ | ⟨second, more⟩⟩ <;> simp

theorem member?_eq_some_iff {j : Json} :
    member? name members = some (some j) ↔ under name members = [j] := by
  rw [member?, under]
  generalize members.filter (·.1 == name) = found
  rcases found with _ | ⟨first, _ | ⟨second, more⟩⟩ <;> simp

end

theorem text?_eq_some_iff {j : Json} {s : String} : j.text? = some s ↔ j = .string s := by
  cases j <;> simp [text?]

theorem readAll_eq_ok {α : Type} {reader : Nat → Nat → Reader α} {cs rest : List Char} {a : α}
    (found : reader (cs.length + 1) nestingLimit cs = .ok (a, rest))
    (blank : skipBlanks rest = []) : readAll reader cs = .ok a := by
  simp only [readAll, found, bind, Except.bind, blank]
  rfl

theorem readShaped_eq_ok {α : Type} {type : String} {ofJson? : Json → Option α}
    {fuel budget : Nat} {cs rest : List Char} {j : Json} {a : α}
    (found : readValue fuel budget cs = .ok (j, rest)) (shape : ofJson? j = some a) :
    readShaped type ofJson? fuel budget cs = .ok (a, rest) := by
  simp only [readShaped, found, bind, Except.bind, shape]
  rfl

/-- Whether a value names a constant: as a string, or as the one name of an object. -/
inductive Names (name : String) : Json → Prop where
  | string : Names name (.string name)
  | object : Names name (.object [(name, .null)])

theorem constant?_eq_some_iff {j : Json} {name : String} :
    j.constant? = some name ↔ j.Names name := by
  constructor
  · intro found
    unfold constant? at found
    split at found <;> cases found
    · exact .string
    · exact .object
  · intro names
    cases names <;> rfl

end Json

theorem Combinator.ofName?_eq_some_iff {s : String} {c : Combinator} :
    ofName? s = some c ↔ s = c.name := by
  constructor
  · intro found
    have isName := List.find?_some found
    exact (beq_iff_eq.mp isName).symm
  · rintro rfl
    exact c.ofName?_name

theorem Operator.ofName?_eq_some_iff {s : String} {op : Operator} :
    ofName? s = some op ↔ s = op.name := by
  constructor
  · intro found
    have isName := List.find?_some found
    exact (beq_iff_eq.mp isName).symm
  · rintro rfl
    exact op.ofName?_name

open Json (under)

/-- Whether the members of an object are those of a group: an id, the name of a
combinator, and an array of nodes or nothing. -/
structure Group.IsWrittenBy (g : Group) (members : List (String × Json)) : Prop where
  id : under "id" members = [.string g.id]
  combinator : ∃ j, under "combinator" members = [j] ∧ j.Names g.combinator.name
  children : (under "rules" members = [] ∧ g.children = []) ∨
    ∃ items, under "rules" members = [.array items] ∧
      List.Forall₂ (fun j child => Node.ofJson? j = some child) items g.children

/-- Whether the members of an object are those of a rule: two ids, the name of an operator,
and a value or nothing. -/
structure Rule.IsWrittenBy (r : Rule) (members : List (String × Json)) : Prop where
  id : under "id" members = [.string r.id]
  fieldId : under "fieldId" members = [.string r.fieldId]
  operator : ∃ j, under "operator" members = [j] ∧ j.Names r.operator.name
  value : (under "value" members = [] ∧ r.value = .absent) ∨
    ∃ j, under "value" members = [j] ∧ Value.ofJson? j = some r.value

namespace Rule

/-- The value that a rule has where none or one is given. -/
def valueOf? : Option Json → Option Value
  | none => some .absent
  | some j => Value.ofJson? j

theorem ofParts?_eq_some_iff {id fieldId operator : Json} {value : Option Json} {r : Rule} :
    ofParts? id fieldId operator value = some r ↔ id = .string r.id ∧
      fieldId = .string r.fieldId ∧ operator.Names r.operator.name ∧
      valueOf? value = some r.value := by
  have parts : ofParts? id fieldId operator value = id.text?.bind fun id =>
      fieldId.text?.bind fun fieldId => (operator.constant?.bind Operator.ofName?).bind fun op =>
        (valueOf? value).bind fun v => some ⟨id, fieldId, op, v⟩ := by
    cases value <;> rfl
  rw [parts]
  simp only [Option.bind_eq_some_iff, Option.some.injEq, Json.text?_eq_some_iff,
    Json.constant?_eq_some_iff, Operator.ofName?_eq_some_iff, exists_eq_right]
  constructor
  · rintro ⟨s, isId, t, isFieldId, op, names, v, isValue, rfl⟩
    exact ⟨isId, isFieldId, names, isValue⟩
  · rintro ⟨isId, isFieldId, names, isValue⟩
    exact ⟨_, isId, _, isFieldId, _, names, _, isValue, rfl⟩

theorem ofMembers?_eq_some_iff {members : List (String × Json)} {r : Rule} :
    ofMembers? members = some r ↔ r.IsWrittenBy members := by
  constructor
  · intro found
    simp only [ofMembers?, Option.bind_eq_bind, Option.bind_eq_some_iff] at found
    obtain ⟨value, isValue, _, isId, id, rfl, _, isFieldId, fieldId, rfl, _, isOperator, operator,
      rfl, parts⟩ := found
    obtain ⟨rfl, rfl, names, isR⟩ := ofParts?_eq_some_iff.mp parts
    refine ⟨Json.member?_eq_some_iff.mp isId, Json.member?_eq_some_iff.mp isFieldId,
      ⟨operator, Json.member?_eq_some_iff.mp isOperator, names⟩, ?_⟩
    cases value with
    | none => exact .inl ⟨Json.member?_eq_none_iff.mp isValue, (Option.some.inj isR).symm⟩
    | some j => exact .inr ⟨j, Json.member?_eq_some_iff.mp isValue, isR⟩
  · intro written
    obtain ⟨operator, isOperator, names⟩ := written.operator
    obtain ⟨value, isValue, isR⟩ : ∃ value, Json.member? "value" members = some value ∧
        valueOf? value = some r.value := by
      rcases written.value with ⟨nothing, absent⟩ | ⟨j, one, isR⟩
      · exact ⟨none, Json.member?_eq_none_iff.mpr nothing, by rw [absent]; rfl⟩
      · exact ⟨some j, Json.member?_eq_some_iff.mpr one, isR⟩
    rw [ofMembers?, isValue, Json.member?_eq_some_iff.mpr written.id,
      Json.member?_eq_some_iff.mpr written.fieldId, Json.member?_eq_some_iff.mpr isOperator]
    exact ofParts?_eq_some_iff.mpr ⟨rfl, rfl, names, isR⟩

end Rule

namespace Node

theorem ofJsons?_eq_some_iff {items : List Json} {nodes : List Node} :
    ofJsons? items = some nodes ↔
      List.Forall₂ (fun j node => ofJson? j = some node) items nodes := by
  induction items generalizing nodes with
  | nil => simp [ofJsons?, eq_comm]
  | cons j more ih =>
      rw [List.forall₂_cons_left_iff]
      simp only [ofJsons?, Option.bind_eq_bind, Option.bind_eq_some_iff, ih, Option.pure_def,
        Option.some.injEq]
      constructor
      · rintro ⟨node, first, nodes, rest, rfl⟩
        exact ⟨node, nodes, first, rest, rfl⟩
      · rintro ⟨node, nodes, first, rest, rfl⟩
        exact ⟨node, first, nodes, rest, rfl⟩

theorem children?_eq_some_iff {j : Json} {nodes : List Node} :
    children? j = some nodes ↔ ∃ items, j = .array items ∧
      List.Forall₂ (fun j node => ofJson? j = some node) items nodes := by
  cases j <;> simp [children?, ofJsons?_eq_some_iff]

theorem childrenIn_eq_map (members : List (String × Json)) :
    childrenIn members = (under "rules" members).map children? := by
  induction members with
  | nil => rfl
  | cons member more ih =>
      obtain ⟨name, j⟩ := member
      rw [childrenIn, under, List.filter_cons]
      split
      · rw [List.map_cons, List.map_cons, ih]
        rfl
      · exact ih

theorem groupOf?_eq_some_iff {id combinator : Json} {children : List Node} {node : Node} :
    groupOf? id combinator children = some node ↔ ∃ s c, id = .string s ∧
      combinator.Names c.name ∧ node = .group s c children := by
  simp only [groupOf?, Option.bind_eq_bind, Option.bind_eq_some_iff, Option.pure_def,
    Option.some.injEq, Json.text?_eq_some_iff, Json.constant?_eq_some_iff,
    Combinator.ofName?_eq_some_iff, exists_eq_right]
  constructor
  · rintro ⟨s, isId, c, names, rfl⟩
    exact ⟨s, c, isId, names, rfl⟩
  · rintro ⟨s, c, isId, names, rfl⟩
    exact ⟨s, isId, c, names, rfl⟩

/-- The children of a group, which may be left out but not be given twice. -/
def onlyChildren? : List (Option (List Node)) → Option (List Node)
  | [] => some []
  | [children] => children
  | _ => none

/-- The group that the members of an object describe, if they are those of one. -/
def groupOfMembers? (members : List (String × Json)) : Option Node := do
  let children ← onlyChildren? (childrenIn members)
  groupOf? (← ← Json.member? "id" members) (← ← Json.member? "combinator" members) children

theorem onlyChildren?_eq_some_iff {given : List Json} {nodes : List Node} :
    onlyChildren? (given.map children?) = some nodes ↔ (given = [] ∧ nodes = []) ∨
      ∃ items, given = [.array items] ∧
        List.Forall₂ (fun j node => ofJson? j = some node) items nodes := by
  rcases given with _ | ⟨j, _ | ⟨second, more⟩⟩
  · simp [onlyChildren?, eq_comm]
  · simp [onlyChildren?, children?_eq_some_iff]
  · simp [onlyChildren?]

theorem groupOfMembers?_eq_some_iff {members : List (String × Json)} {node : Node} :
    groupOfMembers? members = some node ↔
      ∃ g : Group, g.IsWrittenBy members ∧ node = g.toNode := by
  rw [groupOfMembers?, childrenIn_eq_map]
  simp only [Option.bind_eq_bind, Option.bind_eq_some_iff]
  constructor
  · rintro ⟨children, areChildren, _, isId, id, rfl, _, isCombinator, combinator, rfl, isNode⟩
    obtain ⟨s, c, rfl, names, rfl⟩ := groupOf?_eq_some_iff.mp isNode
    exact ⟨⟨s, c, children⟩, ⟨Json.member?_eq_some_iff.mp isId,
      ⟨combinator, Json.member?_eq_some_iff.mp isCombinator, names⟩,
      onlyChildren?_eq_some_iff.mp areChildren⟩, rfl⟩
  · rintro ⟨g, written, rfl⟩
    obtain ⟨combinator, isCombinator, names⟩ := written.combinator
    exact ⟨g.children, onlyChildren?_eq_some_iff.mpr written.children,
      _, Json.member?_eq_some_iff.mpr written.id, _, rfl,
      _, Json.member?_eq_some_iff.mpr isCombinator, _, rfl,
      groupOf?_eq_some_iff.mpr ⟨g.id, g.combinator, rfl, names, rfl⟩⟩

/-- An object is read as a group if its members are those of one, and else as a rule. -/
theorem ofJson?_object (members : List (String × Json)) :
    ofJson? (.object members) =
      (groupOfMembers? members).or ((Rule.ofMembers? members).map .rule) := by
  rw [ofJson?, Option.orElse_eq_orElse, Option.orElse_eq_or, groupOfMembers?]
  rcases childrenIn members with _ | ⟨first, _ | ⟨second, more⟩⟩ <;> rfl

theorem groupOfMembers?_eq_none_iff {members : List (String × Json)} :
    groupOfMembers? members = none ↔ ∀ g : Group, ¬ g.IsWrittenBy members := by
  rw [Option.eq_none_iff_forall_ne_some]
  constructor
  · intro none g written
    exact none g.toNode (groupOfMembers?_eq_some_iff.mpr ⟨g, written, rfl⟩)
  · intro none node found
    obtain ⟨g, written, -⟩ := groupOfMembers?_eq_some_iff.mp found
    exact none g written

theorem ofJson?_object_eq_some_iff {members : List (String × Json)} {node : Node} :
    ofJson? (.object members) = some node ↔
      (∃ g : Group, g.IsWrittenBy members ∧ node = g.toNode) ∨
      ((∀ g : Group, ¬ g.IsWrittenBy members) ∧
        ∃ r : Rule, r.IsWrittenBy members ∧ node = .rule r) := by
  rw [ofJson?_object, Option.or_eq_some_iff, groupOfMembers?_eq_some_iff,
    groupOfMembers?_eq_none_iff]
  simp only [Option.map_eq_some_iff, Rule.ofMembers?_eq_some_iff, eq_comm (b := node)]

/-- A whole text is a node where it is a JSON value that describes one. -/
theorem readAll_read_eq_ok_iff {cs : List Char} {node : Node} :
    Json.readAll read cs = .ok node ↔
      ∃ j, Json.readAll Json.readValue cs = .ok j ∧ ofJson? j = some node := by
  constructor
  · intro found
    obtain ⟨rest, found, blank⟩ := Json.of_readAll_eq_ok found
    obtain ⟨j, isJ, shape⟩ := Json.of_readShaped_eq_ok found
    exact ⟨j, Json.readAll_eq_ok isJ blank, shape⟩
  · rintro ⟨j, found, shape⟩
    obtain ⟨rest, found, blank⟩ := Json.of_readAll_eq_ok found
    exact Json.readAll_eq_ok (Json.readShaped_eq_ok found shape) blank

end Node

theorem Group.IsWrittenBy.exists_combinator {g : Group} {members : List (String × Json)}
    (written : g.IsWrittenBy members) : ∃ j, ("combinator", j) ∈ members := by
  obtain ⟨j, one, -⟩ := written.combinator
  by_contra absent
  rw [Json.under_eq_nil_iff.mpr (not_exists.mp absent)] at one
  cases one

/-- What an object is as a node. It is the group that its members make, if they make one, and
else the rule that they make. An object without a combinator is no group, but one with a
combinator can be a rule: whatever keeps it from being a group, the combinator is then no
more than a member that rules do not have. -/
theorem object_is_group_or_else_rule (members : List (String × Json)) :
    (∀ node, Node.ofJson? (.object members) = some node ↔
      (∃ g : Group, g.IsWrittenBy members ∧ node = g.toNode) ∨
      ((∀ g : Group, ¬ g.IsWrittenBy members) ∧
        ∃ r : Rule, r.IsWrittenBy members ∧ node = .rule r)) ∧
    ((∀ j, ("combinator", j) ∉ members) → ∀ g : Group,
      Node.ofJson? (.object members) ≠ some g.toNode) ∧
    ∀ cs node, Json.readAll Json.readValue cs = .ok (.object members) →
      (Json.readAll Node.read cs = .ok node ↔ Node.ofJson? (.object members) = some node) := by
  refine ⟨fun node => Node.ofJson?_object_eq_some_iff, ?_, ?_⟩
  · intro absent g found
    rcases Node.ofJson?_object_eq_some_iff.mp found with ⟨g, written, -⟩ | ⟨-, r, -, isRule⟩
    · obtain ⟨j, member⟩ := written.exists_combinator
      exact absent j member
    · cases isRule
  · intro cs node isObject
    rw [Node.readAll_read_eq_ok_iff, isObject]
    simp

theorem object_is_group_or_else_rule_plain :
    let members := [("id", .string "r"), ("fieldId", .string "f"), ("operator", .string "isNull")]
    (∀ g : Group, Node.ofJson? (.object members) ≠ some g.toNode) ∧
    Json.readAll Node.read
      "\x7b\"id\": \"r\", \"fieldId\": \"f\", \"operator\": \"isNull\"\x7d".toList =
        .ok (.rule ⟨"r", "f", .isNull, .absent⟩) := by
  intro members
  obtain ⟨-, noGroup, whole⟩ := object_is_group_or_else_rule members
  exact ⟨noGroup (by simp [members]), (whole _ _ (by cbv)).mpr rfl⟩

/-- A combinator of no known name, or a child that is no node, and the object is a rule,
by itself and inside a group. -/
theorem object_with_combinator_can_be_rule :
    ¬ (∀ (members : List (String × Json)) (node : Node), (∃ j, ("combinator", j) ∈ members) →
      Node.ofJson? (.object members) = some node → ∃ g : Group, node = g.toNode) ∧
    Node.ofJson? (.object [("id", .string "r"), ("combinator", .string "and"),
      ("rules", .array [.null]), ("fieldId", .string "f"), ("operator", .string "isNull")]) =
        some (.rule ⟨"r", "f", .isNull, .absent⟩) ∧
    Json.readAll Node.read
      "\x7b\"id\":\"r\",\"combinator\":\"xor\",\"fieldId\":\"f\",\"operator\":\"isNull\"\x7d".toList =
        .ok (.rule ⟨"r", "f", .isNull, .absent⟩) ∧
    Group.ofText ("\x7b\"id\":\"root\",\"combinator\":\"and\",\"rules\":[" ++
      "\x7b\"id\":\"r\",\"combinator\":\"xor\",\"fieldId\":\"f\",\"operator\":\"isNull\"\x7d]\x7d") =
        .ok ⟨"root", .and, [.rule ⟨"r", "f", .isNull, .absent⟩]⟩ := by
  refine ⟨fun always => ?_, rfl, by cbv, by cbv⟩
  obtain ⟨g, isGroup⟩ := always [("id", .string "r"), ("combinator", .string "xor"),
    ("fieldId", .string "f"), ("operator", .string "isNull")] (.rule ⟨"r", "f", .isNull, .absent⟩)
    ⟨.string "xor", by simp⟩ rfl
  cases isGroup

end Criteria
