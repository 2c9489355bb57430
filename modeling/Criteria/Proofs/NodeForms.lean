import Criteria.Proofs.NodeShapes
import Criteria.Proofs.RecordReading

set_option autoImplicit false

/-
The forms of a filter tree in JSON. Objects may have their members in any order and between
others, and rules and groups may be arrays of their members. Every form describes the same
tree, and one is within the limits on reading if all are.
-/
namespace Criteria

namespace Json

/-- The names of the members of values, rules and groups. -/
def wireNames : List String :=
  ["id", "combinator", "rules", "fieldId", "operator", "value", "date"]

/-- The members of an object in any order, and between others of other names. -/
def Rearranges (own members : List (String × Json)) : Prop :=
  ∃ extras, (∀ member ∈ extras, member.1 ∉ wireNames ∧ member.2.IsPlain) ∧
    members.Perm (own ++ extras)

theorem rearranges_self (own : List (String × Json)) : Rearranges own own :=
  ⟨[], List.forall_mem_nil _, by rw [List.append_nil]⟩

theorem under_append (name : String) (front back : List (String × Json)) :
    under name (front ++ back) = under name front ++ under name back := by
  rw [under, List.filter_append, List.map_append]
  rfl

theorem under_rereadMembers (name : String) (members : List (String × Json)) :
    under name (rereadMembers members) = (under name members).map reread := by
  rw [rereadMembers_eq_map, under, List.filter_map, List.map_map, under, List.map_map]
  rfl

namespace Rearranges

variable {own members : List (String × Json)} {name : String}

theorem under_perm (order : Rearranges own members) (known : name ∈ wireNames) :
    (under name members).Perm (under name own) := by
  obtain ⟨extras, others, perm⟩ := order
  have nothing : under name extras = [] :=
    under_eq_nil_iff.mpr fun j member => (others _ member).1 known
  have found : (under name members).Perm (under name (own ++ extras)) :=
    (perm.filter _).map Prod.snd
  rwa [under_append, nothing, List.append_nil] at found

theorem under_eq_singleton (order : Rearranges own members) (known : name ∈ wireNames) {j : Json}
    (one : under name own = [j]) : under name members = [j] :=
  List.perm_singleton.mp (one ▸ order.under_perm known)

theorem under_eq_nil (order : Rearranges own members) (known : name ∈ wireNames)
    (nothing : under name own = []) : under name members = [] :=
  List.perm_nil.mp (nothing ▸ order.under_perm known)

/-- A name that stands for one value stands for what is read in its place. -/
theorem under_reread_eq_singleton (order : Rearranges own members) (known : name ∈ wireNames)
    {j : Json} (one : under name own = [j]) : under name (rereadMembers members) = [j.reread] := by
  rw [under_rereadMembers, order.under_eq_singleton known one]
  rfl

theorem under_reread_eq_string (order : Rearranges own members) (known : name ∈ wireNames)
    {s : String} (one : under name own = [.string s]) :
    under name (rereadMembers members) = [.string s] :=
  order.under_reread_eq_singleton known one

theorem under_reread_eq_nil (order : Rearranges own members) (known : name ∈ wireNames)
    (nothing : under name own = []) : under name (rereadMembers members) = [] := by
  rw [under_rereadMembers, order.under_eq_nil known nothing]
  rfl

/-- What stands between the members has no part in the limits. -/
theorem forall_fits_iff (order : Rearranges own members) {budget : Nat} :
    (∀ member ∈ members, Fits budget member.2) ↔ ∀ member ∈ own, Fits budget member.2 := by
  obtain ⟨extras, others, perm⟩ := order
  constructor
  · intro each member inside
    exact each member (perm.mem_iff.mpr (List.mem_append_left _ inside))
  · intro each member inside
    rcases List.mem_append.mp (perm.mem_iff.mp inside) with isOwn | isExtra
    · exact each member isOwn
    · exact (others member isExtra).2.fits

end Rearranges

/-- What is in an array or object has to be within one level less. -/
theorem fits_array_iff_exists {budget : Nat} {items : List Json} :
    Fits budget (.array items) ↔ ∃ less, budget = less + 1 ∧ ∀ j ∈ items, Fits less j := by
  cases budget with
  | zero => exact iff_of_false (not_fits_array items) (by rintro ⟨less, same, -⟩; omega)
  | succ less => simp [fits_array_iff]

theorem fits_object_iff_exists {budget : Nat} {members : List (String × Json)} :
    Fits budget (.object members) ↔
      ∃ less, budget = less + 1 ∧ ∀ member ∈ members, Fits less member.2 := by
  cases budget with
  | zero => exact iff_of_false (not_fits_object members) (by rintro ⟨less, same, -⟩; omega)
  | succ less => simp [fits_object_iff]

end Json

open Json

namespace Value

mutual

/-- What a value may be written as. -/
inductive Form : Value → Json → Prop where
  | boolean (b : Bool) : Form (.boolean b) (.bool b)
  | number (n : Binary64) : Form (.number n) (.ofBinary64 n)
  | text (s : String) : Form (.text s) (.string s)
  | list {values : List Value} {items : List Json} (forms : Forms values items) :
      Form (.list values) (.array items)
  | date {written : String} {members : List (String × Json)}
      (order : Rearranges [("date", .string written)] members) :
      Form (.date written) (.object members)
  | absent : Form .absent .null

inductive Forms : List Value → List Json → Prop where
  | nil : Forms [] []
  | cons {value : Value} {j : Json} {values : List Value} {items : List Json}
      (form : Form value j) (forms : Forms values items) : Forms (value :: values) (j :: items)

end

mutual

theorem form_toJson : (value : Value) → value.Form value.toJson
  | .boolean b => .boolean b
  | .number n => .number n
  | .text s => .text s
  | .list values => .list (forms_toJsons values)
  | .date _ => .date (rearranges_self _)
  | .absent => .absent

theorem forms_toJsons : (values : List Value) → Forms values (toJsons values)
  | [] => .nil
  | value :: more => .cons (form_toJson value) (forms_toJsons more)

end

mutual

/-- Every form of a value describes it, as far as its numbers are read. -/
theorem ofJson?_reread : (value : Value) → ∀ j, value.Form j → ofJson? j.reread = some value.reread
  | .boolean b, _, .boolean _ => rfl
  | .number n, _, .number _ => by cases n <;> rfl
  | .text s, _, .text _ => rfl
  | .list values, _, .list forms => by
      rw [Json.reread, ofJson?, ofJsons?_reread values _ forms]
      rfl
  | .date written, _, .date order => by
      have one := order.under_reread_eq_singleton (show "date" ∈ wireNames by decide) rfl
      rw [Json.reread, ofJson?, member?_eq_some_iff.mpr one]
      rfl
  | .absent, _, .absent => rfl

theorem ofJsons?_reread : (values : List Value) → ∀ items, Forms values items →
    ofJsons? (rereadItems items) = some (rereads values)
  | [], _, .nil => rfl
  | value :: more, _, .cons form forms => by
      rw [rereadItems, ofJsons?, ofJson?_reread value _ form, ofJsons?_reread more _ forms]
      rfl

end

mutual

/-- All forms of a value are within the same limits. -/
theorem fits_iff : (value : Value) → ∀ j, value.Form j → ∀ {budget},
    Fits budget j ↔ Fits budget value.toJson
  | .boolean b, _, .boolean _, _ => Iff.rfl
  | .number n, _, .number _, _ => Iff.rfl
  | .text s, _, .text _, _ => Iff.rfl
  | .list values, _, .list forms, budget => by
      rw [toJson, fits_array_iff_exists, fits_array_iff_exists]
      simp only [forall_fits_iff values _ forms]
  | .date written, _, .date order, budget => by
      rw [toJson, fits_object_iff_exists, fits_object_iff_exists]
      simp only [order.forall_fits_iff]
  | .absent, _, .absent, _ => Iff.rfl

theorem forall_fits_iff : (values : List Value) → ∀ items, Forms values items → ∀ {budget},
    (∀ j ∈ items, Fits budget j) ↔ ∀ j ∈ toJsons values, Fits budget j
  | [], _, .nil, _ => Iff.rfl
  | value :: more, _, .cons form forms, _ => by
      rw [toJsons, List.forall_mem_cons, List.forall_mem_cons, fits_iff value _ form,
        forall_fits_iff more _ forms]

end

end Value

namespace Rule

/-- The members of a rule in front of its value. -/
def keyMembers (r : Rule) : List (String × Json) :=
  [("id", .string r.id), ("fieldId", .string r.fieldId), ("operator", .string r.operator.name)]

/-- What a rule may be written as: an object or an array of its members, which may both leave
out an absent value. -/
inductive Form (r : Rule) : Json → Prop where
  | bareObject {members : List (String × Json)} (absent : r.value.isAbsent)
      (order : Rearranges r.keyMembers members) : Form r (.object members)
  | object {value : Json} {members : List (String × Json)} (present : ¬ r.value.isAbsent)
      (form : r.value.Form value)
      (order : Rearranges (r.keyMembers ++ [("value", value)]) members) :
      Form r (.object members)
  | bareArray (absent : r.value.isAbsent) :
      Form r (.array [.string r.id, .string r.fieldId, .string r.operator.name])
  | array {value : Json} (form : r.value.Form value) :
      Form r (.array [.string r.id, .string r.fieldId, .string r.operator.name, value])

theorem form_toJson (r : Rule) : r.Form r.toJson := by
  by_cases absent : r.value.isAbsent
  · rw [toJson, if_pos absent, List.append_nil]
    exact .bareObject absent (rearranges_self _)
  · rw [toJson, if_neg absent]
    exact .object absent r.value.form_toJson (rearranges_self _)

theorem eq_absent_of_isAbsent {value : Value} (absent : value.isAbsent) : value = .absent := by
  cases value <;> first | rfl | cases absent

theorem reread_value_eq_absent {r : Rule} (absent : r.value.isAbsent) :
    r.reread.value = .absent := by
  rw [Rule.reread, eq_absent_of_isAbsent absent]
  rfl

/-- An object whose members are those of a rule, its value or nothing included, is written by
the rule that is read from it. -/
theorem isWrittenBy_reread {r : Rule} {own members : List (String × Json)}
    (order : Rearranges own members) (id : under "id" own = [.string r.id])
    (fieldId : under "fieldId" own = [.string r.fieldId])
    (operator : under "operator" own = [.string r.operator.name])
    (value : (under "value" own = [] ∧ r.value.isAbsent) ∨
      ∃ j, under "value" own = [j] ∧ r.value.Form j) :
    r.reread.IsWrittenBy (rereadMembers members) where
  id := order.under_reread_eq_string (by decide) id
  fieldId := order.under_reread_eq_string (by decide) fieldId
  operator := ⟨_, order.under_reread_eq_string (by decide) operator, .string⟩
  value := by
    rcases value with ⟨nothing, absent⟩ | ⟨j, one, form⟩
    · exact .inl ⟨order.under_reread_eq_nil (by decide) nothing, reread_value_eq_absent absent⟩
    · exact .inr ⟨_, order.under_reread_eq_singleton (by decide) one,
        r.value.ofJson?_reread _ form⟩

/-- All forms of a rule are one level deeper than its value. -/
theorem fits_iff {r : Rule} {j : Json} (form : r.Form j) {budget : Nat} :
    Fits budget j ↔ ∃ less, budget = less + 1 ∧ Fits less r.value.toJson := by
  have absentFits (absent : r.value.isAbsent) {less : Nat} : Fits less r.value.toJson := by
    rw [eq_absent_of_isAbsent absent]
    exact fits_null
  cases form with
  | bareObject absent order =>
      rw [fits_object_iff_exists]
      simp only [order.forall_fits_iff]
      simp [keyMembers, fits_string, absentFits absent]
  | object present form order =>
      rw [fits_object_iff_exists]
      simp only [order.forall_fits_iff]
      simp [keyMembers, fits_string, r.value.fits_iff _ form]
  | bareArray absent =>
      rw [fits_array_iff_exists]
      simp [fits_string, absentFits absent]
  | array form =>
      rw [fits_array_iff_exists]
      simp [fits_string, r.value.fits_iff _ form]

end Rule

namespace Node

mutual

/-- What a node may be written as. -/
inductive Form : Node → Json → Prop where
  | rule {r : Rule} {j : Json} (form : r.Form j) : Form (.rule r) j
  | object {id : String} {combinator : Combinator} {children : List Node} {items : List Json}
      {members : List (String × Json)} (forms : Forms children items)
      (order : Rearranges [("id", .string id), ("combinator", .string combinator.name),
        ("rules", .array items)] members) : Form (.group id combinator children) (.object members)
  | array {id : String} {combinator : Combinator} {children : List Node} {items : List Json}
      (forms : Forms children items) :
      Form (.group id combinator children)
        (.array [.string id, .string combinator.name, .array items])

inductive Forms : List Node → List Json → Prop where
  | nil : Forms [] []
  | cons {node : Node} {j : Json} {nodes : List Node} {items : List Json} (form : Form node j)
      (forms : Forms nodes items) : Forms (node :: nodes) (j :: items)

end

mutual

theorem form_toJson : (node : Node) → node.Form node.toJson
  | .rule r => .rule r.form_toJson
  | .group _ _ children => .object (forms_toJsons children) (rearranges_self _)

theorem forms_toJsons : (nodes : List Node) → Forms nodes (toJsons nodes)
  | [] => .nil
  | node :: more => .cons (form_toJson node) (forms_toJsons more)

end

/-- The object of a rule is not taken for a group, which has a combinator. -/
theorem ofJson?_reread_ruleObject {r : Rule} {own members : List (String × Json)}
    (order : Rearranges own members) (noCombinator : under "combinator" own = [])
    (written : r.reread.IsWrittenBy (rereadMembers members)) :
    ofJson? (.object (rereadMembers members)) = some (.rule r.reread) := by
  have absent : under "combinator" (rereadMembers members) = [] :=
    order.under_reread_eq_nil (by decide) noCombinator
  refine ofJson?_object_eq_some_iff.mpr (.inr ⟨?_, r.reread, written, rfl⟩)
  intro g isGroup
  obtain ⟨j, one, -⟩ := isGroup.combinator
  rw [absent] at one
  cases one

/-- Nor is the array of a rule. One of three items ends in the name of an operator, where a
group has an array, and one of four has too many for a group. -/
theorem ofJson?_reread_rule {r : Rule} {j : Json} (form : r.Form j) :
    ofJson? j.reread = some (.rule r.reread) := by
  cases form with
  | bareObject absent order =>
      exact ofJson?_reread_ruleObject order rfl
        (Rule.isWrittenBy_reread order rfl rfl rfl (.inl ⟨rfl, absent⟩))
  | object present form order =>
      exact ofJson?_reread_ruleObject order rfl
        (Rule.isWrittenBy_reread order rfl rfl rfl (.inr ⟨_, rfl, form⟩))
  | bareArray absent =>
      have parts : Rule.ofParts? (.string r.id) (.string r.fieldId) (.string r.operator.name)
          none = some r.reread :=
        Rule.ofParts?_eq_some_iff.mpr ⟨rfl, rfl, .string, by
          rw [Rule.reread_value_eq_absent absent]
          rfl⟩
      simp [Json.reread, rereadItems, ofJson?, children?, parts]
  | @array value form =>
      have parts : Rule.ofParts? (.string r.id) (.string r.fieldId) (.string r.operator.name)
          (some value.reread) = some r.reread :=
        Rule.ofParts?_eq_some_iff.mpr ⟨rfl, rfl, .string, r.value.ofJson?_reread _ form⟩
      simp [Json.reread, rereadItems, ofJson?, parts]

mutual

/-- Every form of a node describes it, as far as its numbers are read. -/
theorem ofJson?_reread : (node : Node) → ∀ j, node.Form j → ofJson? j.reread = some node.reread
  | .rule r, _, .rule form => ofJson?_reread_rule form
  | .group id combinator children, _, .object forms order => by
      have found := ofJsons?_eq_some_iff.mp (ofJsons?_reread children _ forms)
      refine ofJson?_object_eq_some_iff.mpr (.inl ⟨⟨id, combinator, rereads children⟩, ?_, rfl⟩)
      exact ⟨order.under_reread_eq_string (by decide) rfl,
        ⟨_, order.under_reread_eq_string (by decide) rfl, .string⟩,
        .inr ⟨_, order.under_reread_eq_singleton (show "rules" ∈ wireNames by decide) rfl, found⟩⟩
  | .group id combinator children, _, .array forms => by
      have found := ofJsons?_reread children _ forms
      have whole : groupOf? (.string id) (.string combinator.name) (rereads children) =
          some (.group id combinator (rereads children)) :=
        groupOf?_eq_some_iff.mpr ⟨id, combinator, rfl, .string, rfl⟩
      simp [Json.reread, rereadItems, ofJson?, children?, found, whole, Node.reread]

theorem ofJsons?_reread : (nodes : List Node) → ∀ items, Forms nodes items →
    ofJsons? (rereadItems items) = some (rereads nodes)
  | [], _, .nil => rfl
  | node :: more, _, .cons form forms => by
      rw [rereadItems, ofJsons?, ofJson?_reread node _ form, ofJsons?_reread more _ forms]
      rfl

end

mutual

/-- All forms of a node are within the same limits. -/
theorem fits_iff : (node : Node) → ∀ j, node.Form j → ∀ {budget},
    Fits budget j ↔ Fits budget node.toJson
  | .rule r, _, .rule form, _ => (Rule.fits_iff form).trans (Rule.fits_iff r.form_toJson).symm
  | .group id combinator children, _, .object forms order, _ => by
      rw [toJson, fits_object_iff_exists, fits_object_iff_exists]
      simp only [order.forall_fits_iff, List.forall_mem_cons, fits_array_iff_exists,
        forall_fits_iff children _ forms]
  | .group id combinator children, _, .array forms, _ => by
      rw [toJson, fits_array_iff_exists, fits_object_iff_exists]
      simp only [List.forall_mem_cons, fits_array_iff_exists, forall_fits_iff children _ forms]
      simp

theorem forall_fits_iff : (nodes : List Node) → ∀ items, Forms nodes items → ∀ {budget},
    (∀ j ∈ items, Fits budget j) ↔ ∀ j ∈ toJsons nodes, Fits budget j
  | [], _, .nil, _ => Iff.rfl
  | node :: more, _, .cons form forms, _ => by
      rw [toJsons, List.forall_mem_cons, List.forall_mem_cons, fits_iff node _ form,
        forall_fits_iff more _ forms]

end

end Node
end Criteria
