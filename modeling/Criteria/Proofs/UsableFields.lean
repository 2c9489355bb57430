import Criteria.Proofs.FilterMeaning
import Criteria.Proofs.Reloading
import Criteria.Proofs.Validity

set_option autoImplicit false

/-
Values for every field. Whatever a field is and whichever of its operators is used, there is
a value that makes a valid rule, unless the id of the field is blank: a registry takes such a
definition in, and no rule that names it is valid.
-/
namespace Criteria

namespace Field

/-- A single value of the type of a field, of the options the first. -/
def someValue (f : Field) : Value :=
  match f.type with
  | .text => .text ""
  | .number => .number (.finite false .zero)
  | .date => .date "1970-01-01"
  | .boolean => .boolean true
  | .enum => .text ((f.options.getD []).headD "")

/-- A value of the form that an operator takes. -/
def valueFor (f : Field) (op : Operator) : Value :=
  if op.isNullary then .absent
  else if op.takesList then .list [f.someValue]
  else f.someValue

theorem fits_someValue {f : Field} (formed : f.IsWellFormed) : f.Fits f.someValue := by
  unfold someValue
  cases type : f.type with
  | text => exact .text _ type
  | number => exact .number _ type rfl
  | date => exact .date _ ⟨0, 0⟩ type (by decide)
  | boolean => exact .boolean _ type
  | enum =>
      obtain ⟨options, declared, nonempty⟩ := formed.hasOptions type
      obtain ⟨first, more, rfl⟩ := List.exists_cons_of_ne_nil nonempty
      rw [declared]
      exact .option first type ⟨_, declared, List.mem_cons_self⟩

theorem Fits.ne_absent {f : Field} {value : Value} (fits : f.Fits value) : value ≠ .absent := by
  cases fits <;> simp

theorem Fits.ne_list {f : Field} {value : Value} (fits : f.Fits value) (items : List Value) :
    value ≠ .list items := by
  cases fits <;> simp

/-- A list is taken where each of its items fits, whatever the type. -/
theorem takes_list {f : Field} {op : Operator} {items : List Value} (takesList : op.takesList)
    (each : ∀ item ∈ items, f.Fits item) : f.Takes op (.list items) := by
  -- Of a list for an enum only the texts are looked at, so such lists are taken in their own way.
  by_cases isEnum : f.type = .enum
  · refine .options items takesList isEnum ?_
    intro s member
    cases each _ member with
    | option _ _ hasOption => exact hasOption
    | text _ other | dateText _ _ other _ => cases other.symm.trans isEnum
  · exact .items items takesList isEnum each

theorem takes_valueFor {f : Field} (formed : f.IsWellFormed) (op : Operator) :
    f.Takes op (f.valueFor op) := by
  have fits := fits_someValue formed
  unfold valueFor
  split
  · exact .nothing ‹_›
  split
  · exact takes_list ‹_› (List.forall_mem_singleton.mpr fits)
  · exact .single _ ‹_› ‹_› fits.ne_absent fits.ne_list fits

end Field

namespace Registry

/-- A field that a registry lists is well formed, and found by its id and root table. -/
theorem isWellFormed_of_mem_toList {fields : List Field} (consistent : IsConsistent fields)
    {f : Field} (listed : f ∈ (holding fields).toList) :
    f.IsWellFormed ∧ (holding fields).resolve f.id f.rootTable = some f := by
  refine ⟨?_, mem_toList_iff.mp listed⟩
  obtain ⟨g, member, rfl⟩ := exists_mem_of_mem_toList consistent listed
  exact (consistent.wellFormed g member).normalized

end Registry

/-- A tree of one rule. -/
def Rule.alone (r : Rule) (id : String) : Group := ⟨id, .and, [.rule r]⟩

theorem Rule.mem_rules_alone (r : Rule) (id : String) : r ∈ (r.alone id).toNode.rules :=
  List.mem_singleton_self r

section
variable {registry : Registry} {rootTable : String}

theorem Rule.validate_alone_eq_nil_iff (r : Rule) (id : String) (maxDepth : Nat) :
    (r.alone id).validate registry rootTable maxDepth = [] ↔ r.IsValid registry rootTable := by
  rw [← Rule.problems_eq_nil_iff, ← Group.validate_singleton registry rootTable maxDepth id r,
    List.map_eq_nil_iff]
  rfl

theorem Rule.filterText_alone {r : Rule} {text : String}
    (compiled : r.condition? registry rootTable = some text) (id : String) :
    (r.alone id).filterText registry rootTable = text := by
  have nonempty := Rule.condition?_ne_empty registry rootTable compiled
  rw [Group.filterText, Rule.alone, Node.fragments, Node.fragment, compiled, Option.getD_some]
  simp only [String.isEmpty_iff, nonempty, ↓reduceIte, Node.fragments]
  exact Combinator.join_singleton .and text

/-- No tree is valid in which a rule names no field. -/
theorem Group.validate_ne_nil_of_blank {g : Group} {r : Rule} (member : r ∈ g.toNode.rules)
    (blank : Text.trimmed r.fieldId = "") (maxDepth : Nat) :
    g.validate registry rootTable maxDepth ≠ [] := by
  intro clean
  obtain ⟨path, found⟩ := Node.mem_rules_iff.mp member
  exact ((Group.isValid_of_validate clean).rules path r found).hasField blank

end

/-- For each operator of a registered field there is a value with which a rule alone in a tree
is valid, however low the limit on the depth, and compiles to a condition. Only where the id of
the field is blank, no tree with a rule that names it is valid. -/
theorem field_is_usable_unless_blank {fields : List Field} {r : Registry}
    (made : Registry.ofFields fields = .ok r) {f : Field} (listed : f ∈ r.toList)
    {op : Operator} (allowed : op ∈ f.operators) :
    (Text.trimmed f.id ≠ "" → ∃ value, ∀ ruleId groupId maxDepth, Text.trimmed ruleId ≠ "" →
      let tree := Rule.alone ⟨ruleId, f.id, op, value⟩ groupId
      tree.validate r f.rootTable maxDepth = [] ∧
        tree.filterText r f.rootTable = f.storagePath ++ "." ++ Condition.predicate op value ∧
        tree.filterText r f.rootTable ≠ "") ∧
    (Text.trimmed f.id = "" → ∀ (g : Group) (rule : Rule), rule ∈ g.toNode.rules →
      rule.fieldId = f.id → ∀ rootTable maxDepth, g.validate r rootTable maxDepth ≠ []) := by
  obtain ⟨consistent, rfl⟩ := Registry.ofFields_eq_ok_iff.mp made
  obtain ⟨formed, found⟩ := Registry.isWellFormed_of_mem_toList consistent listed
  constructor
  · intro named
    refine ⟨f.valueFor op, fun ruleId groupId maxDepth hasId => ?_⟩
    have valid : Rule.IsValid (Registry.holding fields) f.rootTable
        ⟨ruleId, f.id, op, f.valueFor op⟩ :=
      ⟨hasId, named, f, found, allowed, Field.takes_valueFor formed op⟩
    have compiled : Rule.condition? (Registry.holding fields) f.rootTable
        ⟨ruleId, f.id, op, f.valueFor op⟩ =
          some (f.storagePath ++ "." ++ Condition.predicate op (f.valueFor op)) := by
      rw [Rule.condition?, found, Option.map_some]
    have text := Rule.filterText_alone compiled groupId
    refine ⟨(Rule.validate_alone_eq_nil_iff _ groupId maxDepth).mpr valid, text, ?_⟩
    rw [text]
    exact Rule.condition?_ne_empty _ _ compiled
  · intro blank g rule member names rootTable maxDepth
    exact Group.validate_ne_nil_of_blank member (names ▸ blank) maxDepth

/-- A field of options with an operator that such fields do not usually allow, and a field
whose id is an em space. -/
theorem field_is_usable_unless_blank_options :
    let state := (Field.plain "state" "State" .enum "orders" "state").withOptions ["", "OPEN"]
      |>.withOperators [.contains]
    let blank := Field.plain "\u2003" "Blank" .number "orders" "blank"
    ∃ r, Registry.ofFields [state, blank] = .ok r ∧ state ∈ r.toList ∧ blank ∈ r.toList ∧
      (∃ value, Group.validate r "orders" 0 (Rule.alone ⟨"a", "state", .contains, value⟩ "") = []) ∧
      Group.validate r "orders" 0 (Rule.alone ⟨"a", "\u2003", .isNull, .absent⟩ "") ≠ [] := by
  intro state blank
  have made : Registry.ofFields [state, blank] = .ok (.holding [state, blank]) :=
    Registry.ofFields_of_isConsistent (by decide)
  have first : state ∈ Registry.toList (.holding [state, blank]) := by decide
  have second : blank ∈ Registry.toList (.holding [state, blank]) := by decide
  refine ⟨_, made, first, second, ?_, ?_⟩
  · obtain ⟨usable, -⟩ := field_is_usable_unless_blank made first
      (show Operator.contains ∈ state.operators by decide)
    obtain ⟨value, clean⟩ := usable (by decide)
    exact ⟨value, (clean "a" "" 0 (by decide)).1⟩
  · obtain ⟨-, unusable⟩ := field_is_usable_unless_blank made second
      (show Operator.isNull ∈ blank.operators by decide)
    exact unusable (by decide) _ _ (Rule.mem_rules_alone _ "") rfl "orders" 0

/-- A registry takes in a field whose id is a space, and with no value, id and limit is there a
valid rule for it, though it compiles. -/
theorem blank_field_is_unusable :
    let f := (Field.plain " " "Blank" .text "t" "c").withOperators [.isNull]
    let r : Registry := .holding [f]
    Registry.ofFields [f] = .ok r ∧ f ∈ r.toList ∧ .isNull ∈ f.operators ∧
      (∀ value ruleId groupId maxDepth,
        Group.validate r "t" maxDepth (Rule.alone ⟨ruleId, f.id, .isNull, value⟩ groupId) ≠ []) ∧
      Group.filterText r "t" (Rule.alone ⟨"r", f.id, .isNull, .absent⟩ "root") = "c.is.null" := by
  intro f r
  refine ⟨Registry.ofFields_of_isConsistent (by decide), by decide, by decide, ?_, by decide⟩
  intro value ruleId groupId maxDepth
  let rule : Rule := ⟨ruleId, " ", .isNull, value⟩
  have blank : Text.trimmed rule.fieldId = "" := by
    change Text.trimmed " " = ""
    decide
  exact Group.validate_ne_nil_of_blank (rule.mem_rules_alone groupId) blank maxDepth

end Criteria
