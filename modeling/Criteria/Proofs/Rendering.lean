import Criteria.Proofs.ConditionTexts
import Criteria.Proofs.FilterMeaning
import Criteria.Proofs.Validity

set_option autoImplicit false

/-
What conditions lose of the values of rules, and that a validation tells of it. What is valid
is rendered by the texts of its values alone.
-/
namespace Criteria

namespace Condition

/-- What stands for a value in a condition where nothing is lost: its own text, or the own
texts of all its members. -/
inductive FullOperand (op : Operator) : Value → String → Prop where
  | none (value : Value) : op.isNullary → FullOperand op value "null"
  | single (value : Value) (own : String) : ¬ op.isNullary → ¬ op.takesList →
      ownText? value = some own → FullOperand op value own
  | list (items : List Value) (texts : List String) : op.takesList →
      texts.map some = items.map ownText? →
      FullOperand op (.list items) ("(" ++ String.intercalate "," texts ++ ")")

/-- What fits a field has a text of its own. -/
theorem isSome_ownText?_of_fits {f : Field} {value : Value} (fits : f.Fits value) :
    (ownText? value).isSome := by
  cases fits with
  | number n _ finite => cases n <;> first | rfl | cases finite
  | date written t _ read => simp [ownText?, read]
  | _ => rfl

/-- A list keeps the texts of all its members where each has one of its own. -/
theorem map_some_filterMap_scalarText? {items : List Value}
    (each : ∀ item ∈ items, (ownText? item).isSome) :
    (items.filterMap scalarText?).map some = items.map ownText? := by
  induction items with
  | nil => rfl
  | cons item more ih =>
      obtain ⟨text, own⟩ := Option.isSome_iff_exists.mp (each item List.mem_cons_self)
      have kept : ¬ Omitted item := by
        intro omitted
        rw [ownText?_eq_none_iff.mpr (.inr omitted)] at own
        cases own
      have rendered : scalarText? item = some text := by
        rw [scalarText?_eq kept, own, Option.getD_some]
      rw [List.filterMap_cons_some rendered, List.map_cons, List.map_cons, own,
        ih fun other member => each other (List.mem_cons_of_mem item member)]

end Condition

/-- The members of lists that no validation looks at. -/
def Rule.Unchecked (registry : Registry) (rootTable : String) (r : Rule) (item : Value) : Prop :=
  r.operator.takesList ∧ item.text? = none ∧
    ∃ f, registry.resolve r.fieldId rootTable = some f ∧ f.type = .enum

/-- What a condition can lose of its rule: the rule itself, the value, or a member of a
list. A rule whose operator carries no value renders none. -/
inductive Rule.Degrades (registry : Registry) (rootTable : String) (r : Rule) : Prop where
  | dropped : r.condition? registry rootTable = none → r.Degrades registry rootTable
  | value : ¬ r.operator.isNullary → Condition.Nulled r.value → r.Degrades registry rootTable
  | member (items : List Value) (item : Value) : ¬ r.operator.isNullary → r.value = .list items →
      item ∈ items → Condition.Nulled item ∨ Condition.Omitted item →
      ¬ r.Unchecked registry rootTable item → r.Degrades registry rootTable

/-- Whether the lists of rules on fields with options hold texts only. -/
def Group.ListsTexts (registry : Registry) (rootTable : String) (g : Group) : Prop :=
  ∀ r ∈ g.toNode.rules, ∀ items, r.value = .list items →
    ∀ item ∈ items, ¬ r.Unchecked registry rootTable item

/-- Whether a rule has a condition in which nothing is lost of its value. -/
def Rule.RendersInFull (registry : Registry) (rootTable : String) (r : Rule) : Prop :=
  ∃ f operand, registry.resolve r.fieldId rootTable = some f ∧
    Condition.FullOperand r.operator r.value operand ∧
    r.condition? registry rootTable =
      some (f.storagePath ++ "." ++ Condition.framed r.operator operand)

namespace Field

theorem isSome_ownText?_of_takes {f : Field} {op : Operator} {value : Value}
    (takes : f.Takes op value) (rendered : ¬ op.isNullary)
    (notList : ∀ items, value ≠ .list items) :
    (Condition.ownText? value).isSome := by
  cases takes with
  | nothing nullary => exact False.elim (rendered nullary)
  | options items | items items => exact False.elim (notList items rfl)
  | single _ _ _ _ _ fits => exact Condition.isSome_ownText?_of_fits fits

/-- Every member of a list that an operator takes has a text of its own, but for the
members that are not checked against options. -/
theorem isSome_ownText?_of_takes_list {f : Field} {op : Operator} {items : List Value}
    (takes : f.Takes op (.list items)) {item : Value} (member : item ∈ items)
    (checked : op.takesList → f.type = .enum → item.text? ≠ none) :
    (Condition.ownText? item).isSome := by
  cases takes with
  | options _ takesList isEnum _ =>
      cases item with
      | text s => rfl
      | _ => exact False.elim (checked takesList isEnum rfl)
  | items _ _ _ each => exact Condition.isSome_ownText?_of_fits (each item member)
  | single _ _ _ _ notList _ => exact False.elim (notList items rfl)

/-- Members that are no texts are not looked at where a field has options. -/
theorem itemProblems_filter_isSome_text? {f : Field} (isEnum : f.type = .enum)
    (items : List Value) :
    f.itemProblems (items.filter (·.text?.isSome)) = f.itemProblems items := by
  have texts : (items.filter (·.text?.isSome)).filterMap Value.text? =
      items.filterMap Value.text? := by
    rw [List.filterMap_filter]
    apply List.filterMap_congr
    intro item _
    cases item <;> rfl
  rw [itemProblems, itemProblems, if_pos isEnum, if_pos isEnum, texts]

end Field

theorem Rule.isSome_ownText?_of_member {registry : Registry} {rootTable : String} {r : Rule}
    (valid : r.IsValid registry rootTable) {items : List Value} (isList : r.value = .list items)
    {item : Value} (member : item ∈ items) (checked : ¬ r.Unchecked registry rootTable item) :
    (Condition.ownText? item).isSome := by
  obtain ⟨f, resolved, -, takes⟩ := valid.resolved
  rw [isList] at takes
  apply Field.isSome_ownText?_of_takes_list takes member
  intro takesList isEnum missing
  exact checked ⟨takesList, missing, f, resolved, isEnum⟩

/-- A rule that loses something in its condition is not valid. -/
theorem Rule.Degrades.not_isValid {registry : Registry} {rootTable : String} {r : Rule}
    (degrades : r.Degrades registry rootTable) : ¬ r.IsValid registry rootTable := by
  intro valid
  obtain ⟨f, resolved, -, takes⟩ := valid.resolved
  cases degrades with
  | dropped missing =>
      rw [Rule.condition?, resolved] at missing
      cases missing
  | value rendered nulled =>
      have notList : ∀ items, r.value ≠ .list items := by
        intro items isList
        rw [isList] at nulled
        cases nulled
      have own := Field.isSome_ownText?_of_takes takes rendered notList
      rw [Condition.ownText?_eq_none_iff.mpr (.inl nulled)] at own
      cases own
  | member items item _ isList member lost checked =>
      have own := Rule.isSome_ownText?_of_member valid isList member checked
      rw [Condition.ownText?_eq_none_iff.mpr lost] at own
      cases own

/-- A visible rule that is not valid is reported at its path. -/
theorem Group.exists_diagnostic_of_not_isValid {registry : Registry} {rootTable : String}
    {maxDepth : Nat} {g : Group} {path : Path} {r : Rule}
    (found : g.toNode.at? path = some (.rule r))
    (visible : ∀ above ∈ path.ancestors, above.length ≤ maxDepth)
    (invalid : ¬ r.IsValid registry rootTable) :
    ∃ d ∈ g.validate registry rootTable maxDepth, d.path = path ∧ d.node = .rule r := by
  rw [← Rule.problems_eq_nil_iff] at invalid
  obtain ⟨p, member⟩ := List.exists_mem_of_ne_nil _ invalid
  refine ⟨⟨path, p, .rule r⟩, ?_, rfl, rfl⟩
  rw [Group.mem_validate_iff]
  exact ⟨found, (Path.ancestors_length_le_iff path maxDepth).mp visible,
    List.mem_map.mpr ⟨p, member, rfl⟩⟩

theorem Rule.exists_fullOperand_of_isValid {registry : Registry} {rootTable : String} {r : Rule}
    (valid : r.IsValid registry rootTable)
    (checked : ∀ items, r.value = .list items → ∀ item ∈ items,
      ¬ r.Unchecked registry rootTable item) :
    ∃ operand, Condition.FullOperand r.operator r.value operand ∧
      Condition.predicate r.operator r.value = Condition.framed r.operator operand := by
  by_cases nullary : r.operator.isNullary
  · exact ⟨_, .none r.value nullary, Condition.predicate_of_isNullary nullary r.value⟩
  obtain ⟨f, -, -, takes⟩ := valid.resolved
  by_cases takesList : r.operator.takesList
  · obtain ⟨items, isList, -⟩ := (Field.takes_iff_of_takesList takesList).mp takes
    have each : ∀ item ∈ items, (Condition.ownText? item).isSome := fun item member =>
      Rule.isSome_ownText?_of_member valid isList member (checked items isList item member)
    have texts := Condition.map_some_filterMap_scalarText? each
    rw [isList]
    exact ⟨_, .list items _ takesList texts, Condition.predicate_of_takesList takesList _⟩
  · have notList : ∀ items, r.value ≠ .list items := by
      intro items isList
      rw [isList] at takes
      cases takes with
      | options _ isOne | items _ isOne => exact takesList isOne
      | single _ _ _ _ notList => exact notList items rfl
    have own := Field.isSome_ownText?_of_takes takes nullary notList
    obtain ⟨text, found⟩ := Option.isSome_iff_exists.mp own
    refine ⟨text, .single _ text nullary takesList found, ?_⟩
    rw [Condition.predicate_of_single nullary takesList, Condition.valueText_eq notList, found,
      Option.getD_some]

theorem Rule.rendersInFull_of_isValid {registry : Registry} {rootTable : String} {r : Rule}
    (valid : r.IsValid registry rootTable)
    (checked : ∀ items, r.value = .list items → ∀ item ∈ items,
      ¬ r.Unchecked registry rootTable item) : r.RendersInFull registry rootTable := by
  obtain ⟨f, resolved, -⟩ := valid.resolved
  obtain ⟨operand, full, same⟩ := Rule.exists_fullOperand_of_isValid valid checked
  refine ⟨f, operand, resolved, full, ?_⟩
  rw [Rule.condition?, resolved, Option.map_some, same]

/-- Nothing is pruned from a valid tree. -/
theorem Group.live_eq_self_of_isValid {registry : Registry} {rootTable : String} {maxDepth : Nat}
    {g : Group} (valid : g.IsValid registry rootTable maxDepth) :
    g.live registry rootTable = g := by
  have keeps : ∀ r ∈ g.toNode.rules, r.resolves registry rootTable := by
    intro r member
    obtain ⟨path, found⟩ := Node.mem_rules_iff.mp member
    obtain ⟨f, resolved, -⟩ := (valid.rules path r found).resolved
    rw [Rule.resolves, resolved, Option.isSome_some]
  have full := (Node.prune_eq_self keeps fun path id combinator children found =>
    (valid.groups path id combinator children found).2).2
  rw [Group.toNode, Node.prune, Node.group.injEq] at full
  rw [Group.live, full.2.2]

/-- The conditions of a valid tree are those of its rules, one each. -/
theorem Group.conditions_of_isValid {registry : Registry} {rootTable : String} {maxDepth : Nat}
    {g : Group} (valid : g.IsValid registry rootTable maxDepth) :
    (g.formula registry rootTable).conditions.map some =
      g.toNode.rules.map (·.condition? registry rootTable) := by
  rw [Group.formula, Node.conditions_formula, List.map_map]
  apply List.map_congr_left
  intro r member
  obtain ⟨path, found⟩ := Node.mem_rules_iff.mp member
  obtain ⟨f, resolved, -⟩ := (valid.rules path r found).resolved
  rw [Function.comp_apply, Rule.condition?, resolved, Option.map_some, Option.getD_some]

/-- A condition is made of the path of a field, the token of an operator and what stands for
the value. What it loses of a rule is reported at the path of the rule, unless it is a member
of a list that is not looked at. A tree in which nothing is reported, and whose lists of
options hold texts only, is therefore rendered in full. -/
theorem degradation_is_reported (registry : Registry) (rootTable : String) (maxDepth : Nat)
    (g : Group) :
    (∀ (r : Rule) (f : Field), registry.resolve r.fieldId rootTable = some f → ∀ text,
      r.condition? registry rootTable = some text ↔
        ∃ operand, Condition.Operand r.operator r.value operand ∧
          text = f.storagePath ++ "." ++ Condition.framed r.operator operand) ∧
    (∀ path r, g.toNode.at? path = some (.rule r) →
      (∀ above ∈ path.ancestors, above.length ≤ maxDepth) → r.Degrades registry rootTable →
      ∃ d ∈ g.validate registry rootTable maxDepth, d.path = path ∧ d.node = .rule r) ∧
    (∀ f items, Field.type f = .enum →
      f.itemProblems (items.filter (·.text?.isSome)) = f.itemProblems items) ∧
    (g.validate registry rootTable maxDepth = [] → g.ListsTexts registry rootTable →
      g.filterText registry rootTable ≠ "" ∧
      g.filterText registry rootTable = (g.formula registry rootTable).text ∧
      (g.formula registry rootTable).conditions.map some =
        g.toNode.rules.map (·.condition? registry rootTable) ∧
      ∀ r ∈ g.toNode.rules, r.RendersInFull registry rootTable) := by
  refine ⟨fun r f => Rule.condition?_eq_some_iff, ?_,
    fun f items isEnum => Field.itemProblems_filter_isSome_text? isEnum items, ?_⟩
  · intro path r found visible degrades
    exact Group.exists_diagnostic_of_not_isValid found visible degrades.not_isValid
  · intro clean texts
    have valid := Group.isValid_of_validate clean
    have live := Group.live_eq_self_of_isValid valid
    refine ⟨?_, ?_, Group.conditions_of_isValid valid, ?_⟩
    · rw [Ne, Group.filterText_eq_empty_iff, live]
      exact (valid.groups [] g.id g.combinator g.children rfl).2
    · rw [Group.filterText_eq_text, live]
    · intro r member
      obtain ⟨path, found⟩ := Node.mem_rules_iff.mp member
      exact Rule.rendersInFull_of_isValid (valid.rules path r found) (texts r member)

/-- A field of another table, a list with members of all kinds of which one is left out and
one is null, and a list of options. -/
theorem degradation_is_reported_sample :
    let lossy : Rule := ⟨"l", "order_ref", .oneOf, .list [.text "it's", .absent, .date "soon",
      .number (.ofBits 0xC045400000000000), .boolean true, .date "2024-03-01"]⟩
    (∃ d ∈ Group.sample.validate Registry.orders "orders" 1, d.path = [1, 1]) ∧
    lossy.condition? Registry.orders "orders" =
      some "reference.in.(it''s,null,-42.5,true,2024-03-01T00:00:00.000Z)" ∧
    (∃ d ∈ Group.validate Registry.orders "orders" 0 ⟨"root", .or, [.rule lossy]⟩, d.path = [0]) ∧
    ∀ r ∈ (Group.mk "root" .or (Group.sample.children.take 1)).toNode.rules,
      r.RendersInFull Registry.orders "orders" := by
  intro lossy
  refine ⟨?_, ?_, ?_, ?_⟩
  · obtain ⟨-, reported, -⟩ := degradation_is_reported Registry.orders "orders" 1 Group.sample
    obtain ⟨d, member, atPath, -⟩ := reported [1, 1] ⟨"d", "customer_email", .isNull, .absent⟩ rfl
      (by decide) (.dropped (by decide))
    exact ⟨d, member, atPath⟩
  · obtain ⟨conditions, -⟩ :=
      degradation_is_reported Registry.orders "orders" 0 ⟨"root", .or, [.rule lossy]⟩
    refine (conditions lossy _ rfl _).mpr ⟨_, .list _
      ["it''s", "null", "-42.5", "true", "2024-03-01T00:00:00.000Z"] (by decide) ?_, by decide⟩
    have kept {item : Value} (isSome : (Condition.scalarText? item).isSome) :
        ¬ Condition.Omitted item := by
      rw [← Condition.scalarText?_eq_none_iff, ← Option.not_isSome_iff_eq_none]
      exact not_not_intro isSome
    have unread : Instant.ofText? "soon" = none := by decide
    have number : Condition.ownText? (.number (.ofBits 0xC045400000000000)) = some "-42.5" := by
      decide +kernel
    have date : Condition.ownText? (.date "2024-03-01") = some "2024-03-01T00:00:00.000Z" := by
      decide
    exact .kept (kept rfl) (.own _ rfl) (.omitted .absent
      (.kept (kept rfl) (.null (.notDate _ unread)) (.kept (kept rfl) (.own _ number)
        (.kept (kept rfl) (.own _ rfl) (.kept (kept rfl) (.own _ date) .nil)))))
  · obtain ⟨-, reported, -⟩ :=
      degradation_is_reported Registry.orders "orders" 0 ⟨"root", .or, [.rule lossy]⟩
    have checked : ¬ lossy.Unchecked Registry.orders "orders" .absent := by
      rintro ⟨-, -, f, found, isEnum⟩
      cases found
      cases isEnum
    obtain ⟨d, member, atPath, -⟩ := reported [0] lossy rfl (by decide)
      (.member _ .absent (by decide) rfl (by simp) (.inl .absent) checked)
    exact ⟨d, member, atPath⟩
  · obtain ⟨-, -, -, full⟩ := degradation_is_reported Registry.orders "orders" 0
      ⟨"root", .or, Group.sample.children.take 1⟩
    have clean : Group.validate Registry.orders "orders" 0
        ⟨"root", .or, Group.sample.children.take 1⟩ = [] := rfl
    refine (full clean ?_).2.2.2
    intro r member items isList item inside ⟨_, notText, _⟩
    cases List.mem_singleton.mp member
    cases isList
    simp at inside
    rcases inside with rfl | rfl <;> cases notText

end Criteria
