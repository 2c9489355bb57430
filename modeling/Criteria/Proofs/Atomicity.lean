import Criteria.Registry.Sample
import Criteria.Proofs.DateTexts
import Criteria.Proofs.ListedFields
import Criteria.Proofs.Rendering

set_option autoImplicit false

/-
When conditions and the members of their lists stay whole in a filter string. Nothing
that a rule renders has a mark but the texts of its value, which keep theirs.
-/
namespace Criteria

open Parentheses

/-- The texts that a value brings into a condition: itself, or the members of a list. -/
def Value.texts : Value → List String
  | .text s => [s]
  | .list items => items.filterMap Value.text?
  | _ => []

namespace Condition

/-- The members of a list that are not left out. -/
def kept (items : List Value) : List Value :=
  items.filter fun item => !item.isAbsent && !item.isList

theorem members_list (items : List Value) : members (.list items) = (kept items).map valueText := by
  rw [members, kept]
  induction items with
  | nil => rfl
  | cons item more ih =>
      cases item with
      | list | absent => exact ih
      | _ => exact congrArg (List.cons _) ih

theorem kept_eq_self {items : List Value} (each : ∀ item ∈ items, ¬ Omitted item) :
    kept items = items := by
  apply List.filter_eq_self.mpr
  intro item member
  cases item with
  | absent => exact False.elim (each _ member .absent)
  | list items => exact False.elim (each _ member (.list items))
  | _ => rfl

theorem isFlat_numberText (n : Binary64) : IsFlat (numberText n).toList := by
  cases n with
  | finite negative m =>
      have numeral := @NumberStyle.isNumeral_finite conditionStyle .nil negative m
      rw [numberText, String.toList_ofList]
      exact fun c member => isMark_eq_false (by decide) (numeral c member)
  | _ => exact show IsFlat nullWord.toList by decide

/-- A rendered value has the marks of its text, if it is one, and no others. -/
theorem marks_of_scalarText? {value : Value} {text : String}
    (found : scalarText? value = some text) :
    marks text.toList = marks (value.text?.getD "").toList := by
  have flat (plain : IsFlat text.toList) (isOther : value.text? = none) :
      marks text.toList = marks (value.text?.getD "").toList := by
    rw [plain.marks_eq, isOther]
    rfl
  cases value with
  | text s =>
      cases found
      exact marks_escape s
  | number n =>
      cases found
      exact flat (isFlat_numberText n) rfl
  | boolean b =>
      cases found
      exact flat (by cases b <;> decide) rfl
  | date written =>
      cases found
      refine flat ?_ rfl
      cases Instant.ofText? written with
      | none => decide
      | some t => exact t.isFlat_iso
  | list | absent => cases found

/-- What is told of a text by its marks holds of all members of a list where it holds of
the texts among them. -/
theorem forall_members_iff {holds : List Char → Prop}
    (congr : ∀ {cs ds}, marks cs = marks ds → (holds cs ↔ holds ds)) (nil : holds [])
    (items : List Value) :
    (∀ text ∈ members (.list items), holds text.toList) ↔
      ∀ s ∈ items.filterMap Value.text?, holds s.toList := by
  constructor
  · intro each s member
    obtain ⟨item, inside, isText⟩ := List.mem_filterMap.mp member
    cases item with
    | text other =>
        cases isText
        have rendered : escape s ∈ members (.list items) :=
          List.mem_filterMap.mpr ⟨.text s, inside, rfl⟩
        exact (congr (marks_escape s)).mp (each (escape s) rendered)
    | _ => cases isText
  · intro each text member
    obtain ⟨item, inside, found⟩ := List.mem_filterMap.mp member
    rw [congr (marks_of_scalarText? found)]
    cases isText : item.text? with
    | none => exact nil
    | some s => exact each s (List.mem_filterMap.mpr ⟨item, inside, isText⟩)

theorem isFlat_token (op : Operator) : IsFlat op.token.toList := by
  cases op <;> decide

/-- A value stands between texts without marks. -/
theorem isFlat_frame (op : Operator) :
    IsFlat (op.token ++ "." ++ op.stars.1).toList ∧ IsFlat op.stars.2.toList := by
  cases op <;> decide

theorem isFlat_predicate_of_isNullary {op : Operator} (nullary : op.isNullary) (value : Value) :
    IsFlat (predicate op value).toList := by
  cases op with
  | isNull => exact show IsFlat "is.null".toList by decide
  | isNotNull => exact show IsFlat "not.is.null".toList by decide
  | _ => cases nullary

end Condition

/-- A condition with a single value, or with none, stays whole where its text does. -/
theorem Field.isPiece_predicate_iff {f : Field} {op : Operator} {value : Value}
    (takes : f.Takes op value) (single : ¬ op.takesList) :
    IsPiece (Condition.predicate op value).toList ↔ ∀ s ∈ value.texts, IsPiece s.toList := by
  cases takes with
  | nothing nullary =>
      have flat := Condition.isFlat_predicate_of_isNullary nullary .absent
      simp [flat.isPiece, Value.texts]
  | options _ takesList | items _ takesList => exact False.elim (single takesList)
  | single _ rendered _ notAbsent notList _ =>
      obtain ⟨flatFront, flatBack⟩ := Condition.isFlat_frame op
      have notOmitted : ¬ Condition.Omitted value := by
        intro omitted
        cases omitted with
        | absent => exact notAbsent rfl
        | list items => exact notList items rfl
      have found : Condition.scalarText? value = some (Condition.valueText value) := by
        rw [Condition.scalarText?_eq notOmitted, Condition.valueText_eq notList]
      rw [Condition.predicate_of_single rendered single, Condition.framed, ← String.append_assoc,
        ← String.append_assoc, String.toList_append, String.toList_append,
        flatBack.isPiece_append_iff,
        flatFront.append_isPiece_iff, isPiece_congr (Condition.marks_of_scalarText? found)]
      cases value with
      | list items => exact False.elim (notList items rfl)
      | text s => simp [Value.texts, Value.text?]
      | _ => simp [Value.texts, Value.text?, isFlat_nil.isPiece]

/-- The texts of a value that a date field takes have no marks. -/
theorem Field.isFlat_texts_of_date {f : Field} {op : Operator} {value : Value}
    (takes : f.Takes op value) (isDate : f.type = .date) :
    ∀ s ∈ value.texts, IsFlat s.toList := by
  have ofFits {s : String} (fits : f.Fits (.text s)) : IsFlat s.toList := by
    cases fits with
    | text _ isText => cases isDate.symm.trans isText
    | option _ isEnum _ => cases isDate.symm.trans isEnum
    | dateText _ t _ read => exact Instant.isFlat_of_ofText? read
  intro s member
  cases takes with
  | nothing => cases member
  | options _ _ isEnum _ => cases isDate.symm.trans isEnum
  | items items _ _ each =>
      obtain ⟨item, inside, isText⟩ := List.mem_filterMap.mp member
      cases item with
      | text other =>
          cases isText
          exact ofFits (each _ inside)
      | _ => cases isText
  | single _ _ _ _ notList fits =>
      cases value with
      | list items => exact False.elim (notList items rfl)
      | text other =>
          cases List.mem_singleton.mp member
          exact ofFits fits
      | _ => cases member

/-- A list renders as its kept members between parentheses. -/
theorem Field.predicate_of_takesList {f : Field} {op : Operator} {value : Value}
    (takes : f.Takes op value) (takesList : op.takesList) :
    ∃ items, value = .list items ∧ (f.type ≠ .enum → Condition.kept items = items) ∧
      Condition.predicate op value = op.token ++ "." ++ ("(" ++
        String.intercalate "," ((Condition.kept items).map Condition.valueText) ++ ")") := by
  obtain ⟨items, rfl, clean⟩ := (Field.takes_iff_of_takesList takesList).mp takes
  refine ⟨items, rfl, ?_, ?_⟩
  · intro notEnum
    apply Condition.kept_eq_self
    intro item member omitted
    have fits := (Field.itemProblems_of_not_enum notEnum items).mp clean item member
    cases omitted <;> cases fits
  · rw [Condition.predicate_of_takesList takesList, Condition.framed_of_takesList takesList,
      Condition.listText, Condition.members_list]

/-- A valid rule whose texts can stand between commas compiles to a condition that can,
and only such texts stay whole in it. The members of a list are found again between its
parentheses where each text among them can stand between commas, and only then. Texts of
dates always can. -/
theorem condition_stays_whole (registry : Registry) (rootTable : String) (r : Rule)
    (paths : ∀ f ∈ registry.toList, IsFlat f.storagePath.toList)
    (clean : r.problems registry rootTable = []) :
    ∃ f text, registry.resolve r.fieldId rootTable = some f ∧
      r.condition? registry rootTable = some text ∧
      (f.type = .date → ∀ s ∈ r.value.texts, IsFlat s.toList) ∧
      (¬ r.operator.takesList →
        (IsPiece text.toList ↔ ∀ s ∈ r.value.texts, IsPiece s.toList)) ∧
      (r.operator.takesList → ∃ items inner, r.value = .list items ∧
        (f.type ≠ .enum → Condition.kept items = items) ∧
        inner = String.intercalate "," ((Condition.kept items).map Condition.valueText) ∧
        text = f.storagePath ++ "." ++ (r.operator.token ++ "." ++ ("(" ++ inner ++ ")")) ∧
        ((∀ s ∈ r.value.texts, Balanced s.toList) → Balanced inner.toList ∧ IsPiece text.toList) ∧
        (Condition.kept items = [] → inner = "") ∧
        (Condition.kept items ≠ [] →
          (split? 0 inner.toList =
              some ((Condition.kept items).map fun item => (Condition.valueText item).toList) ↔
            ∀ s ∈ r.value.texts, IsPiece s.toList))) := by
  obtain ⟨f, resolved, -, takes⟩ := ((r.problems_eq_nil_iff registry rootTable).mp clean).resolved
  have path : IsFlat (f.storagePath ++ ".").toList := by
    rw [String.toList_append]
    exact (paths f (Registry.mem_toList_of_resolve resolved)).append (by decide)
  refine ⟨f, f.storagePath ++ "." ++ Condition.predicate r.operator r.value, resolved, ?_,
    Field.isFlat_texts_of_date takes, ?_, ?_⟩
  · rw [Rule.condition?, resolved, Option.map_some]
  · intro single
    rw [String.toList_append, path.append_isPiece_iff]
    exact Field.isPiece_predicate_iff takes single
  · intro takesList
    obtain ⟨items, isList, all, same⟩ := Field.predicate_of_takesList takes takesList
    have opening : IsFlat (r.operator.token ++ ".").toList := by
      rw [String.toList_append]
      exact (Condition.isFlat_token _).append (by decide)
    refine ⟨items, _, isList, all, rfl, congrArg _ same, ?_, ?_, ?_⟩
    · intro balanced
      rw [isList, Value.texts, ← Condition.forall_members_iff balanced_congr rfl,
        Condition.members_list] at balanced
      have inner := Balanced.intercalate balanced
      refine ⟨inner, ?_⟩
      have brackets (inside : String) :
          ("(" ++ inside ++ ")").toList = '(' :: inside.toList ++ [')'] := by simp
      rw [same, String.toList_append, path.append_isPiece_iff, String.toList_append,
        opening.append_isPiece_iff, brackets]
      exact .parenthesized inner
    · intro empty
      rw [empty]
      rfl
    · intro nonempty
      rw [isList, Value.texts, ← Condition.forall_members_iff isPiece_congr isFlat_nil.isPiece,
        Condition.members_list, ← split?_intercalate_iff (by simpa using nonempty), List.map_map]
      rfl

theorem condition_stays_whole_nested :
    ∃ text, Rule.condition? Registry.orders "orders"
        ⟨"r", "order_ref", .oneOf, .list [.text "a(b,c)", .text "d"]⟩ = some text ∧
      IsPiece text.toList := by
  have clean : Rule.problems Registry.orders "orders"
      ⟨"r", "order_ref", .oneOf, .list [.text "a(b,c)", .text "d"]⟩ = [] := rfl
  obtain ⟨f, text, -, compiled, -, -, listed⟩ :=
    condition_stays_whole Registry.orders "orders" _ (by decide) clean
  obtain ⟨items, inner, -, -, -, -, whole, -⟩ := listed rfl
  have balanced : ∀ s ∈ ["a(b,c)", "d"], Balanced s.toList := by decide
  exact ⟨text, compiled, (whole balanced).2⟩

/-- Commas are not escaped: a text with one ends its condition early, and makes two
members of one where it stands in a list. -/
theorem comma_divides_condition :
    (∀ f ∈ Registry.orders.toList, IsFlat f.storagePath.toList) ∧
    (Rule.problems Registry.orders "orders" ⟨"r", "order_ref", .eq, .text "a,b"⟩ = [] ∧
      Rule.condition? Registry.orders "orders" ⟨"r", "order_ref", .eq, .text "a,b"⟩ =
        some "reference.eq.a,b" ∧
      ¬ IsPiece "reference.eq.a,b".toList) ∧
    (Rule.problems Registry.orders "orders"
        ⟨"r", "order_ref", .oneOf, .list [.text "a,b"]⟩ = [] ∧
      Rule.condition? Registry.orders "orders"
        ⟨"r", "order_ref", .oneOf, .list [.text "a,b"]⟩ = some "reference.in.(a,b)" ∧
      split? 0 "a,b".toList = some [['a'], ['b']]) := by
  refine ⟨by decide, ⟨rfl, by decide, by decide⟩, rfl, by decide, by decide⟩

end Criteria
