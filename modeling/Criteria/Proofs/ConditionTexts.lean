import Mathlib.Data.List.Basic
import Criteria.Condition

set_option autoImplicit false

/-
What stands for the value of a rule in its condition. The texts of values come from two
places only: from the value itself, or from the null word that stands for what has no text.
-/
namespace Criteria

/-- What an operator puts in front of a text and behind it. -/
def Operator.stars : Operator → String × String
  | .contains => ("*", "*")
  | .startsWith => ("", "*")
  | .endsWith => ("*", "")
  | _ => ("", "")

namespace Condition

/-- The text that a value has of its own. -/
def ownText? : Value → Option String
  | .text s => some (escape s)
  | .number (.finite negative m) => some (numberText (.finite negative m))
  | .number _ => none
  | .boolean b => some (if b then "true" else "false")
  | .date written => (Instant.ofText? written).map Instant.iso
  | .list _ | .absent => none

/-- The values that the null word stands for. -/
inductive Nulled : Value → Prop where
  | absent : Nulled .absent
  | notFinite (n : Binary64) : n.isFinite = false → Nulled (.number n)
  | notDate (written : String) : Instant.ofText? written = none → Nulled (.date written)

/-- The values that lists leave out. -/
inductive Omitted : Value → Prop where
  | absent : Omitted .absent
  | list (items : List Value) : Omitted (.list items)

/-- The text of a single value. -/
inductive Renders (value : Value) : String → Prop where
  | own (text : String) : ownText? value = some text → Renders value text
  | null : Nulled value → Renders value "null"

/-- The texts of the members of a list. -/
inductive RendersAll : List Value → List String → Prop where
  | nil : RendersAll [] []
  | omitted {item : Value} {items : List Value} {texts : List String} : Omitted item →
      RendersAll items texts → RendersAll (item :: items) texts
  | kept {item : Value} {items : List Value} {text : String} {texts : List String} :
      ¬ Omitted item → Renders item text → RendersAll items texts →
      RendersAll (item :: items) (text :: texts)

/-- What stands for a value between the stars of an operator. A list has parentheses, which
an operator on lists puts around a single value as well. -/
inductive Operand (op : Operator) : Value → String → Prop where
  | none (value : Value) : op.isNullary → Operand op value "null"
  | single (value : Value) (text : String) : ¬ op.isNullary → ¬ op.takesList →
      Renders value text → Operand op value text
  | list (items : List Value) (texts : List String) : ¬ op.isNullary → RendersAll items texts →
      Operand op (.list items) ("(" ++ String.intercalate "," texts ++ ")")
  | alone (value : Value) (text : String) : op.takesList → ¬ Omitted value →
      Renders value text → Operand op value ("(" ++ text ++ ")")
  | nothing : op.takesList → Operand op .absent "()"

/-- The part of a condition behind its path. -/
def framed (op : Operator) (operand : String) : String :=
  op.token ++ "." ++ (op.stars.1 ++ operand ++ op.stars.2)

/-- A single value is rendered by its own text or else by the null word. -/
theorem valueText_eq {value : Value} (notList : ∀ items, value ≠ .list items) :
    valueText value = (ownText? value).getD nullWord := by
  cases value with
  | list items => exact False.elim (notList items rfl)
  | number n => cases n <;> rfl
  | date written =>
      simp only [valueText, scalarText?, ownText?, Option.getD_some]
      cases Instant.ofText? written <;> rfl
  | _ => rfl

/-- A member of a list is rendered in the same way, unless it is left out. -/
theorem scalarText?_eq {value : Value} (kept : ¬ Omitted value) :
    scalarText? value = some ((ownText? value).getD nullWord) := by
  cases value with
  | list items => exact False.elim (kept (.list items))
  | absent => exact False.elim (kept .absent)
  | number n => cases n <;> rfl
  | date written =>
      simp only [scalarText?, ownText?]
      cases Instant.ofText? written <;> rfl
  | _ => rfl

theorem scalarText?_eq_none_iff {value : Value} : scalarText? value = none ↔ Omitted value := by
  constructor
  · intro missing
    by_contra kept
    rw [scalarText?_eq kept] at missing
    cases missing
  · intro omitted
    cases omitted <;> rfl

theorem ownText?_eq_none_iff {value : Value} :
    ownText? value = none ↔ Nulled value ∨ Omitted value := by
  constructor
  · intro missing
    cases value with
    | text s => cases missing
    | boolean b => cases missing
    | absent => exact .inl .absent
    | list items => exact .inr (.list items)
    | number n =>
        cases n with
        | finite negative m => cases missing
        | infinite negative => exact .inl (.notFinite _ rfl)
        | nan => exact .inl (.notFinite _ rfl)
    | date written => exact .inl (.notDate written (Option.map_eq_none_iff.mp missing))
  · intro lost
    rcases lost with nulled | omitted
    · cases nulled with
      | absent => rfl
      | notFinite n infinite => cases n <;> first | rfl | cases infinite
      | notDate written unread => exact Option.map_eq_none_iff.mpr unread
    · cases omitted <;> rfl

/-- A list is nowhere rendered as a single value. -/
theorem renders_iff {value : Value} {text : String} :
    Renders value text ↔ (∀ items, value ≠ .list items) ∧ valueText value = text := by
  constructor
  · intro renders
    cases renders with
    | own _ own =>
        have notList : ∀ items, value ≠ .list items := by
          rintro items rfl
          cases own
        rw [valueText_eq notList, own]
        exact ⟨notList, rfl⟩
    | null nulled =>
        have notList : ∀ items, value ≠ .list items := by
          rintro items rfl
          cases nulled
        rw [valueText_eq notList, ownText?_eq_none_iff.mpr (.inl nulled)]
        exact ⟨notList, rfl⟩
  · rintro ⟨notList, rfl⟩
    rw [valueText_eq notList]
    cases own : ownText? value with
    | some text => exact .own text own
    | none =>
        rcases ownText?_eq_none_iff.mp own with nulled | omitted
        · exact .null nulled
        · cases omitted with
          | absent => exact .null .absent
          | list items => exact absurd rfl (notList items)

theorem notList_of_not_omitted {value : Value} (kept : ¬ Omitted value) (items : List Value) :
    value ≠ .list items := by
  rintro rfl
  exact kept (.list items)

theorem scalarText?_eq_some_iff {value : Value} {text : String} :
    scalarText? value = some text ↔ ¬ Omitted value ∧ Renders value text := by
  by_cases omitted : Omitted value
  · simp [scalarText?_eq_none_iff.mpr omitted, omitted]
  · have notList := notList_of_not_omitted omitted
    rw [renders_iff, scalarText?_eq omitted, valueText_eq notList, Option.some.injEq]
    simp [omitted, notList]

theorem rendersAll_iff {items : List Value} {texts : List String} :
    RendersAll items texts ↔ members (.list items) = texts := by
  rw [members]
  constructor
  · intro renders
    induction renders with
    | nil => rfl
    | omitted omitted _ ih =>
        rw [List.filterMap_cons_none (scalarText?_eq_none_iff.mpr omitted), ih]
    | kept kept renders _ ih =>
        rw [List.filterMap_cons_some (scalarText?_eq_some_iff.mpr ⟨kept, renders⟩), ih]
  · rintro rfl
    induction items with
    | nil => exact .nil
    | cons item items ih =>
        cases found : scalarText? item with
        | none =>
            rw [List.filterMap_cons_none found]
            exact .omitted (scalarText?_eq_none_iff.mp found) ih
        | some text =>
            obtain ⟨kept, renders⟩ := scalarText?_eq_some_iff.mp found
            rw [List.filterMap_cons_some found]
            exact .kept kept renders ih

theorem predicate_of_isNullary {op : Operator} (nullary : op.isNullary) (value : Value) :
    predicate op value = framed op "null" := by
  cases op <;> first | rfl | cases nullary

theorem predicate_of_single {op : Operator} (rendered : ¬ op.isNullary) (single : ¬ op.takesList)
    (value : Value) : predicate op value = framed op (valueText value) := by
  apply String.toList_injective
  cases op with
  | isNull | isNotNull => exact absurd rfl rendered
  | oneOf | noneOf => exact absurd rfl single
  | _ => simp [predicate, framed, Operator.token, Operator.stars]

theorem framed_of_takesList {op : Operator} (takesList : op.takesList) (operand : String) :
    framed op operand = op.token ++ "." ++ operand := by
  cases op with
  | oneOf | noneOf => simp [framed, Operator.stars]
  | _ => cases takesList

theorem predicate_of_takesList {op : Operator} (takesList : op.takesList) (value : Value) :
    predicate op value = framed op (listText value) := by
  rw [framed_of_takesList takesList]
  cases op <;> first | rfl | cases takesList

/-- A list is rendered in one way by all operators that have a value. -/
theorem predicate_of_list {op : Operator} (rendered : ¬ op.isNullary) (items : List Value) :
    predicate op (.list items) = framed op (listText (.list items)) := by
  by_cases takesList : op.takesList
  · exact predicate_of_takesList takesList _
  · exact predicate_of_single rendered takesList _

theorem listText_of_renders {value : Value} {text : String} (kept : ¬ Omitted value)
    (renders : Renders value text) : listText value = "(" ++ text ++ ")" := by
  have found := scalarText?_eq_some_iff.mpr ⟨kept, renders⟩
  have alone : members value = [text] := by
    cases value with
    | list items => exact absurd (.list items) kept
    | _ => exact congrArg Option.toList found
  rw [listText, alone, String.intercalate_singleton]

theorem Operand.predicate_eq {op : Operator} {value : Value} {operand : String}
    (stands : Operand op value operand) : predicate op value = framed op operand := by
  cases stands with
  | none _ nullary => exact predicate_of_isNullary nullary value
  | single _ _ rendered single renders =>
      rw [predicate_of_single rendered single, (renders_iff.mp renders).2]
  | list items texts rendered all =>
      rw [predicate_of_list rendered, listText, rendersAll_iff.mp all]
  | alone _ _ takesList kept renders =>
      rw [predicate_of_takesList takesList, listText_of_renders kept renders]
  | nothing takesList => exact predicate_of_takesList takesList .absent

theorem exists_operand (op : Operator) (value : Value) : ∃ operand, Operand op value operand := by
  by_cases nullary : op.isNullary
  · exact ⟨_, .none value nullary⟩
  by_cases isList : ∃ items, value = .list items
  · obtain ⟨items, rfl⟩ := isList
    exact ⟨_, .list items _ nullary (rendersAll_iff.mpr rfl)⟩
  have renders := renders_iff.mpr ⟨not_exists.mp isList, rfl⟩
  by_cases takesList : op.takesList
  · by_cases omitted : Omitted value
    · cases omitted with
      | absent => exact ⟨_, .nothing takesList⟩
      | list items => exact absurd ⟨items, rfl⟩ isList
    · exact ⟨_, .alone value _ takesList omitted renders⟩
  · exact ⟨_, .single value _ nullary takesList renders⟩

end Condition

/-- The condition of a rule whose field is known. -/
theorem Rule.condition?_eq_some_iff {registry : Registry} {rootTable : String} {r : Rule}
    {f : Field} (resolved : registry.resolve r.fieldId rootTable = some f) (text : String) :
    r.condition? registry rootTable = some text ↔
      ∃ operand, Condition.Operand r.operator r.value operand ∧
        text = f.storagePath ++ "." ++ Condition.framed r.operator operand := by
  rw [Rule.condition?, resolved, Option.map_some, Option.some.injEq]
  constructor
  · rintro rfl
    obtain ⟨operand, stands⟩ := Condition.exists_operand r.operator r.value
    exact ⟨operand, stands, by rw [stands.predicate_eq]⟩
  · rintro ⟨operand, stands, rfl⟩
    rw [stands.predicate_eq]

end Criteria
