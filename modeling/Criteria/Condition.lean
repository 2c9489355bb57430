import Criteria.Instant.Layout
import Criteria.Registry
import Criteria.Tree
import Criteria.Binary64.Text

set_option autoImplicit false

/-
Conditions: the text that a rule compiles to, `path.token.value`. What cannot be
rendered becomes the word `null`, so that compiling always succeeds for a field that
the registry knows.
-/
namespace Criteria

/-- Doubles in conditions: the fewest digits, written out from 10⁻⁶ up to 10²¹, and
zero without a sign. -/
def conditionStyle : NumberStyle where
  tie := .up
  isPositional m _ :=
    let least := (Magnitude.ofDecimal? 1 (-6)).getD .zero
    let bound := (Magnitude.ofDecimal? 1 21).getD .zero
    m.isZero || (least.units ≤ m.units && m.units < bound.units)
  wholeMark := []
  signedZero := false

namespace Condition

/-- The word for what has no value. -/
def nullWord : String := "null"

/-- A character of a text; backslashes and single quotes are doubled. -/
def escapeChar (c : Char) : List Char :=
  if c = '\\' ∨ c = '\'' then [c, c] else [c]

def escape (s : String) : String := String.ofList (s.toList.flatMap escapeChar)

def numberText : Binary64 → String
  | .finite negative m => String.ofList (conditionStyle.finite negative m)
  | _ => nullWord

/-- A value that is neither a list nor absent. -/
def scalarText? : Value → Option String
  | .text s => some (escape s)
  | .number n => some (numberText n)
  | .boolean b => some (if b then "true" else "false")
  | .date written =>
    some (match Instant.ofText? written with
      | some t => t.iso
      | none => nullWord)
  | .list _ | .absent => none

/-- The members of a list that can be rendered; a single value stands for a list
of itself. -/
def members : Value → List String
  | .list items => items.filterMap scalarText?
  | value => (scalarText? value).toList

def listText (value : Value) : String := "(" ++ String.intercalate "," (members value) ++ ")"

def valueText (value : Value) : String :=
  match value with
  | .list _ => listText value
  | value => (scalarText? value).getD nullWord

/-- What follows the storage path and a dot. -/
def predicate (op : Operator) (value : Value) : String :=
  match op with
  | .isNull => "is.null"
  | .isNotNull => "not.is.null"
  | .contains => "ilike.*" ++ valueText value ++ "*"
  | .startsWith => "ilike." ++ valueText value ++ "*"
  | .endsWith => "ilike.*" ++ valueText value
  | .oneOf | .noneOf => op.token ++ "." ++ listText value
  | _ => op.token ++ "." ++ valueText value

end Condition

/-- The condition that a rule compiles to, if its field is known. -/
def Rule.condition? (registry : Registry) (rootTable : String) (r : Rule) : Option String :=
  (registry.resolve r.fieldId rootTable).map fun f =>
    f.storagePath ++ "." ++ Condition.predicate r.operator r.value

end Criteria
