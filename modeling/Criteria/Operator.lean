set_option autoImplicit false

/- The comparisons a rule can make and the types a field can have. -/
namespace Criteria

inductive Operator where
  | eq | neq | gt | gte | lt | lte
  | contains | startsWith | endsWith
  | oneOf | noneOf
  | isNull | isNotNull
  deriving DecidableEq

namespace Operator

def all : List Operator :=
  [.eq, .neq, .gt, .gte, .lt, .lte, .contains, .startsWith, .endsWith, .oneOf, .noneOf,
    .isNull, .isNotNull]

/-- The name in filters and registries. -/
def name : Operator → String
  | .eq => "eq"
  | .neq => "neq"
  | .gt => "gt"
  | .gte => "gte"
  | .lt => "lt"
  | .lte => "lte"
  | .contains => "contains"
  | .startsWith => "startsWith"
  | .endsWith => "endsWith"
  | .oneOf => "in"
  | .noneOf => "notIn"
  | .isNull => "isNull"
  | .isNotNull => "isNotNull"

/-- The token in a compiled condition; the three text matches share one. -/
def token : Operator → String
  | .eq => "eq"
  | .neq => "neq"
  | .gt => "gt"
  | .gte => "gte"
  | .lt => "lt"
  | .lte => "lte"
  | .contains | .startsWith | .endsWith => "ilike"
  | .oneOf => "in"
  | .noneOf => "not.in"
  | .isNull => "is"
  | .isNotNull => "not.is"

def ofName? (name : String) : Option Operator := all.find? (·.name == name)

/-- Whether the operator carries no value. -/
def isNullary : Operator → Bool
  | .isNull | .isNotNull => true
  | _ => false

/-- Whether the value of the operator is a list. -/
def takesList : Operator → Bool
  | .oneOf | .noneOf => true
  | _ => false

end Operator

inductive FieldType where
  | text | number | date | boolean | enum
  deriving DecidableEq

namespace FieldType

def all : List FieldType := [.text, .number, .date, .boolean, .enum]

def name : FieldType → String
  | .text => "text"
  | .number => "number"
  | .date => "date"
  | .boolean => "boolean"
  | .enum => "enum"

def ofName? (name : String) : Option FieldType := all.find? (·.name == name)

/-- The operators that fields of the type usually allow. -/
def usualOperators : FieldType → List Operator
  | .text => [.eq, .neq, .contains, .startsWith, .endsWith, .oneOf, .noneOf, .isNull, .isNotNull]
  | .number | .date => [.eq, .neq, .gt, .gte, .lt, .lte, .isNull, .isNotNull]
  | .boolean => [.eq, .neq, .isNull, .isNotNull]
  | .enum => [.eq, .neq, .oneOf, .noneOf, .isNull, .isNotNull]

end FieldType
end Criteria
