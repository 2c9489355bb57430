import Criteria.Registry
import Criteria.Tree.Cursor

set_option autoImplicit false

/-
Selections. A filter needs the relations on the way to its fields, and the rows of
the last relation on each way must exist. A selection lists the columns of the root
table, the relations that are needed, and further entries as they are.
-/
namespace Criteria

/-- The relations a filter needs, in the order of first use, and those among them
that are joined as inner joins. -/
structure Relations where
  needed : List String := []
  inner : List String := []
  deriving DecidableEq

/-- Appends a name unless it is there already. -/
def insertNew (names : List String) (name : String) : List String :=
  if names.contains name then names else names ++ [name]

namespace Relations

def ofNames (needed inner : List String) : Relations :=
  ⟨needed.foldl insertNew [], inner.foldl insertNew []⟩

def isEmpty (r : Relations) : Bool := r.needed.isEmpty

def isInner (r : Relations) (name : String) : Bool := r.inner.contains name

/-- Adds the relations on the way to a field. -/
def addField (r : Relations) (f : Field) : Relations where
  needed := f.relationChain.foldl insertNew r.needed
  inner := f.owningRelation?.toList.foldl insertNew r.inner

/-- The relations that a filter tree needs for queries from a root table. -/
def ofTree (registry : Registry) (rootTable : String) (g : Group) : Relations :=
  (g.rules.filterMap fun r => registry.resolve r.fieldId rootTable).foldl addField {}

/-- The entry for one relation. -/
def entry (r : Relations) (name : String) : String :=
  if r.isInner name then name ++ "!inner(*)" else name ++ "(*)"

/-- The selection with further entries. -/
def select (r : Relations) (extra : List String) : String :=
  String.intercalate ", " ("*" :: (r.needed.map r.entry ++ extra))

end Relations
end Criteria
