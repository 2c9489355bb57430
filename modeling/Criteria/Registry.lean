import Criteria.Field
import Criteria.KeyedList

set_option autoImplicit false

/-
The registry of fields. It holds well-formed definitions by root table and id, the tables
and the fields of each in the order in which they came in, and an index of the table in
which an id came up first.
-/
namespace Criteria

/-- Fields by their ids, apart for each root table. -/
abbrev FieldTables := KeyedList (KeyedList Field)

namespace FieldTables

/-- The fields of a root table, of which an unknown one has none. -/
def table (tables : FieldTables) (rootTable : String) : KeyedList Field :=
  (tables.get? rootTable).getD .empty

def find? (tables : FieldTables) (id rootTable : String) : Option Field :=
  (tables.get? rootTable).bind fun fields => fields.get? id

def insert (tables : FieldTables) (f : Field) : FieldTables :=
  tables.set f.rootTable ((tables.table f.rootTable).set f.id f)

/-- Whether each field stands under its own root table and id. -/
def IsKeyed (tables : FieldTables) : Prop :=
  ∀ id rootTable f, tables.find? id rootTable = some f → f.rootTable = rootTable ∧ f.id = id

/-- Whether an index leads each id that has a field to a table with one, and no other id. -/
structure IsIndexedBy (tables : FieldTables) (index : KeyedList String) : Prop where
  leads : ∀ id rootTable, index.get? id = some rootTable → (tables.find? id rootTable).isSome
  complete : ∀ id rootTable, (tables.find? id rootTable).isSome → (index.get? id).isSome

theorem find?_eq (tables : FieldTables) (id rootTable : String) :
    tables.find? id rootTable = (tables.table rootTable).get? id := by
  rw [find?, table]
  cases tables.get? rootTable <;> rfl

theorem table_insert (tables : FieldTables) (f : Field) (rootTable : String) :
    (tables.insert f).table rootTable =
      if rootTable = f.rootTable then (tables.table f.rootTable).set f.id f
      else tables.table rootTable := by
  rw [table, insert, KeyedList.get?_set]
  split <;> rfl

theorem find?_insert (tables : FieldTables) (f : Field) (id rootTable : String) :
    (tables.insert f).find? id rootTable =
      if rootTable = f.rootTable ∧ id = f.id then some f else tables.find? id rootTable := by
  rw [find?_eq, find?_eq, table_insert]
  by_cases sameTable : rootTable = f.rootTable
  · subst sameTable
    rw [if_pos rfl, KeyedList.get?_set]
    simp only [true_and]
  · simp only [sameTable, ↓reduceIte, false_and]

theorem IsKeyed.insert {tables : FieldTables} (keyed : tables.IsKeyed) (f : Field) :
    (tables.insert f).IsKeyed := by
  intro id rootTable g found
  rw [find?_insert] at found
  split at found
  · rename_i same
    cases found
    exact ⟨same.1.symm, same.2.symm⟩
  · exact keyed id rootTable g found

theorem IsIndexedBy.insert {tables : FieldTables} {index : KeyedList String}
    (indexed : tables.IsIndexedBy index) (f : Field) :
    (tables.insert f).IsIndexedBy (index.setNew f.id f.rootTable) where
  leads := by
    intro id rootTable led
    rw [KeyedList.get?_setNew] at led
    rw [find?_insert]
    split
    · rfl
    · rename_i other
      split at led
      · rename_i sameId
        subst sameId
        cases known : index.get? f.id with
        | some first =>
            rw [known] at led
            cases led
            exact indexed.leads f.id first known
        | none =>
            rw [known] at led
            cases led
            exact absurd ⟨rfl, rfl⟩ other
      · exact indexed.leads id rootTable led
  complete := by
    intro id rootTable found
    rw [find?_insert] at found
    rw [KeyedList.get?_setNew]
    split
    · rfl
    · rename_i otherId
      rw [if_neg fun same => otherId same.2] at found
      exact indexed.complete id rootTable found

end FieldTables

structure Registry where
  tables : FieldTables
  /-- The table in which each id came up first. -/
  firstTables : KeyedList String
  keyed : tables.IsKeyed
  indexed : tables.IsIndexedBy firstTables

namespace Registry

def empty : Registry where
  tables := .empty
  firstTables := .empty
  keyed := by
    intro id rootTable f found
    cases found
  indexed :=
    { leads := by
        intro id rootTable led
        cases led
      complete := by
        intro id rootTable found
        cases found }

/-- The definition of an id for queries from a root table. -/
def resolve (r : Registry) (id rootTable : String) : Option Field := r.tables.find? id rootTable

/-- The first definition of an id, whatever its root table. -/
def lookup (r : Registry) (id : String) : Option Field :=
  (r.firstTables.get? id).bind fun rootTable => r.resolve id rootTable

def insert (r : Registry) (f : Field) : Registry where
  tables := r.tables.insert f
  firstTables := r.firstTables.setNew f.id f.rootTable
  keyed := r.keyed.insert f
  indexed := r.indexed.insert f

/-- Takes in one more definition, each operator once. -/
def add (r : Registry) (f : Field) : Except RegistryError Registry := do
  f.check
  if (r.tables.table f.rootTable).contains f.id then throw (.duplicate f.rootTable f.id)
  return r.insert f.normalized

/-- The registry of a list of definitions, or the first error in the list. -/
def ofFields (fields : List Field) : Except RegistryError Registry :=
  fields.foldlM add empty

/-- The registry that holds the definitions of a list, of which none is refused. -/
def holding (fields : List Field) : Registry :=
  fields.foldl (fun r f => r.insert f.normalized) empty

def fieldsOf (r : Registry) (rootTable : String) : List Field := (r.tables.table rootTable).values

/-- All fields, one root table after the other. -/
def toList (r : Registry) : List Field := r.tables.values.flatMap KeyedList.values

/-- The root tables in the order of their characters. -/
def rootTables (r : Registry) : List String :=
  r.tables.keys.mergeSort fun a b => decide (a ≤ b)

def size (r : Registry) : Nat := (r.tables.values.map KeyedList.size).foldr (· + ·) 0

def isEmpty (r : Registry) : Bool := r.size == 0

end Registry
end Criteria
