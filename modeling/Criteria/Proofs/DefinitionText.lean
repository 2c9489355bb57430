import Criteria.Proofs.RecordReading
import Criteria.Proofs.WireForm
import Criteria.Wire.Field

set_option autoImplicit false

/-
Definitions of fields go out as JSON text and come back unchanged, a list of them in its
order.
-/
namespace Criteria

namespace Json

/-- A list is read from the array of what its items are written as. -/
theorem reads_list_map {α : Type} {item : Nat → Reader α} (write : α → Json) {as : List α}
    {fuel : Nat} (each : ∀ budget, ∀ a ∈ as, Reads (item budget) budget (write a) a)
    (enough : (tokens (.array (as.map write))).length ≤ fuel) (budget : Nat) :
    Reads (readList item fuel budget) budget (.array (as.map write)) as := by
  refine reads_list (fun budget => ?_) enough budget
  rw [List.forall₂_map_left_iff]
  exact List.forall₂_same.mpr (each budget)

end Json

theorem FieldType.ofName?_name (type : FieldType) : ofName? type.name = some type := by
  cases type <;> decide

namespace Field

open Json

/-- The members of a definition in JSON. -/
def wireMembers (f : Field) : List (String × Json) :=
  [("id", .string f.id), ("label", .string f.label), ("type", .string f.type.name),
    ("storagePath", .string f.storagePath),
    ("relationChain", .array (f.relationChain.map .string)),
    ("rootTable", .string f.rootTable),
    ("allowedOperators", .array (f.operators.map fun op => .string op.name))] ++
      (match f.options with
        | some options => [("enumOptions", .array (options.map .string))]
        | none => []) ++
      [("nullable", .bool f.nullable)]

theorem toJson_eq (f : Field) : f.toJson = .object f.wireMembers := rfl

/-- All that is read of a definition. -/
def wireParts (f : Field) : Parts where
  id := some f.id
  label := some f.label
  type := some f.type
  storagePath := some f.storagePath
  relationChain := some f.relationChain
  rootTable := some f.rootTable
  operators := some f.operators
  options := f.options.map some
  nullable := some f.nullable

theorem complete_wireParts (f : Field) : record.complete f.wireParts = .ok f := by
  have options : (f.options.map some).getD none = f.options := by cases f.options <;> rfl
  simp only [record, wireParts, options]
  rfl

theorem reads_textMember {name : String} {get : Parts → Option String}
    {set : Parts → String → Parts} (whole budget : Nat) (parts : Parts) (s : String) :
    Reads ((textMember name get set).read whole budget parts) budget (.string s) (set parts s) :=
  (reads_text "a string" s budget).map (set parts)

theorem reads_texts (texts : List String) {fuel : Nat}
    (enough : (tokens (.array (texts.map .string))).length ≤ fuel) (budget : Nat) :
    Reads (readTexts fuel budget) budget (.array (texts.map .string)) texts :=
  reads_list_map .string (fun budget s _ => reads_text "a string" s budget) enough budget

theorem reads_operators (operators : List Operator) {fuel : Nat}
    (enough : (tokens (.array (operators.map fun op => .string op.name))).length ≤ fuel)
    (budget : Nat) :
    Reads (readList Operator.read fuel budget) budget
      (.array (operators.map fun op => .string op.name)) operators :=
  reads_list_map (fun op : Operator => .string op.name)
    (fun budget op _ => reads_named op.ofName?_name budget) enough budget

theorem takes_wireMembers (f : Field) {fuel : Nat} (enough : f.toJson.tokens.length ≤ fuel)
    (budget : Nat) :
    Record.Takes record.members fuel budget f.wireMembers record.start f.wireParts := by
  have fits (name : String) {value : Json} (member : (name, value) ∈ f.wireMembers) :
      value.tokens.length ≤ fuel := length_tokens_le_of_mem_object member enough
  have type : Reads (FieldType.read budget) budget (.string f.type.name) f.type :=
    reads_named f.type.ofName?_name budget
  have chain := reads_texts f.relationChain (fits "relationChain" (by simp [wireMembers])) budget
  have operators :=
    reads_operators f.operators (fits "allowedOperators" (by simp [wireMembers])) budget
  have flag := reads_flag f.nullable budget
  -- What has been read when each of the members comes up that is no text.
  let named : Parts := { id := some f.id, label := some f.label }
  let placed : Parts := { named with type := some f.type, storagePath := some f.storagePath }
  let rooted : Parts :=
    { placed with relationChain := some f.relationChain, rootTable := some f.rootTable }
  let front : Parts := { rooted with operators := some f.operators }
  have last (options : Option (Option (List String))) :
      Record.Takes record.members fuel budget [("nullable", .bool f.nullable)]
        { front with options } { front with options, nullable := some f.nullable } :=
    .cons _ rfl rfl (flag.map fun b => ({ front with options, nullable := some b } : Parts))
      (.nil _)
  refine .cons _ rfl rfl (reads_textMember fuel budget _ f.id) ?_
  refine .cons _ rfl rfl (reads_textMember fuel budget _ f.label) ?_
  refine .cons _ rfl rfl (type.map fun type => ({ named with type := some type } : Parts)) ?_
  refine .cons _ rfl rfl (reads_textMember fuel budget _ f.storagePath) ?_
  refine .cons _ rfl rfl (chain.map fun chain =>
    ({ placed with relationChain := some chain } : Parts)) ?_
  refine .cons _ rfl rfl (reads_textMember fuel budget _ f.rootTable) ?_
  refine .cons _ rfl rfl (operators.map fun operators =>
    ({ rooted with operators := some operators } : Parts)) ?_
  have shape : f.wireParts =
      { front with options := f.options.map some, nullable := some f.nullable } := rfl
  rw [shape]
  cases given : f.options with
  | none => exact last none
  | some texts =>
      have options := reads_texts texts (fits "enumOptions" (by simp [wireMembers, given])) budget
      exact .cons _ rfl rfl ((reads_option options (by simp)).map fun options =>
        ({ front with options := some options } : Parts)) (last (some (some texts)))

/-- A definition is read from the texts of its JSON form. -/
theorem reads (f : Field) {fuel : Nat} (enough : f.toJson.tokens.length ≤ fuel) (budget : Nat) :
    Reads (record.read fuel budget) budget f.toJson f :=
  record.reads_object (f.takes_wireMembers enough) f.complete_wireParts enough budget

/-- A definition has no numbers and nests twice. -/
theorem fits_toJson {budget : Nat} (f : Field) : Json.Fits (budget + 2) f.toJson := by
  have texts {α : Type} (write : α → String) (as : List α) :
      Json.Fits (budget + 1) (.array (as.map fun a => .string (write a))) :=
    fits_array_iff.mpr (List.forall_mem_map.mpr fun a _ => fits_string (write a))
  rw [toJson_eq, fits_object_iff]
  cases given : f.options <;> simp [wireMembers, given, fits_string, fits_bool, texts]

def readFields (fuel : Nat) : Nat → Reader (List Field) := readList (record.read fuel) fuel

/-- The definitions that a JSON list describes. -/
def listOfText (text : String) : Except Fault (List Field) := readAll readFields text.toList

/-- Definitions are read from the texts of a list of them. -/
theorem reads_fields (fields : List Field) {fuel : Nat}
    (enough : (tokens (.array (fields.map toJson))).length ≤ fuel) (budget : Nat) :
    Reads (readFields fuel budget) budget (.array (fields.map toJson)) fields := by
  refine reads_list_map toJson ?_ enough budget
  intro budget f member
  exact f.reads (length_tokens_le_of_mem_array (List.mem_map_of_mem member) enough) budget

theorem listOfText_text (fields : List Field) :
    listOfText (Json.array (fields.map toJson)).text = .ok fields := by
  have shallow : Json.Fits nestingLimit (.array (fields.map toJson)) :=
    fits_array_iff.mpr (List.forall_mem_map.mpr fun f _ => f.fits_toJson)
  rw [listOfText, Json.text, String.toList_ofList]
  exact (readAll_of_reads (isTextOf_chars _) fun enough => reads_fields fields enough _).1 shallow

end Field

end Criteria
