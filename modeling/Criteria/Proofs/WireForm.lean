import Mathlib.Data.List.Basic
import Criteria.Filter
import Criteria.Json.Printer
import Criteria.Proofs.JsonReading

set_option autoImplicit false

/-
What becomes of the numbers of values and nodes on their way through JSON text. They are
read as they are or as a neighbour, and those that are not finite as nothing.
-/
namespace Criteria

mutual

/-- The numbers of a value, those in its lists included. -/
def Value.numbers : Value → List Binary64
  | .number n => [n]
  | .list items => Value.numbersOf items
  | _ => []

def Value.numbersOf : List Value → List Binary64
  | [] => []
  | value :: more => value.numbers ++ Value.numbersOf more

end

/-- A number that is read again from its own text. -/
def Binary64.ReadsBack (n : Binary64) : Prop :=
  Json.readAll Value.read (Value.number n).toJson.text.toList = .ok (.number n)

namespace Json

/-- What is found behind a value is blank where the value is all that a text holds. -/
theorem of_readAll_eq_ok {α : Type} {reader : Nat → Nat → Reader α} {cs : List Char} {a : α}
    (found : readAll reader cs = .ok a) :
    ∃ rest, reader (cs.length + 1) nestingLimit cs = .ok (a, rest) ∧ skipBlanks rest = [] := by
  obtain ⟨⟨b, rest⟩, outcome, found⟩ := bind_eq_ok_iff.mp found
  dsimp only at found
  split at found
  · rename_i blank
    cases found
    exact ⟨rest, outcome, blank⟩
  · cases found

theorem of_readShaped_eq_ok {α : Type} {type : String} {ofJson? : Json → Option α}
    {fuel budget : Nat} {cs rest : List Char} {a : α}
    (found : readShaped type ofJson? fuel budget cs = .ok (a, rest)) :
    ∃ j, readValue fuel budget cs = .ok (j, rest) ∧ ofJson? j = some a := by
  obtain ⟨⟨j, behind⟩, outcome, found⟩ := bind_eq_ok_iff.mp found
  dsimp only at found
  split at found
  · rename_i b shape
    cases found
    exact ⟨j, outcome, shape⟩
  · cases found

end Json

/-- A number that is read again is finite, and its text is read as it. -/
theorem Binary64.ReadsBack.isReadable {n : Binary64} (back : n.ReadsBack) :
    ∃ negative m, n = .finite negative m ∧ (JsonNumber.double negative m).IsReadable := by
  unfold ReadsBack at back
  rw [Value.toJson, Json.text, String.toList_ofList] at back
  cases n with
  | infinite | nan =>
      have shape : Value.ofJson? (Json.reread .null) = some .absent := rfl
      have null : Json.readAll Value.read (Json.chars .null) = .ok .absent :=
        (Json.readAll_of_reads (Json.isTextOf_chars .null) fun enough =>
          Json.reads_shaped shape enough _).1 Json.fits_null
      cases null.symm.trans back
  | finite negative m =>
      refine ⟨negative, m, rfl, ?_⟩
      let n : JsonNumber := .double negative m
      have shape : Value.ofJson? (Json.reread (.number n)) = some (.number n.reread.toBinary64) :=
        rfl
      obtain ⟨within, beyond⟩ : (Json.Fits Json.nestingLimit (.number n) →
          Json.readAll Value.read n.chars = .ok (.number n.reread.toBinary64)) ∧
          (¬ Json.Fits Json.nestingLimit (.number n) →
            ∃ fault, Json.readAll Value.read n.chars = .error fault) :=
        Json.readAll_of_reads (Json.isTextOf_chars (.number n)) fun enough =>
          Json.reads_shaped shape enough _
      cases found : n.reread? with
      | none =>
          obtain ⟨fault, failed⟩ := beyond fun fits => by
            have isSome := Json.fits_number_iff.mp fits
            rw [found] at isSome
            cases isSome
          cases failed.symm.trans back
      | some x =>
          obtain ⟨other, rfl⟩ := JsonNumber.isDouble_of_reread? found
          have same := (within (Json.fits_number_iff.mpr (by rw [found]; rfl))).symm.trans back
          rw [JsonNumber.reread, found, Except.ok.injEq, Value.number.injEq] at same
          cases same
          exact found

/-- What is read in place of a double: another, or nothing if JSON has no number for it. -/
def Binary64.reread : Binary64 → Value
  | .finite negative m => .number (JsonNumber.double negative m).reread.toBinary64
  | _ => .absent

theorem Binary64.ReadsBack.reread_eq {n : Binary64} (back : n.ReadsBack) :
    n.reread = .number n := by
  obtain ⟨negative, m, rfl, readable⟩ := back.isReadable
  rw [Binary64.reread, readable.reread_eq]
  rfl

namespace Value

mutual

/-- The value with what is read in place of its numbers. -/
def reread : Value → Value
  | .number n => n.reread
  | .list items => .list (rereads items)
  | value => value

def rereads : List Value → List Value
  | [] => []
  | value :: more => value.reread :: rereads more

end

mutual

theorem reread_eq_self : (value : Value) → (∀ n ∈ value.numbers, n.ReadsBack) →
    value.reread = value
  | .boolean _, _ | .text _, _ | .date _, _ | .absent, _ => rfl
  | .number n, back => (back n (by simp [numbers])).reread_eq
  | .list items, back => by rw [reread, rereads_eq_self items back]

theorem rereads_eq_self : (items : List Value) → (∀ n ∈ numbersOf items, n.ReadsBack) →
    rereads items = items
  | [], _ => rfl
  | value :: more, back => by
      rw [numbersOf, List.forall_mem_append] at back
      rw [rereads, reread_eq_self value back.1, rereads_eq_self more back.2]

end

mutual

/-- What holds of the doubles for the numbers of a value holds of the numbers that are written. -/
theorem forall_mem_numbers_toJson {P : JsonNumber → Prop} : (value : Value) →
    (∀ negative m, .finite negative m ∈ value.numbers → P (.double negative m)) →
    ∀ n ∈ value.toJson.numbers, P n
  | .boolean b, _ => List.forall_mem_nil _
  | .number (.finite negative m), each =>
      List.forall_mem_singleton.mpr (each negative m (by simp [numbers]))
  | .number (.infinite _), _ | .number .nan, _ => List.forall_mem_nil _
  | .text s, _ => List.forall_mem_nil _
  | .list items, each => forall_mem_numbersOfItems_toJsons items each
  | .date written, _ => List.forall_mem_nil _
  | .absent, _ => List.forall_mem_nil _

theorem forall_mem_numbersOfItems_toJsons {P : JsonNumber → Prop} : (items : List Value) →
    (∀ negative m, .finite negative m ∈ numbersOf items → P (.double negative m)) →
    ∀ n ∈ Json.numbersOfItems (toJsons items), P n
  | [], _ => List.forall_mem_nil _
  | value :: more, each => by
      rw [toJsons, Json.numbersOfItems, List.forall_mem_append]
      exact ⟨forall_mem_numbers_toJson value fun negative m member =>
          each negative m (List.mem_append_left _ member),
        forall_mem_numbersOfItems_toJsons more fun negative m member =>
          each negative m (List.mem_append_right _ member)⟩

end

def number? : Value → Option Binary64
  | .number n => some n
  | _ => none

end Value

/-- Whether a number is read again can be found out. -/
theorem Binary64.readsBack_iff (n : Binary64) :
    n.ReadsBack ↔
      (match Json.readAll Value.read (Json.ofBinary64 n).chars with
        | .ok value => value.number?
        | .error _ => none) = some n := by
  rw [ReadsBack, Value.toJson, Json.text, String.toList_ofList]
  cases Json.readAll Value.read (Json.ofBinary64 n).chars with
  | error fault => simp
  | ok value => cases value <;> simp [Value.number?]

instance (n : Binary64) : Decidable n.ReadsBack := decidable_of_iff _ n.readsBack_iff.symm

theorem Operator.ofName?_name (op : Operator) : ofName? op.name = some op := by
  cases op <;> decide

theorem Combinator.ofName?_name (c : Combinator) : ofName? c.name = some c := by
  cases c <;> decide

def Rule.reread (r : Rule) : Rule := { r with value := r.value.reread }

namespace Node

mutual

/-- The tree with what is read in place of its numbers. -/
def reread : Node → Node
  | .rule r => .rule r.reread
  | .group id combinator children => .group id combinator (rereads children)

def rereads : List Node → List Node
  | [] => []
  | node :: more => node.reread :: rereads more

end

mutual

theorem reread_eq_self : (node : Node) → (∀ r ∈ node.rules, ∀ n ∈ r.value.numbers, n.ReadsBack) →
    node.reread = node
  | .rule r, back => by
      rw [reread, Rule.reread, r.value.reread_eq_self (back r (by simp [rules]))]
  | .group id combinator children, back => by rw [reread, rereads_eq_self children back]

theorem rereads_eq_self : (nodes : List Node) →
    (∀ r ∈ rulesOf nodes, ∀ n ∈ r.value.numbers, n.ReadsBack) → rereads nodes = nodes
  | [], _ => rfl
  | node :: more, back => by
      rw [rulesOf, List.forall_mem_append] at back
      rw [rereads, reread_eq_self node back.1, rereads_eq_self more back.2]

end

mutual

theorem forall_mem_numbers_toJson {P : JsonNumber → Prop} : (node : Node) →
    (∀ r ∈ node.rules, ∀ negative m, .finite negative m ∈ r.value.numbers →
      P (.double negative m)) →
    ∀ n ∈ node.toJson.numbers, P n
  | .rule r, each => by
      have value := Value.forall_mem_numbers_toJson r.value (each r (by simp [rules]))
      intro n member
      apply value
      rw [toJson, Rule.toJson, Json.numbers] at member
      split at member
      · simp [Json.numbersOfMembers, Json.numbers] at member
      · simpa [Json.numbersOfMembers, Json.numbers] using member
  | .group id combinator children, each => by
      have inside := forall_mem_numbersOfItems_toJsons children each
      intro n member
      apply inside
      simpa [toJson, Json.numbersOfMembers, Json.numbers] using member

theorem forall_mem_numbersOfItems_toJsons {P : JsonNumber → Prop} : (nodes : List Node) →
    (∀ r ∈ rulesOf nodes, ∀ negative m, .finite negative m ∈ r.value.numbers →
      P (.double negative m)) →
    ∀ n ∈ Json.numbersOfItems (toJsons nodes), P n
  | [], _ => List.forall_mem_nil _
  | node :: more, each => by
      rw [rulesOf, List.forall_mem_append] at each
      rw [toJsons, Json.numbersOfItems, List.forall_mem_append]
      exact ⟨forall_mem_numbers_toJson node each.1,
        forall_mem_numbersOfItems_toJsons more each.2⟩

end

theorem isReadable_of_mem_numbers_toJson (node : Node)
    (back : ∀ r ∈ node.rules, ∀ n ∈ r.value.numbers, n.ReadsBack) :
    ∀ n ∈ node.toJson.numbers, n.IsReadable := by
  refine node.forall_mem_numbers_toJson fun r isRule negative m member => ?_
  obtain ⟨_, _, same, readable⟩ := (back r isRule _ member).isReadable
  cases same
  exact readable

end Node

end Criteria
