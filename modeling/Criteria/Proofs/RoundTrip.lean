import Mathlib.Data.String.Basic
import Criteria.Proofs.GroupReading

set_option autoImplicit false

/-
Filter trees go out as JSON text and come back unchanged, as far as the limits on size
and nesting let them.
-/
namespace Criteria

/-- A node is read from its own text if it does not nest beyond the limit. -/
theorem Node.readAll_chars {node : Node}
    (back : ∀ r ∈ node.rules, ∀ n ∈ r.value.numbers, n.ReadsBack) :
    (node.toJson.depth ≤ Json.nestingLimit →
      Json.readAll Node.read node.toJson.chars = .ok node) ∧
    (Json.nestingLimit < node.toJson.depth →
      ∃ fault, Json.readAll Node.read node.toJson.chars = .error fault) := by
  refine Json.readAll_chars_of_reads (isReadable_of_mem_numbers_toJson node back) fun enough => ?_
  have reads := reads_form node.form_toJson enough Json.nestingLimit
  rwa [reread_eq_self node back] at reads

/-- A group is read from its own text if it does not nest beyond the limit. -/
theorem Group.readAll_chars {g : Group}
    (back : ∀ r ∈ g.toNode.rules, ∀ n ∈ r.value.numbers, n.ReadsBack) :
    (g.toJson.depth ≤ Json.nestingLimit →
      Json.readAll Group.record.read g.toJson.chars = .ok g) ∧
    (Json.nestingLimit < g.toJson.depth →
      ∃ fault, Json.readAll Group.record.read g.toJson.chars = .error fault) := by
  refine Json.readAll_chars_of_reads (Node.isReadable_of_mem_numbers_toJson g.toNode back)
    fun enough => ?_
  have reads := reads_form g.toNode.form_toJson enough Json.nestingLimit
  rwa [Group.reread, Node.rereads_eq_self g.children back] at reads

/-- Filter trees whose numbers are read again come back from their JSON text, group for
group and rule for rule, if the text is no longer and nests no deeper than the limits. A
text beyond a limit is refused. -/
theorem tree_round_trip (node : Node)
    (back : ∀ r ∈ node.rules, ∀ n ∈ r.value.numbers, n.ReadsBack) :
    (∀ g, node = g.toNode →
      (g.toJson.text.utf8ByteSize ≤ filterLimit → g.toJson.depth ≤ Json.nestingLimit →
        Group.ofText g.toJson.text = .ok g) ∧
      (¬ (g.toJson.text.utf8ByteSize ≤ filterLimit ∧ g.toJson.depth ≤ Json.nestingLimit) →
        ∃ e, Group.ofText g.toJson.text = .error e)) ∧
    (node.toJson.depth ≤ Json.nestingLimit →
      Json.readAll Node.read node.toJson.text.toList = .ok node) ∧
    (Json.nestingLimit < node.toJson.depth →
      ∃ fault, Json.readAll Node.read node.toJson.text.toList = .error fault) := by
  constructor
  · rintro g rfl
    have whole := Group.readAll_chars back
    have chars : g.toJson.text.toList = g.toJson.chars := String.toList_ofList
    constructor
    · intro small shallow
      rw [Group.ofText, if_neg (by omega), chars, whole.1 shallow]
    · intro beyond
      rw [Group.ofText]
      split
      · exact ⟨_, rfl⟩
      · obtain ⟨fault, failed⟩ := whole.2 (by omega)
        rw [chars, failed]
        exact ⟨_, rfl⟩
  · rw [Json.text, String.toList_ofList]
    exact Node.readAll_chars back

/-- A tree with a value of every kind, characters to be escaped, and a nested group. -/
def Group.wireSample : Group where
  id := "root \"1\""
  combinator := .and
  children := [
    .rule ⟨"a\\b", "order_ref", .oneOf, .list [.text "x\ny\x01", .absent, .boolean true,
      .list [.number (.ofBits 0xC045400000000000), .number (.ofInt 42)], .date "2024-03-01"]⟩,
    .group "g" .or [.rule ⟨"b", "order_total", .isNull, .absent⟩]]

theorem tree_round_trip_sample :
    Group.ofText Group.wireSample.toJson.text = .ok Group.wireSample ∧
      Json.readAll Node.read Group.wireSample.toNode.toJson.text.toList =
        .ok Group.wireSample.toNode := by
  obtain ⟨whole, node, -⟩ := tree_round_trip Group.wireSample.toNode (by decide +kernel)
  have small : Group.wireSample.toJson.text.utf8ByteSize ≤ filterLimit := by
    rw [Json.text, String.utf8ByteSize_ofList]
    decide +kernel
  have shallow : Group.wireSample.toJson.depth ≤ Json.nestingLimit := by decide +kernel
  exact ⟨(whole _ rfl).1 small shallow, node shallow⟩

end Criteria
