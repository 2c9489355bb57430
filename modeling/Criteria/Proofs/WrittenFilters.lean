import Criteria.Proofs.RoundTrip

set_option autoImplicit false

/-
How a filter is written makes no difference to the tree that is read from it.
-/
namespace Criteria

open Json

namespace Group

theorem ofText_eq_ok_iff {text : String} (small : text.utf8ByteSize ≤ filterLimit) {g : Group} :
    ofText text = .ok g ↔ readAll record.read text.toList = .ok g := by
  rw [ofText, if_neg (by omega)]
  cases readAll record.read text.toList <;> simp

/-- What is read from the texts of the forms of a group, if they are within the limits. -/
theorem readAll_form_eq_ok_iff {g : Group} {j : Json} {text : List Char}
    (form : g.toNode.Form j) (isText : j.IsTextOf text) {found : Group} :
    readAll record.read text = .ok found ↔ Fits nestingLimit g.toJson ∧ found = g.reread := by
  have fits : Fits nestingLimit j ↔ Fits nestingLimit g.toJson := g.toNode.fits_iff j form
  obtain ⟨within, beyond⟩ := readAll_of_reads isText fun enough =>
    reads_form form enough nestingLimit
  rw [fits] at within beyond
  constructor
  · intro isFound
    have limited : Fits nestingLimit g.toJson := by
      by_contra fails
      obtain ⟨fault, failed⟩ := beyond fails
      cases failed.symm.trans isFound
    exact ⟨limited, Except.ok.inj (isFound.symm.trans (within limited))⟩
  · rintro ⟨limited, rfl⟩
    exact within limited

end Group

/-- A text of any form of a filter, with blanks and spellings of its strings as they come, is
read as the same tree as the text that the filter is serialised to, or neither is read. The
forms are those of `Node.Form`: members in any order, between others that are null, truth
values or strings, and rules and groups as arrays of their members. Strings are made of
Unicode characters, so that a half of a pair alone is none. -/
theorem written_forms_decode_alike (g : Group) (j : Json) (text : String)
    (form : g.toNode.Form j) (isText : j.IsTextOf text.toList)
    (small : text.utf8ByteSize ≤ filterLimit) :
    (∀ found, Group.ofText text = .ok found ↔
      readAll Group.record.read g.toJson.text.toList = .ok found) ∧
    (g.toJson.text.utf8ByteSize ≤ filterLimit → ∀ found,
      Group.ofText text = .ok found ↔ Group.ofText g.toJson.text = .ok found) ∧
    ((∀ r ∈ g.toNode.rules, ∀ n ∈ r.value.numbers, n.ReadsBack) →
      g.toJson.depth ≤ nestingLimit → Group.ofText text = .ok g) := by
  have serialised : g.toJson.IsTextOf g.toJson.text.toList := by
    rw [Json.text, String.toList_ofList]
    exact isTextOf_chars _
  have alike (found : Group) : Group.ofText text = .ok found ↔
      readAll Group.record.read g.toJson.text.toList = .ok found := by
    rw [Group.ofText_eq_ok_iff small, Group.readAll_form_eq_ok_iff form isText,
      Group.readAll_form_eq_ok_iff g.toNode.form_toJson serialised]
  refine ⟨alike, ?_, ?_⟩
  · intro alsoSmall found
    rw [alike, Group.ofText_eq_ok_iff alsoSmall]
  · intro back shallow
    rw [alike, Json.text, String.toList_ofList]
    exact (Group.readAll_chars back).1 shallow

/-- A form of the sample with its members backwards and another in front, and with a group and
two rules as arrays. -/
def Group.rearrangedSample : Json :=
  .object [("comment", .null),
    ("rules", .array [
      .array [.string "a\\b", .string "order_ref", .string "in", .array [.string "x\ny\x01", .null,
        .bool true, .array [.ofBinary64 (.ofBits 0xC045400000000000), .ofBinary64 (.ofInt 42)],
        .object [("zone", .bool false), ("date", .string "2024-03-01")]]],
      .array [.string "g", .string "or",
        .array [.array [.string "b", .string "order_total", .string "isNull"]]]]),
    ("combinator", .string "and"), ("id", .string "root \"1\"")]

theorem Group.form_rearrangedSample : Group.wireSample.toNode.Form Group.rearrangedSample := by
  have date : Rearranges [("date", .string "2024-03-01")]
      [("zone", .bool false), ("date", .string "2024-03-01")] :=
    ⟨[("zone", .bool false)], List.forall_mem_singleton.mpr ⟨by decide, .bool false⟩,
      (List.reverse_perm _).symm⟩
  have first : Rule.Form ⟨"a\\b", "order_ref", .oneOf, .list [.text "x\ny\x01", .absent,
      .boolean true, .list [.number (.ofBits 0xC045400000000000), .number (.ofInt 42)],
      .date "2024-03-01"]⟩ _ :=
    .array (.list (.cons (.text _) (.cons .absent (.cons (.boolean _) (.cons
      (.list (.cons (.number _) (.cons (.number _) .nil))) (.cons (.date date) .nil))))))
  have second : Rule.Form ⟨"b", "order_total", .isNull, .absent⟩ _ := .bareArray rfl
  refine .object (.cons (.rule first) (.cons (.array (.cons (.rule second) .nil)) .nil)) ?_
  exact ⟨[("comment", .null)], List.forall_mem_singleton.mpr ⟨by decide, .null⟩,
    (List.reverse_perm _).symm⟩

theorem written_forms_decode_alike_sample :
    Group.wireSample.toNode.Form Group.rearrangedSample ∧
      Group.ofText Group.rearrangedSample.pretty = .ok Group.wireSample ∧
      ∀ found, Group.ofText Group.rearrangedSample.pretty = .ok found ↔
        Group.ofText Group.wireSample.toJson.text = .ok found := by
  have isText : Group.rearrangedSample.IsTextOf Group.rearrangedSample.pretty.toList := by
    rw [Json.pretty, String.toList_ofList]
    exact isTextOf_prettyChars _ _
  have small : Group.rearrangedSample.pretty.utf8ByteSize ≤ filterLimit := by
    rw [Json.pretty, String.utf8ByteSize_ofList]
    decide +kernel
  have alsoSmall : Group.wireSample.toJson.text.utf8ByteSize ≤ filterLimit := by
    rw [Json.text, String.utf8ByteSize_ofList]
    decide +kernel
  obtain ⟨-, alike, whole⟩ := written_forms_decode_alike Group.wireSample _ _
    Group.form_rearrangedSample isText small
  exact ⟨Group.form_rearrangedSample, whole (by decide +kernel) (by decide +kernel),
    alike alsoSmall⟩

end Criteria
