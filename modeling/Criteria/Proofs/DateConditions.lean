import Criteria.Proofs.DateTexts
import Criteria.Proofs.EscapedTexts
import Criteria.Proofs.Timestamps
import Criteria.Proofs.Validity

set_option autoImplicit false

/-
Conditions on dates. The form of a value decides how it is compared with, not the type of
the field: a date goes out as the text of its instant, and a text as it was written.
-/
namespace Criteria

open Condition

/-- The instant that a value denotes, as a date or as a text. -/
def Value.instant? : Value → Option Instant
  | .date written | .text written => Instant.ofText? written
  | _ => none

/-- A valid rule that compares a field of dates. -/
structure Rule.ComparesDates (registry : Registry) (rootTable : String) (f : Field)
    (r : Rule) : Prop where
  resolved : registry.resolve r.fieldId rootTable = some f
  isDate : f.type = .date
  compares : r.operator ∈ [.eq, .neq, .gt, .gte, .lt, .lte]
  clean : r.problems registry rootTable = []

/-- Texts of dates hold nothing to be escaped. -/
theorem Instant.escape_of_ofText? {written : String} {t : Instant}
    (read : ofText? written = some t) : escape written = written := by
  have plain (c : Char) (member : c ∈ written.toList) : escapeChar c = [c] := by
    have own : isDateChar c := isDateText_of_ofText? read c member
    rw [escapeChar, if_neg]
    rintro (rfl | rfl) <;> cases own
  apply String.toList_injective
  rw [escape, String.toList_ofList, List.flatMap_congr plain, List.flatMap_singleton']

theorem Condition.predicate_of_compares {op : Operator}
    (compares : op ∈ [.eq, .neq, .gt, .gte, .lt, .lte]) (value : Value) :
    predicate op value = op.token ++ "." ++ valueText value := by
  simp only [List.mem_cons, List.not_mem_nil, or_false] at compares
  rcases compares with rfl | rfl | rfl | rfl | rfl | rfl <;> rfl

namespace Rule.ComparesDates

variable {registry : Registry} {rootTable : String} {f : Field} {r s : Rule}

theorem fits (dates : r.ComparesDates registry rootTable f) : f.Fits r.value := by
  obtain ⟨g, resolved, -, takes⟩ :=
    ((r.problems_eq_nil_iff registry rootTable).mp dates.clean).resolved
  cases dates.resolved.symm.trans resolved
  have single : ¬ r.operator.isNullary ∧ ¬ r.operator.takesList := by
    have compares := dates.compares
    simp only [List.mem_cons, List.not_mem_nil, or_false] at compares
    rcases compares with same | same | same | same | same | same <;> simp [same, Operator.isNullary,
      Operator.takesList]
  exact ((Field.takes_iff_of_single single.1 single.2).mp takes).2.2

/-- The value is a date or a text, and an instant is read from it. -/
theorem exists_instant (dates : r.ComparesDates registry rootTable f) :
    ∃ written t, (r.value = .date written ∨ r.value = .text written) ∧
      Instant.ofText? written = some t := by
  have fits := dates.fits
  generalize r.value = value at fits
  cases fits with
  | date written t _ read => exact ⟨written, t, .inl rfl, read⟩
  | dateText written t _ read => exact ⟨written, t, .inr rfl, read⟩
  | text _ other | number _ other _ | boolean _ other | option _ other _ =>
      cases dates.isDate.symm.trans other

theorem condition?_eq (dates : r.ComparesDates registry rootTable f) :
    r.condition? registry rootTable =
      some (f.storagePath ++ "." ++ (r.operator.token ++ "." ++ valueText r.value)) := by
  rw [Rule.condition?, dates.resolved, Option.map_some, predicate_of_compares dates.compares]

theorem valueText_date {written : String} {t : Instant} (value : r.value = .date written)
    (read : Instant.ofText? written = some t) : valueText r.value = t.iso := by
  have text : scalarText? (.date written) = some t.iso := by rw [scalarText?, read]
  rw [value]
  exact congrArg (Option.getD · nullWord) text

theorem valueText_text {written : String} {t : Instant} (value : r.value = .text written)
    (read : Instant.ofText? written = some t) : valueText r.value = written := by
  rw [value]
  exact Instant.escape_of_ofText? read

/-- Rules of one operator share a condition where their values are rendered alike. -/
theorem condition?_eq_iff (dates : r.ComparesDates registry rootTable f)
    (others : s.ComparesDates registry rootTable f) (same : r.operator = s.operator) :
    r.condition? registry rootTable = s.condition? registry rootTable ↔
      valueText r.value = valueText s.value := by
  rw [dates.condition?_eq, others.condition?_eq, same, Option.some.injEq,
    String.append_right_inj, String.append_right_inj]

end Rule.ComparesDates

/-- Read instants have the same text where they agree to the millisecond. -/
theorem Instant.iso_eq_iff_of_ofText? {s t : Instant} {first second : String}
    (read : ofText? first = some s) (readOther : ofText? second = some t) :
    s.iso = t.iso ↔ s.toMillis = t.toMillis := by
  have proper := isProper_of_ofText? read
  have properOther := isProper_of_ofText? readOther
  constructor
  · intro same
    have again := proper.ofText?_iso
    rw [same, properOther.ofText?_iso] at again
    exact (Option.some.inj again).symm
  · intro same
    rw [← proper.iso_toMillis, same, properOther.iso_toMillis]

/-- A valid rule that compares a field of dates denotes an instant. As a date it is compared
with by the text of the instant, as a text by itself, and so the same instant in the two forms
makes one condition only where the text is the one that the instant is written with. Dates make
one condition where they agree to the millisecond. -/
theorem dates_keep_their_form (registry : Registry) (rootTable : String) (f : Field) (r : Rule)
    (dates : r.ComparesDates registry rootTable f) :
    ∃ t, r.value.instant? = some t ∧
      ((∃ written, r.value = .date written ∧ r.condition? registry rootTable =
          some (f.storagePath ++ "." ++ (r.operator.token ++ "." ++ t.iso))) ∨
        ∃ written, r.value = .text written ∧ r.condition? registry rootTable =
          some (f.storagePath ++ "." ++ (r.operator.token ++ "." ++ written))) ∧
      ∀ s : Rule, s.ComparesDates registry rootTable f → r.operator = s.operator →
        ∀ u, s.value.instant? = some u →
          (∀ written other, r.value = .date written → s.value = .date other →
            (r.condition? registry rootTable = s.condition? registry rootTable ↔
              t.toMillis = u.toMillis)) ∧
          (∀ written other, r.value = .date written → s.value = .text other →
            (r.condition? registry rootTable = s.condition? registry rootTable ↔
              other = t.iso)) ∧
          ∀ written other, r.value = .text written → s.value = .text other →
            (r.condition? registry rootTable = s.condition? registry rootTable ↔
              written = other) := by
  obtain ⟨written, t, form, read⟩ := dates.exists_instant
  have denotes : r.value.instant? = some t := by
    rcases form with value | value <;> rw [value] <;> exact read
  refine ⟨t, denotes, ?_, ?_⟩
  · rcases form with value | value
    · refine .inl ⟨written, value, ?_⟩
      rw [dates.condition?_eq, Rule.ComparesDates.valueText_date value read]
    · refine .inr ⟨written, value, ?_⟩
      rw [dates.condition?_eq, Rule.ComparesDates.valueText_text value read]
  · intro s others same u denoted
    refine ⟨?_, ?_, ?_⟩ <;> intro first second value other <;>
      rw [value] at denotes <;> rw [other] at denoted <;> rw [dates.condition?_eq_iff others same]
    · rw [Rule.ComparesDates.valueText_date value denotes,
        Rule.ComparesDates.valueText_date other denoted]
      exact Instant.iso_eq_iff_of_ofText? denotes denoted
    · rw [Rule.ComparesDates.valueText_date value denotes,
        Rule.ComparesDates.valueText_text other denoted]
      exact eq_comm
    · rw [Rule.ComparesDates.valueText_text value denotes,
        Rule.ComparesDates.valueText_text other denoted]

theorem dates_keep_their_form_shifted :
    Rule.condition? Registry.orders "orders"
        ⟨"r", "order_placed", .gte, .date "2024-03-01T10:30+10:30"⟩ =
      some "placed_at.gte.2024-03-01T00:00:00.000Z" := by
  have dates : Rule.ComparesDates Registry.orders "orders"
      (Field.plain "order_placed" "Placed" .date "orders" "placed_at")
      ⟨"r", "order_placed", .gte, .date "2024-03-01T10:30+10:30"⟩ :=
    ⟨rfl, rfl, by simp, by decide⟩
  obtain ⟨t, denotes, ⟨written, -, compiled⟩ | ⟨written, isText, -⟩, -⟩ :=
    dates_keep_their_form _ _ _ _ dates
  · have own : t = ⟨1709251200, 0⟩ := by
      have read : Value.instant? (.date "2024-03-01T10:30+10:30") = some ⟨1709251200, 0⟩ := by
        decide
      exact Option.some.inj (denotes.symm.trans read)
    rw [own] at compiled
    have iso : Instant.iso ⟨1709251200, 0⟩ = "2024-03-01T00:00:00.000Z" := by decide
    rw [iso] at compiled
    exact compiled
  · cases isText

/-- One instant as a text and as a date: both rules are valid, and their conditions differ. -/
theorem text_of_date_is_not_rewritten :
    let texted : Rule := ⟨"r", "order_placed", .eq, .text "2024-03-01"⟩
    let dated : Rule := ⟨"r", "order_placed", .eq, .date "2024-03-01"⟩
    let registry : Registry := .orders
    texted.problems registry "orders" = [] ∧ dated.problems registry "orders" = [] ∧
      texted.value.instant? = some ⟨1709251200, 0⟩ ∧
      dated.value.instant? = some ⟨1709251200, 0⟩ ∧
      texted.condition? registry "orders" = some "placed_at.eq.2024-03-01" ∧
      dated.condition? registry "orders" = some "placed_at.eq.2024-03-01T00:00:00.000Z" := by
  decide

end Criteria
