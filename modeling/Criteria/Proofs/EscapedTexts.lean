import Criteria.Registry.Sample
import Criteria.Proofs.ConditionTexts

set_option autoImplicit false

/-
Reading texts back from conditions. Escaping is a code in which every character but
backslashes and single quotes stands for itself, so a text can be read from left to right
and two texts never share a condition.
-/
namespace Criteria

namespace Condition

/-- The text that an escaped text stands for: two backslashes or two single quotes for one,
and any other character for itself. Nothing has one of them alone. -/
def unescape? : List Char → Option (List Char)
  | [] => some []
  | '\\' :: '\\' :: rest => (unescape? rest).map ('\\' :: ·)
  | '\'' :: '\'' :: rest => (unescape? rest).map ('\'' :: ·)
  | c :: rest => if c = '\\' ∨ c = '\'' then none else (unescape? rest).map (c :: ·)

theorem unescape?_of_plain {c : Char} (notBackslash : c ≠ '\\') (notQuote : c ≠ '\'')
    (rest : List Char) : unescape? (c :: rest) = (unescape? rest).map (c :: ·) := by
  rw [unescape?, if_neg (by simp [notBackslash, notQuote])]
  · exact fun _ same => absurd same notBackslash
  · exact fun _ same => absurd same notQuote

/-- An escaped character is read as that character. -/
theorem unescape?_escapeChar (c : Char) (rest : List Char) :
    unescape? (escapeChar c ++ rest) = (unescape? rest).map (c :: ·) := by
  by_cases doubled : c = '\\' ∨ c = '\''
  · rw [escapeChar, if_pos doubled]
    rcases doubled with rfl | rfl <;> rfl
  · obtain ⟨notBackslash, notQuote⟩ := not_or.mp doubled
    rw [escapeChar, if_neg doubled]
    exact unescape?_of_plain notBackslash notQuote rest

theorem unescape?_escape (s : String) : unescape? (escape s).toList = some s.toList := by
  rw [escape, String.toList_ofList]
  induction s.toList with
  | nil => rfl
  | cons c cs ih => rw [List.flatMap_cons, unescape?_escapeChar, ih, Option.map_some]

theorem escape_injective {s t : String} (same : escape s = escape t) : s = t := by
  have read := unescape?_escape s
  rw [same, unescape?_escape t] at read
  exact (String.toList_injective (Option.some.inj read)).symm

/-- What is read as a text is its escaped form. -/
theorem eq_escape_of_unescape? {cs : List Char} {s : String}
    (read : unescape? cs = some s.toList) : cs = (escape s).toList := by
  rw [escape, String.toList_ofList]
  generalize s.toList = written at read
  fun_induction unescape? cs generalizing written with
  | case1 =>
      cases read
      rfl
  | case2 rest ih | case3 rest ih =>
      obtain ⟨more, found, rfl⟩ := Option.map_eq_some_iff.mp read
      rw [ih more found]
      rfl
  | case4 => cases read
  | case5 c rest _ _ plain ih =>
      obtain ⟨more, found, rfl⟩ := Option.map_eq_some_iff.mp read
      rw [ih more found, List.flatMap_cons, escapeChar, if_neg plain]
      rfl

end Condition

/-- A condition with a text is its path, its token and the escaped text between the stars of
the operator. The escaped text is read as the text and nothing else is, so that different
texts make different conditions. -/
theorem texts_are_recoverable (registry : Registry) (rootTable fieldId : String) (f : Field)
    (resolved : registry.resolve fieldId rootTable = some f) (op : Operator)
    (rendered : ¬ op.isNullary) (single : ¬ op.takesList) :
    (∀ id s, ∃ escaped : String,
      Rule.condition? registry rootTable ⟨id, fieldId, op, .text s⟩ =
        some (f.storagePath ++ "." ++ (op.token ++ "." ++
          (op.stars.1 ++ escaped ++ op.stars.2))) ∧
      ∀ cs, Condition.unescape? cs = some s.toList ↔ cs = escaped.toList) ∧
    ∀ id id' s s', Rule.condition? registry rootTable ⟨id, fieldId, op, .text s⟩ =
      Rule.condition? registry rootTable ⟨id', fieldId, op, .text s'⟩ → s = s' := by
  have compiled (id s : String) :
      Rule.condition? registry rootTable ⟨id, fieldId, op, .text s⟩ =
        some (f.storagePath ++ "." ++ (op.token ++ "." ++
          (op.stars.1 ++ Condition.escape s ++ op.stars.2))) := by
    rw [Rule.condition?, resolved, Option.map_some, Condition.predicate_of_single rendered single]
    rfl
  constructor
  · intro id s
    refine ⟨Condition.escape s, compiled id s, fun cs => ⟨Condition.eq_escape_of_unescape?, ?_⟩⟩
    rintro rfl
    exact Condition.unescape?_escape s
  · intro id id' s s' same
    rw [compiled, compiled, Option.some.injEq, String.append_right_inj, String.append_right_inj,
      String.append_left_inj, String.append_right_inj] at same
    exact Condition.escape_injective same

theorem texts_are_recoverable_quoted :
    Rule.condition? Registry.orders "orders"
        ⟨"r", "order_ref", .contains, .text "it's \\''"⟩ =
      some "reference.ilike.*it''s \\\\''''*" ∧
    Condition.unescape? "it''s \\\\''''".toList = some "it's \\''".toList := by
  obtain ⟨recovered, -⟩ := texts_are_recoverable Registry.orders "orders" "order_ref" _ rfl
    .contains (by decide) (by decide)
  obtain ⟨escaped, compiled, read⟩ := recovered "r" "it's \\''"
  have own : escaped = "it''s \\\\''''" := by
    apply String.toList_injective
    rw [← (read "it''s \\\\''''".toList).mp (by decide)]
  subst own
  exact ⟨compiled, (read _).mpr rfl⟩

end Criteria
