import Mathlib.Data.List.TakeWhile
import Criteria.Proofs.JsonNumbers
import Criteria.Proofs.JsonStrings
import Criteria.Json.Reader

set_option autoImplicit false

/-
The texts of a JSON value: its tokens in order, each behind any number of blanks. The printer
writes them without blanks.
-/
namespace Criteria

namespace Json

inductive Token where
  | mark (c : Char)
  | null
  | bool (b : Bool)
  | number (n : JsonNumber)
  | string (s : String)

/-- How a token is written. Numbers are written in one way, and strings in every way that
spells them. -/
inductive Token.IsWritten : Token → List Char → Prop where
  | mark {c : Char} (known : c ∈ ['[', ']', '{', '}', ',', ':']) : IsWritten (.mark c) [c]
  | null : IsWritten .null ['n', 'u', 'l', 'l']
  | yes : IsWritten (.bool true) ['t', 'r', 'u', 'e']
  | no : IsWritten (.bool false) ['f', 'a', 'l', 's', 'e']
  | number (n : JsonNumber) : IsWritten (.number n) n.chars
  | string {s : String} {own : List Char} (spells : SpellsAll s.toList own) :
      IsWritten (.string s) ('"' :: (own ++ ['"']))

/-- What stands in front of an item or a member: a comma, if it is not the first. -/
def separator (first : Bool) : List Token := if first then [] else [.mark ',']

mutual

/-- The tokens of a value, from left to right. -/
def tokens : Json → List Token
  | .null => [.null]
  | .bool b => [.bool b]
  | .number n => [.number n]
  | .string s => [.string s]
  | .array items => .mark '[' :: (tokensOfItems true items ++ [.mark ']'])
  | .object members => .mark '{' :: (tokensOfMembers true members ++ [.mark '}'])

def tokensOfItems (first : Bool) : List Json → List Token
  | [] => []
  | item :: more => separator first ++ (item.tokens ++ tokensOfItems false more)

def tokensOfMembers (first : Bool) : List (String × Json) → List Token
  | [] => []
  | (name, value) :: more =>
    separator first ++ (.string name :: .mark ':' :: (value.tokens ++ tokensOfMembers false more))

end

theorem tokens_eq_cons (j : Json) :
    ∃ token more, j.tokens = token :: more ∧ token ≠ .mark ']' ∧ (token = .null → j = .null) := by
  cases j with
  | null => exact ⟨_, _, rfl, (fun same => by cases same), fun _ => rfl⟩
  | bool | number | string =>
      exact ⟨_, _, rfl, (fun same => by cases same), fun same => by cases same⟩
  | array items => exact ⟨_, _, rfl, by simp, fun same => by cases same⟩
  | object members => exact ⟨_, _, rfl, by simp, fun same => by cases same⟩

/-- A text that holds tokens in order, each behind any number of blanks. -/
inductive Spaced : List Token → List Char → Prop where
  | nil : Spaced [] []
  | cons {token : Token} {tokens : List Token} {blanks own cs : List Char}
      (areBlank : ∀ c ∈ blanks, isBlank c) (written : token.IsWritten own)
      (others : Spaced tokens cs) : Spaced (token :: tokens) (blanks ++ (own ++ cs))

/-- A whole text of a value: its tokens, and blanks behind the last. -/
def IsTextOf (j : Json) (text : List Char) : Prop :=
  ∃ cs blanks, Spaced j.tokens cs ∧ (∀ c ∈ blanks, isBlank c) ∧ text = cs ++ blanks

theorem skipBlanks_append {blanks : List Char} (areBlank : ∀ c ∈ blanks, isBlank c)
    (rest : List Char) : skipBlanks (blanks ++ rest) = skipBlanks rest :=
  List.dropWhile_append_of_pos areBlank

theorem skipBlanks_cons {c : Char} (solid : isBlank c = false) (cs : List Char) :
    skipBlanks (c :: cs) = c :: cs := by
  simp [skipBlanks, solid]

theorem skipBlanks_eq_nil_iff {cs : List Char} : skipBlanks cs = [] ↔ ∀ c ∈ cs, isBlank c :=
  List.dropWhile_eq_nil_iff

theorem isBlank_eq_false {c : Char} (inside : isNumeralChar c) : isBlank c = false := by
  cases blank : isBlank c with
  | false => rfl
  | true =>
      simp only [isBlank, Bool.or_eq_true, beq_iff_eq] at blank
      rcases blank with ((rfl | rfl) | rfl) | rfl <;> cases inside

/-- Blanks end a number. -/
theorem goesOn_eq_false_of_isBlank {c : Char} (blank : isBlank c) :
    JsonNumber.goesOn c = false := by
  simp only [isBlank, Bool.or_eq_true, beq_iff_eq] at blank
  rcases blank with ((rfl | rfl) | rfl) | rfl <;> rfl

theorem ends_of_blanks {blanks : List Char} (areBlank : ∀ c ∈ blanks, isBlank c) :
    JsonNumber.Ends blanks := by
  cases blanks with
  | nil => exact JsonNumber.ends_nil
  | cons c more =>
      exact JsonNumber.ends_cons (goesOn_eq_false_of_isBlank (areBlank c List.mem_cons_self))

/-- The first character of a token is no blank. Where it is a closing bracket or that of a
null, the token is. -/
theorem Token.IsWritten.exists_eq_cons {token : Token} {own : List Char}
    (written : token.IsWritten own) :
    ∃ c more, own = c :: more ∧ isBlank c = false ∧ (c = ']' → token = .mark ']') ∧
      (c = 'n' → token = .null) := by
  cases written with
  | mark known =>
      refine ⟨_, [], rfl, ?_, (fun same => by rw [same]), ?_⟩
      · simp only [List.mem_cons, List.not_mem_nil, or_false] at known
        rcases known with rfl | rfl | rfl | rfl | rfl | rfl <;> rfl
      · rintro rfl
        exact absurd known (by decide)
  | null => exact ⟨'n', _, rfl, rfl, (fun same => by cases same), fun _ => rfl⟩
  | yes => exact ⟨'t', _, rfl, rfl, (fun same => by cases same), fun same => by cases same⟩
  | no => exact ⟨'f', _, rfl, rfl, (fun same => by cases same), fun same => by cases same⟩
  | string spells =>
      exact ⟨'"', _, rfl, rfl, (fun same => by cases same), fun same => by cases same⟩
  | number n =>
      obtain ⟨sign, c, ds, fraction, power, shape, unsigned, -⟩ := n.exists_chars_eq
      cases sign with
      | true => exact ⟨'-', _, shape, rfl, (fun same => by cases same), fun same => by cases same⟩
      | false =>
          have digit := unsigned.first
          refine ⟨c, _, shape, isBlank_eq_false (isNumeralChar_of_isDigit digit), ?_, ?_⟩ <;>
            (rintro rfl; cases digit)

namespace Spaced

variable {token : Token} {tokens more : List Token} {cs : List Char}

/-- What is left in front of a text with tokens, once its blanks are passed over. -/
theorem exists_skipBlanks (spaced : Spaced (token :: tokens) cs) :
    ∃ own behind, token.IsWritten own ∧ Spaced tokens behind ∧
      ∀ rest, skipBlanks (cs ++ rest) = own ++ (behind ++ rest) := by
  cases spaced with
  | @cons _ _ blanks own behind areBlank written others =>
      refine ⟨own, behind, written, others, ?_⟩
      intro rest
      obtain ⟨c, chars, rfl, solid, -⟩ := written.exists_eq_cons
      rw [List.append_assoc, skipBlanks_append areBlank, List.append_assoc, List.cons_append,
        skipBlanks_cons solid]

theorem append {ahead behind : List Char} (first : Spaced tokens ahead)
    (second : Spaced more behind) : Spaced (tokens ++ more) (ahead ++ behind) := by
  induction first with
  | nil => exact second
  | cons areBlank written _ ih =>
      rw [List.append_assoc, List.append_assoc]
      exact .cons areBlank written ih

theorem exists_append (spaced : Spaced (tokens ++ more) cs) :
    ∃ ahead behind, Spaced tokens ahead ∧ Spaced more behind ∧ cs = ahead ++ behind := by
  induction tokens generalizing cs with
  | nil => exact ⟨[], cs, .nil, spaced, rfl⟩
  | cons token tokens ih =>
      cases spaced with
      | @cons _ _ blanks own _ areBlank written others =>
          obtain ⟨ahead, behind, first, second, rfl⟩ := ih others
          exact ⟨blanks ++ (own ++ ahead), behind, .cons areBlank written first, second,
            by simp only [List.append_assoc]⟩

/-- Behind blanks or a mark, or before them, no number goes on. -/
theorem ends {c : Char} (spaced : Spaced (.mark c :: tokens) cs) (rest : List Char) :
    JsonNumber.Ends (cs ++ rest) := by
  cases spaced with
  | @cons _ _ blanks own _ areBlank written others =>
      cases blanks with
      | nil =>
          cases written with
          | mark known =>
              simp only [List.mem_cons, List.not_mem_nil, or_false] at known
              rcases known with rfl | rfl | rfl | rfl | rfl | rfl <;>
                exact JsonNumber.ends_cons rfl
      | cons blank blanks =>
          exact JsonNumber.ends_cons
            (goesOn_eq_false_of_isBlank (areBlank blank List.mem_cons_self))

theorem length_le (spaced : Spaced tokens cs) : tokens.length ≤ cs.length := by
  induction spaced with
  | nil => exact Nat.le_refl _
  | cons _ written _ ih =>
      obtain ⟨c, more, rfl, -⟩ := written.exists_eq_cons
      simp only [List.length_cons, List.length_append]
      omega

end Spaced

section Printing

theorem spaced_cons {token : Token} {tokens : List Token} {own cs : List Char}
    (written : token.IsWritten own) (others : Spaced tokens cs) :
    Spaced (token :: tokens) (own ++ cs) :=
  .cons (List.forall_mem_nil _) written others

theorem spaced_mark {c : Char} (known : c ∈ ['[', ']', '{', '}', ',', ':']) {tokens : List Token}
    {cs : List Char} (others : Spaced tokens cs) : Spaced (.mark c :: tokens) (c :: cs) :=
  spaced_cons (.mark known) others

theorem spaced_singleton {token : Token} {own : List Char} (written : token.IsWritten own) :
    Spaced [token] own := by
  have alone := spaced_cons written .nil
  rwa [List.append_nil] at alone

theorem spaced_quoted (s : String) {tokens : List Token} {cs : List Char}
    (others : Spaced tokens cs) : Spaced (.string s :: tokens) (quoted s ++ cs) :=
  spaced_cons (.string (spellsAll_flatMap_escapeChar _)) others

-- Behind the first, every item and member is printed behind its comma; the first is printed
-- by its array or object.
mutual

/-- What is printed is a text of the value. -/
theorem spaced_chars : (j : Json) → Spaced j.tokens j.chars
  | .null => spaced_singleton .null
  | .bool true => spaced_singleton .yes
  | .bool false => spaced_singleton .no
  | .number n => spaced_singleton (.number n)
  | .string s => spaced_singleton (.string (spellsAll_flatMap_escapeChar _))
  | .array [] => spaced_mark (by decide) (spaced_mark (by decide) .nil)
  | .array (item :: more) => by
      have close : Spaced [.mark ']'] [']'] := spaced_mark (by decide) .nil
      rw [tokens, tokensOfItems, separator, if_pos rfl, List.nil_append, List.append_assoc, chars]
      exact spaced_mark (by decide) ((spaced_chars item).append ((spaced_charsOfItems more).append
        close))
  | .object [] => spaced_mark (by decide) (spaced_mark (by decide) .nil)
  | .object ((name, value) :: more) => by
      have close : Spaced [.mark '}'] ['}'] := spaced_mark (by decide) .nil
      rw [tokens, tokensOfMembers, separator, if_pos rfl, List.nil_append, List.cons_append,
        List.cons_append, List.append_assoc, chars]
      exact spaced_mark (by decide) (spaced_quoted name (spaced_mark (by decide)
        ((spaced_chars value).append ((spaced_charsOfMembers more).append close))))

theorem spaced_charsOfItems : (items : List Json) →
    Spaced (tokensOfItems false items) (charsOfItems items)
  | [] => .nil
  | item :: more =>
    spaced_mark (by decide) ((spaced_chars item).append (spaced_charsOfItems more))

theorem spaced_charsOfMembers : (members : List (String × Json)) →
    Spaced (tokensOfMembers false members) (charsOfMembers members)
  | [] => .nil
  | (name, value) :: more =>
    spaced_mark (by decide) (spaced_quoted name (spaced_mark (by decide)
      ((spaced_chars value).append (spaced_charsOfMembers more))))

end

theorem isTextOf_chars (j : Json) : j.IsTextOf j.chars :=
  ⟨j.chars, [], spaced_chars j, List.forall_mem_nil _, (List.append_nil _).symm⟩

/-- A text may be moved behind blanks. -/
theorem Spaced.indented {tokens : List Token} {cs blanks : List Char} (spaced : Spaced tokens cs)
    (some : tokens ≠ []) (areBlank : ∀ c ∈ blanks, isBlank c) : Spaced tokens (blanks ++ cs) := by
  cases spaced with
  | nil => exact absurd rfl some
  | cons alsoBlank written others =>
      rw [← List.append_assoc]
      exact .cons (List.forall_mem_append.mpr ⟨areBlank, alsoBlank⟩) written others

theorem isBlank_newLine (level : Nat) : ∀ c ∈ newLine level, isBlank c := by
  intro c member
  rcases List.mem_cons.mp member with rfl | member
  · rfl
  · cases List.eq_of_mem_replicate member
    rfl

theorem isBlank_blank : ∀ c ∈ [' '], isBlank c := List.forall_mem_singleton.mpr rfl

theorem tokens_append_ne_nil (j : Json) (more : List Token) : j.tokens ++ more ≠ [] := by
  obtain ⟨token, others, shape, -⟩ := j.tokens_eq_cons
  rw [shape]
  exact List.cons_ne_nil _ _

mutual

/-- What is printed over lines is a text of the value, too. -/
theorem spaced_prettyChars : (j : Json) → ∀ level, Spaced j.tokens (j.prettyChars level)
  | .null, _ => spaced_singleton .null
  | .bool true, _ => spaced_singleton .yes
  | .bool false, _ => spaced_singleton .no
  | .number n, _ => spaced_singleton (.number n)
  | .string s, _ => spaced_singleton (.string (spellsAll_flatMap_escapeChar _))
  | .array [], _ => spaced_mark (by decide) (spaced_mark (by decide) .nil)
  | .array (item :: more), level => by
      have close : Spaced [.mark ']'] (newLine level ++ [']']) :=
        (spaced_mark (by decide) .nil).indented (by simp) (isBlank_newLine level)
      rw [tokens, tokensOfItems, separator, if_pos rfl, List.nil_append, List.append_assoc,
        prettyChars]
      exact spaced_mark (by decide) (((spaced_prettyChars item (level + 1)).append
        ((spaced_prettyItems more (level + 1)).append close)).indented
          (tokens_append_ne_nil item _) (isBlank_newLine _))
  | .object [], _ => spaced_mark (by decide) (spaced_mark (by decide) .nil)
  | .object ((name, value) :: more), level => by
      have close : Spaced [.mark '}'] (newLine level ++ ['}']) :=
        (spaced_mark (by decide) .nil).indented (by simp) (isBlank_newLine level)
      have behind := (((spaced_prettyChars value (level + 1)).append
        ((spaced_prettyMembers more (level + 1)).append close)).indented
          (tokens_append_ne_nil value _) isBlank_blank)
      rw [tokens, tokensOfMembers, separator, if_pos rfl, List.nil_append, List.cons_append,
        List.cons_append, List.append_assoc, prettyChars]
      exact spaced_mark (by decide) ((spaced_quoted name (spaced_mark (by decide) behind)).indented
        (by simp) (isBlank_newLine _))

theorem spaced_prettyItems : (items : List Json) → ∀ level,
    Spaced (tokensOfItems false items) (prettyItems level items)
  | [], _ => .nil
  | item :: more, level =>
    spaced_mark (by decide) (((spaced_prettyChars item level).append
      (spaced_prettyItems more level)).indented (tokens_append_ne_nil item _) (isBlank_newLine _))

theorem spaced_prettyMembers : (members : List (String × Json)) → ∀ level,
    Spaced (tokensOfMembers false members) (prettyMembers level members)
  | [], _ => .nil
  | (name, value) :: more, level => by
      have behind := ((spaced_prettyChars value level).append
        (spaced_prettyMembers more level)).indented (tokens_append_ne_nil value _) isBlank_blank
      exact spaced_mark (by decide) ((spaced_quoted name (spaced_mark (by decide) behind)).indented
        (by simp) (isBlank_newLine _))

end

theorem isTextOf_prettyChars (j : Json) (level : Nat) : j.IsTextOf (j.prettyChars level) :=
  ⟨_, [], spaced_prettyChars j level, List.forall_mem_nil _, (List.append_nil _).symm⟩

end Printing

end Json
end Criteria
