import Mathlib.Data.List.Basic
import Criteria.Json.Printer
import Criteria.Json.Skip

set_option autoImplicit false

/-
Strings of JSON text are read as they were written, whatever has to be escaped and whatever
else is.
-/
namespace Criteria.Json

/-- The escapes of one letter and what they stand for. -/
def shortEscapes : List (Char × Char) :=
  [('"', '"'), ('\\', '\\'), ('/', '/'), ('b', '\x08'), ('f', '\x0c'), ('n', '\n'), ('r', '\r'),
    ('t', '\t')]

/-- What may stand for a character inside the quotes of a string. -/
inductive Spells : Char → List Char → Prop where
  | plain {c : Char} (notQuote : c ≠ '"') (notBackslash : c ≠ '\\') (notControl : ¬ c.toNat < 32) :
      Spells c [c]
  | short {letter c : Char} (known : (letter, c) ∈ shortEscapes) : Spells c ['\\', letter]
  | code {a b c d : Char} {n : Nat} (digits : Text.hex? [a, b, c, d] = some n)
      (single : n < 0xD800 ∨ 0xDFFF < n) : Spells (Char.ofNat n) ['\\', 'u', a, b, c, d]
  | pair {a b c d e f g h : Char} {high low : Nat} (first : Text.hex? [a, b, c, d] = some high)
      (isHigh : 0xD800 ≤ high ∧ high ≤ 0xDBFF) (second : Text.hex? [e, f, g, h] = some low)
      (isLow : 0xDC00 ≤ low ∧ low ≤ 0xDFFF) :
      Spells (Char.ofNat (0x10000 + (high - 0xD800) * 0x400 + (low - 0xDC00)))
        ['\\', 'u', a, b, c, d, '\\', 'u', e, f, g, h]

/-- What may stand for characters, one after the other. -/
inductive SpellsAll : List Char → List Char → Prop where
  | nil : SpellsAll [] []
  | cons {c : Char} {cs own more : List Char} (first : Spells c own) (others : SpellsAll cs more) :
      SpellsAll (c :: cs) (own ++ more)

section Printing

theorem hex?_control :
    ∀ n < 32, Text.hex? ['0', '0', Nat.digitChar (n / 16), Nat.digitChar (n % 16)] = some n := by
  decide

theorem spells_escapeChar (c : Char) : Spells c (escapeChar c) := by
  unfold escapeChar
  split
  · subst c
    exact .short (by simp [shortEscapes])
  split
  · subst c
    exact .short (by simp [shortEscapes])
  split
  · subst c
    exact .short (by simp [shortEscapes])
  split
  · subst c
    exact .short (by simp [shortEscapes])
  split
  · subst c
    exact .short (by simp [shortEscapes])
  split
  · subst c
    exact .short (by simp [shortEscapes])
  split
  · subst c
    exact .short (by simp [shortEscapes])
  split
  · rename_i control
    have code := Spells.code (hex?_control c.toNat control) (.inl (by omega))
    rwa [Char.ofNat_toNat] at code
  · rename_i notQuote notBackslash _ _ _ _ _ notControl
    exact .plain notQuote notBackslash notControl

theorem spellsAll_flatMap_escapeChar (cs : List Char) : SpellsAll cs (cs.flatMap escapeChar) := by
  induction cs with
  | nil => exact .nil
  | cons c cs ih => exact .cons (spells_escapeChar c) ih

end Printing

section Reading

theorem readHex_of_digits {a b c d : Char} {n : Nat} (digits : Text.hex? [a, b, c, d] = some n)
    (rest : List Char) : readHex (a :: b :: c :: d :: rest) = .ok n := by
  rw [readHex, digits]

/-- Behind a backslash an escape is read in place of what it took. -/
theorem readString_backslash {c : Char} (escape rest : List Char)
    (escaped : readEscape (escape ++ rest) = .ok (c, escape.length)) :
    readString ('\\' :: (escape ++ rest)) =
      (readString rest).map fun found => (c :: found.1, found.2) := by
  rw [readString, if_neg (by decide), if_pos rfl, escaped]
  simp only [bind, Except.bind, List.drop_left]
  cases readString rest <;> rfl

theorem readEscape_code {a b c d : Char} {n : Nat} (digits : Text.hex? [a, b, c, d] = some n)
    (single : n < 0xD800 ∨ 0xDFFF < n) (rest : List Char) :
    readEscape (['u', a, b, c, d] ++ rest) = .ok (Char.ofNat n, 5) := by
  have notLow : ¬ (0xDC00 ≤ n ∧ n ≤ 0xDFFF) := by omega
  have alone : n < 0xD800 ∨ 0xDBFF < n := by omega
  simp only [List.cons_append, List.nil_append, readEscape, readUnicode, readHex_of_digits digits,
    bind, Except.bind, notLow, alone, ↓reduceIte, pure, Except.pure]

theorem readEscape_pair {a b c d e f g h : Char} {high low : Nat}
    (first : Text.hex? [a, b, c, d] = some high) (isHigh : 0xD800 ≤ high ∧ high ≤ 0xDBFF)
    (second : Text.hex? [e, f, g, h] = some low) (isLow : 0xDC00 ≤ low ∧ low ≤ 0xDFFF)
    (rest : List Char) :
    readEscape (['u', a, b, c, d, '\\', 'u', e, f, g, h] ++ rest) =
      .ok (Char.ofNat (0x10000 + (high - 0xD800) * 0x400 + (low - 0xDC00)), 11) := by
  have notLow : ¬ (0xDC00 ≤ high ∧ high ≤ 0xDFFF) := by omega
  have notAlone : ¬ (high < 0xD800 ∨ 0xDBFF < high) := by omega
  have matching : ¬ (low < 0xDC00 ∨ 0xDFFF < low) := by omega
  simp only [List.cons_append, List.nil_append, readEscape, readUnicode, readHex_of_digits first,
    readHex_of_digits second, bind, Except.bind, List.drop_succ_cons, List.drop_zero, notLow,
    notAlone, matching, ↓reduceIte, pure, Except.pure]

theorem readEscape_short {letter c : Char} (known : (letter, c) ∈ shortEscapes)
    (rest : List Char) : readEscape ([letter] ++ rest) = .ok (c, 1) := by
  simp only [shortEscapes, List.mem_cons, List.not_mem_nil, or_false] at known
  rcases known with known | known | known | known | known | known | known | known <;>
    cases known <;> rfl

theorem readString_spells {c : Char} {own : List Char} (spells : Spells c own)
    (rest : List Char) :
    readString (own ++ rest) = (readString rest).map fun found => (c :: found.1, found.2) := by
  cases spells with
  | plain notQuote notBackslash notControl =>
      rw [List.singleton_append, readString, if_neg notQuote, if_neg notBackslash,
        if_neg notControl]
      cases readString rest <;> rfl
  | short known => exact readString_backslash [_] rest (readEscape_short known rest)
  | code digits single =>
      exact readString_backslash ['u', _, _, _, _] rest (readEscape_code digits single rest)
  | pair first isHigh second isLow =>
      exact readString_backslash ['u', _, _, _, _, '\\', 'u', _, _, _, _] rest
        (readEscape_pair first isHigh second isLow rest)

/-- A string is read up to its quote. -/
theorem readString_spellsAll {cs own : List Char} (spells : SpellsAll cs own) (rest : List Char) :
    readString (own ++ '"' :: rest) = .ok (cs, rest) := by
  induction spells with
  | nil => rw [List.nil_append, readString, if_pos rfl]
  | cons first _ ih =>
      rw [List.append_assoc, readString_spells first, ih]
      rfl

end Reading

section Skipping

theorem skipString_backslash (escape rest : List Char)
    (escaped : escapeLength (escape ++ rest) = .ok escape.length) :
    skipString ('\\' :: (escape ++ rest)) = skipString rest := by
  rw [skipString, if_neg (by decide), if_pos rfl, escaped]
  simp only [bind, Except.bind, List.drop_left]

theorem skipString_code {a b c d : Char} {n : Nat} (digits : Text.hex? [a, b, c, d] = some n)
    (rest : List Char) :
    skipString ('\\' :: 'u' :: a :: b :: c :: d :: rest) = skipString rest := by
  refine skipString_backslash ['u', a, b, c, d] rest ?_
  simp only [List.cons_append, List.nil_append, escapeLength, readHex_of_digits digits]
  rfl

theorem escapeLength_short {letter c : Char} (known : (letter, c) ∈ shortEscapes)
    (rest : List Char) : escapeLength ([letter] ++ rest) = .ok 1 := by
  simp only [shortEscapes, List.mem_cons, List.not_mem_nil, or_false] at known
  rcases known with known | known | known | known | known | known | known | known <;>
    cases known <;> rfl

theorem skipString_spells {c : Char} {own : List Char} (spells : Spells c own)
    (rest : List Char) : skipString (own ++ rest) = skipString rest := by
  cases spells with
  | plain notQuote notBackslash notControl =>
      rw [List.singleton_append, skipString, if_neg notQuote, if_neg notBackslash,
        if_neg notControl]
  | short known => exact skipString_backslash [_] rest (escapeLength_short known rest)
  | code digits => exact skipString_code digits rest
  | pair first _ second =>
      -- Nobody looks at the halves of a pair together where they are passed over.
      exact (skipString_code first _).trans (skipString_code second rest)

/-- A string is passed over up to its quote. -/
theorem skipString_spellsAll {cs own : List Char} (spells : SpellsAll cs own) (rest : List Char) :
    skipString (own ++ '"' :: rest) = .ok rest := by
  induction spells with
  | nil => rw [List.nil_append, skipString, if_pos rfl]
  | cons first _ ih => rw [List.append_assoc, skipString_spells first, ih]

end Skipping

end Criteria.Json
