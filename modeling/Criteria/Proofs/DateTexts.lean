import Mathlib.Data.List.TakeWhile
import Criteria.Proofs.Marks
import Criteria.Proofs.Numerals
import Criteria.Proofs.ReadInstants

set_option autoImplicit false

/-
The characters of texts of dates. There is no mark among them, neither in the texts that
instants are written with nor in any that is read as a date.
-/
namespace Criteria

open Parentheses

/-- The characters that dates and times are read from. -/
def isDateChar (c : Char) : Bool :=
  c.isDigit || Text.isBlank c || ['-', '+', '−', ':', '.', 'T', 't', 'Z', 'z'].contains c

theorem isDateChar_of_isDigit {c : Char} (digit : c.isDigit) : isDateChar c := by
  simp [isDateChar, digit]

theorem isDateChar_of_isBlank {c : Char} (blank : Text.isBlank c) : isDateChar c := by
  simp [isDateChar, blank]

def IsDateText (cs : List Char) : Prop := ∀ c ∈ cs, isDateChar c

namespace IsDateText

theorem nil : IsDateText [] := List.forall_mem_nil _

theorem cons {c : Char} {cs : List Char} (own : isDateChar c) (rest : IsDateText cs) :
    IsDateText (c :: cs) := List.forall_mem_cons.mpr ⟨own, rest⟩

theorem append {front back : List Char} (first : IsDateText front) (second : IsDateText back) :
    IsDateText (front ++ back) := List.forall_mem_append.mpr ⟨first, second⟩

theorem subset {few many : List Char} (dated : IsDateText many) (sub : few ⊆ many) :
    IsDateText few := fun c member => dated c (sub member)

theorem isFlat {cs : List Char} (dated : IsDateText cs) : IsFlat cs :=
  fun c member => isMark_eq_false (by decide) (dated c member)

end IsDateText

/-- What is taken from the front of a text to leave the rest is text of a date. -/
def Passes (cs rest : List Char) : Prop := ∃ front, IsDateText front ∧ cs = front ++ rest

namespace Passes

theorem refl (cs : List Char) : Passes cs cs := ⟨[], .nil, rfl⟩

theorem trans {cs between rest : List Char} (first : Passes cs between)
    (second : Passes between rest) : Passes cs rest := by
  obtain ⟨front, dated, rfl⟩ := first
  obtain ⟨back, datedBack, rfl⟩ := second
  exact ⟨front ++ back, dated.append datedBack, (List.append_assoc ..).symm⟩

theorem cons {c : Char} {cs rest : List Char} (own : isDateChar c) (more : Passes cs rest) :
    Passes (c :: cs) rest := by
  obtain ⟨front, dated, rfl⟩ := more
  exact ⟨c :: front, dated.cons own, rfl⟩

theorem isDateText {cs rest : List Char} (passes : Passes cs rest) (dated : IsDateText rest) :
    IsDateText cs := by
  obtain ⟨front, datedFront, rfl⟩ := passes
  exact datedFront.append dated

theorem dropWhile {p : Char → Bool} (inside : ∀ c, p c → isDateChar c) (cs : List Char) :
    Passes cs (cs.dropWhile p) :=
  ⟨cs.takeWhile p, fun c member => inside c (List.mem_takeWhile_imp member),
    List.takeWhile_append_dropWhile.symm⟩

theorem trimStart (cs : List Char) : Passes cs (Text.trimStart cs) :=
  dropWhile (fun _ => isDateChar_of_isBlank) cs

end Passes

namespace Instant

theorem passes_takeDigits (limit : Nat) (cs : List Char) : Passes cs (takeDigits limit cs).2 := by
  refine ⟨(takeDigits limit cs).1, ?_, ?_⟩
  · intro c member
    exact isDateChar_of_isDigit (List.mem_takeWhile_imp (p := Char.isDigit) member)
  · have front : (takeDigits limit cs).1 <+: cs :=
      (List.takeWhile_prefix _).trans (List.take_prefix _ _)
    exact (List.prefix_iff_eq_append.mp front).symm

theorem passes_of_readUnsigned {limit n : Nat} {cs rest : List Char}
    (found : readUnsigned limit cs = some (n, rest)) : Passes cs rest := by
  have passes := passes_takeDigits limit cs
  unfold readUnsigned at found
  split at found
  · cases found
  · rename_i taken
    cases found
    rwa [taken] at passes

theorem passes_of_readYear {year : Int} {cs rest : List Char}
    (found : readYear cs = some (year, rest)) : Passes cs rest := by
  unfold readYear at found
  split at found <;> obtain ⟨⟨n, left⟩, digits, same⟩ := Option.map_eq_some_iff.mp found <;>
    cases same
  · exact .cons rfl (passes_of_readUnsigned digits)
  · exact .cons rfl (passes_of_readUnsigned digits)
  · exact passes_of_readUnsigned digits

theorem passes_of_readFraction {nanos : Nat} {cs rest : List Char}
    (found : readFraction cs = some (nanos, rest)) : Passes cs rest := by
  unfold readFraction at found
  split at found
  · rename_i decimals
    have passes := passes_takeDigits 9 decimals
    split at found
    · cases found
    · rename_i taken
      cases found
      rw [taken] at passes
      exact .cons rfl (passes.trans (.dropWhile (fun _ => isDateChar_of_isDigit) _))
  · cases found
    exact .refl _

theorem passes_of_readOffset {between : List Char → Option (List Char)}
    (plain : ∀ cs rest, between cs = some rest → Passes cs rest) {offset : Int}
    {cs rest : List Char} (found : readOffset between cs = some (offset, rest)) :
    Passes cs rest := by
  have digits {cs : List Char} : Passes cs (takeDigits 2 cs).2 := passes_takeDigits 2 cs
  simp only [readOffset, Option.bind_eq_bind] at found
  split at found
  case h_4 => cases found
  all_goals
    simp only [Option.bind_some, Option.bind_eq_some_iff] at found
    obtain ⟨_, _, behindHours, middle, _, _, _, _, same⟩ := found
    cases same
    exact .cons rfl (digits.trans ((plain _ _ middle).trans digits))

theorem passes_of_dropColon {cs rest : List Char} (found : dropColon cs = some rest) :
    Passes cs rest := by
  unfold dropColon at found
  split at found <;> cases found
  exact .cons rfl (.refl _)

theorem passes_of_dropColons {cs rest : List Char} (found : dropColons cs = some rest) :
    Passes cs rest := by
  cases found
  refine .dropWhile (fun c skipped => ?_) _
  rcases Bool.or_eq_true_iff.mp skipped with colon | blank
  · rw [beq_iff_eq.mp colon]
    rfl
  · exact isDateChar_of_isBlank blank

/-- A piece of a layout whose mark, if it is one, is a character of dates. -/
def Piece.IsPlain : Piece → Prop
  | .mark c => isDateChar c
  | _ => True

instance : DecidablePred Piece.IsPlain
  | .mark c => inferInstanceAs (Decidable (isDateChar c))
  | .exact .. | .number _ | .separator | .blanks | .fraction | .zone | .looseOffset =>
    inferInstanceAs (Decidable True)

theorem Piece.passes_of_read {piece : Piece} (plain : piece.IsPlain) {r next : Reading}
    {cs rest : List Char} (found : piece.read r cs = some (next, rest)) : Passes cs rest := by
  cases piece with
  | exact width part =>
      simp only [Piece.read, Option.bind_eq_bind, Option.bind_eq_some_iff] at found
      obtain ⟨_, _, _, _, same⟩ := found
      cases same
      exact passes_takeDigits width cs
  | number part =>
      cases part with
      | year =>
          simp only [Piece.read, Option.bind_eq_bind, Option.bind_eq_some_iff] at found
          obtain ⟨⟨n, left⟩, digits, _, _, same⟩ := found
          cases same
          exact (Passes.trimStart cs).trans (passes_of_readYear digits)
      | _ =>
          simp only [Piece.read, Option.bind_eq_bind, Option.bind_eq_some_iff] at found
          obtain ⟨⟨n, left⟩, digits, _, _, same⟩ := found
          cases same
          exact (Passes.trimStart cs).trans (passes_of_readUnsigned digits)
  | mark c =>
      cases cs with
      | nil => cases found
      | cons first cs =>
          simp only [Piece.read] at found
          split at found
          · subst first
            cases found
            exact .cons plain (.refl _)
          · cases found
  | separator =>
      cases cs with
      | nil => cases found
      | cons first cs =>
          simp only [Piece.read] at found
          split at found
          · rename_i which
            cases found
            rcases which with rfl | rfl | rfl <;> exact .cons rfl (.refl _)
          · cases found
  | blanks =>
      cases found
      exact .trimStart cs
  | fraction =>
      simp only [Piece.read, Option.bind_eq_bind, Option.bind_eq_some_iff] at found
      obtain ⟨⟨nanos, left⟩, digits, same⟩ := found
      cases same
      exact passes_of_readFraction digits
  | zone =>
      simp only [Piece.read] at found
      split at found
      · cases found
        exact .cons rfl (.refl _)
      · cases found
        exact .cons rfl (.refl _)
      · simp only [Option.bind_eq_bind, Option.bind_eq_some_iff] at found
        obtain ⟨⟨offset, left⟩, shift, same⟩ := found
        cases same
        exact passes_of_readOffset (fun _ _ => passes_of_dropColon) shift
  | looseOffset =>
      simp only [Piece.read, Option.bind_eq_bind, Option.bind_eq_some_iff] at found
      obtain ⟨⟨offset, left⟩, shift, same⟩ := found
      cases same
      exact (Passes.trimStart cs).trans
        (passes_of_readOffset (fun _ _ => passes_of_dropColons) shift)

theorem Layout.isDateText_of_readFrom {layout : Layout}
    (plain : ∀ piece ∈ layout, piece.IsPlain) {r last : Reading} {cs : List Char}
    (found : layout.readFrom r cs = some last) : IsDateText cs := by
  induction layout generalizing r cs with
  | nil =>
      cases cs with
      | nil => exact .nil
      | cons c cs => cases found
  | cons piece more ih =>
      simp only [Layout.readFrom, Option.bind_eq_bind, Option.bind_eq_some_iff] at found
      obtain ⟨⟨next, rest⟩, step, found⟩ := found
      have dated := ih (fun other member => plain other (List.mem_cons_of_mem piece member)) found
      exact (Piece.passes_of_read (plain piece List.mem_cons_self) step).isDateText dated

theorem Layout.isDateText_of_read? {layout : Layout} (plain : ∀ piece ∈ layout, piece.IsPlain)
    {cs : List Char} {t : Instant} (found : layout.read? cs = some t) : IsDateText cs := by
  obtain ⟨last, read, -⟩ := Option.bind_eq_some_iff.mp found
  exact isDateText_of_readFrom plain read

theorem isDateText_of_trim {cs : List Char} (dated : IsDateText (Text.trim cs)) :
    IsDateText cs := by
  have ahead : IsDateText (Text.trimStart cs).reverse := by
    refine (Passes.trimStart _).isDateText ?_
    exact dated.subset fun c member => List.mem_reverse.mpr member
  refine (Passes.trimStart _).isDateText ?_
  exact ahead.subset fun c member => List.mem_reverse.mpr member

theorem isDateText_of_dropZulu {cs : List Char} (dated : IsDateText (dropZulu cs)) :
    IsDateText cs := by
  have ending (c : Char) (own : isDateChar c) (last : cs.getLast? = some c)
      (front : IsDateText cs.dropLast) : IsDateText cs := by
    obtain ⟨start, rfl⟩ := List.getLast?_eq_some_iff.mp last
    rw [List.dropLast_concat] at front
    exact front.append (.cons own .nil)
  unfold dropZulu at dated
  split at dated
  · exact ending 'Z' rfl ‹_› dated
  · exact ending 'z' rfl ‹_› dated
  · exact dated

/-- What is read as a date has no other characters. -/
theorem isDateText_of_ofText? {written : String} {t : Instant}
    (read : ofText? written = some t) : IsDateText written.toList := by
  have internet : ∀ piece ∈ Layout.internet, piece.IsPlain := by decide
  have plain : ∀ layout ∈ Layout.plain, ∀ piece ∈ layout, piece.IsPlain := by decide
  have shifted : ∀ layout ∈ Layout.shifted, ∀ piece ∈ layout, piece.IsPlain := by decide
  have fullDate : ∀ piece ∈ Layout.fullDate, piece.IsPlain := by decide
  apply isDateText_of_trim
  obtain ⟨attempt, tried, found⟩ := exists_attempt_of_ofText? read
  simp only [attempts, List.mem_append, List.mem_map, List.mem_singleton] at tried
  rcases tried with rfl | ⟨layout, member, rfl⟩ | ⟨layout, member, rfl⟩ | rfl | rfl
  · exact Layout.isDateText_of_read? internet found
  · exact isDateText_of_dropZulu (Layout.isDateText_of_read? (plain layout member) found)
  · exact Layout.isDateText_of_read? (shifted layout member) found
  · exact Layout.isDateText_of_read? fullDate found
  · exact (Layout.isDateText_of_read? fullDate found).subset (List.subset_append_left _ _)

/-- No text with a mark is read as a date. -/
theorem isFlat_of_ofText? {written : String} {t : Instant} (read : ofText? written = some t) :
    IsFlat written.toList := (isDateText_of_ofText? read).isFlat

theorem isFlat_padded (width n : Nat) : IsFlat (padded width n) := by
  have numeral : IsNumeral (padded width n) := (IsNumeral.zeros _).append (.toDigits n)
  exact fun c member => isMark_eq_false (by decide) (numeral c member)

theorem isFlat_isoYear (year : Int) : IsFlat (isoYear year) := by
  unfold isoYear
  split
  · exact .cons rfl (isFlat_padded _ _)
  · split
    · exact isFlat_padded _ _
    · exact .cons rfl (isFlat_padded _ _)

/-- Instants are written without marks. -/
theorem isFlat_iso (t : Instant) : IsFlat t.iso.toList := by
  have signs : isMark '-' = false ∧ isMark 'T' = false ∧ isMark ':' = false ∧
      isMark '.' = false ∧ isMark 'Z' = false := by decide
  rw [iso, String.toList_ofList, isoChars]
  simp [signs, isFlat_padded, isFlat_isoYear]

end Instant
end Criteria
