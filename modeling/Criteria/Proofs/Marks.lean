import Criteria.Condition
import Criteria.Proofs.Parentheses

set_option autoImplicit false

/-
Marks are the characters that give a list of conditions its structure. Whether a text
can stand between two commas is a matter of its marks alone, and escaping leaves them
as they are.
-/
namespace Criteria.Parentheses

def isMark (c : Char) : Bool := c == '(' || c == ')' || c == ','

def marks (cs : List Char) : List Char := cs.filter isMark

/-- A text without marks. -/
def IsFlat (cs : List Char) : Prop := ∀ c ∈ cs, isMark c = false

instance (cs : List Char) : Decidable (IsFlat cs) :=
  List.decidableBAll (fun c => isMark c = false) cs

@[simp] theorem isFlat_nil : IsFlat [] := List.forall_mem_nil _

@[simp] theorem isFlat_cons_iff {c : Char} {cs : List Char} :
    IsFlat (c :: cs) ↔ isMark c = false ∧ IsFlat cs := List.forall_mem_cons

@[simp] theorem isFlat_append_iff {front back : List Char} :
    IsFlat (front ++ back) ↔ IsFlat front ∧ IsFlat back := List.forall_mem_append

theorem IsFlat.append {front back : List Char} (first : IsFlat front) (second : IsFlat back) :
    IsFlat (front ++ back) := isFlat_append_iff.mpr ⟨first, second⟩

theorem IsFlat.cons {c : Char} {cs : List Char} (plain : isMark c = false) (rest : IsFlat cs) :
    IsFlat (c :: cs) := isFlat_cons_iff.mpr ⟨plain, rest⟩

theorem IsFlat.subset {few many : List Char} (flat : IsFlat many) (sub : few ⊆ many) :
    IsFlat few := fun c member => flat c (sub member)

@[simp] theorem marks_append (front back : List Char) :
    marks (front ++ back) = marks front ++ marks back := List.filter_append ..

theorem IsFlat.marks_eq {cs : List Char} (flat : IsFlat cs) : marks cs = [] := by
  apply List.filter_eq_nil_iff.mpr
  intro c member
  simp [flat c member]

/-- The characters of a class that holds no mark. -/
theorem isMark_eq_false {p : Char → Bool} (none : p '(' = false ∧ p ')' = false ∧ p ',' = false)
    {c : Char} (inside : p c) : isMark c = false := by
  obtain ⟨notOpening, notClosing, notComma⟩ := none
  simp only [isMark, Bool.or_eq_false_iff, beq_eq_false_iff_ne, ne_eq]
  refine ⟨⟨?_, ?_⟩, ?_⟩
  · rintro rfl
    simp [notOpening] at inside
  · rintro rfl
    simp [notClosing] at inside
  · rintro rfl
    simp [notComma] at inside

theorem step?_of_not_isMark {c : Char} (plain : isMark c = false) (depth : Nat) :
    step? depth c = some depth := by
  simp only [isMark, Bool.or_eq_false_iff, beq_eq_false_iff_ne, ne_eq] at plain
  obtain ⟨⟨notOpening, notClosing⟩, -⟩ := plain
  rw [step?, if_neg notOpening, if_neg notClosing]

theorem depth?_marks (depth : Nat) (cs : List Char) :
    depth? depth (marks cs) = depth? depth cs := by
  induction cs generalizing depth with
  | nil => rfl
  | cons c cs ih =>
      cases mark : isMark c with
      | true =>
          rw [marks, List.filter_cons_of_pos mark, depth?, depth?]
          exact congrArg _ (funext fun next => ih next)
      | false =>
          rw [marks, List.filter_cons_of_neg (by simp [mark]), depth?, step?_of_not_isMark mark,
            Option.bind_some]
          exact ih depth

theorem keepsCommas_marks {depth : Nat} {cs : List Char} :
    KeepsCommas depth (marks cs) ↔ KeepsCommas depth cs := by
  induction cs generalizing depth with
  | nil => rfl
  | cons c cs ih =>
      cases mark : isMark c with
      | true =>
          rw [marks, List.filter_cons_of_pos mark, keepsCommas_cons, keepsCommas_cons]
          exact and_congr_right fun _ => forall₂_congr fun next _ => ih
      | false =>
          have notComma : c ≠ ',' := by
            rintro rfl
            cases mark
          rw [marks, List.filter_cons_of_neg (by simp [mark]), keepsCommas_cons,
            step?_of_not_isMark mark]
          have same : KeepsCommas depth (marks cs) ↔ KeepsCommas depth cs := ih
          rw [marks] at same
          simpa [notComma] using same

theorem balanced_congr {cs ds : List Char} (same : marks cs = marks ds) :
    Balanced cs ↔ Balanced ds := by
  rw [Balanced, Balanced, ← depth?_marks 0 cs, ← depth?_marks 0 ds, same]

/-- What stands between two commas is told from its marks. -/
theorem isPiece_congr {cs ds : List Char} (same : marks cs = marks ds) :
    IsPiece cs ↔ IsPiece ds := by
  have commas : KeepsCommas 0 cs ↔ KeepsCommas 0 ds := by
    rw [← keepsCommas_marks, same, keepsCommas_marks]
  exact ⟨fun piece => ⟨(balanced_congr same).mp piece.balanced, commas.mp piece.keepsCommas⟩,
    fun piece => ⟨(balanced_congr same).mpr piece.balanced, commas.mpr piece.keepsCommas⟩⟩

theorem IsFlat.isPiece {cs : List Char} (flat : IsFlat cs) : IsPiece cs := by
  have same : marks cs = marks [] := flat.marks_eq
  exact (isPiece_congr same).mpr ⟨rfl, KeepsCommas.nil 0⟩

theorem IsFlat.append_isPiece_iff {front back : List Char} (flat : IsFlat front) :
    IsPiece (front ++ back) ↔ IsPiece back := by
  apply isPiece_congr
  rw [marks_append, flat.marks_eq, List.nil_append]

theorem IsFlat.isPiece_append_iff {front back : List Char} (flat : IsFlat back) :
    IsPiece (front ++ back) ↔ IsPiece front := by
  apply isPiece_congr
  rw [marks_append, flat.marks_eq, List.append_nil]

/-- Escaping doubles no mark and makes none. -/
theorem marks_escape (s : String) : marks (Condition.escape s).toList = marks s.toList := by
  rw [Condition.escape, String.toList_ofList]
  induction s.toList with
  | nil => rfl
  | cons c cs ih =>
      rw [List.flatMap_cons, marks_append, ih, ← List.singleton_append, marks_append]
      congr 1
      unfold Condition.escapeChar
      split
      · rename_i doubled
        rcases doubled with rfl | rfl <;> rfl
      · rfl

/-- What a text at a depth keeps of the next piece is a piece. -/
theorem split?_pieces {depth : Nat} {cs : List Char} {pieces : List (List Char)}
    (found : split? depth cs = some pieces) :
    (∃ first more, pieces = first :: more ∧ depth? depth first = some 0 ∧
      KeepsCommas depth first ∧ ∀ piece ∈ more, IsPiece piece) := by
  induction cs generalizing depth pieces with
  | nil =>
      rw [split?] at found
      split at found
      · subst depth
        cases found
        exact ⟨[], [], rfl, rfl, KeepsCommas.nil 0, by simp⟩
      · cases found
  | cons c cs ih =>
      rw [split?] at found
      split at found
      · rename_i both
        obtain ⟨rfl, rfl⟩ := both
        obtain ⟨rest, foundRest, rfl⟩ := Option.map_eq_some_iff.mp found
        obtain ⟨first, more, rfl, reach, keeps, others⟩ := ih foundRest
        exact ⟨[], first :: more, rfl, rfl, KeepsCommas.nil 0,
          List.forall_mem_cons.mpr ⟨⟨reach, keeps⟩, others⟩⟩
      · rename_i notComma
        obtain ⟨next, step, foundNext⟩ := Option.bind_eq_some_iff.mp found
        obtain ⟨rest, foundRest, rfl⟩ := Option.map_eq_some_iff.mp foundNext
        obtain ⟨first, more, rfl, reach, keeps, others⟩ := ih foundRest
        refine ⟨c :: first, more, rfl, ?_, ?_, others⟩
        · rw [depth?, step, Option.bind_some, reach]
        · refine keepsCommas_cons.mpr ⟨notComma, ?_⟩
          intro other member
          cases Option.mem_some_iff.mp (step ▸ member)
          exact keeps

/-- Texts joined by commas are found again exactly where each of them is a piece. -/
theorem split?_intercalate_iff {texts : List String} (nonempty : texts ≠ []) :
    split? 0 (String.intercalate "," texts).toList = some (texts.map String.toList) ↔
      ∀ text ∈ texts, IsPiece text.toList := by
  constructor
  · intro found text member
    obtain ⟨first, more, same, reach, keeps, others⟩ := split?_pieces found
    have inside : text.toList ∈ first :: more := same ▸ List.mem_map_of_mem member
    rcases List.mem_cons.mp inside with isFirst | isLater
    · rw [isFirst]
      exact ⟨reach, keeps⟩
    · exact others _ isLater
  · exact split?_intercalate nonempty

end Criteria.Parentheses
