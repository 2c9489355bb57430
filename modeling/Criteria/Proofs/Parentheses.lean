import Mathlib.Algebra.Ring.Nat
import Mathlib.Data.List.Basic

set_option autoImplicit false

/-
Parentheses and commas in texts. A text is split at the commas outside of its
parentheses, which gives back the pieces of which it was joined if each of them is
balanced and keeps its own commas inside of parentheses.
-/
namespace Criteria.Parentheses

/-- The depth behind a character, unless it closes what is not open. -/
def step? (depth : Nat) (c : Char) : Option Nat :=
  if c = '(' then some (depth + 1)
  else if c = ')' then if depth = 0 then none else some (depth - 1)
  else some depth

/-- The depth behind a text. -/
def depth? (depth : Nat) : List Char → Option Nat
  | [] => some depth
  | c :: cs => (step? depth c).bind fun next => depth? next cs

def Balanced (cs : List Char) : Prop := depth? 0 cs = some 0

instance (cs : List Char) : Decidable (Balanced cs) := inferInstanceAs (Decidable (_ = _))

/-- No comma stands outside of the parentheses of a text that begins at a depth. -/
def KeepsCommas (depth : Nat) (cs : List Char) : Prop :=
  ∀ before after, cs = before ++ ',' :: after → depth? depth before ≠ some 0

/-- A text that can stand between two commas. -/
structure IsPiece (cs : List Char) : Prop where
  balanced : Balanced cs
  keepsCommas : KeepsCommas 0 cs

/-- The pieces of a text between the commas outside of parentheses, if these are
balanced. -/
def split? (depth : Nat) : List Char → Option (List (List Char))
  | [] => if depth = 0 then some [[]] else none
  | c :: cs =>
      if c = ',' ∧ depth = 0 then (split? 0 cs).map ([] :: ·)
      else (step? depth c).bind fun next => (split? next cs).map (List.modifyHead (c :: ·))

theorem depth?_append (depth : Nat) (front back : List Char) :
    depth? depth (front ++ back) = (depth? depth front).bind (depth? · back) := by
  induction front generalizing depth with
  | nil => rfl
  | cons c cs ih => simp only [List.cons_append, depth?, ih, Option.bind_assoc]

theorem step?_deeper {depth next : Nat} {c : Char} (step : step? depth c = some next) (more : Nat) :
    step? (depth + more) c = some (next + more) := by
  unfold step? at step ⊢
  grind

/-- What a text does at one depth it does at every greater depth. -/
theorem depth?_deeper {depth last : Nat} {cs : List Char} (reach : depth? depth cs = some last)
    (more : Nat) : depth? (depth + more) cs = some (last + more) := by
  induction cs generalizing depth with
  | nil =>
      simp only [depth?, Option.some.injEq] at reach ⊢
      omega
  | cons c cs ih =>
      obtain ⟨next, step, rest⟩ := Option.bind_eq_some_iff.mp reach
      simp only [depth?, step?_deeper step more, Option.bind_some]
      exact ih rest

theorem KeepsCommas.nil (depth : Nat) : KeepsCommas depth [] := by
  intro before after same
  cases before <;> cases same

theorem KeepsCommas.append {depth next : Nat} {front back : List Char}
    (first : KeepsCommas depth front) (reach : depth? depth front = some next)
    (second : KeepsCommas next back) : KeepsCommas depth (front ++ back) := by
  intro before after same
  rcases List.append_eq_append_iff.mp same with ⟨more, beforeIs, backIs⟩ | ⟨more, frontIs, afterIs⟩
  · rw [beforeIs, depth?_append, reach, Option.bind_some]
    exact second more after backIs
  · cases more with
    | nil =>
        simp only [List.append_nil] at frontIs
        rw [← frontIs, reach]
        have atStart := second [] after (by simpa using afterIs.symm)
        simpa [depth?] using atStart
    | cons c cs =>
        obtain ⟨rfl, -⟩ := List.cons.inj afterIs
        exact first before cs frontIs

theorem KeepsCommas.of_cons {depth next : Nat} {c : Char} {cs : List Char}
    (keeps : KeepsCommas depth (c :: cs)) (step : step? depth c = some next) :
    KeepsCommas next cs := by
  intro before after same
  have whole := keeps (c :: before) after (by rw [same, List.cons_append])
  simpa only [depth?, step, Option.bind_some] using whole

theorem keepsCommas_cons {depth : Nat} {c : Char} {cs : List Char} :
    KeepsCommas depth (c :: cs) ↔
      ¬ (c = ',' ∧ depth = 0) ∧ ∀ next ∈ step? depth c, KeepsCommas next cs := by
  constructor
  · intro keeps
    refine ⟨?_, fun next step => keeps.of_cons step⟩
    intro both
    obtain ⟨rfl, rfl⟩ := both
    exact keeps [] cs rfl rfl
  · rintro ⟨notComma, rest⟩ before after same
    cases before with
    | nil =>
        obtain ⟨rfl, -⟩ := List.cons.inj same
        simpa [depth?] using notComma
    | cons first before =>
        obtain ⟨rfl, sameRest⟩ := List.cons.inj same
        intro reach
        obtain ⟨next, step, reachRest⟩ := Option.bind_eq_some_iff.mp reach
        exact rest next step before after sameRest reachRest

instance decidableKeepsCommas : (depth : Nat) → (cs : List Char) → Decidable (KeepsCommas depth cs)
  | _, [] => isTrue (KeepsCommas.nil _)
  | _, _ :: cs =>
      have : DecidablePred fun next => KeepsCommas next cs :=
        fun next => decidableKeepsCommas next cs
      decidable_of_iff _ keepsCommas_cons.symm

instance (cs : List Char) : Decidable (IsPiece cs) :=
  decidable_of_iff (Balanced cs ∧ KeepsCommas 0 cs)
    ⟨fun both => ⟨both.1, both.2⟩, fun piece => ⟨piece.balanced, piece.keepsCommas⟩⟩

example : IsPiece "kind.in.(A,B)".toList ∧ ¬ IsPiece "kind.eq.A,B".toList := by decide

/-- Inside of parentheses no comma of a balanced text stands outside. -/
theorem KeepsCommas.of_balanced {cs : List Char} (balanced : Balanced cs) (depth : Nat) :
    KeepsCommas (depth + 1) cs := by
  intro before after same
  have whole : depth? 0 (before ++ ',' :: after) = some 0 := same ▸ balanced
  rw [depth?_append] at whole
  obtain ⟨next, reach, -⟩ := Option.bind_eq_some_iff.mp whole
  have deeper := depth?_deeper reach (depth + 1)
  rw [Nat.zero_add] at deeper
  rw [deeper]
  simp

theorem Balanced.append {front back : List Char} (first : Balanced front)
    (second : Balanced back) : Balanced (front ++ back) := by
  unfold Balanced
  rw [depth?_append, first]
  exact second

theorem Balanced.parenthesized {cs : List Char} (balanced : Balanced cs) :
    Balanced ('(' :: cs ++ [')']) := by
  have inner := depth?_deeper balanced 1
  unfold Balanced
  rw [depth?_append]
  simp only [depth?, step?, ↓reduceIte, Option.bind_some]
  rw [inner]
  rfl

theorem IsPiece.append {front back : List Char} (first : IsPiece front) (second : IsPiece back) :
    IsPiece (front ++ back) where
  balanced := first.balanced.append second.balanced
  keepsCommas := first.keepsCommas.append first.balanced second.keepsCommas

/-- Parentheses around a balanced text make a piece of it. -/
theorem IsPiece.parenthesized {cs : List Char} (balanced : Balanced cs) :
    IsPiece ('(' :: cs ++ [')']) where
  balanced := balanced.parenthesized
  keepsCommas := by
    have opening : KeepsCommas 0 ['('] := by
      intro before after same
      cases before <;> simp at same
    have closing : KeepsCommas 1 [')'] := by
      intro before after same
      cases before <;> simp at same
    have inner : depth? 1 cs = some 1 := by simpa using depth?_deeper balanced 1
    exact opening.append rfl ((KeepsCommas.of_balanced balanced 0).append inner closing)

/-- Text before the next outer comma goes in front of the first piece. -/
theorem split?_append {depth next : Nat} {cs : List Char} (keeps : KeepsCommas depth cs)
    (reach : depth? depth cs = some next) (rest : List Char) :
    split? depth (cs ++ rest) = (split? next rest).map (List.modifyHead (cs ++ ·)) := by
  induction cs generalizing depth with
  | nil =>
      obtain rfl : depth = next := by simpa [depth?] using reach
      rw [List.nil_append]
      cases split? depth rest with
      | none => rfl
      | some pieces => cases pieces <;> rfl
  | cons c cs ih =>
      obtain ⟨inner, step, reachRest⟩ := Option.bind_eq_some_iff.mp reach
      have notComma : ¬ (c = ',' ∧ depth = 0) := by
        intro both
        obtain ⟨rfl, rfl⟩ := both
        exact keeps [] cs rfl rfl
      rw [List.cons_append, split?, if_neg notComma, step, Option.bind_some,
        ih (keeps.of_cons step) reachRest]
      cases split? next rest with
      | none => rfl
      | some pieces => cases pieces <;> rfl

theorem split?_of_isPiece {cs : List Char} (piece : IsPiece cs) : split? 0 cs = some [cs] := by
  simpa [split?] using split?_append piece.keepsCommas piece.balanced []

theorem split?_append_comma {cs : List Char} (piece : IsPiece cs) (rest : List Char) :
    split? 0 (cs ++ ',' :: rest) = (split? 0 rest).map (cs :: ·) := by
  rw [split?_append piece.keepsCommas piece.balanced, split?, if_pos ⟨rfl, rfl⟩]
  cases split? 0 rest with
  | none => rfl
  | some pieces => simp

/-- Pieces joined by commas are found again. -/
theorem split?_intercalate {pieces : List String} (nonempty : pieces ≠ [])
    (each : ∀ piece ∈ pieces, IsPiece piece.toList) :
    split? 0 (String.intercalate "," pieces).toList = some (pieces.map String.toList) := by
  induction pieces with
  | nil => exact False.elim (nonempty rfl)
  | cons piece more ih =>
      have first := each piece List.mem_cons_self
      cases more with
      | nil => simpa using split?_of_isPiece first
      | cons next more =>
          have rest :=
            ih (by simp) fun other member => each other (List.mem_cons_of_mem piece member)
          have text : (String.intercalate "," (piece :: next :: more)).toList =
              piece.toList ++ ',' :: (String.intercalate "," (next :: more)).toList := by
            simp [String.intercalate_cons_cons]
          rw [text, split?_append_comma first, rest]
          rfl

theorem Balanced.intercalate {pieces : List String}
    (each : ∀ piece ∈ pieces, Balanced piece.toList) :
    Balanced (String.intercalate "," pieces).toList := by
  induction pieces with
  | nil => rfl
  | cons piece more ih =>
      have first := each piece List.mem_cons_self
      cases more with
      | nil => simpa using first
      | cons next more =>
          have rest := ih fun other member => each other (List.mem_cons_of_mem piece member)
          have comma : Balanced ",".toList := by decide
          rw [String.intercalate_cons_cons, String.toList_append, String.toList_append]
          exact (first.append comma).append rest

/-- The pieces are no longer than the text. -/
theorem length_split?_le {depth : Nat} {cs : List Char} {pieces : List (List Char)}
    (found : split? depth cs = some pieces) :
    (pieces.map List.length).sum ≤ cs.length := by
  induction cs generalizing depth pieces with
  | nil =>
      obtain ⟨-, rfl⟩ := by simpa [split?] using found
      simp
  | cons c cs ih =>
      rw [split?] at found
      split at found
      · obtain ⟨rest, foundRest, rfl⟩ := Option.map_eq_some_iff.mp found
        have bound := ih foundRest
        simp only [List.map_cons, List.length_nil, List.sum_cons, List.length_cons]
        omega
      · obtain ⟨next, -, foundNext⟩ := Option.bind_eq_some_iff.mp found
        obtain ⟨rest, foundRest, rfl⟩ := Option.map_eq_some_iff.mp foundNext
        have bound := ih foundRest
        cases rest with
        | nil => simp
        | cons piece more =>
            simp only [List.modifyHead_cons, List.map_cons, List.length_cons,
              List.sum_cons] at bound ⊢
            omega

end Criteria.Parentheses
