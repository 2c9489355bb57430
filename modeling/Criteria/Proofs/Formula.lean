import Criteria.FilterText
import Criteria.Proofs.Parentheses

set_option autoImplicit false

/-
Formulas over conditions, as texts and as what texts are read as. A text is a list of
members between commas, any of which may hold; a member is a conjunction `and(…)`, a
nested list `(…)`, or else a condition.
-/
namespace Criteria

open Parentheses

inductive Formula where
  | condition (text : String)
  | group (combinator : Combinator) (parts : List Formula)

namespace Formula

@[induction_eliminator]
theorem induct {motive : Formula → Prop} (condition : ∀ text, motive (.condition text))
    (group : ∀ combinator parts, (∀ part ∈ parts, motive part) → motive (.group combinator parts)) :
    ∀ formula, motive formula
  | .condition text => condition text
  | .group combinator parts => group combinator parts fun part _ => induct condition group part

section
variable {α : Type} (leaf : String → α) (join : Combinator → List α → α)

mutual

/-- Puts values together along a formula. -/
def fold : Formula → α
  | .condition text => leaf text
  | .group combinator parts => join combinator (foldAll parts)

def foldAll : List Formula → List α
  | [] => []
  | part :: more => part.fold :: foldAll more

end

theorem foldAll_eq_map (parts : List Formula) :
    foldAll leaf join parts = parts.map (fold leaf join) := by
  induction parts with
  | nil => rfl
  | cons part more ih => rw [foldAll, ih, List.map_cons]

theorem fold_group (combinator : Combinator) (parts : List Formula) :
    fold leaf join (.group combinator parts) = join combinator (parts.map (fold leaf join)) := by
  rw [fold, foldAll_eq_map]

end

/-- Whether a formula holds where the conditions have the given truth. -/
def holds (truth : String → Bool) : Formula → Bool :=
  fold truth fun
    | .and, values => values.all id
    | .or, values => values.any id

/-- The conditions of a formula from left to right. -/
def conditions : Formula → List String := fold (fun text => [text]) fun _ => List.flatten

/-- The text of a formula as a member of a list. -/
def fragment : Formula → String :=
  fold id fun combinator fragments => "(" ++ combinator.join fragments ++ ")"

/-- The text of a formula. -/
def text : Formula → String
  | .condition text => text
  | .group combinator parts => combinator.join (parts.map fragment)

@[simp] theorem conditions_condition (text : String) :
    (Formula.condition text).conditions = [text] := rfl

@[simp] theorem conditions_group (combinator : Combinator) (parts : List Formula) :
    (Formula.group combinator parts).conditions = parts.flatMap conditions :=
  fold_group _ _ combinator parts

@[simp] theorem holds_condition (truth : String → Bool) (text : String) :
    (Formula.condition text).holds truth = truth text := rfl

@[simp] theorem holds_and (truth : String → Bool) (parts : List Formula) :
    (Formula.group .and parts).holds truth = (parts.map (holds truth)).all id :=
  fold_group _ _ .and parts

@[simp] theorem holds_or (truth : String → Bool) (parts : List Formula) :
    (Formula.group .or parts).holds truth = (parts.map (holds truth)).any id :=
  fold_group _ _ .or parts

@[simp] theorem fragment_condition (text : String) : (Formula.condition text).fragment = text := rfl

@[simp] theorem fragment_group (combinator : Combinator) (parts : List Formula) :
    (Formula.group combinator parts).fragment =
      "(" ++ (Formula.group combinator parts).text ++ ")" :=
  fold_group _ _ combinator parts

end Formula

/-- What a member of a list is told to be by its first characters. -/
inductive Member where
  | condition (text : List Char)
  | group (combinator : Combinator) (inside : List Char)

namespace Member

/-- What stands in front of a closing parenthesis at the end. -/
def inside? (cs : List Char) : Option (List Char) :=
  if cs.getLast? = some ')' then some cs.dropLast else none

def ofChars? : List Char → Option Member
  | [] => none
  | '(' :: rest => (inside? rest).map (group .or)
  | 'a' :: 'n' :: 'd' :: '(' :: rest => (inside? rest).map (group .and)
  | text => some (condition text)

theorem length_lt_of_ofChars? {piece inside : List Char} {combinator : Combinator}
    (member : ofChars? piece = some (group combinator inside)) : inside.length < piece.length := by
  have short {cs : List Char} (found : inside? cs = some inside) : inside.length ≤ cs.length := by
    unfold inside? at found
    split at found
    · cases found
      simp
    · cases found
  unfold ofChars? at member
  split at member
  · cases member
  · obtain ⟨cs, found, same⟩ := Option.map_eq_some_iff.mp member
    cases same
    have bound := short found
    simp only [List.length_cons]
    omega
  · obtain ⟨cs, found, same⟩ := Option.map_eq_some_iff.mp member
    cases same
    have bound := short found
    simp only [List.length_cons]
    omega
  · cases member

end Member

namespace Formula

mutual

/-- Reads one member of a list. -/
def ofMember? (piece : List Char) : Option Formula :=
  match _member : Member.ofChars? piece with
  | none => none
  | some (.condition text) => some (.condition (String.ofList text))
  | some (.group combinator inside) =>
      match _pieces : split? 0 inside with
      | none => none
      | some pieces => (ofMembers? pieces).map (.group combinator)
termination_by (piece.length, 0)
decreasing_by
  have shorter := Member.length_lt_of_ofChars? _member
  have pieces := length_split?_le _pieces
  exact Prod.Lex.left _ _ (by omega)

def ofMembers? : List (List Char) → Option (List Formula)
  | [] => some []
  | piece :: more =>
      (ofMember? piece).bind fun formula => (ofMembers? more).map (formula :: ·)
termination_by pieces => ((pieces.map List.length).sum, pieces.length + 1)
decreasing_by
  · simp only [List.map_cons, List.sum_cons, List.length_cons, Prod.lex_def]
    omega
  · simp only [List.map_cons, List.sum_cons, List.length_cons, Prod.lex_def]
    omega

end

/-- Reads a list of members. -/
def ofList? (cs : List Char) : Option (List Formula) := (split? 0 cs).bind ofMembers?

/-- Reads a text; an empty one has no members. -/
def ofText? (text : String) : Option Formula :=
  if text.isEmpty then some (.group .or []) else (ofList? text.toList).map (.group .or)

theorem ofMember?_condition {piece text : List Char}
    (member : Member.ofChars? piece = some (.condition text)) :
    ofMember? piece = some (.condition (String.ofList text)) := by
  rw [ofMember?]
  split
  · rename_i none
    cases none.symm.trans member
  · rename_i other
    cases other.symm.trans member
    rfl
  · rename_i other
    cases other.symm.trans member

theorem ofMember?_group {piece inside : List Char} {combinator : Combinator}
    (member : Member.ofChars? piece = some (.group combinator inside)) :
    ofMember? piece = (ofList? inside).map (.group combinator) := by
  rw [ofMember?, ofList?]
  split
  · rename_i none
    cases none.symm.trans member
  · rename_i other
    cases other.symm.trans member
  · rename_i other
    cases other.symm.trans member
    split
    · rename_i unbalanced
      rw [unbalanced]
      rfl
    · rename_i found
      rw [found]
      rfl

/-- Two formulas with the same conditions in the same order that always hold together. -/
structure Agrees (a b : Formula) : Prop where
  conditions : a.conditions = b.conditions
  holds : ∀ truth, a.holds truth = b.holds truth

theorem Agrees.symm {a b : Formula} (agrees : a.Agrees b) : b.Agrees a :=
  ⟨agrees.conditions.symm, fun truth => (agrees.holds truth).symm⟩

theorem Agrees.trans {a b c : Formula} (first : a.Agrees b) (second : b.Agrees c) : a.Agrees c :=
  ⟨first.conditions.trans second.conditions,
    fun truth => (first.holds truth).trans (second.holds truth)⟩

/-- A group of one part is no more than the part. -/
theorem agrees_singleton (combinator : Combinator) (part : Formula) :
    (Formula.group combinator [part]).Agrees part := by
  refine ⟨by simp, fun truth => ?_⟩
  cases combinator <;> simp

/-- Groups agree when their parts agree one by one. -/
theorem agrees_group (combinator : Combinator) {members parts : List Formula}
    (each : List.Forall₂ Agrees members parts) :
    (Formula.group combinator members).Agrees (.group combinator parts) := by
  have conditions : members.map Formula.conditions = parts.map Formula.conditions := by
    induction each with
    | nil => rfl
    | cons first _ ih => rw [List.map_cons, List.map_cons, first.conditions, ih]
  have holds (truth : String → Bool) : members.map (holds truth) = parts.map (holds truth) := by
    clear conditions
    induction each with
    | nil => rfl
    | cons first _ ih => rw [List.map_cons, List.map_cons, first.holds, ih]
  refine ⟨?_, fun truth => ?_⟩
  · rw [conditions_group, conditions_group, List.flatMap_def, List.flatMap_def, conditions]
  · cases combinator
    · rw [holds_and, holds_and, holds]
    · rw [holds_or, holds_or, holds]

end Formula

/-- A text that is read as one condition. -/
structure Condition.IsPlain (text : String) : Prop where
  piece : IsPiece text.toList
  noList : ¬ "(".toList <+: text.toList
  noConjunction : ¬ "and(".toList <+: text.toList

instance (text : String) : Decidable (Condition.IsPlain text) :=
  decidable_of_iff
    (IsPiece text.toList ∧ ¬ "(".toList <+: text.toList ∧ ¬ "and(".toList <+: text.toList)
    ⟨fun all => ⟨all.1, all.2.1, all.2.2⟩,
      fun plain => ⟨plain.piece, plain.noList, plain.noConjunction⟩⟩

namespace Member

theorem ofChars?_condition {text : String} (plain : Condition.IsPlain text) (nonempty : text ≠ "") :
    ofChars? text.toList = some (condition text.toList) := by
  have noList := plain.noList
  have noConjunction := plain.noConjunction
  unfold ofChars?
  split
  · rename_i empty
    exact False.elim (nonempty (String.toList_eq_nil_iff.mp empty))
  · rename_i rest same
    rw [same] at noList
    exact False.elim (noList ⟨rest, rfl⟩)
  · rename_i rest same
    rw [same] at noConjunction
    exact False.elim (noConjunction ⟨rest, rfl⟩)
  · rfl

theorem inside?_append (cs : List Char) : inside? (cs ++ [')']) = some cs := by
  simp [inside?]

end Member

theorem Combinator.join_singleton (combinator : Combinator) (fragment : String) :
    combinator.join [fragment] = fragment := by
  cases combinator <;> simp [Combinator.join]

theorem Combinator.join_or (fragments : List String) :
    Combinator.or.join fragments = String.intercalate "," fragments := by
  cases fragments <;> simp [Combinator.join]

namespace Formula

/-- Formulas whose text can be read: their conditions are plain and no group is empty. -/
inductive Readable : Formula → Prop where
  | condition (text : String) : text ≠ "" → Condition.IsPlain text → Readable (.condition text)
  | group (combinator : Combinator) (parts : List Formula) : parts ≠ [] →
      (∀ part ∈ parts, Readable part) → Readable (.group combinator parts)

/-- A formula that is read back from its place between two commas. -/
structure IsMember (formula : Formula) : Prop where
  piece : IsPiece formula.fragment.toList
  found : ∃ read, ofMember? formula.fragment.toList = some read ∧ read.Agrees formula

theorem ofMembers?_fragments {parts : List Formula} (each : ∀ part ∈ parts, part.IsMember) :
    ∃ members, ofMembers? ((parts.map fragment).map String.toList) = some members ∧
      List.Forall₂ Agrees members parts := by
  induction parts with
  | nil => exact ⟨[], by simp [ofMembers?], .nil⟩
  | cons part more ih =>
      obtain ⟨first, found, agrees⟩ := (each part List.mem_cons_self).found
      obtain ⟨rest, foundRest, agreesRest⟩ :=
        ih fun other member => each other (List.mem_cons_of_mem part member)
      refine ⟨first :: rest, ?_, .cons agrees agreesRest⟩
      rw [List.map_cons, List.map_cons, ofMembers?, found, foundRest]
      rfl

theorem ofList?_intercalate {parts : List Formula} (nonempty : parts ≠ [])
    (each : ∀ part ∈ parts, part.IsMember) :
    ∃ members, ofList? (String.intercalate "," (parts.map fragment)).toList = some members ∧
      List.Forall₂ Agrees members parts := by
  have split : split? 0 (String.intercalate "," (parts.map fragment)).toList =
      some ((parts.map fragment).map String.toList) := by
    apply split?_intercalate (by simpa using nonempty)
    intro piece member
    obtain ⟨part, inside, rfl⟩ := List.mem_map.mp member
    exact (each part inside).piece
  obtain ⟨members, found, agrees⟩ := ofMembers?_fragments each
  exact ⟨members, by rw [ofList?, split, Option.bind_some, found], agrees⟩

theorem balanced_intercalate {parts : List Formula} (each : ∀ part ∈ parts, part.IsMember) :
    Balanced (String.intercalate "," (parts.map fragment)).toList := by
  apply Balanced.intercalate
  intro piece member
  obtain ⟨part, inside, rfl⟩ := List.mem_map.mp member
  exact (each part inside).piece.balanced

/-- A conjunction of two parts or more is one member of its own. -/
theorem ofList?_conjunction {parts : List Formula} (nonempty : parts ≠ [])
    (each : ∀ part ∈ parts, part.IsMember) :
    let text := ("and(" ++ String.intercalate "," (parts.map fragment) ++ ")").toList
    Balanced text ∧ ∃ members, ofList? text = some [.group .and members] ∧
      List.Forall₂ Agrees members parts := by
  intro text
  obtain ⟨members, found, agrees⟩ := ofList?_intercalate nonempty each
  have shape : text = "and".toList ++
      ('(' :: (String.intercalate "," (parts.map fragment)).toList ++ [')']) := by
    simp [text]
  have piece : IsPiece text := by
    rw [shape]
    exact (show IsPiece "and".toList by decide).append (.parenthesized (balanced_intercalate each))
  have member : Member.ofChars? text =
      some (.group .and (String.intercalate "," (parts.map fragment)).toList) := by
    rw [shape]
    simp [Member.ofChars?, Member.inside?_append]
  refine ⟨piece.balanced, members, ?_, agrees⟩
  rw [ofList?, split?_of_isPiece piece, Option.bind_some, ofMembers?, ofMember?_group member, found]
  simp [ofMembers?]

/-- Whatever its shape, the text of a group is read as the group. -/
theorem ofList?_text (combinator : Combinator) {parts : List Formula} (nonempty : parts ≠ [])
    (each : ∀ part ∈ parts, part.IsMember) :
    Balanced (Formula.group combinator parts).text.toList ∧
      ∃ members, ofList? (Formula.group combinator parts).text.toList = some members ∧
        (Formula.group .or members).Agrees (.group combinator parts) := by
  obtain ⟨members, found, agrees⟩ := ofList?_intercalate nonempty each
  have balanced := balanced_intercalate each
  match combinator, parts with
  | .or, parts =>
      rw [text, Combinator.join_or]
      exact ⟨balanced, members, found, agrees_group .or agrees⟩
  | .and, [part] =>
      have joined : (Formula.group .and [part]).text =
          String.intercalate "," ([part].map fragment) := by
        simp [text, Combinator.join_singleton]
      rw [joined]
      refine ⟨balanced, members, found, ?_⟩
      exact (agrees_group .or agrees).trans
        ((agrees_singleton .or part).trans (agrees_singleton .and part).symm)
  | .and, first :: second :: more =>
      obtain ⟨balanced, members, found, agrees⟩ := ofList?_conjunction nonempty each
      refine ⟨balanced, [.group .and members], found, ?_⟩
      exact (agrees_singleton .or _).trans (agrees_group .and agrees)

/-- Readable formulas are read back, wherever they stand. -/
theorem Readable.isMember {formula : Formula} (readable : formula.Readable) : formula.IsMember := by
  induction readable with
  | condition text nonempty plain =>
      refine ⟨plain.piece, .condition text, ?_, rfl, fun _ => rfl⟩
      rw [fragment_condition, ofMember?_condition (Member.ofChars?_condition plain nonempty),
        String.ofList_toList]
  | group combinator parts nonempty _ each =>
      obtain ⟨balanced, members, found, agrees⟩ := ofList?_text combinator nonempty each
      have shape : (Formula.group combinator parts).fragment.toList =
          '(' :: (Formula.group combinator parts).text.toList ++ [')'] := by
        simp
      have member : Member.ofChars? ('(' :: (Formula.group combinator parts).text.toList ++ [')']) =
          some (.group .or (Formula.group combinator parts).text.toList) := by
        simp [Member.ofChars?, Member.inside?_append]
      refine ⟨shape ▸ .parenthesized balanced, .group .or members, ?_, agrees⟩
      rw [shape, ofMember?_group member, found]
      rfl

theorem ofList?_nil : ofList? [] = none := by
  have noMember : ofMember? [] = none := by
    rw [ofMember?]
    rfl
  simp [ofList?, split?, ofMembers?, noMember]

/-- The text of a readable group is read as a formula that agrees with the group. -/
theorem ofText?_text {combinator : Combinator} {parts : List Formula}
    (readable : (Formula.group combinator parts).Readable) :
    ∃ read, ofText? (Formula.group combinator parts).text = some read ∧
      read.Agrees (.group combinator parts) := by
  cases readable with
  | group _ _ nonempty each =>
      obtain ⟨-, members, found, agrees⟩ :=
        ofList?_text combinator nonempty fun part inside => (each part inside).isMember
      refine ⟨.group .or members, ?_, agrees⟩
      have notEmpty : (Formula.group combinator parts).text.isEmpty = false := by
        rw [String.isEmpty_eq_false_iff]
        intro empty
        rw [empty, String.toList_empty, ofList?_nil] at found
        cases found
      rw [ofText?, notEmpty, found]
      rfl

end Formula
end Criteria
