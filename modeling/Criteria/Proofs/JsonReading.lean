import Mathlib.Data.List.Forall2
import Criteria.Proofs.Attempts
import Criteria.Proofs.JsonLimits
import Criteria.Proofs.JsonTexts
import Criteria.Json.Record

set_option autoImplicit false

/-
Reading JSON text, wherever it has blanks. Every reader gives the value that the text was
written for within the limits on its depth and its numbers, and a fault beyond them.
-/
namespace Criteria

open JsonNumber (Ends)

namespace Json

/-- An outcome that is a value and the rest of a text within some limits, and a fault beyond
them. -/
structure IsLimited {α : Type} (limits : Prop) (outcome : Except Fault (α × List Char)) (a : α)
    (rest : List Char) : Prop where
  within : limits → outcome = .ok (a, rest)
  beyond : ¬ limits → ∃ fault, outcome = .error fault

namespace IsLimited

variable {α β : Type} {limits more : Prop} {rest last : List Char} {a : α} {b : β}

theorem ok (holds : limits) : IsLimited limits (.ok (a, rest)) a rest where
  within _ := rfl
  beyond fails := absurd holds fails

theorem of_error {fault : Fault} (fails : ¬ limits) :
    IsLimited limits (.error fault) a rest where
  within holds := absurd holds fails
  beyond _ := ⟨fault, rfl⟩

theorem congr {outcome : Except Fault (α × List Char)} (same : limits ↔ more)
    (limited : IsLimited limits outcome a rest) : IsLimited more outcome a rest where
  within holds := limited.within (same.mpr holds)
  beyond fails := limited.beyond (mt same.mp fails)

theorem bind {outcome : Except Fault (α × List Char)}
    {next : α × List Char → Except Fault (β × List Char)}
    (first : IsLimited limits outcome a rest) (second : IsLimited more (next (a, rest)) b last) :
    IsLimited (limits ∧ more) (outcome >>= next) b last where
  within := by
    rintro ⟨here, there⟩
    rw [first.within here]
    exact second.within there
  beyond := by
    intro fails
    by_cases here : limits
    · rw [first.within here]
      exact second.beyond fun there => fails ⟨here, there⟩
    · obtain ⟨fault, failed⟩ := first.beyond here
      exact ⟨fault, by rw [failed]; rfl⟩

/-- What only looks at the outcome has no limits of its own. -/
theorem bind_ok {outcome : Except Fault (α × List Char)}
    {next : α × List Char → Except Fault (β × List Char)}
    (first : IsLimited limits outcome a rest) (second : next (a, rest) = .ok (b, last)) :
    IsLimited limits (outcome >>= next) b last :=
  (first.bind (second ▸ ok trivial : IsLimited True (next (a, rest)) b last)).congr
    (and_iff_left trivial)

end IsLimited

/-- A reader with a budget takes every text of a value for the same, whatever follows it. -/
def Reads {α : Type} (reader : Reader α) (budget : Nat) (j : Json) (a : α) : Prop :=
  ∀ cs, Spaced j.tokens cs → ∀ rest, Ends rest →
    IsLimited (Fits budget j) (reader (cs ++ rest)) a rest

/-- Values of one token are read if they are read from behind the blanks. -/
theorem reads_of_token {α : Type} {reader : Reader α} {budget : Nat} {j : Json} {token : Token}
    {a : α} (alone : j.tokens = [token])
    (each : ∀ own cs rest, token.IsWritten own → Ends rest → skipBlanks cs = own ++ rest →
      IsLimited (Fits budget j) (reader cs) a rest) : Reads reader budget j a := by
  intro cs spaced rest ends
  rw [alone] at spaced
  obtain ⟨own, behind, written, others, skip⟩ := spaced.exists_skipBlanks
  cases others
  exact each own _ rest written ends (skip rest)

/-- A text of a value, once its blanks are passed over, begins with what cannot end an array,
and with the letter of a null only if it is null. -/
theorem Spaced.exists_begin {j : Json} {cs : List Char} (spaced : Spaced j.tokens cs) :
    ∃ c more, Spaced j.tokens (c :: more) ∧ c ≠ ']' ∧ (c = 'n' → j = .null) ∧
      ∀ rest, skipBlanks (cs ++ rest) = c :: (more ++ rest) := by
  obtain ⟨token, tokens, shape, notEnd, null⟩ := j.tokens_eq_cons
  rw [shape] at spaced ⊢
  obtain ⟨own, behind, written, others, skip⟩ := spaced.exists_skipBlanks
  have whole := spaced_cons written others
  obtain ⟨c, more, rfl, -, isEnd, isNull⟩ := written.exists_eq_cons
  refine ⟨c, more ++ behind, whole, mt isEnd notEnd, null ∘ isNull, ?_⟩
  intro rest
  rw [skip, List.cons_append, List.append_assoc]

section Arrays

variable {α : Type} {reader : Reader α} {budget fuel : Nat} {items : List Json} {as : List α}
  {first : Bool} {tokens : List Token} {cs : List Char}

/-- An item in front of other tokens, with its blanks passed over. -/
theorem Spaced.exists_item {j : Json} (spaced : Spaced (j.tokens ++ tokens) cs) :
    ∃ c more behind, Spaced j.tokens (c :: more) ∧ c ≠ ']' ∧ Spaced tokens behind ∧
      ∀ rest, skipBlanks (cs ++ rest) = c :: (more ++ (behind ++ rest)) := by
  obtain ⟨front, behind, own, others, rfl⟩ := spaced.exists_append
  obtain ⟨c, more, item, notEnd, -, skip⟩ := own.exists_begin
  refine ⟨c, more, behind, item, notEnd, others, ?_⟩
  intro rest
  rw [List.append_assoc, skip]

/-- An array goes on with an item behind its comma. -/
theorem exists_nextItem {j : Json}
    (spaced : Spaced (tokensOfItems first (j :: items) ++ [.mark ']']) cs) :
    ∃ ahead behind, Spaced j.tokens ahead ∧
      Spaced (tokensOfItems false items ++ [.mark ']']) behind ∧
      ∀ rest, nextItem first (cs ++ rest) = .ok (true, ahead ++ (behind ++ rest)) := by
  rw [tokensOfItems, List.append_assoc, List.append_assoc] at spaced
  cases first with
  | true =>
      have item : Spaced (j.tokens ++ (tokensOfItems false items ++ [.mark ']'])) cs := spaced
      obtain ⟨c, more, behind, own, notEnd, others, skip⟩ := item.exists_item
      refine ⟨c :: more, behind, own, others, ?_⟩
      intro rest
      rw [nextItem, skip]
      simp [notEnd]
  | false =>
      obtain ⟨comma, inside, written, item, skipComma⟩ := Spaced.exists_skipBlanks spaced
      cases written
      obtain ⟨c, more, behind, own, notEnd, others, skip⟩ := Spaced.exists_item item
      refine ⟨c :: more, behind, own, others, ?_⟩
      intro rest
      rw [nextItem, skipComma]
      simp [skip, notEnd]

theorem nextItem_close (spaced : Spaced [.mark ']'] cs) (rest : List Char) :
    nextItem first (cs ++ rest) = .ok (false, ']' :: rest) := by
  obtain ⟨own, behind, written, others, skip⟩ := spaced.exists_skipBlanks
  cases written
  cases others
  rw [nextItem, skip]
  rfl

theorem closeArray_bracket (rest : List Char) : closeArray (']' :: rest) = .ok rest := rfl

theorem closeArray_spaced (spaced : Spaced [.mark ']'] cs) (rest : List Char) :
    closeArray (cs ++ rest) = .ok rest := by
  obtain ⟨own, behind, written, others, skip⟩ := spaced.exists_skipBlanks
  cases written
  cases others
  rw [closeArray, skip]
  rfl

theorem ends_of_items (spaced : Spaced (tokensOfItems false items ++ [.mark ']']) cs)
    (rest : List Char) : Ends (cs ++ rest) := by
  cases items <;> exact Spaced.ends spaced rest

/-- The items of an array are read in turn, whatever reads each of them, up to the closing
bracket. -/
theorem readItems_spaced (each : List.Forall₂ (Reads reader budget) items as)
    (spaced : Spaced (tokensOfItems first items ++ [.mark ']']) cs) (enough : items.length < fuel)
    (rest : List Char) :
    IsLimited (∀ j ∈ items, Fits budget j) (readItems reader fuel first (cs ++ rest)) as
      (']' :: rest) := by
  induction each generalizing fuel first cs with
  | nil =>
      cases fuel with
      | zero => omega
      | succ fuel =>
          rw [readItems, nextItem_close spaced]
          exact .ok (List.forall_mem_nil _)
  | @cons j a items as here _ ih =>
      cases fuel with
      | zero => omega
      | succ fuel =>
          obtain ⟨ahead, behind, own, others, next⟩ := exists_nextItem spaced
          have more := ih others (Nat.lt_of_succ_lt_succ enough)
          rw [readItems, next, ok_bind]
          refine IsLimited.congr List.forall_mem_cons.symm
            ((here ahead own _ (ends_of_items others rest)).bind ?_)
          exact more.bind_ok rfl

theorem length_le_tokensOfItems (first : Bool) (items : List Json) :
    items.length ≤ (tokensOfItems first items).length := by
  induction items generalizing first with
  | nil => exact Nat.le_refl _
  | cons j more ih =>
      obtain ⟨token, others, shape, -⟩ := j.tokens_eq_cons
      have := ih false
      simp only [tokensOfItems, shape, List.length_append, List.length_cons]
      omega

theorem length_lt_of_array (enough : (Json.tokens (.array items)).length ≤ fuel) :
    items.length < fuel := by
  have := length_le_tokensOfItems true items
  simp only [Json.tokens, List.length_cons, List.length_append] at enough
  omega

theorem length_tokens_le_tokensOfItems {j : Json} (member : j ∈ items) (first : Bool) :
    j.tokens.length ≤ (tokensOfItems first items).length := by
  induction items generalizing first with
  | nil => cases member
  | cons item more ih =>
      rw [tokensOfItems, List.length_append, List.length_append]
      rcases List.mem_cons.mp member with rfl | later
      · omega
      · have := ih later false
        omega

/-- Fuel for an array is fuel for its items. -/
theorem length_tokens_le_of_mem_array {j : Json} (member : j ∈ items)
    (enough : (Json.tokens (.array items)).length ≤ fuel) : j.tokens.length ≤ fuel := by
  have := length_tokens_le_tokensOfItems member true
  rw [Json.tokens, List.length_cons, List.length_append] at enough
  omega

/-- The text of an array behind its bracket. -/
theorem exists_inside_array (spaced : Spaced (Json.tokens (.array items)) cs) :
    ∃ inside, Spaced (tokensOfItems true items ++ [.mark ']']) inside ∧
      ∀ rest, skipBlanks (cs ++ rest) = '[' :: (inside ++ rest) := by
  obtain ⟨own, inside, written, others, skip⟩ := Spaced.exists_skipBlanks spaced
  cases written
  exact ⟨inside, others, skip⟩

end Arrays

section Objects

variable {budget fuel : Nat} {first : Bool} {cs : List Char} {members : List (String × Json)}

/-- A name and its colon in front of other tokens, from behind the quote. -/
theorem Spaced.exists_name {name : String} {tokens : List Token}
    (spaced : Spaced (.string name :: .mark ':' :: tokens) cs) :
    ∃ inside behind value, Spaced tokens value ∧
      (∀ rest, skipBlanks (cs ++ rest) = '"' :: (inside ++ rest)) ∧
      (∀ rest, readString (inside ++ rest) = .ok (name.toList, behind ++ rest)) ∧
      ∀ rest, readColon (behind ++ rest) = .ok (value ++ rest) := by
  obtain ⟨own, behind, written, others, skip⟩ := spaced.exists_skipBlanks
  obtain ⟨colon, value, isColon, values, skipColon⟩ := others.exists_skipBlanks
  cases isColon
  cases written with
  | @string _ own spells =>
      refine ⟨own ++ '"' :: behind, behind, value, values, ?_, ?_, ?_⟩
      · intro rest
        rw [skip]
        simp
      · intro rest
        rw [List.append_assoc, List.cons_append, readString_spellsAll spells]
      · intro rest
        rw [readColon, skipColon]
        rfl

/-- An object goes on with a member behind its comma: its name, its colon and its value. -/
theorem exists_nextMember {name : String} {value : Json}
    (spaced : Spaced (tokensOfMembers first ((name, value) :: members) ++ [.mark '}']) cs) :
    ∃ inside behind ahead others, Spaced value.tokens ahead ∧
      Spaced (tokensOfMembers false members ++ [.mark '}']) others ∧
      (∀ rest, nextMember first (cs ++ rest) = .ok (true, inside ++ rest)) ∧
      (∀ rest, readString (inside ++ rest) = .ok (name.toList, behind ++ rest)) ∧
      ∀ rest, readColon (behind ++ rest) = .ok (ahead ++ (others ++ rest)) := by
  -- The value and what follows it, once the name is found.
  have parts {front : List Char} (named : Spaced (.string name :: .mark ':' ::
      (value.tokens ++ (tokensOfMembers false members ++ [.mark '}']))) front) :
      ∃ inside behind ahead others, Spaced value.tokens ahead ∧
        Spaced (tokensOfMembers false members ++ [.mark '}']) others ∧
        (∀ rest, skipBlanks (front ++ rest) = '"' :: (inside ++ rest)) ∧
        (∀ rest, readString (inside ++ rest) = .ok (name.toList, behind ++ rest)) ∧
        ∀ rest, readColon (behind ++ rest) = .ok (ahead ++ (others ++ rest)) := by
    obtain ⟨inside, behind, values, spaced, skip, string, colon⟩ := named.exists_name
    obtain ⟨ahead, others, own, more, rfl⟩ := spaced.exists_append
    exact ⟨inside, behind, ahead, others, own, more, skip, string,
      fun rest => by rw [colon, List.append_assoc]⟩
  rw [tokensOfMembers, List.append_assoc, List.cons_append, List.cons_append,
    List.append_assoc] at spaced
  cases first with
  | true =>
      obtain ⟨inside, behind, ahead, others, own, more, skip, string, colon⟩ := parts spaced
      refine ⟨inside, behind, ahead, others, own, more, ?_, string, colon⟩
      intro rest
      rw [nextMember, skip]
      rfl
  | false =>
      obtain ⟨comma, front, written, named, skipComma⟩ := Spaced.exists_skipBlanks spaced
      cases written
      obtain ⟨inside, behind, ahead, others, own, more, skip, string, colon⟩ := parts named
      refine ⟨inside, behind, ahead, others, own, more, ?_, string, colon⟩
      intro rest
      rw [nextMember, skipComma]
      simp [skip]

theorem nextMember_close (spaced : Spaced [.mark '}'] cs) (rest : List Char) :
    nextMember first (cs ++ rest) = .ok (false, '}' :: rest) := by
  obtain ⟨own, behind, written, others, skip⟩ := spaced.exists_skipBlanks
  cases written
  cases others
  rw [nextMember, skip]
  rfl

theorem closeObject_brace (rest : List Char) : closeObject ('}' :: rest) = .ok rest := rfl

theorem ends_of_members (spaced : Spaced (tokensOfMembers false members ++ [.mark '}']) cs)
    (rest : List Char) : Ends (cs ++ rest) := by
  cases members <;> exact Spaced.ends spaced rest

/-- The members of an object are read in turn, up to the closing brace. -/
theorem readMembers_spaced {reader : Reader Json}
    (each : ∀ member ∈ members, Reads reader budget member.2 member.2.reread)
    (spaced : Spaced (tokensOfMembers first members ++ [.mark '}']) cs)
    (enough : members.length < fuel) (rest : List Char) :
    IsLimited (∀ member ∈ members, Fits budget member.2)
      (readMembers reader fuel first (cs ++ rest)) (rereadMembers members) ('}' :: rest) := by
  induction members generalizing fuel first cs with
  | nil =>
      cases fuel with
      | zero => omega
      | succ fuel =>
          rw [readMembers, nextMember_close spaced]
          exact .ok (List.forall_mem_nil _)
  | cons member members ih =>
      obtain ⟨name, value⟩ := member
      obtain ⟨here, others⟩ := List.forall_mem_cons.mp each
      cases fuel with
      | zero => omega
      | succ fuel =>
          obtain ⟨inside, behind, ahead, left, own, spaced, next, string, colon⟩ :=
            exists_nextMember spaced
          have more := ih others spaced (Nat.lt_of_succ_lt_succ enough)
          simp only [readMembers, next, string, colon, ok_bind, ↓reduceIte, String.ofList_toList]
          refine IsLimited.congr List.forall_mem_cons.symm
            ((here ahead own _ (ends_of_members spaced rest)).bind ?_)
          exact more.bind_ok rfl

theorem length_le_tokensOfMembers (first : Bool) (members : List (String × Json)) :
    members.length ≤ (tokensOfMembers first members).length := by
  induction members generalizing first with
  | nil => exact Nat.le_refl _
  | cons member more ih =>
      have := ih false
      simp only [tokensOfMembers, List.length_append, List.length_cons]
      omega

theorem length_lt_of_object (enough : (Json.tokens (.object members)).length ≤ fuel) :
    members.length < fuel := by
  have := length_le_tokensOfMembers true members
  simp only [Json.tokens, List.length_cons, List.length_append] at enough
  omega

theorem length_tokens_le_tokensOfMembers {name : String} {j : Json}
    (member : (name, j) ∈ members) (first : Bool) :
    j.tokens.length ≤ (tokensOfMembers first members).length := by
  induction members generalizing first with
  | nil => cases member
  | cons other more ih =>
      simp only [tokensOfMembers, List.length_append, List.length_cons]
      rcases List.mem_cons.mp member with rfl | later
      · dsimp only
        omega
      · have := ih later false
        omega

/-- Fuel for an object is fuel for what its members hold. -/
theorem length_tokens_le_of_mem_object {name : String} {j : Json}
    (member : (name, j) ∈ members) (enough : (Json.tokens (.object members)).length ≤ fuel) :
    j.tokens.length ≤ fuel := by
  have := length_tokens_le_tokensOfMembers member true
  rw [Json.tokens, List.length_cons, List.length_append] at enough
  omega

/-- The text of an object behind its brace. -/
theorem exists_inside_object (spaced : Spaced (Json.tokens (.object members)) cs) :
    ∃ inside, Spaced (tokensOfMembers true members ++ [.mark '}']) inside ∧
      ∀ rest, skipBlanks (cs ++ rest) = '{' :: (inside ++ rest) := by
  obtain ⟨own, inside, written, others, skip⟩ := Spaced.exists_skipBlanks spaced
  cases written
  exact ⟨inside, others, skip⟩

end Objects

section Values

theorem readValue_number {fuel budget : Nat} {n : JsonNumber} {cs rest : List Char}
    (skip : skipBlanks cs = n.chars ++ rest) :
    readValue fuel budget cs = (JsonNumber.readSigned (n.chars ++ rest) >>= fun found =>
      .ok (.number found.1, found.2)) := by
  obtain ⟨sign, c, ds, fraction, power, shape, unsigned, -⟩ := n.exists_chars_eq
  rw [shape] at skip ⊢
  rw [readValue.eq_def]
  dsimp only
  rw [skip]
  cases sign with
  | true => rfl
  | false =>
      have digit := unsigned.first
      simp only [Bool.false_eq_true, ↓reduceIte, List.nil_append, List.cons_append]
      rw [JsonNumber.readSigned_of_digit digit]
      split
      case h_9 =>
        rename_i same
        cases same
        rw [if_pos digit]
        rfl
      all_goals
        rename_i same
        cases same
        try cases digit

/-- A number is read where a value is due. -/
theorem reads_number (n : JsonNumber) (fuel budget : Nat) :
    Reads (readValue fuel budget) budget (.number n) (.number n.reread) := by
  refine reads_of_token rfl ?_
  intro own cs rest written ends skip
  cases written
  rw [readValue_number skip]
  have found := n.readSigned_chars ends
  refine IsLimited.congr fits_number_iff.symm ?_
  rw [JsonNumber.reread]
  cases outcome : JsonNumber.readSigned (n.chars ++ rest) with
  | error fault =>
      rw [outcome] at found
      have none := Option.map_eq_none_iff.mp found.symm
      exact .of_error (by simp [none])
  | ok read =>
      rw [outcome] at found
      obtain ⟨x, some, rfl⟩ := Option.map_eq_some_iff.mp found.symm
      rw [some]
      exact .ok rfl

theorem reads_string (s : String) (fuel budget : Nat) :
    Reads (readValue fuel budget) budget (.string s) (.string s) := by
  refine reads_of_token rfl ?_
  intro own cs rest written _ skip
  cases written with
  | @string _ own spells =>
      rw [List.cons_append, List.append_assoc] at skip
      have found : readValue fuel budget cs = (readString (own ++ (['"'] ++ rest)) >>= fun found =>
          .ok (.string (String.ofList found.1), found.2)) := by
        rw [readValue.eq_def]
        dsimp only
        rw [skip]
        rfl
      rw [found, List.singleton_append, readString_spellsAll spells, ok_bind, String.ofList_toList]
      exact .ok (fits_string s)

theorem reads_null (fuel budget : Nat) : Reads (readValue fuel budget) budget .null .null := by
  refine reads_of_token rfl ?_
  intro own cs rest written _ skip
  cases written
  rw [readValue.eq_def]
  dsimp only
  rw [skip]
  exact .ok fits_null

theorem reads_bool (b : Bool) (fuel budget : Nat) :
    Reads (readValue fuel budget) budget (.bool b) (.bool b) := by
  refine reads_of_token rfl ?_
  intro own cs rest written _ skip
  cases written <;>
  · rw [readValue.eq_def]
    dsimp only
    rw [skip]
    exact .ok (fits_bool _)

theorem readValue_bracket (fuel : Nat) {cs rest : List Char} (skip : skipBlanks cs = '[' :: rest) :
    (∃ fault, readValue fuel 0 cs = .error fault) ∧ ∀ budget,
      readValue fuel (budget + 1) cs =
        (readItems (readValue fuel budget) fuel true rest >>= fun found =>
          closeArray found.2 >>= fun rest => .ok (.array found.1, rest)) := by
  constructor
  · rw [readValue.eq_def]
    dsimp only
    rw [skip]
    exact ⟨_, rfl⟩
  · intro budget
    rw [readValue.eq_def]
    dsimp only
    rw [skip]
    rfl

theorem readValue_brace (fuel : Nat) {cs rest : List Char} (skip : skipBlanks cs = '{' :: rest) :
    (∃ fault, readValue fuel 0 cs = .error fault) ∧ ∀ budget,
      readValue fuel (budget + 1) cs =
        (readMembers (readValue fuel budget) fuel true rest >>= fun found =>
          closeObject found.2 >>= fun rest => .ok (.object found.1, rest)) := by
  constructor
  · rw [readValue.eq_def]
    dsimp only
    rw [skip]
    exact ⟨_, rfl⟩
  · intro budget
    rw [readValue.eq_def]
    dsimp only
    rw [skip]
    rfl

theorem reads_array {items : List Json} {fuel : Nat}
    (enough : (tokens (.array items)).length ≤ fuel)
    (each : ∀ budget, ∀ j ∈ items, Reads (readValue fuel budget) budget j j.reread)
    (budget : Nat) :
    Reads (readValue fuel budget) budget (.array items) (.array (rereadItems items)) := by
  intro cs spaced rest _
  obtain ⟨inside, others, skip⟩ := exists_inside_array spaced
  obtain ⟨⟨fault, refused⟩, opened⟩ := readValue_bracket fuel (skip rest)
  cases budget with
  | zero =>
      rw [refused]
      exact .of_error (not_fits_array items)
  | succ budget =>
      have both :
          List.Forall₂ (Reads (readValue fuel budget) budget) items (rereadItems items) := by
        rw [rereadItems_eq_map, List.forall₂_map_right_iff]
        exact List.forall₂_same.mpr (each budget)
      have found := readItems_spaced both others (length_lt_of_array enough) rest
      rw [opened]
      refine IsLimited.congr fits_array_iff.symm ?_
      exact found.bind_ok rfl

theorem reads_object {members : List (String × Json)} {fuel : Nat}
    (enough : (tokens (.object members)).length ≤ fuel)
    (each : ∀ budget, ∀ member ∈ members,
      Reads (readValue fuel budget) budget member.2 member.2.reread)
    (budget : Nat) :
    Reads (readValue fuel budget) budget (.object members) (.object (rereadMembers members)) := by
  intro cs spaced rest _
  obtain ⟨inside, others, skip⟩ := exists_inside_object spaced
  obtain ⟨⟨fault, refused⟩, opened⟩ := readValue_brace fuel (skip rest)
  cases budget with
  | zero =>
      rw [refused]
      exact .of_error (not_fits_object members)
  | succ budget =>
      have found := readMembers_spaced (each budget) others (length_lt_of_object enough) rest
      rw [opened]
      refine IsLimited.congr fits_object_iff.symm ?_
      exact found.bind_ok rfl

-- The fuel bounds the items of one array or object, so that it is passed down as it is;
-- only the budget shrinks on the way.
mutual

/-- A value is read from each of its texts, as far as the limits allow. -/
theorem reads_value : (j : Json) → ∀ {fuel}, j.tokens.length ≤ fuel → ∀ budget,
    Reads (readValue fuel budget) budget j j.reread
  | .null, fuel, _, budget => reads_null fuel budget
  | .bool b, fuel, _, budget => reads_bool b fuel budget
  | .number n, fuel, _, budget => reads_number n fuel budget
  | .string s, fuel, _, budget => reads_string s fuel budget
  | .array items, _, enough, budget =>
    reads_array enough
      (reads_items items fun _ member => length_tokens_le_of_mem_array member enough) budget
  | .object members, _, enough, budget =>
    reads_object enough
      (reads_members members fun _ member => length_tokens_le_of_mem_object member enough) budget

theorem reads_items : (items : List Json) → ∀ {fuel}, (∀ j ∈ items, j.tokens.length ≤ fuel) →
    ∀ budget, ∀ j ∈ items, Reads (readValue fuel budget) budget j j.reread
  | [], _, _, _ => List.forall_mem_nil _
  | j :: more, _, enough, budget => by
      obtain ⟨here, others⟩ := List.forall_mem_cons.mp enough
      exact List.forall_mem_cons.mpr ⟨reads_value j here budget, reads_items more others budget⟩

theorem reads_members : (members : List (String × Json)) → ∀ {fuel},
    (∀ member ∈ members, member.2.tokens.length ≤ fuel) → ∀ budget, ∀ member ∈ members,
      Reads (readValue fuel budget) budget member.2 member.2.reread
  | [], _, _, _ => List.forall_mem_nil _
  | (name, value) :: more, _, enough, budget => by
      obtain ⟨here, others⟩ := List.forall_mem_cons.mp enough
      exact List.forall_mem_cons.mpr
        ⟨reads_value value here budget, reads_members more others budget⟩

end

/-- A value that is told by its shape is read from the text of that shape. -/
theorem reads_shaped {α : Type} {type : String} {ofJson? : Json → Option α} {j : Json} {a : α}
    (shape : ofJson? j.reread = some a) {fuel : Nat} (enough : j.tokens.length ≤ fuel)
    (budget : Nat) : Reads (readShaped type ofJson? fuel budget) budget j a := by
  intro cs spaced rest ends
  apply (reads_value j enough budget cs spaced rest ends).bind_ok
  dsimp only
  rw [shape]
  rfl

/-- A whole text of a value is read within the limits, and only there. -/
theorem readAll_of_reads {α : Type} {reader : Nat → Nat → Reader α} {j : Json}
    {text : List Char} {a : α} (isText : j.IsTextOf text)
    (reads : ∀ {fuel}, j.tokens.length ≤ fuel → Reads (reader fuel nestingLimit) nestingLimit j a) :
    (Fits nestingLimit j → readAll reader text = .ok a) ∧
      (¬ Fits nestingLimit j → ∃ fault, readAll reader text = .error fault) := by
  obtain ⟨cs, blanks, spaced, areBlank, rfl⟩ := isText
  have enough : j.tokens.length ≤ (cs ++ blanks).length + 1 := by
    have := spaced.length_le
    rw [List.length_append]
    omega
  have outcome := reads enough cs spaced blanks (ends_of_blanks areBlank)
  constructor
  · intro fits
    rw [readAll, outcome.within fits, ok_bind]
    dsimp only
    rw [skipBlanks_eq_nil_iff.mpr areBlank]
    rfl
  · intro beyond
    obtain ⟨fault, failed⟩ := outcome.beyond beyond
    exact ⟨fault, by rw [readAll, failed]; rfl⟩

/-- Where numbers are read as they are, what was printed is read again if it does not nest
beyond the limit. -/
theorem readAll_chars_of_reads {α : Type} {reader : Nat → Nat → Reader α} {j : Json} {a : α}
    (readable : ∀ n ∈ j.numbers, n.IsReadable)
    (reads : ∀ {fuel}, j.tokens.length ≤ fuel → Reads (reader fuel nestingLimit) nestingLimit j a) :
    (j.depth ≤ nestingLimit → readAll reader j.chars = .ok a) ∧
      (nestingLimit < j.depth → ∃ fault, readAll reader j.chars = .error fault) := by
  have whole := readAll_of_reads j.isTextOf_chars reads
  rwa [fits_iff_depth_le readable, Nat.not_le] at whole

end Values

end Json
end Criteria
