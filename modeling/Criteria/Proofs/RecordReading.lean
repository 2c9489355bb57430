import Criteria.Proofs.JsonReading

set_option autoImplicit false

/-
Reading typed data. Texts, named constants, flags and lists are read from the texts of the
values that are written for them, and a record from those of an object with its members, in
any order and between others, or of an array of its members.
-/
namespace Criteria

open JsonNumber (Ends)

namespace Json

theorem readText_spells {expected s : String} {cs own rest : List Char}
    (spells : SpellsAll s.toList own) (skip : skipBlanks cs = '"' :: (own ++ ['"']) ++ rest) :
    readText expected cs = .ok (s, rest) := by
  have found : readText expected cs = (readString (own ++ (['"'] ++ rest)) >>= fun found =>
      .ok (String.ofList found.1, found.2)) := by
    rw [readText, skip, List.cons_append, List.append_assoc]
    rfl
  rw [found, List.singleton_append, readString_spellsAll spells, ok_bind, String.ofList_toList]

theorem readNamed_spells {α : Type} {known : List String} {ofName? : String → Option α}
    {name : String} {a : α} (named : ofName? name = some a) {cs own rest : List Char}
    (budget : Nat) (spells : SpellsAll name.toList own)
    (skip : skipBlanks cs = '"' :: (own ++ ['"']) ++ rest) :
    readNamed known ofName? budget cs = .ok (a, rest) := by
  have start : skipBlanks ('"' :: (own ++ ['"']) ++ rest) = '"' :: (own ++ ['"']) ++ rest :=
    skipBlanks_cons (show isBlank '"' = false from rfl) _
  have text : readText "variant identifier" ('"' :: (own ++ ['"']) ++ rest) = .ok (name, rest) :=
    readText_spells spells start
  rw [List.cons_append] at skip text
  simp only [readNamed, skip, text, ok_bind, named]
  rfl

theorem reads_text (expected s : String) (budget : Nat) :
    Reads (readText expected) budget (.string s) s := by
  refine reads_of_token rfl ?_
  intro own cs rest written _ skip
  cases written with
  | string spells =>
      rw [readText_spells spells skip]
      exact .ok (fits_string s)

theorem reads_named {α : Type} {known : List String} {ofName? : String → Option α}
    {name : String} {a : α} (named : ofName? name = some a) (budget : Nat) :
    Reads (readNamed known ofName? budget) budget (.string name) a := by
  refine reads_of_token rfl ?_
  intro own cs rest written _ skip
  cases written with
  | string spells =>
      rw [readNamed_spells named budget spells skip]
      exact .ok (fits_string name)

theorem reads_flag (b : Bool) (budget : Nat) : Reads readFlag budget (.bool b) b := by
  refine reads_of_token rfl ?_
  intro own cs rest written _ skip
  cases written <;>
  · rw [readFlag, skip]
    exact .ok (fits_bool _)

/-- What is no null is read as it is. -/
theorem reads_option {α : Type} {reader : Reader α} {budget : Nat} {j : Json} {a : α}
    (reads : Reads reader budget j a) (notNull : j ≠ .null) :
    Reads (readOption reader) budget j (some a) := by
  intro cs spaced rest ends
  obtain ⟨c, more, whole, -, null, skip⟩ := spaced.exists_begin
  have found : readOption reader (cs ++ rest) =
      (reader (c :: more ++ rest) >>= fun found => .ok (some found.1, found.2)) := by
    rw [readOption, skip]
    split
    · rename_i same
      exact absurd (null (List.cons.inj same).1) notNull
    · rfl
  rw [found]
  exact (reads _ whole rest ends).bind_ok rfl

/-- What is read may be put to use. -/
theorem Reads.map {α β : Type} {reader : Reader α} {budget : Nat} {j : Json} {a : α}
    (reads : Reads reader budget j a) (use : α → β) :
    Reads (fun cs => reader cs >>= fun found => .ok (use found.1, found.2)) budget j (use a) := by
  intro cs spaced rest ends
  exact (reads cs spaced rest ends).bind_ok rfl

theorem IsLimited.finish {α : Type} {limits : Prop} {outcome : Except Fault (α × List Char)}
    {a : α} {rest last : List Char} {close : List Char → Except Fault (List Char)}
    {behind : List Char → List Char} (inner : IsLimited limits outcome a rest)
    (closes : close rest = .ok last) :
    IsLimited limits (finish close behind outcome) a last where
  within := by
    intro holds
    rw [inner.within holds, Json.finish, closes]
    rfl
  beyond := by
    intro fails
    obtain ⟨fault, failed⟩ := inner.beyond fails
    exact ⟨fault.settle behind, by rw [failed]; rfl⟩

/-- A list is read from the texts of an array, if each item is. -/
theorem reads_list {α : Type} {item : Nat → Reader α} {fuel : Nat} {items : List Json}
    {as : List α} (each : ∀ budget, List.Forall₂ (Reads (item budget) budget) items as)
    (enough : (tokens (.array items)).length ≤ fuel) (budget : Nat) :
    Reads (readList item fuel budget) budget (.array items) as := by
  intro cs spaced rest _
  obtain ⟨inside, others, skip⟩ := exists_inside_array spaced
  rw [readList, skip]
  cases budget with
  | zero => exact .of_error (not_fits_array items)
  | succ budget =>
      have found := readItems_spaced (each budget) others (length_lt_of_array enough) rest
      exact (found.finish (closeArray_bracket rest)).congr fits_array_iff.symm

/-- Values that can stand under a name that nobody asks for. -/
inductive IsPlain : Json → Prop where
  | null : IsPlain .null
  | bool (b : Bool) : IsPlain (.bool b)
  | string (s : String) : IsPlain (.string s)

theorem IsPlain.fits {j : Json} (plain : j.IsPlain) {budget : Nat} : Fits budget j := by
  cases plain with
  | null => exact fits_null
  | bool b => exact fits_bool b
  | string s => exact fits_string s

theorem skipValue_plain {j : Json} (plain : j.IsPlain) {cs : List Char}
    (spaced : Spaced j.tokens cs) {fuel : Nat} (some : 0 < fuel) (rest : List Char) :
    skipValue fuel (cs ++ rest) = .ok rest := by
  have start : skipStart (cs ++ rest) = .ok (none, rest) := by
    cases plain <;> obtain ⟨own, behind, written, others, skip⟩ := spaced.exists_skipBlanks <;>
      cases others <;> rw [skipStart, skip]
    · cases written
      rfl
    · cases written <;> rfl
    · cases written with
      | string spells =>
          simp only [List.cons_append, List.append_assoc, List.nil_append,
            skipString_spellsAll spells]
          rfl
  cases fuel with
  | zero => omega
  | succ fuel =>
      rw [skipValue, skipOpen, start]
      rfl

namespace Record

variable {σ α : Type} {members : List (Member σ)} {whole budget fuel : Nat} {first : Bool}
  {cs : List Char} {written : List (String × Json)} {values : List Json} {parts final : σ}

/-- The members of an object, each of which a record has not got yet and reads, or does not
know and passes over. -/
inductive Takes (members : List (Member σ)) (whole budget : Nat) :
    List (String × Json) → σ → σ → Prop where
  | nil (parts : σ) : Takes members whole budget [] parts parts
  | cons {name : String} {value : Json} {more : List (String × Json)} {parts next final : σ}
      (member : Member σ) (known : members.find? (·.name == name) = some member)
      (unset : member.isSet parts = false)
      (reads : Reads (member.read whole budget parts) budget value next)
      (others : Takes members whole budget more next final) :
      Takes members whole budget ((name, value) :: more) parts final
  | skip {name : String} {value : Json} {more : List (String × Json)} {parts final : σ}
      (unknown : members.find? (·.name == name) = none) (plain : value.IsPlain)
      (others : Takes members whole budget more parts final) :
      Takes members whole budget ((name, value) :: more) parts final

/-- The members of an object are taken in turn, up to the closing brace. -/
theorem readMembers_spaced (takes : Takes members whole budget written parts final)
    (spaced : Spaced (tokensOfMembers first written ++ [.mark '}']) cs)
    (enough : written.length < fuel) (some : 0 < whole) (rest : List Char) :
    IsLimited (∀ member ∈ written, Fits budget member.2)
      (readMembers members budget whole fuel first parts (cs ++ rest)) final ('}' :: rest) := by
  induction takes generalizing fuel first cs with
  | nil parts =>
      cases fuel with
      | zero => omega
      | succ fuel =>
          rw [readMembers, nextMember_close spaced]
          exact .ok (List.forall_mem_nil _)
  | cons member known unset reads _ ih =>
      cases fuel with
      | zero => omega
      | succ fuel =>
          obtain ⟨inside, behind, ahead, left, own, spaced, next, string, colon⟩ :=
            exists_nextMember spaced
          have more := ih spaced (Nat.lt_of_succ_lt_succ enough)
          simp only [readMembers, next, string, colon, ok_bind, ↓reduceIte, String.ofList_toList,
            known, unset]
          exact IsLimited.congr List.forall_mem_cons.symm
            ((reads ahead own _ (ends_of_members spaced rest)).bind more)
  | skip unknown plain _ ih =>
      cases fuel with
      | zero => omega
      | succ fuel =>
          obtain ⟨inside, behind, ahead, left, own, spaced, next, string, colon⟩ :=
            exists_nextMember spaced
          have more := ih spaced (Nat.lt_of_succ_lt_succ enough)
          simp only [readMembers, next, string, colon, ok_bind, ↓reduceIte, String.ofList_toList,
            unknown, skipValue_plain plain own some]
          refine more.congr ?_
          rw [List.forall_mem_cons, and_iff_right plain.fits]

/-- A record is read from the texts of an object whose members it takes. -/
theorem reads_object (record : Record σ α) {a : α}
    (takes : ∀ budget, Takes record.members fuel budget written record.start final)
    (complete : record.complete final = .ok a)
    (enough : (tokens (.object written)).length ≤ fuel) (budget : Nat) :
    Reads (record.read fuel budget) budget (.object written) a := by
  intro cs spaced rest _
  obtain ⟨inside, others, skip⟩ := exists_inside_object spaced
  rw [read, skip]
  cases budget with
  | zero => exact .of_error (not_fits_object written)
  | succ budget =>
      have some : 0 < fuel := Nat.lt_of_lt_of_le (Nat.succ_pos _) enough
      have found := readMembers_spaced (takes budget) others (length_lt_of_object enough) some rest
      have completed : record.completeMembers final ('}' :: rest) = .ok (a, '}' :: rest) := by
        rw [completeMembers, complete]
      exact ((found.bind_ok completed).finish (closeObject_brace rest)).congr fits_object_iff.symm

/-- The items of an array, one for each member of a record. -/
inductive Fills (whole budget : Nat) : List (Member σ) → List Json → σ → σ → Prop where
  | nil (parts : σ) : Fills whole budget [] [] parts parts
  | cons {member : Member σ} {members : List (Member σ)} {value : Json} {values : List Json}
      {parts next final : σ} (reads : Reads (member.read whole budget parts) budget value next)
      (others : Fills whole budget members values next final) :
      Fills whole budget (member :: members) (value :: values) parts final

/-- The items of an array are taken for the members in turn. What is left is the bracket. -/
theorem readItems_spaced (fills : Fills whole budget members values parts final)
    (spaced : Spaced (tokensOfItems first values ++ [.mark ']']) cs) :
    ∃ close, Spaced [.mark ']'] close ∧ ∀ rest,
      IsLimited (∀ j ∈ values, Fits budget j)
        (readItems whole budget members first parts (cs ++ rest)) final (close ++ rest) := by
  induction fills generalizing first cs with
  | nil parts => exact ⟨cs, spaced, fun rest => .ok (List.forall_mem_nil _)⟩
  | cons reads _ ih =>
      obtain ⟨ahead, behind, own, others, next⟩ := exists_nextItem spaced
      obtain ⟨close, isClose, more⟩ := ih others
      refine ⟨close, isClose, ?_⟩
      intro rest
      rw [readItems, next, ok_bind]
      exact IsLimited.congr List.forall_mem_cons.symm
        ((reads ahead own _ (ends_of_items others rest)).bind (more rest))

/-- A record is read from the texts of an array of its members. -/
theorem reads_array (record : Record σ α) {a : α}
    (fills : ∀ budget, Fills fuel budget record.members values record.start final)
    (complete : record.complete final = .ok a) (budget : Nat) :
    Reads (record.read fuel budget) budget (.array values) a := by
  intro cs spaced rest _
  obtain ⟨inside, others, skip⟩ := exists_inside_array spaced
  rw [read, skip]
  cases budget with
  | zero => exact .of_error (not_fits_array values)
  | succ budget =>
      obtain ⟨close, isClose, found⟩ := readItems_spaced (fills budget) others
      have completed : record.completeItems final (close ++ rest) = .ok (a, close ++ rest) := by
        rw [completeItems, complete]
      exact (((found rest).bind_ok completed).finish (closeArray_spaced isClose rest)).congr
        fits_array_iff.symm

end Record
end Json
end Criteria
