import Criteria.Proofs.DecimalTexts
import Criteria.Proofs.Overrides

set_option autoImplicit false

/-
Counts in texts, and the settings that hold one. A text is read as a count where it is
written in digits and 64 bits hold the number, however many zeros stand in front.
-/
namespace Criteria

namespace Text

/-- The texts that write a number: one digit or more, behind a plus sign or nothing. -/
inductive Writes : String → Nat → Prop where
  | digits (ds : List Char) : ds ≠ [] → (∀ d ∈ ds, d.isDigit) →
      Writes (String.ofList ds) (Nat.ofDigitChars 10 ds 0)
  | signed (ds : List Char) : ds ≠ [] → (∀ d ∈ ds, d.isDigit) →
      Writes (String.ofList ('+' :: ds)) (Nat.ofDigitChars 10 ds 0)

theorem le_ofDigitChars (ds : List Char) (n : Nat) : n ≤ Nat.ofDigitChars 10 ds n := by
  induction ds generalizing n with
  | nil => exact Nat.le_refl n
  | cons d ds ih =>
      rw [Nat.ofDigitChars_cons]
      exact Nat.le_trans (by omega) (ih _)

/-- Digits go on to be read as long as the number is small enough. No number gets smaller by
further digits, so the last one tells whether all of them are. -/
theorem countDigits_eq_ok_iff {ds : List Char} {n m : Nat} (fits : n < countLimit) :
    countDigits n ds = .ok m ↔
      (∀ d ∈ ds, d.isDigit) ∧ Nat.ofDigitChars 10 ds n = m ∧ m < countLimit := by
  induction ds generalizing n with
  | nil =>
      rw [countDigits, Except.ok.injEq]
      constructor
      · rintro rfl
        exact ⟨by simp, rfl, fits⟩
      · rintro ⟨-, same, -⟩
        exact same
  | cons d ds ih =>
      rw [countDigits, Nat.ofDigitChars_cons, List.forall_mem_cons]
      by_cases isDigit : d.isDigit
      · rw [if_pos isDigit]
        dsimp only
        by_cases small : 10 * n + digitValue d < countLimit
        · rw [if_pos small, ih small, and_iff_right isDigit]
          rfl
        · rw [if_neg small]
          constructor
          · intro read
            cases read
          · rintro ⟨-, rfl, below⟩
            have reached := le_ofDigitChars ds (10 * n + digitValue d)
            exact absurd (Nat.lt_of_le_of_lt reached below) small
      · rw [if_neg isDigit]
        constructor
        · intro read
          cases read
        · intro all
          exact absurd all.1.1 isDigit

theorem countLimit_pos : 0 < countLimit := Nat.two_pow_pos 64

theorem count_ofList {ds : List Char} (nonempty : ds ≠ []) (unsigned : ds.head? ≠ some '+') :
    count (String.ofList ds) = countDigits 0 ds := by
  rw [count, String.toList_ofList]
  split
  · exact absurd rfl nonempty
  · exact absurd rfl unsigned
  · exact absurd rfl unsigned
  · rfl

theorem count_signed {ds : List Char} (nonempty : ds ≠ []) :
    count (String.ofList ('+' :: ds)) = countDigits 0 ds := by
  obtain ⟨d, more, rfl⟩ := List.exists_cons_of_ne_nil nonempty
  rw [count, String.toList_ofList]
  rfl

/-- A text is a count where it writes a number below the limit. -/
theorem count_eq_ok_iff {text : String} {n : Nat} :
    count text = .ok n ↔ Writes text n ∧ n < countLimit := by
  constructor
  · intro read
    have whole : text = String.ofList text.toList := String.ofList_toList.symm
    unfold count at read
    split at read
    · cases read
    · cases read
    · rename_i ds other shape
      obtain ⟨all, rfl, below⟩ := (countDigits_eq_ok_iff countLimit_pos).mp read
      rw [whole, shape]
      exact ⟨.signed ds other all, below⟩
    · rename_i empty _ _
      obtain ⟨all, rfl, below⟩ := (countDigits_eq_ok_iff countLimit_pos).mp read
      refine ⟨?_, below⟩
      nth_rewrite 1 [whole]
      exact .digits _ empty all
  · rintro ⟨writes, below⟩
    cases writes with
    | digits ds nonempty all =>
        have unsigned : ds.head? ≠ some '+' := by
          intro first
          exact absurd (all '+' (List.mem_of_head? first)) (by decide)
        rw [count_ofList nonempty unsigned, countDigits_eq_ok_iff countLimit_pos]
        exact ⟨all, rfl, below⟩
    | signed ds nonempty all =>
        rw [count_signed nonempty, countDigits_eq_ok_iff countLimit_pos]
        exact ⟨all, rfl, below⟩

/-- Zeros in front of a number are written as well. -/
theorem writes_padded (zeros n : Nat) :
    Writes (String.ofList (List.replicate zeros '0' ++ Nat.toDigits 10 n)) n := by
  have digits : ∀ d ∈ List.replicate zeros '0' ++ Nat.toDigits 10 n, d.isDigit := by
    rw [List.forall_mem_append]
    refine ⟨?_, isDigit_of_mem_toDigits⟩
    intro d member
    rw [List.eq_of_mem_replicate member]
    decide
  have nonempty : List.replicate zeros '0' ++ Nat.toDigits 10 n ≠ [] := by
    simp
  have value : Nat.ofDigitChars 10 (List.replicate zeros '0' ++ Nat.toDigits 10 n) 0 = n := by
    have nothing : Nat.ofDigitChars 10 (List.replicate zeros '0') 0 = 0 := digitsValue_zeros zeros
    rw [Nat.ofDigitChars_append, nothing]
    exact digitsValue_toDigits n
  have writes := Writes.digits _ nonempty digits
  rwa [value] at writes

/-- Trimming ends at a character that is not blank. -/
theorem exists_not_isBlank_of_trim {cs : List Char} (some : trim cs ≠ []) :
    ∃ c ∈ trim cs, isBlank c = false := by
  rw [trim, Ne, List.reverse_eq_nil_iff] at some
  obtain ⟨c, rest, shape⟩ := List.exists_cons_of_ne_nil some
  have first := List.head?_dropWhile_not isBlank (trimStart cs).reverse
  rw [← trimStart, shape] at first
  refine ⟨c, ?_, first⟩
  rw [trim, List.mem_reverse, shape]
  exact List.mem_cons_self

theorem trimmed_trimmed_ne {s : String} (filled : trimmed s ≠ "") : trimmed (trimmed s) ≠ "" := by
  rw [Ne, trimmed, String.ofList_eq_empty_iff] at filled
  obtain ⟨c, member, notBlank⟩ := exists_not_isBlank_of_trim filled
  rw [Ne, ← isAllBlank_iff, isAllBlank, List.all_eq_true]
  intro blank
  have isBlank := blank c (by rwa [trimmed, String.toList_ofList])
  rw [notBlank] at isBlank
  cases isBlank

end Text

namespace Settings

/-- Whether a text gives a depth that 64 bits hold, with blanks around it or none. -/
def GivesDepth (text : String) (depth : Nat) : Prop :=
  Text.Writes (Text.trimmed text) depth ∧ depth < 2 ^ 64

theorem givesDepth_iff {text : String} {depth : Nat} :
    GivesDepth text depth ↔ Text.count (Text.trimmed text) = .ok depth :=
  Text.count_eq_ok_iff.symm

section
variable {lookup : String → Option String}

/-- Settings cannot be read where a depth is given that is none. -/
theorem exists_ofLookup_eq_error_iff :
    (∃ e, ofLookup lookup = .error e) ↔
      ∃ text, lookup maxDepthVariable = some text ∧ ¬ ∃ depth, GivesDepth text depth := by
  simp only [givesDepth_iff]
  constructor
  · rintro ⟨e, failed⟩
    rcases setsDepth_or_hasBadDepth lookup with ⟨depth, set⟩ | ⟨cause, text, found, noCount⟩
    · rw [ofLookup_of_setsDepth set] at failed
      cases failed
    · refine ⟨text, found, ?_⟩
      rintro ⟨depth, counted⟩
      cases noCount.symm.trans counted
  · rintro ⟨text, found, noDepth⟩
    rcases setsDepth_or_hasBadDepth lookup with ⟨depth, set⟩ | ⟨cause, bad⟩
    · cases set with
      | usual missing => cases missing.symm.trans found
      | count other _ listed counted =>
          cases listed.symm.trans found
          exact absurd ⟨depth, counted⟩ noDepth
    · exact ⟨_, ofLookup_of_hasBadDepth bad⟩

theorem SetsDepth.givesDepth_iff {depth : Nat} (set : SetsDepth lookup depth) {text : String}
    (found : lookup maxDepthVariable = some text) (other : Nat) :
    GivesDepth text other ↔ other = depth := by
  rw [Settings.givesDepth_iff]
  cases set with
  | usual missing => cases missing.symm.trans found
  | count listed _ given counted =>
      cases given.symm.trans found
      rw [counted, Except.ok.injEq]
      exact eq_comm

theorem filled?_eq_some_iff {name text : String} :
    filled? lookup name = some text ↔ lookup name = some text ∧ Text.trimmed text ≠ "" := by
  rw [filled?, Option.filter_eq_some_iff, decide_eq_true_iff]

theorem rootTable_of_filled {text : String} (found : lookup rootTableVariable = some text)
    (filled : Text.trimmed text ≠ "") (depth : Nat) :
    (ofVariables lookup depth).rootTable = Text.trimmed text := by
  rw [ofVariables, filled?_eq_some_iff.mpr ⟨found, filled⟩]
  rfl

theorem rootTable_of_blank
    (blank : ∀ text, lookup rootTableVariable = some text → Text.trimmed text = "")
    (depth : Nat) : (ofVariables lookup depth).rootTable = defaultRootTable := by
  have missing : filled? lookup rootTableVariable = none := by
    rw [Option.eq_none_iff_forall_ne_some]
    intro text given
    obtain ⟨found, filled⟩ := filled?_eq_some_iff.mp given
    exact filled (blank text found)
  rw [ofVariables, missing]
  rfl

theorem trimmed_rootTable_ne (depth : Nat) :
    Text.trimmed (ofVariables lookup depth).rootTable ≠ "" := by
  by_cases blank : ∀ text, lookup rootTableVariable = some text → Text.trimmed text = ""
  · rw [rootTable_of_blank blank]
    decide
  · push Not at blank
    obtain ⟨text, found, filled⟩ := blank
    rw [rootTable_of_filled found filled]
    exact Text.trimmed_trimmed_ne filled

end

end Settings

open Settings (GivesDepth)

/-- Settings are read unless a depth is given that no 64 bits hold; such a depth is written in
digits, with any number of zeros in front, behind a plus sign or none and between blanks. The
depth is the one that is given, the root table is trimmed and never blank, and the file of the
registry is taken as it stands unless it is blank. -/
theorem settings_hold_given_depth (lookup : String → Option String) :
    ((∃ e, Settings.ofLookup lookup = .error e) ↔
      ∃ text, lookup "SIEVE_MAX_DEPTH" = some text ∧ ¬ ∃ depth, GivesDepth text depth) ∧
    (∀ zeros n, Text.Writes
      (String.ofList (List.replicate zeros '0' ++ Nat.toDigits 10 n)) n) ∧
    ∀ s, Settings.ofLookup lookup = .ok s →
      (lookup "SIEVE_MAX_DEPTH" = none → s.maxDepth = 3) ∧
      (∀ text, lookup "SIEVE_MAX_DEPTH" = some text →
        ∀ depth, GivesDepth text depth ↔ depth = s.maxDepth) ∧
      (∀ text, lookup "SIEVE_ROOT_TABLE" = some text → Text.trimmed text ≠ "" →
        s.rootTable = Text.trimmed text) ∧
      ((∀ text, lookup "SIEVE_ROOT_TABLE" = some text → Text.trimmed text = "") →
        s.rootTable = "applications") ∧
      Text.trimmed s.rootTable ≠ "" ∧
      ∀ path, s.domainMap = some path ↔
        lookup "SIEVE_DOMAIN_MAP" = some path ∧ Text.trimmed path ≠ "" := by
  refine ⟨Settings.exists_ofLookup_eq_error_iff, Text.writes_padded, ?_⟩
  intro s read
  obtain ⟨depth, set, rfl⟩ := Settings.ofLookup_eq_ok_iff.mp read
  refine ⟨?_, fun text found => set.givesDepth_iff found,
    fun text found filled => Settings.rootTable_of_filled found filled depth,
    fun blank => Settings.rootTable_of_blank blank depth, Settings.trimmed_rootTable_ne depth,
    fun path => Settings.filled?_eq_some_iff⟩
  intro missing
  cases set with
  | usual => rfl
  | count text _ found => cases missing.symm.trans found

/-- The greatest depth behind a plus sign and zeros, and the first that is too great. -/
theorem settings_hold_given_depth_at_limit :
    let greatest := fun name => List.lookup name [("SIEVE_MAX_DEPTH", "\t+00018446744073709551615 "),
      ("SIEVE_ROOT_TABLE", " "), ("SIEVE_DOMAIN_MAP", " m.yml")]
    let past := fun name => List.lookup name [("SIEVE_MAX_DEPTH", "18446744073709551616")]
    (∃ s, Settings.ofLookup greatest = .ok s ∧
      GivesDepth "\t+00018446744073709551615 " s.maxDepth ∧ s.maxDepth = 2 ^ 64 - 1 ∧
      s.rootTable = "applications" ∧ s.domainMap = some " m.yml") ∧
    (¬ ∃ depth, GivesDepth "18446744073709551616" depth) ∧
    ∃ e, Settings.ofLookup past = .error e := by
  intro greatest past
  have read : Settings.ofLookup greatest =
      .ok ⟨some " m.yml", 18446744073709551615, "applications"⟩ := by
    decide
  have noDepth : ¬ ∃ depth, GivesDepth "18446744073709551616" depth := by
    rintro ⟨depth, gives⟩
    have refused : Text.count (Text.trimmed "18446744073709551616") = .error .tooLarge := by
      decide
    cases refused.symm.trans (Settings.givesDepth_iff.mp gives)
  obtain ⟨-, -, held⟩ := settings_hold_given_depth greatest
  obtain ⟨fails, -⟩ := settings_hold_given_depth past
  obtain ⟨-, given, -, -, -, file⟩ := held _ read
  refine ⟨⟨_, read, ?_, rfl, rfl, ?_⟩, noDepth, fails.mpr ⟨_, rfl, noDepth⟩⟩
  · exact (given _ rfl _).mpr rfl
  · exact (file " m.yml").mpr ⟨rfl, by decide⟩

end Criteria
