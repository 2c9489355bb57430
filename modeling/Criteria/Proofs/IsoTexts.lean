import Criteria.Instant.Iso
import Criteria.Instant.Layout
import Criteria.Proofs.Numerals

set_option autoImplicit false

/-
Reading the ISO text of an instant. The years of four digits are read by the Internet
profile; a sign in front of any other makes the profile fail at once, and the first of the
layouts without an offset reads the text without its `Z`.
-/
namespace Criteria

theorem isDigit_of_mem_padded {width n : Nat} {c : Char} (member : c ∈ padded width n) :
    c.isDigit := by
  rcases List.mem_append.mp member with zero | digit
  · cases List.eq_of_mem_replicate zero
    rfl
  · exact Nat.isDigit_of_mem_toDigits (by decide) (by decide) digit

theorem length_padded {width n : Nat} (pos : 0 < width) (fits : n < 10 ^ width) :
    (padded width n).length = width := by
  have short := (Nat.length_toDigits_le_iff (by decide) pos).mpr fits
  rw [padded, List.length_append, List.length_replicate]
  omega

theorem padded_ne_nil (width n : Nat) : padded width n ≠ [] := by
  simp [padded, Nat.toDigits_ne_nil]

theorem exists_padded_eq_cons (width n : Nat) : ∃ d ds, padded width n = d :: ds :=
  List.exists_cons_of_ne_nil (padded_ne_nil width n)

theorem digitsValue_padded (width n : Nat) : Text.digitsValue (padded width n) = n := by
  have zeros (count : Nat) (ds : List Char) :
      Text.digitsValue (List.replicate count '0' ++ ds) = Text.digitsValue ds := by
    induction count with
    | zero => rfl
    | succ count ih => exact ih
  exact (zeros _ _).trans (Nat.ofDigitChars_toDigits (by decide) (by decide))

theorem Text.isBlank_eq_false_of_isDigit {c : Char} (digit : c.isDigit) : isBlank c = false := by
  simp only [Char.isDigit, Bool.and_eq_true, decide_eq_true_eq] at digit
  obtain ⟨low, high⟩ := digit
  have least : 48 ≤ c.toNat := low
  have most : c.toNat ≤ 57 := high
  simp [isBlank]
  omega

theorem Text.trimStart_of_digits {ds : List Char} (some : ds ≠ [])
    (digits : ∀ c ∈ ds, c.isDigit) (rest : List Char) : trimStart (ds ++ rest) = ds ++ rest := by
  cases ds with
  | nil => exact absurd rfl some
  | cons d ds =>
      exact List.dropWhile_cons_of_neg
        (by simp [isBlank_eq_false_of_isDigit (digits d List.mem_cons_self)])

namespace Instant

theorem takeDigits_append {limit : Nat} {ds rest : List Char} (digits : ∀ c ∈ ds, c.isDigit)
    (fits : ds.length ≤ limit) (stops : StopsDigits rest) :
    takeDigits limit (ds ++ rest) = (ds, rest) := by
  have taken : ((ds ++ rest).take limit).takeWhile Char.isDigit = ds := by
    rw [List.take_append, List.take_of_length_le fits, (stops.take _).takeWhile_append digits]
  rw [takeDigits, taken, List.drop_left]

theorem takeDigits_padded {limit width n : Nat} {rest : List Char}
    (fits : (padded width n).length ≤ limit) (stops : StopsDigits rest) :
    takeDigits limit (padded width n ++ rest) = (padded width n, rest) :=
  takeDigits_append (fun _ => isDigit_of_mem_padded) fits stops

theorem readUnsigned_padded {limit width n : Nat} {rest : List Char}
    (fits : (padded width n).length ≤ limit) (stops : StopsDigits rest) :
    readUnsigned limit (padded width n ++ rest) = some (n, rest) := by
  have taken := takeDigits_padded fits stops
  have value := digitsValue_padded width n
  obtain ⟨d, ds, shape⟩ := exists_padded_eq_cons width n
  rw [shape] at taken value
  rw [shape, readUnsigned, taken]
  exact congrArg some (Prod.ext value rfl)

theorem readYear_isoYear {year : Int} (wide : ¬ (0 ≤ year ∧ year ≤ 9999)) {rest : List Char}
    (stops : StopsDigits rest) : readYear (isoYear year ++ rest) = some (year, rest) := by
  unfold isoYear
  split
  · rw [List.cons_append, readYear, readUnsigned_padded (by simp) stops]
    exact congrArg some (Prod.ext (show -(year.natAbs : Int) = year by omega) rfl)
  · rw [if_neg (by omega), List.cons_append, readYear, readUnsigned_padded (by simp) stops]
    exact congrArg some (Prod.ext (show (year.toNat : Int) = year by omega) rfl)

theorem readFraction_padded {n : Nat} (fits : n < 1000) {rest : List Char}
    (stops : StopsDigits rest) :
    readFraction ('.' :: (padded 3 n ++ rest)) = some (n * 1000000, rest) := by
  have length : (padded 3 n).length = 3 := length_padded (by decide) fits
  have value := digitsValue_padded 3 n
  have taken := takeDigits_padded (show (padded 3 n).length ≤ 9 by omega) stops
  obtain ⟨d, ds, shape⟩ := exists_padded_eq_cons 3 n
  rw [shape] at length value taken
  rw [shape, readFraction, taken]
  dsimp only
  rw [value, length, stops.dropWhile]

/-- What a part of a date-time can be. -/
def Part.Admits : Part → Nat → Prop
  | .year, _ => True
  | .month, n => 1 ≤ n ∧ n ≤ 12
  | .day, n => 1 ≤ n ∧ n ≤ 31
  | .hour, n => n ≤ 23
  | .minute, n => n ≤ 59
  | .second, n => n ≤ 60

/-- The reading with a number in its part. -/
def Reading.put (r : Reading) (n : Nat) : Part → Reading
  | .year => { r with year := n }
  | .month => { r with month := n }
  | .day => { r with day := n }
  | .hour => { r with hour := n }
  | .minute => { r with minute := n }
  | .second => { r with second := n }

theorem Reading.set_eq {part : Part} {n : Nat} (admits : part.Admits n) (r : Reading) :
    r.set part n = some (r.put n part) := by
  cases part with
  | year => rfl
  | _ =>
      simp only [Part.Admits] at admits
      simp only [set, put]
      rw [if_pos (by omega), Int.toNat_natCast]

/-- A piece that reads a number of a width into a part, if the part admits it. -/
def ReadsWidth (piece : Piece) (width : Nat) (part : Part) : Prop :=
  ∀ ⦃n⦄, n < 10 ^ width → ∀ ⦃rest⦄, StopsDigits rest → ∀ r,
    piece.read r (padded width n ++ rest) = (r.set part n).map fun next => (next, rest)

theorem readsWidth_exact {width : Nat} (pos : 0 < width) (part : Part) :
    ReadsWidth (.exact width part) width part := by
  intro n fits rest stops r
  have length := length_padded pos fits
  rw [Piece.read, takeDigits_padded (Nat.le_of_eq length) stops]
  change ((if (padded width n).length = width then some () else none).bind fun _ =>
    (r.set part (Text.digitsValue (padded width n))).bind fun next => some (next, rest)) = _
  rw [if_pos length, digitsValue_padded]
  cases r.set part n <;> rfl

theorem readsWidth_number {part : Part} (known : part ≠ .year) :
    ReadsWidth (.number part) 2 part := by
  intro n fits rest stops r
  have length : (padded 2 n).length = 2 := length_padded (by decide) fits
  have start := Text.trimStart_of_digits (padded_ne_nil 2 n) (fun _ => isDigit_of_mem_padded) rest
  have number := readUnsigned_padded (Nat.le_of_eq length) stops
  cases part with
  | year => exact absurd rfl known
  | _ =>
      simp only [Piece.read, start, number, Option.bind_eq_bind, Option.bind_some]
      cases r.set _ (n : Int) <;> rfl

theorem ReadsWidth.read_eq {piece : Piece} {width n : Nat} {part : Part}
    (reads : ReadsWidth piece width part) (admits : part.Admits n) (fits : n < 10 ^ width)
    {rest : List Char} (stops : StopsDigits rest) (r : Reading) :
    piece.read r (padded width n ++ rest) = some (r.put n part, rest) := by
  rw [reads fits stops, Reading.set_eq admits]
  rfl

theorem Piece.read_fraction {n : Nat} (fits : n < 1000) {rest : List Char}
    (stops : StopsDigits rest) (r : Reading) :
    fraction.read r ('.' :: (padded 3 n ++ rest)) =
      some ({ r with nanos := n * 1000000 }, rest) := by
  rw [read, readFraction_padded fits stops]
  rfl

theorem Piece.read_mark (c : Char) (r : Reading) (rest : List Char) :
    (mark c).read r (c :: rest) = some (r, rest) := if_pos rfl

namespace Layout

theorem readFrom_cons {piece : Piece} {r next : Reading} {cs rest : List Char}
    (step : piece.read r cs = some (next, rest)) (more : Layout) :
    Layout.readFrom r cs (piece :: more) = Layout.readFrom next rest more := by
  simp only [Layout.readFrom, step, Option.bind_eq_bind, Option.bind_some]

/-- What follows the year in a date-time, given how parts of two digits are read and what
stands between the day and the time. -/
def afterYear (digits : Part → Piece) (between : Piece) : Layout :=
  [.mark '-', digits .month, .mark '-', digits .day, between, digits .hour, .mark ':',
    digits .minute, .mark ':', digits .second, .fraction]

theorem internet_eq : internet = .exact 4 .year :: afterYear (.exact 2) .separator ++ [.zone] :=
  rfl

theorem fullDate_seconds_eq :
    fullDate ++ .mark 'T' :: seconds = .number .year :: afterYear .number (.mark 'T') := rfl

end Layout

/-- Dates and times whose numbers are in the ranges of their parts. -/
structure HasParts (date : CalendarDate) (time : ClockTime) : Prop where
  month : Part.month.Admits date.month
  day : Part.day.Admits date.day
  hour : Part.hour.Admits time.hour
  minute : Part.minute.Admits time.minute
  second : Part.second.Admits time.second
  nanos : time.nanos < 1000000000

/-- What follows the year in the text of an instant, up to the milliseconds. -/
def charsAfterYear (date : CalendarDate) (time : ClockTime) (rest : List Char) : List Char :=
  '-' :: (padded 2 date.month ++ '-' :: (padded 2 date.day ++ 'T' :: (padded 2 time.hour ++
    ':' :: (padded 2 time.minute ++ ':' :: (padded 2 time.second ++
      '.' :: (padded 3 (time.nanos / 1000000) ++ rest))))))

theorem stopsDigits_afterYear (date : CalendarDate) (time : ClockTime) (rest : List Char) :
    StopsDigits (charsAfterYear date time rest) := stopsDigits_cons rfl _

theorem isoChars_eq (t : Instant) :
    t.isoChars = isoYear t.date.year ++ charsAfterYear t.date t.clockTime ['Z'] := by
  simp [isoChars, charsAfterYear]

/-- The reading of a date and a time to the millisecond. -/
def Reading.of (date : CalendarDate) (time : ClockTime) : Reading where
  year := date.year
  month := date.month
  day := date.day
  hour := time.hour
  minute := time.minute
  second := time.second
  nanos := time.nanos / 1000000 * 1000000

section

variable {date : CalendarDate} {time : ClockTime}

/-- Whatever reads two digits and the `T` reads all that follows the year. -/
theorem Layout.readFrom_afterYear (parts : HasParts date time) {digits : Part → Piece}
    {between : Piece}
    (reads : ∀ part, part ≠ .year → ReadsWidth (digits part) 2 part)
    (passes : ∀ r rest, between.read r ('T' :: rest) = some (r, rest)) (more : Layout)
    {rest : List Char} (stops : StopsDigits rest) :
    Layout.readFrom { year := date.year } (charsAfterYear date time rest)
        (afterYear digits between ++ more) =
      Layout.readFrom (.of date time) rest more := by
  obtain ⟨month, day, hour, minute, second, nanos⟩ := parts
  have colon (rest : List Char) : StopsDigits (':' :: rest) := stopsDigits_cons rfl rest
  have two {part : Part} {n : Nat} (admits : part.Admits n) (known : part ≠ .year)
      (fits : n < 100) {rest : List Char} (stops : StopsDigits rest) (r : Reading) :
      (digits part).read r (padded 2 n ++ rest) = some (r.put n part, rest) :=
    (reads part known).read_eq admits fits stops r
  unfold charsAfterYear afterYear
  simp only [List.cons_append, List.nil_append]
  rw [readFrom_cons (Piece.read_mark ..),
    readFrom_cons (two month (by decide) (by have := month.2; omega) (stopsDigits_cons rfl _) _),
    readFrom_cons (Piece.read_mark ..),
    readFrom_cons (two day (by decide) (by have := day.2; omega) (stopsDigits_cons rfl _) _),
    readFrom_cons (passes ..),
    readFrom_cons (two hour (by decide) (Nat.lt_of_le_of_lt hour (by decide)) (colon _) _),
    readFrom_cons (Piece.read_mark ..),
    readFrom_cons (two minute (by decide) (Nat.lt_of_le_of_lt minute (by decide)) (colon _) _),
    readFrom_cons (Piece.read_mark ..),
    readFrom_cons (two second (by decide) (Nat.lt_of_le_of_lt second (by decide))
      (stopsDigits_cons rfl _) _),
    readFrom_cons (Piece.read_fraction (by omega) stops _)]
  rfl

theorem Layout.readFrom_internet (parts : HasParts date time)
    (short : 0 ≤ date.year ∧ date.year ≤ 9999) :
    Layout.readFrom {} (isoYear date.year ++ charsAfterYear date time ['Z']) internet =
      some (.of date time) := by
  obtain ⟨year, same⟩ := Int.eq_ofNat_of_zero_le short.1
  have digits : isoYear date.year = padded 4 year := by
    rw [isoYear, if_neg (by omega), if_pos short.2, same, Int.toNat_natCast]
  have admits : Part.year.Admits year := trivial
  rw [digits, internet_eq, List.cons_append,
    readFrom_cons ((readsWidth_exact (by decide) .year).read_eq admits (by omega)
      (stopsDigits_afterYear _ _ _) {}),
    Reading.put, ← same,
    readFrom_afterYear parts (fun part _ => readsWidth_exact (by decide) part) (fun _ _ => rfl) _
      (stopsDigits_cons rfl _)]
  rfl

theorem Layout.readFrom_internet_of_sign {year : Int} (wide : ¬ (0 ≤ year ∧ year ≤ 9999))
    (rest : List Char) : Layout.readFrom {} (isoYear year ++ rest) internet = none := by
  have sign (c : Char) (mark : c.isDigit = false) (cs : List Char) :
      Layout.readFrom {} (c :: cs) internet = none := by
    have none : Piece.read {} (c :: cs) (.exact 4 .year) = none := by
      have noDigits : takeDigits 4 (c :: cs) = ([], c :: cs) := by simp [takeDigits, mark]
      rw [Piece.read, noDigits]
      rfl
    simp only [internet, Layout.readFrom, none, Option.bind_eq_bind, Option.bind_none]
  unfold isoYear
  split
  · exact sign '-' rfl _
  · rw [if_neg (by omega)]
    exact sign '+' rfl _

theorem Piece.read_wideYear {year : Int} (wide : ¬ (0 ≤ year ∧ year ≤ 9999)) {rest : List Char}
    (stops : StopsDigits rest) (r : Reading) :
    (number .year).read r (isoYear year ++ rest) = some ({ r with year }, rest) := by
  have start : Text.trimStart (isoYear year ++ rest) = isoYear year ++ rest := by
    unfold isoYear
    split
    · rfl
    · rw [if_neg (by omega)]
      rfl
  simp only [read, start, readYear_isoYear wide stops, Option.bind_eq_bind, Option.bind_some]
  rfl

theorem Layout.readFrom_plain (parts : HasParts date time)
    (wide : ¬ (0 ≤ date.year ∧ date.year ≤ 9999)) :
    Layout.readFrom {} (isoYear date.year ++ charsAfterYear date time [])
      (fullDate ++ .mark 'T' :: seconds) = some (.of date time) := by
  rw [fullDate_seconds_eq,
    readFrom_cons (Piece.read_wideYear wide (stopsDigits_afterYear _ _ _) {}),
    ← List.append_nil (afterYear ..),
    readFrom_afterYear parts (fun _ known => readsWidth_number known) (Piece.read_mark 'T') _
      stopsDigits_nil]
  rfl

end

theorem charsAfterYear_append (date : CalendarDate) (time : ClockTime) (rest : List Char) :
    charsAfterYear date time [] ++ rest = charsAfterYear date time rest := by
  simp [charsAfterYear]

/-- Neither end of the text of an instant is blank. -/
theorem trim_isoChars (t : Instant) : Text.trim t.isoChars = t.isoChars := by
  have start (rest : List Char) :
      Text.trimStart (isoYear t.date.year ++ rest) = isoYear t.date.year ++ rest := by
    unfold isoYear
    split
    · rfl
    · split
      · exact Text.trimStart_of_digits (padded_ne_nil 4 _) (fun _ => isDigit_of_mem_padded) rest
      · rfl
  have last (cs : List Char) : Text.trimStart (cs ++ ['Z']).reverse = (cs ++ ['Z']).reverse := by
    rw [List.reverse_append]
    rfl
  rw [isoChars_eq, Text.trim, start, ← charsAfterYear_append, ← List.append_assoc, last,
    List.reverse_reverse]

theorem dropZulu_append (cs : List Char) : dropZulu (cs ++ ['Z']) = cs := by
  simp [dropZulu]

/-- The text of an instant is read as its date and its time to the millisecond. -/
theorem ofText?_iso_of_parts {t read : Instant} (parts : HasParts t.date t.clockTime)
    (found : (Reading.of t.date t.clockTime).instant? = some read) :
    ofText? t.iso = some read := by
  rw [ofText?, iso, String.toList_ofList, ofChars?, trim_isoChars]
  simp only [Option.orElse_eq_orElse, Option.orElse_eq_or]
  rw [isoChars_eq]
  by_cases short : 0 ≤ t.date.year ∧ t.date.year ≤ 9999
  · rw [Layout.read?, Layout.readFrom_internet parts short, Option.bind_eq_bind, Option.bind_some,
      found]
    rfl
  · have first : Layout.plain.findSome? (·.read? (dropZulu (isoYear t.date.year ++
        charsAfterYear t.date t.clockTime ['Z']))) = some read := by
      rw [← charsAfterYear_append, ← List.append_assoc, dropZulu_append, Layout.plain,
        List.findSome?_cons, Layout.read?, Layout.readFrom_plain parts short]
      simp only [Option.bind_eq_bind, Option.bind_some, found]
    rw [Layout.read?, Layout.readFrom_internet_of_sign short, first]
    rfl

end Instant
end Criteria
