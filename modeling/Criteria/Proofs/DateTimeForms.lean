import Mathlib.Data.Option.Basic
import Criteria.Proofs.IsoTexts

set_option autoImplicit false

/-
The forms of dates and date-times, and what each layout reads them as. Whichever layouts
take a text agree on its reading, since they differ only in what they let pass.
-/
namespace Criteria.Instant

theorem Reading.set_eq_some_iff {part : Part} {n : Nat} {r next : Reading} :
    r.set part n = some next ↔ part.Admits n ∧ r.put n part = next := by
  constructor
  · intro found
    have admits : part.Admits n := by
      cases part with
      | year => trivial
      | _ =>
          simp only [set] at found
          split at found
          · simp only [Part.Admits]
            omega
          · cases found
    rw [Reading.set_eq admits, Option.some.injEq] at found
    exact ⟨admits, found⟩
  · rintro ⟨admits, rfl⟩
    exact Reading.set_eq admits r

theorem readYear_padded {n : Nat} (fits : n < 10000) {rest : List Char}
    (stops : StopsDigits rest) : readYear (padded 4 n ++ rest) = some ((n : Int), rest) := by
  have length : (padded 4 n).length = 4 := length_padded (by decide) fits
  have number := readUnsigned_padded (Nat.le_of_eq length) stops
  obtain ⟨d, ds, shape⟩ := exists_padded_eq_cons 4 n
  have digit : d.isDigit := isDigit_of_mem_padded (shape ▸ List.mem_cons_self)
  rw [shape, List.cons_append] at number ⊢
  unfold readYear
  split
  · rename_i same
    rw [(List.cons.inj same).1] at digit
    cases digit
  · rename_i same
    rw [(List.cons.inj same).1] at digit
    cases digit
  · rw [number]
    rfl

theorem readsWidth_number_year : ReadsWidth (.number .year) 4 .year := by
  intro n fits rest stops r
  have start := Text.trimStart_of_digits (padded_ne_nil 4 n) (fun _ => isDigit_of_mem_padded) rest
  simp only [Piece.read, start, readYear_padded fits stops, Option.bind_eq_bind, Option.bind_some]
  rfl

/-- How the numbers of a layout are read: four digits as the year, two as any other, and no
hour where there is none. -/
structure ReadsNumbers (year : Piece) (digits : Part → Piece) : Prop where
  year : ReadsWidth year 4 .year
  other : ∀ part, part ≠ .year → ReadsWidth (digits part) 2 part
  letter : ∀ r cs, (digits .hour).read r ('T' :: cs) = none
  nothing : ∀ r, (digits .hour).read r [] = none

theorem readsNumbers_exact : ReadsNumbers (.exact 4 .year) (.exact 2) where
  year := readsWidth_exact (by decide) .year
  other part _ := readsWidth_exact (by decide) part
  letter _ _ := rfl
  nothing _ := rfl

theorem readsNumbers_number : ReadsNumbers (.number .year) .number where
  year := readsWidth_number_year
  other _ known := readsWidth_number known
  letter _ _ := rfl
  nothing _ := rfl

namespace Layout

section
variable {piece : Piece} {more : Layout} {r last : Reading} {cs rest : List Char}

theorem readFrom_cons_eq_some_iff :
    Layout.readFrom r cs (piece :: more) = some last ↔
      ∃ next, piece.read r cs = some next ∧ Layout.readFrom next.1 next.2 more = some last := by
  cases cs <;> simp only [Layout.readFrom, Option.bind_eq_bind, Option.bind_eq_some_iff]

theorem readFrom_nil_eq_some_iff :
    Layout.readFrom r cs [] = some last ↔ cs = [] ∧ r = last := by
  cases cs <;> simp [Layout.readFrom]

/-- A number of its width goes on where its part admits it. -/
theorem readFrom_width {width n : Nat} {part : Part} (reads : ReadsWidth piece width part)
    (fits : n < 10 ^ width) (stops : StopsDigits rest) :
    Layout.readFrom r (padded width n ++ rest) (piece :: more) = some last ↔
      part.Admits n ∧ Layout.readFrom (r.put n part) rest more = some last := by
  rw [readFrom_cons_eq_some_iff, reads fits stops]
  simp only [Option.map_eq_some_iff, Reading.set_eq_some_iff]
  constructor
  · rintro ⟨_, ⟨_, ⟨admits, rfl⟩, rfl⟩, found⟩
    exact ⟨admits, found⟩
  · rintro ⟨admits, found⟩
    exact ⟨_, ⟨_, ⟨admits, rfl⟩, rfl⟩, found⟩

theorem readFrom_mark {c d : Char} :
    Layout.readFrom r (d :: rest) (.mark c :: more) = some last ↔
      d = c ∧ Layout.readFrom r rest more = some last := by
  rw [readFrom_cons_eq_some_iff]
  simp only [Piece.read]
  split <;> simp_all

theorem readFrom_mark_nil (c : Char) : Layout.readFrom r [] (.mark c :: more) = none := rfl

end

def date (year : Piece) (digits : Part → Piece) : Layout :=
  [year, .mark '-', digits .month, .mark '-', digits .day]

def clock (digits : Part → Piece) : Layout := [digits .hour, .mark ':', digits .minute]

def secondsIf (digits : Part → Piece) (given : Bool) : Layout :=
  if given then [.mark ':', digits .second, .fraction] else []

/-- A date, something between, a time with seconds or without, and an ending. -/
def dateTime (year : Piece) (digits : Part → Piece) (between : Piece) (given : Bool)
    (ending : Layout) : Layout :=
  date year digits ++ between :: (clock digits ++ (secondsIf digits given ++ ending))

/-- What the layouts of date-times have between date and time, and whether with seconds. -/
def variants : List (Piece × Bool) :=
  [(.mark 'T', true), (.mark 'T', false), (.blanks, true), (.blanks, false)]

/-- The layouts of date-times are made of the same parts. -/
theorem internet_eq_dateTime :
    internet = dateTime (.exact 4 .year) (.exact 2) .separator true [.zone] := rfl

theorem plain_eq_map :
    plain = variants.map fun variant =>
      dateTime (.number .year) .number variant.1 variant.2 [] := rfl

theorem shifted_eq_map :
    shifted = variants.map fun variant =>
      dateTime (.number .year) .number variant.1 variant.2 [.looseOffset] := rfl

theorem fullDate_eq_date : fullDate = date (.number .year) .number := rfl

end Layout

/-- A reading whose numbers are in the ranges of their parts, though its day may not exist. -/
structure Reading.IsAdmitted (r : Reading) : Prop where
  month : Part.month.Admits r.month
  day : Part.day.Admits r.day
  hour : Part.hour.Admits r.hour
  minute : Part.minute.Admits r.minute

/-- A date as it is written, with four digits and twice two. -/
structure WrittenDate where
  year : Fin 10000
  month : Fin 100
  day : Fin 100

/-- The decimals of a second, of which there are up to nine. -/
structure Decimals where
  digits : List Char
  isDigit : ∀ d ∈ digits, d.isDigit
  nonempty : digits ≠ []
  short : digits.length ≤ 9

/-- A time as it is written, with seconds or without and then with decimals or without. -/
structure WrittenTime where
  hour : Fin 100
  minute : Fin 100
  seconds : Option (Fin 60 × Option Decimals)

/-- What may stand behind a time: nothing, a `Z` in either case, or how far the clock is ahead
of universal time or behind it. -/
inductive Zone where
  | unmarked
  | zulu (lower : Bool)
  | shifted (behind : Bool) (hours : Fin 24) (minutes : Fin 60)
  deriving DecidableEq

structure WrittenDateTime where
  date : WrittenDate
  spaced : Bool
  time : WrittenTime
  zone : Zone

namespace WrittenDate

def chars (d : WrittenDate) : List Char :=
  padded 4 d.year ++ '-' :: (padded 2 d.month ++ '-' :: padded 2 d.day)

def date (d : WrittenDate) : CalendarDate := ⟨(d.year : Nat), d.month, d.day⟩

end WrittenDate

/-- The nanoseconds that decimals stand for. -/
def Decimals.nanos (d : Decimals) : Nat := Text.digitsValue d.digits * 10 ^ (9 - d.digits.length)

namespace WrittenTime

def secondsChars : Option (Fin 60 × Option Decimals) → List Char
  | none => []
  | some (second, none) => ':' :: padded 2 second
  | some (second, some decimals) => ':' :: (padded 2 second ++ '.' :: decimals.digits)

def chars (t : WrittenTime) : List Char :=
  padded 2 t.hour ++ ':' :: (padded 2 t.minute ++ secondsChars t.seconds)

/-- Seconds that are not written are zero, and so are decimals. -/
def second (t : WrittenTime) : Nat := (t.seconds.map fun written => (written.1 : Nat)).getD 0

def nanos (t : WrittenTime) : Nat := ((t.seconds.bind Prod.snd).map Decimals.nanos).getD 0

def time (t : WrittenTime) : ClockTime := ⟨t.hour, t.minute, t.second, t.nanos⟩

end WrittenTime

namespace Zone

def chars : Zone → List Char
  | .unmarked => []
  | .zulu lower => [if lower then 'z' else 'Z']
  | .shifted behind hours minutes =>
    (if behind then '-' else '+') :: (padded 2 hours ++ ':' :: padded 2 minutes)

/-- How many seconds the clock is ahead. -/
def offset : Zone → Int
  | .shifted behind hours minutes =>
    let seconds : Int := (hours : Nat) * 3600 + (minutes : Nat) * 60
    if behind then -seconds else seconds
  | _ => 0

end Zone

namespace WrittenDateTime

def separator (w : WrittenDateTime) : Char := if w.spaced then ' ' else 'T'

def chars (w : WrittenDateTime) : List Char :=
  w.date.chars ++ w.separator :: (w.time.chars ++ w.zone.chars)

def reading (w : WrittenDateTime) : Reading where
  year := (w.date.year : Nat)
  month := w.date.month
  day := w.date.day
  hour := w.time.hour
  minute := w.time.minute
  second := w.time.second
  nanos := w.time.nanos
  offset := w.zone.offset

end WrittenDateTime

theorem Zone.stopsDigits_chars (zone : Zone) : StopsDigits zone.chars := by
  cases zone with
  | unmarked => exact stopsDigits_nil
  | zulu lower => cases lower <;> exact stopsDigits_cons rfl _
  | shifted behind hours minutes => cases behind <;> exact stopsDigits_cons rfl _

theorem WrittenDateTime.stopsDigits_separator (w : WrittenDateTime) (rest : List Char) :
    StopsDigits (w.separator :: rest) := by
  unfold separator
  split <;> exact stopsDigits_cons rfl _

theorem Zone.head?_chars_ne_point (zone : Zone) : zone.chars.head? ≠ some '.' := by
  cases zone with
  | unmarked => decide
  | zulu lower => cases lower <;> exact of_decide_eq_false rfl
  | shifted behind hours minutes => cases behind <;> exact of_decide_eq_false rfl

theorem readFraction_decimals (d : Decimals) {rest : List Char} (stops : StopsDigits rest) :
    readFraction ('.' :: (d.digits ++ rest)) = some (d.nanos, rest) := by
  obtain ⟨digits, isDigit, nonempty, short⟩ := d
  have taken := takeDigits_append isDigit short stops
  obtain ⟨first, more, rfl⟩ := List.exists_cons_of_ne_nil nonempty
  rw [readFraction, taken]
  dsimp only [Decimals.nanos]
  rw [stops.dropWhile]

theorem readFraction_of_no_point {rest : List Char} (other : rest.head? ≠ some '.') :
    readFraction rest = some (0, rest) := by
  unfold readFraction
  split
  · exact absurd rfl other
  · rfl

theorem guard_eq_some {p : Prop} [Decidable p] (holds : p) : (guard p : Option Unit) = some () :=
  if_pos holds

/-- A sign, two digits, what may stand between, and two digits. -/
theorem readOffset_shifted {between : List Char → Option (List Char)} (behind : Bool)
    (hours : Fin 24) (minutes : Fin 60)
    (passes : between (':' :: padded 2 minutes) = some (padded 2 minutes)) :
    readOffset between (Zone.shifted behind hours minutes).chars =
      some ((Zone.shifted behind hours minutes).offset, []) := by
  have lengthHours : (padded 2 hours).length = 2 :=
    length_padded (by decide) (Nat.lt_trans hours.isLt (by decide))
  have lengthMinutes : (padded 2 minutes).length = 2 :=
    length_padded (by decide) (Nat.lt_trans minutes.isLt (by decide))
  have takenHours := takeDigits_padded (Nat.le_of_eq lengthHours)
    (stopsDigits_cons (show ':'.isDigit = false from rfl) (padded 2 minutes))
  have takenMinutes := takeDigits_padded (Nat.le_of_eq lengthMinutes) stopsDigits_nil
  rw [List.append_nil] at takenMinutes
  have small : Text.digitsValue (padded 2 minutes) ≤ 59 := by
    rw [digitsValue_padded]
    exact Nat.le_of_lt_succ minutes.isLt
  have inRange : (Text.digitsValue (padded 2 hours) : Int) * 3600 +
      Text.digitsValue (padded 2 minutes) * 60 < 86400 := by
    rw [digitsValue_padded, digitsValue_padded]
    omega
  cases behind <;>
    simp only [Zone.chars, Zone.offset, if_true, Bool.false_eq_true, if_false, readOffset,
      Option.bind_eq_bind, Option.bind_some, takenHours] <;>
    rw [guard_eq_some lengthHours, Option.bind_some, passes, Option.bind_some] <;>
    simp only [takenMinutes] <;>
    rw [guard_eq_some ⟨lengthMinutes, small⟩, Option.bind_some, guard_eq_some inRange,
      Option.bind_some, digitsValue_padded, digitsValue_padded] <;>
    rfl

theorem dropColons_padded (minutes : Fin 60) :
    dropColons (':' :: padded 2 minutes) = some (padded 2 minutes) := by
  obtain ⟨d, ds, shape⟩ := exists_padded_eq_cons 2 minutes
  have digit : d.isDigit := isDigit_of_mem_padded (shape ▸ List.mem_cons_self)
  have notColon : d ≠ ':' := by
    rintro rfl
    cases digit
  simp [dropColons, shape, notColon, Text.isBlank_eq_false_of_isDigit digit]

/-- A reading whose time has not been given yet. -/
structure Reading.IsFresh (r : Reading) : Prop where
  second : r.second = 0
  nanos : r.nanos = 0
  offset : r.offset = 0

theorem Piece.read_zone (r : Reading) (zone : Zone) (fresh : r.offset = 0) :
    Piece.zone.read r zone.chars =
      if zone = .unmarked then none else some ({ r with offset := zone.offset }, []) := by
  cases zone with
  | unmarked => rfl
  | zulu lower =>
      rw [if_neg (by simp), show (Zone.zulu lower).offset = r.offset from fresh.symm]
      cases lower <;> rfl
  | shifted behind hours minutes =>
      have drops : dropColon (':' :: padded 2 minutes) = some (padded 2 minutes) := rfl
      have shift := readOffset_shifted behind hours minutes drops
      rw [if_neg (by simp)]
      cases behind <;>
        simp only [Zone.chars, Bool.false_eq_true, if_true, if_false] at shift ⊢ <;>
        simp only [Piece.read, shift, Option.bind_eq_bind, Option.bind_some] <;>
        rfl

theorem Piece.read_looseOffset (r : Reading) (behind : Bool) (hours : Fin 24) (minutes : Fin 60) :
    Piece.looseOffset.read r (Zone.shifted behind hours minutes).chars =
      some ({ r with offset := (Zone.shifted behind hours minutes).offset }, []) := by
  have shift := readOffset_shifted behind hours minutes (dropColons_padded minutes)
  have start : Text.trimStart (Zone.shifted behind hours minutes).chars =
      (Zone.shifted behind hours minutes).chars := by
    cases behind <;> rfl
  rw [Piece.read, start, shift]
  rfl

/-- The ends that layouts of date-times have. -/
def endings : List Layout := [[], [.zone], [.looseOffset]]

namespace Layout

section
variable {r last : Reading} {ending : Layout}

/-- Whatever takes what stands behind a time takes it for the same. -/
theorem readFrom_ending (isEnding : ending ∈ endings) (fresh : r.offset = 0) {zone : Zone}
    (found : Layout.readFrom r zone.chars ending = some last) :
    last = { r with offset := zone.offset } := by
  simp only [endings, List.mem_cons, List.not_mem_nil, or_false] at isEnding
  rcases isEnding with rfl | rfl | rfl
  · obtain ⟨nothing, rfl⟩ := readFrom_nil_eq_some_iff.mp found
    cases zone with
    | unmarked => rw [show Zone.unmarked.offset = r.offset from fresh.symm]
    | zulu lower => cases nothing
    | shifted behind hours minutes => cases nothing
  · obtain ⟨next, step, found⟩ := readFrom_cons_eq_some_iff.mp found
    rw [Piece.read_zone r zone fresh] at step
    split at step
    · cases step
    · cases step
      exact (readFrom_nil_eq_some_iff.mp found).2.symm
  · obtain ⟨next, step, found⟩ := readFrom_cons_eq_some_iff.mp found
    cases zone with
    | unmarked => cases step
    | zulu lower => cases lower <;> cases step
    | shifted behind hours minutes =>
        rw [Piece.read_looseOffset] at step
        cases step
        exact (readFrom_nil_eq_some_iff.mp found).2.symm

theorem readFrom_ending_colon (isEnding : ending ∈ endings) (cs : List Char) :
    Layout.readFrom r (':' :: cs) ending = none := by
  simp only [endings, List.mem_cons, List.not_mem_nil, or_false] at isEnding
  rcases isEnding with rfl | rfl | rfl <;> rfl

theorem readFrom_colon_zone (zone : Zone) (more : Layout) :
    Layout.readFrom r zone.chars (.mark ':' :: more) = none := by
  cases zone with
  | unmarked => rfl
  | zulu lower => cases lower <;> rfl
  | shifted behind hours minutes => cases behind <;> rfl

/-- Seconds that are written are read with their decimals. -/
theorem readFrom_seconds {year : Piece} {digits : Part → Piece} (reads : ReadsNumbers year digits)
    (second : Fin 60) (decimals : Option Decimals) (zone : Zone) (more : Layout) :
    Layout.readFrom r (WrittenTime.secondsChars (some (second, decimals)) ++ zone.chars)
        (secondsIf digits true ++ more) = some last ↔
      Layout.readFrom { r with second, nanos := (decimals.map Decimals.nanos).getD 0 } zone.chars
        more = some last := by
  have fits : (second : Nat) < 10 ^ 2 := Nat.lt_trans second.isLt (by decide)
  have admits : Part.second.Admits second := Nat.le_of_lt second.isLt
  have number := reads.other .second (by decide)
  cases decimals with
  | none =>
      have fraction (r : Reading) : Piece.fraction.read r zone.chars =
          some ({ r with nanos := 0 }, zone.chars) := by
        rw [Piece.read, readFraction_of_no_point zone.head?_chars_ne_point]
        rfl
      simp only [WrittenTime.secondsChars, secondsIf, if_true, List.cons_append, List.nil_append,
        readFrom_mark, readFrom_width number fits zone.stopsDigits_chars, admits,
        @readFrom_cons_eq_some_iff .fraction, fraction, true_and, Option.some.injEq,
        exists_eq_left', Reading.put, Option.map_none, Option.getD_none]
  | some decimals =>
      have fraction (r : Reading) : Piece.fraction.read r ('.' :: (decimals.digits ++ zone.chars)) =
          some ({ r with nanos := decimals.nanos }, zone.chars) := by
        rw [Piece.read, readFraction_decimals decimals zone.stopsDigits_chars]
        rfl
      have point : StopsDigits ('.' :: (decimals.digits ++ zone.chars)) := stopsDigits_cons rfl _
      simp only [WrittenTime.secondsChars, secondsIf, if_true, List.cons_append, List.nil_append,
        List.append_assoc, readFrom_mark, readFrom_width number fits point, admits,
        @readFrom_cons_eq_some_iff .fraction, fraction, true_and, Option.some.injEq,
        exists_eq_left', Reading.put, Option.map_some, Option.getD_some]

theorem stopsDigits_seconds (seconds : Option (Fin 60 × Option Decimals)) (zone : Zone) :
    StopsDigits (WrittenTime.secondsChars seconds ++ zone.chars) := by
  rcases seconds with _ | ⟨second, _ | decimals⟩
  · exact zone.stopsDigits_chars
  · exact stopsDigits_cons rfl _
  · exact stopsDigits_cons rfl _

/-- Where seconds are due just if they are written, they are read as they are. -/
theorem readFrom_writtenSeconds {year : Piece} {digits : Part → Piece}
    (reads : ReadsNumbers year digits) (fresh : r.IsFresh) (t : WrittenTime) (zone : Zone)
    (more : Layout) :
    Layout.readFrom r (WrittenTime.secondsChars t.seconds ++ zone.chars)
        (secondsIf digits t.seconds.isSome ++ more) = some last ↔
      Layout.readFrom { r with second := t.second, nanos := t.nanos } zone.chars more =
        some last := by
  cases written : t.seconds with
  | none =>
      have second : t.second = r.second := by simp [WrittenTime.second, written, fresh.second]
      have nanos : t.nanos = r.nanos := by simp [WrittenTime.nanos, written, fresh.nanos]
      rw [second, nanos]
      rfl
  | some both =>
      obtain ⟨ofSecond, decimals⟩ := both
      have second : t.second = ofSecond := by simp [WrittenTime.second, written]
      have nanos : t.nanos = (decimals.map Decimals.nanos).getD 0 := by
        simp [WrittenTime.nanos, written]
      rw [second, nanos]
      exact readFrom_seconds reads ofSecond decimals zone more

/-- What stands behind the minutes is read as it is written, if it is taken at all. -/
theorem readFrom_behindMinute {year : Piece} {digits : Part → Piece}
    (reads : ReadsNumbers year digits) {given : Bool} (isEnding : ending ∈ endings)
    (fresh : r.IsFresh) (t : WrittenTime) {zone : Zone}
    (found : Layout.readFrom r (WrittenTime.secondsChars t.seconds ++ zone.chars)
      (secondsIf digits given ++ ending) = some last) :
    last = { r with second := t.second, nanos := t.nanos, offset := zone.offset } := by
  by_cases due : given = t.seconds.isSome
  · subst due
    have behind := (readFrom_writtenSeconds reads fresh t zone ending).mp found
    refine readFrom_ending isEnding ?_ behind
    exact fresh.offset
  · cases written : t.seconds with
    | none =>
        rw [written] at found due
        obtain rfl : given = true := by simpa using due
        cases (readFrom_colon_zone zone _).symm.trans found
    | some both =>
        obtain ⟨second, decimals⟩ := both
        rw [written] at found due
        obtain rfl : given = false := by simpa using due
        cases decimals <;> cases (readFrom_ending_colon isEnding _).symm.trans found

end

section
variable {year : Piece} {digits : Part → Piece} {more : Layout} {r last : Reading}
  {rest : List Char}

/-- A date is read where its month and day are in range. -/
theorem readFrom_date (reads : ReadsNumbers year digits) (d : WrittenDate)
    (stops : StopsDigits rest) :
    Layout.readFrom r (d.chars ++ rest) (date year digits ++ more) = some last ↔
      (Part.month.Admits d.month ∧ Part.day.Admits d.day) ∧
        Layout.readFrom { r with year := (d.year : Nat), month := d.month, day := d.day } rest
          more = some last := by
  have dash (cs : List Char) : StopsDigits ('-' :: cs) := stopsDigits_cons rfl cs
  have admits : Part.year.Admits d.year := trivial
  simp only [WrittenDate.chars, date, List.append_assoc, List.cons_append, List.nil_append,
    readFrom_width reads.year d.year.isLt (dash _), readFrom_mark,
    readFrom_width (reads.other .month (by decide)) d.month.isLt (dash _),
    readFrom_width (reads.other .day (by decide)) d.day.isLt stops, admits, true_and, and_assoc,
    Reading.put]

/-- A date alone leaves nothing. -/
theorem readFrom_date_alone (reads : ReadsNumbers year digits) (d : WrittenDate)
    (stops : StopsDigits rest) :
    Layout.readFrom r (d.chars ++ rest) (date year digits) = some last ↔
      (Part.month.Admits d.month ∧ Part.day.Admits d.day) ∧
        rest = [] ∧ { r with year := (d.year : Nat), month := d.month, day := d.day } = last := by
  rw [← List.append_nil (date year digits), readFrom_date reads d stops, readFrom_nil_eq_some_iff]

/-- Hours and minutes are read where they are in range. -/
theorem readFrom_clock (reads : ReadsNumbers year digits) (hour minute : Fin 100)
    (stops : StopsDigits rest) :
    Layout.readFrom r (padded 2 hour ++ ':' :: (padded 2 minute ++ rest))
        (clock digits ++ more) = some last ↔
      (Part.hour.Admits hour ∧ Part.minute.Admits minute) ∧
        Layout.readFrom { r with hour, minute } rest more = some last := by
  have colon (cs : List Char) : StopsDigits (':' :: cs) := stopsDigits_cons rfl cs
  simp only [clock, List.cons_append, List.nil_append,
    readFrom_width (reads.other .hour (by decide)) hour.isLt (colon _), readFrom_mark,
    readFrom_width (reads.other .minute (by decide)) minute.isLt stops, true_and, and_assoc,
    Reading.put]

end

/-- What layouts have between a date and a time. -/
def betweens : List Piece := [.separator, .mark 'T', .blanks]

/-- Whatever takes what stands between a date and a time takes just that. -/
theorem readFrom_between {year : Piece} {digits : Part → Piece} (reads : ReadsNumbers year digits)
    {between : Piece} (isBetween : between ∈ betweens) {r last : Reading} {n : Nat}
    {rest : List Char} {more : Layout} (w : WrittenDateTime)
    (found : Layout.readFrom r (w.separator :: (padded 2 n ++ rest))
      (between :: (clock digits ++ more)) = some last) :
    Layout.readFrom r (padded 2 n ++ rest) (clock digits ++ more) = some last := by
  obtain ⟨next, step, found⟩ := readFrom_cons_eq_some_iff.mp found
  simp only [betweens, List.mem_cons, List.not_mem_nil, or_false] at isBetween
  unfold WrittenDateTime.separator at step
  rcases isBetween with rfl | rfl | rfl <;> split at step
  · cases step
    exact found
  · cases step
    exact found
  · cases step
  · cases step
    exact found
  · have start := Text.trimStart_of_digits (padded_ne_nil 2 n) (fun _ => isDigit_of_mem_padded)
      rest
    have skipped : Text.trimStart (' ' :: (padded 2 n ++ rest)) = padded 2 n ++ rest := start
    rw [Piece.read, skipped] at step
    cases step
    exact found
  · -- A layout with blanks leaves a letter where the hour is due.
    cases step
    obtain ⟨_, step, -⟩ := readFrom_cons_eq_some_iff.mp found
    cases (reads.letter _ _).symm.trans step

/-- Whatever layout takes a date-time reads it as it is written. -/
theorem readFrom_dateTime {year : Piece} {digits : Part → Piece}
    (reads : ReadsNumbers year digits) {between : Piece} (isBetween : between ∈ betweens)
    {given : Bool} {ending : Layout} (isEnding : ending ∈ endings) {w : WrittenDateTime}
    {last : Reading}
    (found : Layout.readFrom {} w.chars (dateTime year digits between given ending) = some last) :
    w.reading.IsAdmitted ∧ last = w.reading := by
  obtain ⟨⟨month, day⟩, found⟩ := (readFrom_date reads w.date (w.stopsDigits_separator _)).mp found
  simp only [WrittenTime.chars, List.append_assoc, List.cons_append] at found
  obtain ⟨⟨hour, minute⟩, found⟩ := (readFrom_clock reads w.time.hour w.time.minute
    (stopsDigits_seconds w.time.seconds w.zone)).mp (readFrom_between reads isBetween w found)
  refine ⟨⟨month, day, hour, minute⟩, ?_⟩
  exact readFrom_behindMinute reads isEnding ⟨rfl, rfl, rfl⟩ w.time found

end Layout

end Criteria.Instant
