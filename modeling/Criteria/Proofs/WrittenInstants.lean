import Criteria.Proofs.DateTimeForms
import Criteria.Proofs.LocalTimes
import Criteria.Proofs.ReadInstants

set_option autoImplicit false

/-
The instants that written dates and times denote. All layouts that take such a text agree on
it, so that the order in which they are tried does not show.
-/
namespace Criteria

/-- A text is its own trimmed text where it neither begins nor ends with a blank. -/
theorem Text.trim_eq_self {cs : List Char} (first : ∀ c ∈ cs.head?, isBlank c = false)
    (last : ∀ c ∈ cs.getLast?, isBlank c = false) : trim cs = cs := by
  have start {cs : List Char} (first : ∀ c ∈ cs.head?, isBlank c = false) : trimStart cs = cs := by
    cases cs with
    | nil => rfl
    | cons c cs => exact List.dropWhile_cons_of_neg (by simp [first c rfl])
  have behind : ∀ c ∈ cs.reverse.head?, isBlank c = false := by
    rwa [List.head?_reverse]
  rw [trim, start first, start behind, List.reverse_reverse]

namespace Instant

/-- Alternatives that agree where they give anything give what one of them gives. -/
theorem findSome?_eq_of_agree {α β : Type} {attempts : List α} {f : α → Option β} {e : Option β}
    (agree : ∀ a ∈ attempts, ∀ b, f a = some b → e = some b)
    (one : ∀ b, e = some b → ∃ a ∈ attempts, f a = some b) : attempts.findSome? f = e := by
  cases found : attempts.findSome? f with
  | some b =>
      obtain ⟨a, member, gives⟩ := List.exists_of_findSome?_eq_some found
      exact (agree a member b gives).symm
  | none =>
      cases e with
      | none => rfl
      | some b =>
          obtain ⟨a, member, gives⟩ := one b rfl
          rw [List.findSome?_eq_none_iff.mp found a member] at gives
          cases gives

/-- What is tried on a text: forms of date-times, on it or on what is left of it without a
`Z`, and dates, on it or with a first day added. -/
inductive IsAttempt (cs : List Char) : Layout × List Char → Prop
  | dateTime {year : Piece} {digits : Part → Piece} (reads : ReadsNumbers year digits)
      {between : Piece} (isBetween : between ∈ Layout.betweens) (given : Bool) {ending : Layout}
      (isEnding : ending ∈ endings) {text : List Char} (isText : text = cs ∨ text = dropZulu cs) :
      IsAttempt cs (Layout.dateTime year digits between given ending, text)
  | date : IsAttempt cs (Layout.date (.number .year) .number, cs)
  | month : IsAttempt cs (Layout.date (.number .year) .number, cs ++ ['-', '0', '1'])

theorem between_of_variant {variant : Piece × Bool} (member : variant ∈ Layout.variants) :
    variant.1 ∈ Layout.betweens := by
  simp only [Layout.variants, List.mem_cons, List.not_mem_nil, or_false] at member
  rcases member with rfl | rfl | rfl | rfl <;> simp [Layout.betweens]

theorem isAttempt_of_mem {cs : List Char} {attempt : Layout × List Char}
    (member : attempt ∈ attempts cs) : IsAttempt cs attempt := by
  simp only [attempts, List.mem_append, List.mem_map, List.mem_singleton,
    Layout.internet_eq_dateTime, Layout.plain_eq_map, Layout.shifted_eq_map,
    Layout.fullDate_eq_date] at member
  rcases member with rfl | ⟨_, ⟨variant, isVariant, rfl⟩, rfl⟩ |
    ⟨_, ⟨variant, isVariant, rfl⟩, rfl⟩ | rfl | rfl
  · exact .dateTime readsNumbers_exact (by simp [Layout.betweens]) true (by simp [endings])
      (.inl rfl)
  · exact .dateTime readsNumbers_number (between_of_variant isVariant) _ (by simp [endings])
      (.inr rfl)
  · exact .dateTime readsNumbers_number (between_of_variant isVariant) _ (by simp [endings])
      (.inl rfl)
  · exact .date
  · exact .month

/-- Whether the last character of a text is a digit. -/
def EndsInDigit (cs : List Char) : Prop := ∃ d ∈ cs.getLast?, d.isDigit

theorem EndsInDigit.append {cs : List Char} (ends : EndsInDigit cs) (front : List Char) :
    EndsInDigit (front ++ cs) := by
  obtain ⟨d, last, digit⟩ := ends
  have same : (front ++ cs).getLast? = some d := by
    rw [List.getLast?_append, Option.mem_def.mp last, Option.some_or]
  exact ⟨d, same, digit⟩

theorem EndsInDigit.cons {cs : List Char} (ends : EndsInDigit cs) (c : Char) :
    EndsInDigit (c :: cs) := ends.append [c]

theorem endsInDigit_of_digits {ds : List Char} (digits : ∀ d ∈ ds, d.isDigit) (some : ds ≠ []) :
    EndsInDigit ds :=
  ⟨ds.getLast some, List.getLast?_eq_some_getLast some, digits _ (List.getLast_mem some)⟩

theorem endsInDigit_padded (width n : Nat) : EndsInDigit (padded width n) :=
  endsInDigit_of_digits (fun _ => isDigit_of_mem_padded) (padded_ne_nil width n)

theorem EndsInDigit.dropZulu {cs : List Char} (ends : EndsInDigit cs) : dropZulu cs = cs := by
  obtain ⟨d, last, digit⟩ := ends
  unfold Instant.dropZulu
  split
  · rename_i zulu
    cases zulu.symm.trans last
    cases digit
  · rename_i zulu
    cases zulu.symm.trans last
    cases digit
  · rfl

theorem WrittenDate.endsInDigit_chars (d : WrittenDate) : EndsInDigit d.chars :=
  ((((endsInDigit_padded 2 d.day).cons '-').append _).cons '-').append _

theorem WrittenTime.endsInDigit_chars (t : WrittenTime) : EndsInDigit t.chars := by
  have minute := endsInDigit_padded 2 t.minute
  refine .append (.cons ?_ ':') _
  cases t.seconds with
  | none => simpa [secondsChars] using minute
  | some both =>
      obtain ⟨second, decimals⟩ := both
      have behind : EndsInDigit (secondsChars (some (second, decimals))) := by
        cases decimals with
        | none => exact (endsInDigit_padded 2 second).cons ':'
        | some decimals =>
            have digits := endsInDigit_of_digits decimals.isDigit decimals.nonempty
            exact ((digits.cons '.').append _).cons ':'
      exact behind.append _

/-- A date-time without a `Z`, which changes nothing but the text. -/
def WrittenDateTime.unmarked (w : WrittenDateTime) : WrittenDateTime :=
  match w.zone with
  | .zulu _ => { w with zone := .unmarked }
  | _ => w

theorem WrittenDateTime.zone_unmarked_ne (w : WrittenDateTime) (lower : Bool) :
    w.unmarked.zone ≠ .zulu lower := by
  obtain ⟨date, spaced, time, zone⟩ := w
  cases zone <;> simp [unmarked]

theorem WrittenDateTime.unmarked_eq_self (w : WrittenDateTime)
    (shown : w.unmarked.zone ≠ .unmarked) : w.unmarked = w := by
  obtain ⟨date, spaced, time, zone⟩ := w
  cases zone with
  | zulu lower => exact absurd rfl shown
  | _ => rfl

theorem WrittenDateTime.variant_mem (w : WrittenDateTime) :
    ((if w.spaced then .blanks else .mark 'T', w.time.seconds.isSome) : Piece × Bool) ∈
      Layout.variants := by
  cases w.spaced <;> cases w.time.seconds.isSome <;> simp [Layout.variants]

theorem WrittenDateTime.reading_unmarked (w : WrittenDateTime) :
    w.unmarked.reading = w.reading := by
  obtain ⟨date, spaced, time, zone⟩ := w
  cases zone <;> rfl

theorem WrittenDateTime.endsInDigit_unmarked (w : WrittenDateTime) :
    EndsInDigit w.unmarked.chars := by
  obtain ⟨date, spaced, time, zone⟩ := w
  have ends := time.endsInDigit_chars
  cases zone with
  | shifted behind hours minutes =>
      have zone := (((endsInDigit_padded 2 minutes).cons ':').append (padded 2 hours)).cons
        (if behind then '-' else '+')
      exact ((zone.append _).cons _).append _
  | _ =>
      have last : EndsInDigit (time.chars ++ []) := by rwa [List.append_nil]
      exact (last.cons _).append _

theorem WrittenDateTime.chars_eq_unmarked (w : WrittenDateTime) :
    w.chars = w.unmarked.chars ∨ ∃ c, (c = 'Z' ∨ c = 'z') ∧ w.chars = w.unmarked.chars ++ [c] := by
  obtain ⟨date, spaced, time, zone⟩ := w
  cases zone with
  | zulu lower =>
      refine .inr ⟨if lower then 'z' else 'Z', by cases lower <;> simp, ?_⟩
      simp only [chars, unmarked, Zone.chars, List.append_nil, List.append_assoc, List.cons_append]
      rfl
  | _ => exact .inl rfl

theorem WrittenDateTime.dropZulu_chars (w : WrittenDateTime) :
    dropZulu w.chars = w.unmarked.chars := by
  rcases w.chars_eq_unmarked with same | ⟨c, zulu, same⟩
  · rw [same, w.endsInDigit_unmarked.dropZulu]
  · rw [same]
    rcases zulu with rfl | rfl <;> simp [dropZulu]

namespace Layout

/-- Whatever has blanks or the letter between date and time goes on behind the separator. -/
theorem readFrom_separator (w : WrittenDateTime) (r : Reading) (n : Nat) (rest : List Char)
    (more : Layout) :
    Layout.readFrom r (w.separator :: (padded 2 n ++ rest))
        ((if w.spaced then .blanks else .mark 'T') :: more) =
      Layout.readFrom r (padded 2 n ++ rest) more := by
  apply readFrom_cons
  unfold WrittenDateTime.separator
  cases w.spaced with
  | true =>
      have start : Text.trimStart (padded 2 n ++ rest) = padded 2 n ++ rest :=
        Text.trimStart_of_digits (padded_ne_nil 2 n) (fun _ => isDigit_of_mem_padded) rest
      exact congrArg (fun cs => some (r, cs)) start
  | false => exact Piece.read_mark 'T' r _

/-- An offset is read where it is due just if it is written. -/
theorem readFrom_writtenZone {zone : Zone} (notZulu : ∀ lower, zone ≠ .zulu lower) {r : Reading}
    (fresh : r.offset = 0) :
    Layout.readFrom r zone.chars (if zone = .unmarked then [] else [.looseOffset]) =
      some { r with offset := zone.offset } := by
  cases zone with
  | unmarked =>
      rw [show Zone.unmarked.offset = r.offset from fresh.symm]
      rfl
  | zulu lower => exact absurd rfl (notZulu lower)
  | shifted behind hours minutes =>
      rw [if_neg (by simp), readFrom_cons (Piece.read_looseOffset r behind hours minutes)]
      rfl

/-- A date-time without a `Z` is read by the form that it is in. -/
theorem readFrom_own {w : WrittenDateTime} (notZulu : ∀ lower, w.zone ≠ .zulu lower)
    (admitted : w.reading.IsAdmitted) :
    Layout.readFrom {} w.chars (dateTime (.number .year) .number
      (if w.spaced then .blanks else .mark 'T') w.time.seconds.isSome
      (if w.zone = .unmarked then [] else [.looseOffset])) = some w.reading := by
  obtain ⟨month, day, hour, minute⟩ := admitted
  have reads := readsNumbers_number
  refine (readFrom_date reads w.date (w.stopsDigits_separator _)).mpr ⟨⟨month, day⟩, ?_⟩
  rw [WrittenTime.chars, List.append_assoc, List.cons_append, List.append_assoc,
    readFrom_separator]
  refine (readFrom_clock reads w.time.hour w.time.minute
    (stopsDigits_seconds w.time.seconds w.zone)).mpr ⟨⟨hour, minute⟩, ?_⟩
  refine (readFrom_writtenSeconds reads ⟨rfl, rfl, rfl⟩ w.time w.zone _).mpr ?_
  exact readFrom_writtenZone notZulu rfl

/-- Nothing behind a date is no time. -/
theorem readFrom_between_nil {year : Piece} {digits : Part → Piece}
    (reads : ReadsNumbers year digits) {between : Piece} (isBetween : between ∈ betweens)
    (r : Reading) (more : Layout) :
    Layout.readFrom r [] (between :: (clock digits ++ more)) = none := by
  simp only [betweens, List.mem_cons, List.not_mem_nil, or_false] at isBetween
  rcases isBetween with rfl | rfl | rfl
  · rfl
  · rfl
  · have noHour : Layout.readFrom r [] (clock digits ++ more) = none := by
      simp only [clock, List.cons_append, Layout.readFrom, reads.nothing, Option.bind_eq_bind,
        Option.bind_none]
    rw [readFrom_cons (show Piece.blanks.read r [] = some (r, []) from rfl), noHour]

/-- A year and a month are no date. -/
theorem readFrom_month {year : Piece} {digits : Part → Piece} (reads : ReadsNumbers year digits)
    (y : Fin 10000) (m : Fin 100) (more : Layout) (last : Reading) :
    Layout.readFrom {} (padded 4 y ++ '-' :: padded 2 m) (date year digits ++ more) ≠
      some last := by
  intro found
  have dash (cs : List Char) : StopsDigits ('-' :: cs) := stopsDigits_cons rfl cs
  have behindYear := ((readFrom_width reads.year y.isLt (dash _)).mp found).2
  have behindDash := (readFrom_mark.mp behindYear).2
  rw [← List.append_nil (padded 2 m)] at behindDash
  have behindMonth :=
    ((readFrom_width (reads.other .month (by decide)) m.isLt stopsDigits_nil).mp behindDash).2
  cases (readFrom_mark_nil '-').symm.trans behindMonth

end Layout

theorem WrittenTime.second_le (t : WrittenTime) : t.second ≤ 59 := by
  unfold second
  cases t.seconds with
  | none => decide
  | some both => exact Nat.le_of_lt_succ both.1.isLt

theorem WrittenTime.nanos_lt (t : WrittenTime) : t.nanos < 1000000000 := by
  unfold nanos
  cases t.seconds.bind Prod.snd with
  | none => decide
  | some decimals => exact Instant.nanos_lt decimals.isDigit decimals.short

/-- The forms in which dates and times are written. A month stands for its first day, and a
day for its midnight. -/
inductive WrittenForm where
  | dateTime (w : WrittenDateTime)
  | fullDate (d : WrittenDate)
  | month (y : Fin 10000) (m : Fin 100)

namespace WrittenForm

def chars : WrittenForm → List Char
  | .dateTime w => w.chars
  | .fullDate d => d.chars
  | .month y m => padded 4 y ++ '-' :: padded 2 m

def text (form : WrittenForm) : String := String.ofList form.chars

def date : WrittenForm → CalendarDate
  | .dateTime w => w.date.date
  | .fullDate d => d.date
  | .month y m => ⟨(y : Nat), m, 1⟩

def time : WrittenForm → ClockTime
  | .dateTime w => w.time.time
  | _ => .midnight

/-- How many seconds the clock is ahead that the date and time are of. -/
def offset : WrittenForm → Int
  | .dateTime w => w.zone.offset
  | _ => 0

/-- Whether the date is one of the calendar and the time one of a day. -/
structure IsReal (form : WrittenForm) : Prop where
  date : form.date.isValid
  time : form.time.IsTimeOfDay

instance (form : WrittenForm) : Decidable form.IsReal :=
  decidable_of_iff (form.date.isValid ∧ form.time.IsTimeOfDay)
    ⟨fun ⟨date, time⟩ => ⟨date, time⟩, fun ⟨date, time⟩ => ⟨date, time⟩⟩

def reading (form : WrittenForm) : Reading where
  year := form.date.year
  month := form.date.month
  day := form.date.day
  hour := form.time.hour
  minute := form.time.minute
  second := form.time.second
  nanos := form.time.nanos
  offset := form.offset

theorem year_le (form : WrittenForm) : 0 ≤ form.date.year ∧ form.date.year ≤ 9999 := by
  cases form with
  | dateTime w =>
      have small := w.date.year.isLt
      simp only [date, WrittenDate.date]
      omega
  | fullDate d =>
      have small := d.year.isLt
      simp only [date, WrittenDate.date]
      omega
  | month y m =>
      have small := y.isLt
      simp only [date]
      omega

theorem offset_lt (form : WrittenForm) : -86400 < form.offset ∧ form.offset < 86400 := by
  have zero : -86400 < (0 : Int) ∧ (0 : Int) < 86400 := by decide
  cases form with
  | dateTime w =>
      simp only [offset]
      cases w.zone with
      | shifted behind hours minutes =>
          have ofDay := hours.isLt
          have ofHour := minutes.isLt
          simp only [Zone.offset]
          split <;> omega
      | _ => exact zero
  | _ => exact zero

/-- A form is read as a date and time in range just if the instant is that date and time. -/
theorem instant?_reading (form : WrittenForm) (ofDay : form.time.IsTimeOfDay) :
    form.reading.instant? =
      if form.date.isValid then some (ofLocal form.date form.time form.offset) else none := by
  have range (valid : form.date.isValid) : (ofLocal form.date form.time form.offset).inRange :=
    inRange_ofLocal valid form.year_le.1 form.year_le.2 ofDay form.offset_lt
  change (if form.date.isValid && (ofLocal form.date form.time form.offset).inRange then
    some (ofLocal form.date form.time form.offset) else none) = _
  cases valid : form.date.isValid with
  | true => simp [range valid]
  | false => rfl

/-- A time is one of a day once its hour and minute are in range. -/
theorem isTimeOfDay_of_admitted {form : WrittenForm} (admitted : form.reading.IsAdmitted) :
    form.time.IsTimeOfDay := by
  cases form with
  | dateTime w =>
      exact ⟨admitted.hour, admitted.minute, w.time.second_le, w.time.nanos_lt⟩
  | _ => exact ClockTime.midnight_isTimeOfDay

theorem IsReal.isAdmitted {form : WrittenForm} (real : form.IsReal) : form.reading.IsAdmitted := by
  obtain ⟨valid, hour, minute, -, -⟩ := real
  obtain ⟨-, month, day, length, found, within⟩ := form.date.isValid_iff.mp valid
  have short := Calendar.monthLength_le _ _ (List.mem_of_getElem? found)
  have ofYear := (List.getElem?_eq_some_iff.mp found).1
  rw [Calendar.length_monthLengths] at ofYear
  refine ⟨⟨month, ?_⟩, ⟨day, Nat.le_trans within short⟩, hour, minute⟩
  change form.date.month ≤ 12
  omega

/-- A date alone is read where it is in range. -/
theorem readFrom_fullDate {d : WrittenDate} {last : Reading} :
    Layout.readFrom {} d.chars (Layout.date (.number .year) .number) = some last ↔
      (fullDate d).reading.IsAdmitted ∧ last = (fullDate d).reading := by
  rw [← List.append_nil d.chars, Layout.readFrom_date_alone readsNumbers_number d stopsDigits_nil]
  constructor
  · rintro ⟨⟨month, day⟩, -, rfl⟩
    exact ⟨⟨month, day, Nat.zero_le 23, Nat.zero_le 59⟩, rfl⟩
  · rintro ⟨⟨month, day, -, -⟩, rfl⟩
    exact ⟨⟨month, day⟩, rfl, rfl⟩

theorem chars_month (y : Fin 10000) (m : Fin 100) :
    (month y m).chars ++ ['-', '0', '1'] = (fullDate ⟨y, m, 1⟩).chars := by
  simp only [chars, WrittenDate.chars, List.append_assoc, List.cons_append]
  rfl

theorem endsInDigit_month (y : Fin 10000) (m : Fin 100) : EndsInDigit (month y m).chars :=
  ((endsInDigit_padded 2 m).cons '-').append _

/-- Whatever is tried on a form and takes it reads it as it is written. -/
theorem eq_reading_of_attempt {form : WrittenForm} {attempt : Layout × List Char}
    (isAttempt : IsAttempt form.chars attempt) {last : Reading}
    (found : Layout.readFrom {} attempt.2 attempt.1 = some last) :
    form.reading.IsAdmitted ∧ last = form.reading := by
  cases form with
  | dateTime w =>
      -- A date alone leaves the time.
      have beyond (behind : List Char) :
          Layout.readFrom {} (w.chars ++ behind) (Layout.date (.number .year) .number) ≠
            some last := by
        rw [WrittenDateTime.chars, List.append_assoc, List.cons_append]
        intro read
        have alone := (Layout.readFrom_date_alone readsNumbers_number w.date
          (w.stopsDigits_separator _)).mp read
        cases alone.2.1
      cases isAttempt with
      | dateTime reads isBetween given isEnding isText =>
          rcases isText with rfl | rfl
          · exact Layout.readFrom_dateTime reads isBetween isEnding found
          · dsimp only at found
            rw [chars, w.dropZulu_chars] at found
            have read := Layout.readFrom_dateTime reads isBetween isEnding found
            rwa [w.reading_unmarked] at read
      | date =>
          rw [← List.append_nil (chars _)] at found
          exact absurd found (beyond [])
      | month => exact absurd found (beyond _)
  | fullDate d =>
      cases isAttempt with
      | dateTime reads isBetween given isEnding isText =>
          have same := d.endsInDigit_chars.dropZulu
          rw [chars, same, or_self] at isText
          subst isText
          dsimp only at found
          rw [← List.append_nil d.chars] at found
          have behind := ((Layout.readFrom_date reads d stopsDigits_nil).mp found).2
          cases (Layout.readFrom_between_nil reads isBetween _ _).symm.trans behind
      | date => exact readFrom_fullDate.mp found
      | month =>
          have alone := (Layout.readFrom_date_alone readsNumbers_number d
            (stopsDigits_cons (show '-'.isDigit = false from rfl) _)).mp found
          cases alone.2.1
  | month y m =>
      cases isAttempt with
      | dateTime reads isBetween given isEnding isText =>
          have same := (endsInDigit_month y m).dropZulu
          rw [same, or_self] at isText
          subst isText
          exact absurd found (Layout.readFrom_month reads y m _ last)
      | date =>
          dsimp only at found
          rw [← List.append_nil (Layout.date ..)] at found
          exact absurd found (Layout.readFrom_month readsNumbers_number y m [] last)
      | month =>
          dsimp only at found
          rw [chars_month] at found
          exact readFrom_fullDate.mp found

/-- And what is in range is taken by one of the layouts. -/
theorem exists_attempt {form : WrittenForm} (admitted : form.reading.IsAdmitted) :
    ∃ attempt ∈ attempts form.chars,
      Layout.readFrom {} attempt.2 attempt.1 = some form.reading := by
  cases form with
  | dateTime w =>
      have inRange : w.unmarked.reading.IsAdmitted := by rwa [w.reading_unmarked]
      have own := Layout.readFrom_own w.zone_unmarked_ne inRange
      have variant := w.unmarked.variant_mem
      rw [w.reading_unmarked] at own
      by_cases plain : w.unmarked.zone = .unmarked
      · rw [if_pos plain] at own
        refine ⟨(_, dropZulu w.chars), ?_, w.dropZulu_chars ▸ own⟩
        refine List.mem_append_right _ (List.mem_append_left _ ?_)
        rw [Layout.plain_eq_map, List.map_map]
        exact List.mem_map.mpr ⟨_, variant, rfl⟩
      · rw [if_neg plain] at own
        rw [w.unmarked_eq_self plain] at own variant
        refine ⟨(_, w.chars), ?_, own⟩
        refine List.mem_append_right _ (List.mem_append_right _ (List.mem_append_left _ ?_))
        rw [Layout.shifted_eq_map, List.map_map]
        exact List.mem_map.mpr ⟨_, variant, rfl⟩
  | fullDate d =>
      refine ⟨(Layout.fullDate, d.chars), by simp [attempts, chars], ?_⟩
      exact readFrom_fullDate.mpr ⟨admitted, rfl⟩
  | month y m =>
      refine ⟨(Layout.fullDate, (month y m).chars ++ ['-', '0', '1']), by simp [attempts], ?_⟩
      rw [chars_month]
      exact readFrom_fullDate.mpr ⟨admitted, rfl⟩

theorem head_chars (form : WrittenForm) : ∀ c ∈ form.chars.head?, c.isDigit := by
  have year (n : Nat) (rest : List Char) : ∀ c ∈ (padded 4 n ++ rest).head?, c.isDigit := by
    obtain ⟨d, ds, shape⟩ := exists_padded_eq_cons 4 n
    have digit : d.isDigit := isDigit_of_mem_padded (shape ▸ List.mem_cons_self)
    simpa [shape] using digit
  cases form with
  | dateTime w =>
      rw [chars, WrittenDateTime.chars, WrittenDate.chars, List.append_assoc]
      exact year _ _
  | fullDate d => exact year _ _
  | month y m => exact year _ _

theorem last_chars (form : WrittenForm) : ∀ c ∈ form.chars.getLast?, Text.isBlank c = false := by
  have digit {cs : List Char} (ends : EndsInDigit cs) :
      ∀ c ∈ cs.getLast?, Text.isBlank c = false := by
    obtain ⟨d, last, digit⟩ := ends
    intro c same
    cases last.symm.trans same
    exact Text.isBlank_eq_false_of_isDigit digit
  cases form with
  | dateTime w =>
      rcases w.chars_eq_unmarked with same | ⟨c, zulu, same⟩
      · rw [chars, same]
        exact digit w.endsInDigit_unmarked
      · rw [chars, same]
        rcases zulu with rfl | rfl <;> simp [Text.isBlank]
  | fullDate d => exact digit d.endsInDigit_chars
  | month y m => exact digit (endsInDigit_month y m)

theorem trim_chars (form : WrittenForm) : Text.trim form.chars = form.chars :=
  Text.trim_eq_self (fun c first => Text.isBlank_eq_false_of_isDigit (form.head_chars c first))
    form.last_chars

/-- What a form is read as, by whatever layout. -/
theorem ofText?_text (form : WrittenForm) :
    ofText? form.text =
      (attempts form.chars).findSome? fun attempt => attempt.1.read? attempt.2 := by
  rw [ofText?, text, String.toList_ofList, ofChars?_eq_findSome?, trim_chars]

/-- Whatever instant a layout gives is that of the form, whose date and time exist then. -/
theorem eq_ofLocal_of_read? {form : WrittenForm} {attempt : Layout × List Char}
    (tried : attempt ∈ attempts form.chars) {t : Instant}
    (found : attempt.1.read? attempt.2 = some t) :
    form.IsReal ∧ t = ofLocal form.date form.time form.offset := by
  obtain ⟨last, read, isInstant⟩ := Option.bind_eq_some_iff.mp found
  obtain ⟨admitted, rfl⟩ := eq_reading_of_attempt (isAttempt_of_mem tried) read
  have ofDay := isTimeOfDay_of_admitted admitted
  rw [instant?_reading form ofDay] at isInstant
  split at isInstant
  · rename_i valid
    cases isInstant
    exact ⟨⟨valid, ofDay⟩, rfl⟩
  · cases isInstant

theorem ofText?_text_eq (form : WrittenForm) :
    ofText? form.text =
      if form.IsReal then some (ofLocal form.date form.time form.offset) else none := by
  rw [ofText?_text]
  apply findSome?_eq_of_agree
  · intro attempt tried t found
    obtain ⟨real, rfl⟩ := eq_ofLocal_of_read? tried found
    exact if_pos real
  · intro t expected
    split at expected
    · rename_i real
      cases expected
      obtain ⟨attempt, tried, read⟩ := exists_attempt real.isAdmitted
      refine ⟨attempt, tried, ?_⟩
      rw [Layout.read?, read, Option.bind_eq_bind, Option.bind_some,
        instant?_reading form real.time, if_pos real.date]
    · cases expected

end WrittenForm

/-- Every form in which dates and times are written denotes the instant at which clocks that are
ahead by its offset show its date and its time, if there is such a date and such a time of day,
and nothing else. Each layout that takes the text gives the same. -/
theorem written_forms_denote_instants (form : WrittenForm) :
    (ofText? form.text =
      if form.IsReal then some (ofLocal form.date form.time form.offset) else none) ∧
    (∀ t, ofText? form.text = some t →
      (t.ahead form.offset).date = form.date ∧ (t.ahead form.offset).clockTime = form.time) ∧
    ∀ attempt ∈ attempts form.chars, ∀ t, attempt.1.read? attempt.2 = some t →
      ofText? form.text = some t := by
  have read := form.ofText?_text_eq
  refine ⟨read, ?_, ?_⟩
  · intro t found
    rw [read] at found
    split at found
    · rename_i real
      cases found
      exact ⟨date_ahead_ofLocal real.date real.time, clockTime_ahead_ofLocal real.time⟩
    · cases found
  · intro attempt tried t found
    obtain ⟨real, rfl⟩ := WrittenForm.eq_ofLocal_of_read? tried found
    rw [read, if_pos real]

theorem written_forms_denote_instants_behind :
    ofText? "2024-02-29 23:59:58.5-01:30" = some ⟨1709256598, 500000000⟩ := by
  let half : Decimals := ⟨['5'], List.forall_mem_singleton.mpr rfl, List.cons_ne_nil _ _,
    Nat.le_add_left 1 8⟩
  let form : WrittenForm := .dateTime
    { date := ⟨2024, 2, 29⟩
      spaced := true
      time := ⟨23, 59, some (58, some half)⟩
      zone := .shifted true 1 30 }
  have text : form.text = "2024-02-29 23:59:58.5-01:30" := by decide
  have real : form.IsReal := by decide
  have same : ofLocal form.date form.time form.offset = ⟨1709256598, 500000000⟩ := by decide
  have read := (written_forms_denote_instants form).1
  rwa [text, if_pos real, same] at read

end Instant
end Criteria
