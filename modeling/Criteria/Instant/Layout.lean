import Criteria.Instant
import Criteria.Text.Blank
import Criteria.Text.Digits

set_option autoImplicit false

/-
Reading dates and date-times by layouts. A layout is a list of pieces that take
characters from the front of a text and fill in parts of a reading.
-/
namespace Criteria.Instant

/-- What the pieces of a layout have found so far. -/
structure Reading where
  year : Int := 0
  month : Nat := 1
  day : Nat := 1
  hour : Nat := 0
  minute : Nat := 0
  second : Nat := 0
  nanos : Nat := 0
  offset : Int := 0

/-- A number of a date-time. -/
inductive Part where
  | year | month | day | hour | minute | second
  deriving DecidableEq

inductive Piece where
  /-- Exactly that many digits. -/
  | exact (width : Nat) (part : Part)
  /-- Blanks, then a number of up to as many digits as is usual for the part;
  a year may have a sign and then any number of digits. -/
  | number (part : Part)
  | mark (c : Char)
  /-- A `T` in either case or a space. -/
  | separator
  | blanks
  /-- Nothing, or a point and the digits after it. -/
  | fraction
  /-- A `Z` in either case, or a sign, hours, a colon and minutes. -/
  | zone
  /-- Blanks, a sign, hours, colons or blanks or none, and minutes. -/
  | looseOffset

abbrev Layout := List Piece

/-- The digits at the front, at most `limit` of them. -/
def takeDigits (limit : Nat) (cs : List Char) : List Char × List Char :=
  let ds := (cs.take limit).takeWhile Char.isDigit
  (ds, cs.drop ds.length)

/-- Puts a number into its part, if it is in the range of that part. -/
def Reading.set (r : Reading) (part : Part) (n : Int) : Option Reading :=
  match part with
  | .year => some { r with year := n }
  | .month => if 1 ≤ n ∧ n ≤ 12 then some { r with month := n.toNat } else none
  | .day => if 1 ≤ n ∧ n ≤ 31 then some { r with day := n.toNat } else none
  | .hour => if 0 ≤ n ∧ n ≤ 23 then some { r with hour := n.toNat } else none
  | .minute => if 0 ≤ n ∧ n ≤ 59 then some { r with minute := n.toNat } else none
  | .second => if 0 ≤ n ∧ n ≤ 60 then some { r with second := n.toNat } else none

/-- Digits as a number, at least one of them. -/
def readUnsigned (limit : Nat) (cs : List Char) : Option (Nat × List Char) :=
  match takeDigits limit cs with
  | ([], _) => none
  | (ds, rest) => some (Text.digitsValue ds, rest)

/-- A year, with a sign before more than four digits. -/
def readYear : List Char → Option (Int × List Char)
  | '-' :: rest => (readUnsigned rest.length rest).map fun (n, rest) => (-(n : Int), rest)
  | '+' :: rest => (readUnsigned rest.length rest).map fun (n, rest) => ((n : Int), rest)
  | cs => (readUnsigned 4 cs).map fun (n, rest) => ((n : Int), rest)

/-- The first nine digits after the point count. -/
def readFraction : List Char → Option (Nat × List Char)
  | '.' :: rest =>
    match takeDigits 9 rest with
    | ([], _) => none
    | (ds, rest) => some (Text.digitsValue ds * 10 ^ (9 - ds.length), rest.dropWhile Char.isDigit)
  | cs => some (0, cs)

/-- A sign, two digits of hours, what `between` leaves, two digits of minutes. -/
def readOffset (between : List Char → Option (List Char)) (cs : List Char) :
    Option (Int × List Char) := do
  let (negative, rest) ← match cs with
    | '+' :: rest => some (false, rest)
    | '-' :: rest => some (true, rest)
    | '−' :: rest => some (true, rest)
    | _ => none
  let (hours, rest) := takeDigits 2 rest
  guard (hours.length = 2)
  let rest ← between rest
  let (minutes, rest) := takeDigits 2 rest
  guard (minutes.length = 2 ∧ Text.digitsValue minutes ≤ 59)
  let seconds : Int := Text.digitsValue hours * 3600 + Text.digitsValue minutes * 60
  guard (seconds < 86400)
  return (if negative then -seconds else seconds, rest)

def dropColon : List Char → Option (List Char)
  | ':' :: rest => some rest
  | _ => none

def dropColons (cs : List Char) : Option (List Char) :=
  some (cs.dropWhile fun c => c == ':' || Text.isBlank c)

def Piece.read (r : Reading) (cs : List Char) : Piece → Option (Reading × List Char)
  | .exact width part => do
    let (ds, rest) := takeDigits width cs
    guard (ds.length = width)
    return (← r.set part (Text.digitsValue ds), rest)
  | .number .year => do
    let (n, rest) ← readYear (Text.trimStart cs)
    return (← r.set .year n, rest)
  | .number part => do
    let (n, rest) ← readUnsigned 2 (Text.trimStart cs)
    return (← r.set part n, rest)
  | .mark c => match cs with
    | first :: rest => if first = c then some (r, rest) else none
    | [] => none
  | .separator => match cs with
    | first :: rest => if first = 'T' ∨ first = 't' ∨ first = ' ' then some (r, rest) else none
    | [] => none
  | .blanks => some (r, Text.trimStart cs)
  | .fraction => do
    let (nanos, rest) ← readFraction cs
    return ({ r with nanos }, rest)
  | .zone => match cs with
    | 'Z' :: rest => some (r, rest)
    | 'z' :: rest => some (r, rest)
    | _ => do
      let (offset, rest) ← readOffset dropColon cs
      return ({ r with offset }, rest)
  | .looseOffset => do
    let (offset, rest) ← readOffset dropColons (Text.trimStart cs)
    return ({ r with offset }, rest)

def Layout.readFrom (r : Reading) : List Char → Layout → Option Reading
  | [], [] => some r
  | _ :: _, [] => none
  | cs, piece :: more => do
    let (r, rest) ← piece.read r cs
    Layout.readFrom r rest more

/-- The instant of a reading whose date exists. -/
def Reading.instant? (r : Reading) : Option Instant :=
  let date : CalendarDate := ⟨r.year, r.month, r.day⟩
  let t := ofLocal date ⟨r.hour, r.minute, r.second, r.nanos⟩ r.offset
  if date.isValid && t.inRange then some t else none

/-- The instant that a whole text denotes by a layout. -/
def Layout.read? (layout : Layout) (cs : List Char) : Option Instant := do
  (← Layout.readFrom {} cs layout).instant?

namespace Layout

/-- The Internet profile: full date, full time and an offset. -/
def internet : Layout :=
  [.exact 4 .year, .mark '-', .exact 2 .month, .mark '-', .exact 2 .day, .separator,
    .exact 2 .hour, .mark ':', .exact 2 .minute, .mark ':', .exact 2 .second, .fraction, .zone]

def fullDate : Layout :=
  [.number .year, .mark '-', .number .month, .mark '-', .number .day]

def minutes : Layout := [.number .hour, .mark ':', .number .minute]

def seconds : Layout := minutes ++ [.mark ':', .number .second, .fraction]

/-- Date-times without an offset. -/
def plain : List Layout :=
  [fullDate ++ .mark 'T' :: seconds, fullDate ++ .mark 'T' :: minutes,
    fullDate ++ .blanks :: seconds, fullDate ++ .blanks :: minutes]

/-- Date-times with an offset. -/
def shifted : List Layout := plain.map (· ++ [.looseOffset])

end Layout

/-- The text without one final `Z`. -/
def dropZulu (cs : List Char) : List Char :=
  match cs.getLast? with
  | some 'Z' | some 'z' => cs.dropLast
  | _ => cs

/-- The instant that a date or date-time denotes. Tried in turn are the Internet
profile, date-times without an offset (with a `Z` or not), date-times with one, and
last a date alone or a month, whose first day it is. -/
def ofChars? (text : List Char) : Option Instant :=
  let cs := Text.trim text
  Layout.internet.read? cs
    <|> Layout.plain.findSome? (·.read? (dropZulu cs))
    <|> Layout.shifted.findSome? (·.read? cs)
    <|> Layout.fullDate.read? cs
    <|> Layout.fullDate.read? (cs ++ ['-', '0', '1'])

def ofText? (text : String) : Option Instant := ofChars? text.toList

end Criteria.Instant
