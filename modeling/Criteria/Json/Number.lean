import Criteria.Json.Fault
import Criteria.Text.Digits

set_option autoImplicit false

/-
Reading JSON numbers. The digits are gathered in a 64-bit word, digits that no
longer fit count as exponent in front of the point and are dropped behind it, and
the word is scaled by one power of ten. The scaling rounds a second time, so the
result may be a neighbour of the nearest double.
-/
namespace Criteria

namespace Magnitude

/-- The magnitude nearest to a power of ten. -/
def powerOfTen (exponent : Nat) : Magnitude := (ofDecimal? 1 exponent).getD zero

/-- Divides by 10³⁰⁸ as many times as given, unless nothing is left before. -/
def divideAgain : Nat → Magnitude → Option Magnitude
  | 0, m => some m
  | n + 1, m => if m.isZero then some m else do divideAgain n (← m.div? (powerOfTen 308))

/-- The magnitude times a power of ten, rounded, if it does not overflow. -/
def scale? (m : Magnitude) (exponent : Int) : Option Magnitude :=
  let power := exponent.natAbs
  if 0 ≤ exponent then
    if power ≤ 308 then m.mul? (powerOfTen power)
    else if m.isZero then some m
    else none
  else do
    let times := (power - 1) / 308
    (← divideAgain times m).div? (powerOfTen (power - 308 * times))

end Magnitude

namespace JsonNumber

/-- The greatest word that digits are gathered in. -/
def maxWord : Nat := 2 ^ (64 : Nat) - 1

/-- Gathers digits in a word while they fit, and counts them. -/
def gather (word count : Nat) : List Char → Nat × Nat × List Char
  | [] => (word, count, [])
  | c :: rest =>
    if c.isDigit && 10 * word + Text.digitValue c ≤ maxWord then
      gather (10 * word + Text.digitValue c) (count + 1) rest
    else (word, count, c :: rest)

/-- Gathers the digits of an exponent; none if it gets too great, with what follows
the digit that did it. -/
def gatherExponent (exponent : Nat) : List Char → Option Nat × List Char
  | [] => (some exponent, [])
  | c :: rest =>
    if c.isDigit then
      if 10 * exponent + Text.digitValue c < 2 ^ (31 : Nat) then
        gatherExponent (10 * exponent + Text.digitValue c) rest
      else (none, rest)
    else (some exponent, c :: rest)

/-- A word of digits times a power of ten. -/
def assemble (sign : Bool) (word : Nat) (exponent : Int) (rest : List Char) :
    Except Json.Fault (JsonNumber × List Char) :=
  match ((Magnitude.ofNat? word).getD .zero).scale? exponent with
  | some m => .ok (.double sign m, rest)
  | none => Json.Fault.before .numberOutOfRange rest

/-- Whether a minus stands in front of the digits of an exponent, and the digits. -/
def exponentSign : List Char → Bool × List Char
  | '+' :: rest => (false, rest)
  | '-' :: rest => (true, rest)
  | cs => (false, cs)

/-- The digits of an exponent. The sum of the exponents stays within 32 bits with a
sign. -/
def readPower (sign : Bool) (word : Nat) (exponent : Int) (down : Bool) :
    List Char → Except Json.Fault (JsonNumber × List Char)
  | [] => Json.Fault.before .endInValue []
  | c :: rest =>
    if c.isDigit then
      match gatherExponent (Text.digitValue c) rest with
      | (some n, rest) =>
        let total :=
          if down then max (exponent - n) (-2 ^ (31 : Nat))
          else min (exponent + n) (2 ^ (31 : Nat) - 1)
        assemble sign word total rest
      | (none, rest) =>
        if word ≠ 0 && !down then Json.Fault.before .numberOutOfRange rest
        else .ok (.double sign .zero, rest.dropWhile Char.isDigit)
    else Json.Fault.inside .invalidNumber (c :: rest)

/-- What follows the letter of an exponent. -/
def readExponent (sign : Bool) (word : Nat) (exponent : Int) (cs : List Char) :
    Except Json.Fault (JsonNumber × List Char) :=
  let (down, digits) := exponentSign cs
  readPower sign word exponent down digits

/-- What follows the digits: an exponent or the end of the number. -/
def readTail (sign : Bool) (word : Nat) (exponent : Int) :
    List Char → Except Json.Fault (JsonNumber × List Char)
  | 'e' :: rest => readExponent sign word exponent rest
  | 'E' :: rest => readExponent sign word exponent rest
  | cs => assemble sign word exponent cs

/-- What follows the point, at least one digit. -/
def readDecimals (sign : Bool) (word : Nat) (exponent : Int) (cs : List Char) :
    Except Json.Fault (JsonNumber × List Char) :=
  match gather word 0 cs with
  | (word, count, c :: rest) =>
    if c.isDigit then readTail sign word (exponent - count) (rest.dropWhile Char.isDigit)
    else if count = 0 then Json.Fault.inside .invalidNumber (c :: rest)
    else readTail sign word (exponent - count) (c :: rest)
  | (word, count, []) =>
    if count = 0 then Json.Fault.before .endInValue []
    else readTail sign word (exponent - count) []

/-- A whole number in range, or the double that stands for it. -/
def ofWord (sign : Bool) (word : Nat) : JsonNumber :=
  if sign then
    if 1 ≤ word ∧ word ≤ 2 ^ (63 : Nat) then .negative word
    else .double true ((Magnitude.ofNat? word).getD .zero)
  else .natural word

/-- What follows digits that fit into the word. -/
def readAfterDigits (sign : Bool) (word : Nat) :
    List Char → Except Json.Fault (JsonNumber × List Char)
  | '.' :: rest => readDecimals sign word 0 rest
  | 'e' :: rest => readExponent sign word 0 rest
  | 'E' :: rest => readExponent sign word 0 rest
  | cs => .ok (ofWord sign word, cs)

/-- What follows digits that do not fit, each of which counts as a power of ten. -/
def readAfterOverflow (sign : Bool) (word : Nat) (cs : List Char) :
    Except Json.Fault (JsonNumber × List Char) :=
  let extra := cs.takeWhile Char.isDigit
  match cs.dropWhile Char.isDigit with
  | '.' :: rest => readDecimals sign word extra.length rest
  | rest => readTail sign word extra.length rest

/-- A number after its sign. No digit follows a leading zero. -/
def read (sign : Bool) : List Char → Except Json.Fault (JsonNumber × List Char)
  | [] => Json.Fault.before .endInValue []
  | '0' :: rest =>
    if (rest.head?.any Char.isDigit) then Json.Fault.inside .invalidNumber rest
    else readAfterDigits sign 0 rest
  | c :: rest =>
    if c.isDigit then
      match gather (Text.digitValue c) 0 rest with
      | (word, _, next) =>
        if next.head?.any Char.isDigit then readAfterOverflow sign word next
        else readAfterDigits sign word next
    else Json.Fault.inside .invalidNumber (c :: rest)

end JsonNumber
end Criteria
