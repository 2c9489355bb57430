import Criteria.Json.Fault
import Criteria.Text.Hex

set_option autoImplicit false

/- Reading the strings of JSON text, from behind the opening quote. -/
namespace Criteria.Json

/-- The value of four hexadecimal digits. Fewer than four bytes are an unfinished
string; other faults lie behind the fourth byte. -/
def readHex (cs : List Char) : Except Fault Nat :=
  match cs with
  | a :: b :: c :: d :: _ =>
    match Text.hex? [a, b, c, d] with
    | some n => .ok n
    | none => .error ⟨.invalidEscape, some (byteLength cs - 4), cs⟩
  | _ =>
    if byteLength cs < 4 then Fault.before .endInString []
    else .error ⟨.invalidEscape, some (byteLength cs - 4), cs⟩

/-- The character of an escape of four digits and, for the first half of a pair, the
escape of the other half, and how many characters that took. -/
def readUnicode (cs : List Char) : Except Fault (Char × Nat) := do
  let high ← readHex cs
  if 0xDC00 ≤ high ∧ high ≤ 0xDFFF then Fault.before .loneSurrogate (cs.drop 4)
  else if high < 0xD800 ∨ 0xDBFF < high then return (Char.ofNat high, 4)
  else
    match cs.drop 4 with
    | [] => Fault.before .endInString []
    | '\\' :: [] => Fault.before .endInString []
    | '\\' :: 'u' :: rest =>
      let low ← readHex rest
      if low < 0xDC00 ∨ 0xDFFF < low then Fault.before .loneSurrogate (rest.drop 4)
      else return (Char.ofNat (0x10000 + (high - 0xD800) * 0x400 + (low - 0xDC00)), 10)
    | '\\' :: rest => Fault.inside .endOfHexEscape rest
    | rest => Fault.inside .endOfHexEscape rest

/-- The character that an escape stands for, from behind its backslash, and how many
characters it took. -/
def readEscape : List Char → Except Fault (Char × Nat)
  | [] => Fault.before .endInString []
  | '"' :: _ => .ok ('"', 1)
  | '\\' :: _ => .ok ('\\', 1)
  | '/' :: _ => .ok ('/', 1)
  | 'b' :: _ => .ok ('\x08', 1)
  | 'f' :: _ => .ok ('\x0c', 1)
  | 'n' :: _ => .ok ('\n', 1)
  | 'r' :: _ => .ok ('\r', 1)
  | 't' :: _ => .ok ('\t', 1)
  | 'u' :: rest => do
    let (c, count) ← readUnicode rest
    return (c, count + 1)
  | cs => Fault.inside .invalidEscape cs

/-- The characters up to the closing quote. -/
def readString (cs : List Char) : Except Fault (List Char × List Char) :=
  match cs with
  | [] => Fault.before .endInString []
  | c :: rest =>
    if c = '"' then .ok ([], rest)
    else if c = '\\' then do
      let (escaped, count) ← readEscape rest
      let (more, rest) ← readString (rest.drop count)
      return (escaped :: more, rest)
    else if c.toNat < 32 then Fault.before .controlCharacter rest
    else do
      let (more, rest) ← readString rest
      return (c :: more, rest)
termination_by cs.length
decreasing_by
  · simp only [List.length_cons, List.length_drop]
    omega
  · simp

end Criteria.Json
