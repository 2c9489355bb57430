import Criteria.Text.Hex
import Criteria.Yaml.Cursor

set_option autoImplicit false

/-
Tags as they are written on nodes and in directives: a handle, which begins and ends with
an exclamation mark, and the rest, in which the octets of a character may stand in
hexadecimal.
-/
namespace Criteria.Yaml

structure TagText where
  handle : String
  rest : String
  deriving DecidableEq

namespace TagText

/-- The characters of a tag; between delimiters, there may be some more. -/
def isTagChar (delimited : Bool) (c : Char) : Bool :=
  isNameChar c || ";/?:@&=+$.%!~*'()".toList.contains c || (delimited && [',', '[', ']'].contains c)

/-- An octet that is written as a percent sign and two digits. -/
def octet? : List Char → Option (Nat × List Char)
  | '%' :: high :: low :: rest => (Text.hex? [high, low]).map (·, rest)
  | _ => none

/-- The code point that is completed by a number of further octets. -/
def codePoint? : Nat → Nat → List Char → Option Nat
  | 0, n, _ => some n
  | count + 1, n, cs =>
    match octet? cs with
    | some (octet, rest) =>
      if 0x80 ≤ octet ∧ octet < 0xC0 then codePoint? count (64 * n + (octet - 0x80)) rest
      else none
    | none => none

/-- The character whose octets are written out, and how many octets it has. -/
def encoded? (cs : List Char) : Option (Char × Nat) :=
  match octet? cs with
  | none => none
  | some (octet, rest) =>
    let completed (more n : Nat) : Option (Char × Nat) :=
      (codePoint? more n rest).map fun n => (Char.ofNat n, more + 1)
    if octet < 0x80 then completed 0 octet
    else if octet < 0xC0 then none
    else if octet < 0xE0 then completed 1 (octet - 0xC0)
    else if octet < 0xF0 then completed 2 (octet - 0xE0)
    else if octet < 0xF8 then completed 3 (octet - 0xF0)
    else none

/-- Reads the characters of a tag, the last one first, and how many it takes. -/
def readChars? (delimited : Bool) (text : List Char) (n : Nat) (cs : List Char) :
    Option (List Char × Nat) :=
  match cs with
  | [] => some (text, n)
  | c :: rest =>
    if !isTagChar delimited c then some (text, n)
    else if c == '%' then
      match encoded? (c :: rest) with
      | some (char, octets) =>
        readChars? delimited (char :: text) (n + 3 * octets) (rest.drop (3 * octets - 1))
      | none => none
    else readChars? delimited (c :: text) (n + 1) rest
termination_by cs.length
decreasing_by all_goals simp +arith

/-- Reads the characters of a tag, of which there is at least one. -/
def readSome (delimited : Bool) (c : Cursor) : Except Fault (List Char × Cursor) :=
  match readChars? delimited [] 0 c.rest with
  | some (char :: text, n) => .ok ((char :: text).reverse, c.skip n)
  | _ => c.fault

/-- The name at an exclamation mark, and whether a further mark makes it a handle. -/
def handleName (c : Cursor) : List Char × Bool :=
  let name := c.rest.tail.takeWhile isNameChar
  (name, c.rest.tail.drop name.length |>.head? |> (· == some '!'))

/-- Reads a tag between angle brackets, from behind the first. -/
def readVerbatim (c : Cursor) : Except Fault (TagText × Cursor) := do
  let (rest, c) ← readSome true c
  if c.isAt '>' then return (⟨"", String.ofList rest⟩, c.step) else c.fault

/-- Reads a tag from its exclamation mark on; alone, the mark is a tag of its own. -/
def readShort (c : Cursor) : Except Fault (TagText × Cursor) :=
  let (name, isHandle) := handleName c
  if isHandle then do
    let (rest, c) ← readSome false (c.skip (name.length + 2))
    return (⟨String.ofList ('!' :: name ++ ['!']), String.ofList rest⟩, c)
  else
    let c := c.skip (name.length + 1)
    match readChars? false [] 0 c.rest with
    | none => c.fault
    | some (more, n) =>
      match name ++ more.reverse with
      | [] => .ok (⟨"", "!"⟩, c)
      | rest => .ok (⟨"!", String.ofList rest⟩, c.skip n)

/-- Reads the tag of a node, which a blank or a break must follow, or inside brackets
a comma. -/
def read (inFlow : Bool) (c : Cursor) : Except Fault (TagText × Cursor) := do
  let (tag, c) ← if c.peek 1 == some '<' then readVerbatim (c.skip 2) else readShort c
  if c.atWordEnd || (inFlow && c.isAt ',') then return (tag, c) else c.fault

/-- Reads the handle that a directive defines. -/
def readHandle (c : Cursor) : Except Fault (String × Cursor) :=
  let (name, isHandle) := handleName c
  if !c.isAt '!' then c.fault
  else if isHandle then .ok (String.ofList ('!' :: name ++ ['!']), c.skip (name.length + 2))
  else if name.isEmpty then .ok ("!", c.step)
  else c.fault

/-- Reads a handle and the beginning of tags that it stands for. -/
def readDefinition (c : Cursor) : Except Fault (TagText × Cursor) := do
  let (handle, c) ← readHandle (c.skipWhile isBlank)
  if !c.atBlank then c.fault
  else
    let (rest, c) ← readSome true (c.skipWhile isBlank)
    if c.atWordEnd then return (⟨handle, String.ofList rest⟩, c) else c.fault

end TagText
end Criteria.Yaml
