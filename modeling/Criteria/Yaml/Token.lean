import Criteria.Yaml.Scalar
import Criteria.Yaml.Tag

set_option autoImplicit false

/-
The tokens of a YAML text. Indentation shows as tokens that open and close blocks. A key
without a question mark is known by the colon behind it only, so that its place among the
tokens is kept until the colon comes or can no longer come.
-/
namespace Criteria.Yaml

inductive Token where
  | version (major minor : Nat)
  | handle (definition : TagText)
  | documentStart
  | documentEnd
  | blockSequence
  | blockMapping
  | blockEnd
  | sequenceStart
  | sequenceEnd
  | mappingStart
  | mappingEnd
  | blockEntry
  | flowEntry
  | key
  | value
  | anchor (name : String)
  | alias (name : String)
  | tag (text : TagText)
  | scalar (style : Style) (text : String)
  deriving DecidableEq

/-- A place where a key may have begun. -/
structure KeyPlace where
  /-- Whether the block is broken if no key begins here. -/
  required : Bool
  /-- How many tokens stand before it. -/
  position : Nat
  start : Cursor

/-- A text that has been read into tokens so far. -/
structure Lexer where
  cursor : Cursor
  tokens : Array Token := #[]
  /-- The columns where the open blocks begin, the innermost first. -/
  blocks : List Nat := []
  /-- Whether a key may begin at the next token. -/
  keyAllowed : Bool := true
  keyPlace : Option KeyPlace := none
  /-- The key places outside of each open bracket, the innermost first. -/
  outerPlaces : List (Option KeyPlace) := []

namespace Lexer

def inFlow (l : Lexer) : Bool := !l.outerPlaces.isEmpty

/-- The column that text inside the innermost block must reach. -/
def limit (l : Lexer) : Nat :=
  match l.blocks with
  | [] => 0
  | column :: _ => column + 1

def push (l : Lexer) (token : Token) : Lexer := { l with tokens := l.tokens.push token }

/-- A token that takes up the next characters. -/
def pushAt (l : Lexer) (token : Token) (length : Nat) : Lexer :=
  { l.push token with cursor := l.cursor.skip length }

/-- How far behind its beginning the colon of a key may stand. -/
def keyReach : Nat := 1024

/-- Gives up a key place whose colon can no longer come. -/
def expire (here : Cursor) (place : Option KeyPlace) : Except Fault (Option KeyPlace) :=
  match place with
  | none => .ok none
  | some place =>
    if place.start.line < here.line || place.start.offset + keyReach < here.offset then
      if place.required then here.fault else .ok none
    else .ok (some place)

def expireAll (l : Lexer) : Except Fault Lexer := do
  return { l with
    keyPlace := ← expire l.cursor l.keyPlace
    outerPlaces := ← l.outerPlaces.mapM (expire l.cursor) }

/-- Gives up the innermost key place, where no colon has come. -/
def dropKey (l : Lexer) : Except Fault Lexer :=
  match l.keyPlace with
  | some place => if place.required then l.cursor.fault else .ok { l with keyPlace := none }
  | none => .ok l

/-- Remembers that a key may begin at the next token. -/
def markKey (l : Lexer) : Except Fault Lexer :=
  if l.keyAllowed then do
    let l ← l.dropKey
    let place := {
      required := !l.inFlow && l.blocks.head? == some l.cursor.column
      position := l.tokens.size
      start := l.cursor }
    return { l with keyPlace := some place }
  else .ok l

/-- Opens a block at a column, unless one begins there already. -/
def openBlock (l : Lexer) (column position : Nat) (token : Token) : Lexer :=
  if !l.inFlow && l.limit ≤ column then
    { l with
      blocks := column :: l.blocks
      tokens := l.tokens.insertIdxIfInBounds position token }
  else l

/-- Closes the blocks that satisfy a test, from the innermost on. -/
def closeBlocks (l : Lexer) (p : Nat → Bool) : Lexer :=
  if l.inFlow then l
  else
    let closed := l.blocks.takeWhile p
    { l with
      blocks := l.blocks.drop closed.length
      tokens := closed.foldl (fun tokens _ => tokens.push .blockEnd) l.tokens }

/-- Passes over blanks and a comment, and over a mark of byte order where a line begins.
With `tabs`, tabs are blanks. -/
def skipBlanks (tabs : Bool) (c : Cursor) : Cursor :=
  let c := if c.column == 0 && c.isAt '\ufeff' then c.step else c
  (c.skipWhile fun char => char == ' ' || (tabs && char == '\t')).skipComment

theorem length_skipBlanks_le (tabs : Bool) (c : Cursor) :
    (skipBlanks tabs c).rest.length ≤ c.rest.length := by
  unfold skipBlanks
  refine Nat.le_trans (Cursor.length_skipComment_le _) (Nat.le_trans
    (Cursor.length_skipWhile_le _ _) ?_)
  split
  · simp [Cursor.step, Cursor.length_skip]
  · exact Nat.le_refl _

/-- Passes over white space and comments. Outside of brackets, a key may begin behind a
break, and no tab may stand where a key may begin. -/
def skipSpace (inFlow keyAllowed : Bool) (c : Cursor) : Bool × Cursor :=
  let next := skipBlanks (inFlow || !keyAllowed) c
  if _ : next.atBreak then skipSpace inFlow (keyAllowed || !inFlow) next.nextLine
  else (keyAllowed, next)
termination_by c.rest.length
decreasing_by
  exact Nat.lt_of_lt_of_le (Cursor.length_nextLine_lt _ (Cursor.rest_ne_nil_of_any ‹_›))
    (length_skipBlanks_le _ c)

/-- A number of at most nine digits. -/
def readNumber (c : Cursor) : Except Fault (Nat × Cursor) :=
  let (digits, next) := c.span Char.isDigit
  if digits.isEmpty || 9 < digits.length then c.fault
  else .ok (Text.digitsValue digits, next)

def readVersion (c : Cursor) : Except Fault (Token × Cursor) := do
  let (major, c) ← readNumber (c.skipWhile isBlank)
  if !c.isAt '.' then c.fault
  else
    let (minor, c) ← readNumber c.step
    return (.version major minor, c)

/-- A directive takes up the rest of its line. -/
def directive (l : Lexer) : Except Fault Lexer := do
  let l ← (l.closeBlocks fun _ => true).dropKey
  let (name, c) := l.cursor.step.span isNameChar
  if !c.atWordEnd then c.fault
  else
    let (token, c) ←
      if name == ['Y', 'A', 'M', 'L'] then readVersion c
      else if name == ['T', 'A', 'G'] then do
        let (definition, c) ← TagText.readDefinition c
        pure (Token.handle definition, c)
      else c.fault
    let c := (c.skipWhile isBlank).skipComment
    if !c.atLineEnd then c.fault
    else return { l.push token with cursor := c.nextLine, keyAllowed := false }

def documentMark (l : Lexer) (token : Token) : Except Fault Lexer := do
  let l ← (l.closeBlocks fun _ => true).dropKey
  return { l.pushAt token 3 with keyAllowed := false }

def openBracket (l : Lexer) (token : Token) : Except Fault Lexer := do
  let l ← l.markKey
  return { l.pushAt token 1 with
    keyAllowed := true, keyPlace := none, outerPlaces := l.keyPlace :: l.outerPlaces }

def closeBracket (l : Lexer) (token : Token) : Except Fault Lexer := do
  let l := { ← l.dropKey with keyAllowed := false }
  match l.outerPlaces with
  | [] => return l.pushAt token 1
  | place :: outer => return { l.pushAt token 1 with keyPlace := place, outerPlaces := outer }

def comma (l : Lexer) : Except Fault Lexer := do
  return { (← l.dropKey).pushAt .flowEntry 1 with keyAllowed := true }

def hyphen (l : Lexer) : Except Fault Lexer := do
  if !l.inFlow && !l.keyAllowed then l.cursor.fault
  else
    let l ← (l.openBlock l.cursor.column l.tokens.size .blockSequence).dropKey
    return { l.pushAt .blockEntry 1 with keyAllowed := true }

def questionMark (l : Lexer) : Except Fault Lexer := do
  if !l.inFlow && !l.keyAllowed then l.cursor.fault
  else
    let l ← (l.openBlock l.cursor.column l.tokens.size .blockMapping).dropKey
    return { l.pushAt .key 1 with keyAllowed := !l.inFlow }

/-- A colon turns what began at the key place into a key. -/
def colon (l : Lexer) : Except Fault Lexer :=
  match l.keyPlace with
  | some place =>
    let l := { l with tokens := l.tokens.insertIdxIfInBounds place.position .key }
    let l := l.openBlock place.start.column place.position .blockMapping
    .ok { l.pushAt .value 1 with keyPlace := none, keyAllowed := false }
  | none =>
    if !l.inFlow && !l.keyAllowed then l.cursor.fault
    else
      let l := l.openBlock l.cursor.column l.tokens.size .blockMapping
      .ok { l.pushAt .value 1 with keyAllowed := !l.inFlow }

/-- The characters other than blanks and breaks that may follow the name of an anchor. -/
def isAfterName (c : Char) : Bool := "?:,]\x7d%@\x60".toList.contains c

/-- An anchor or an alias, by its name. -/
def name (l : Lexer) (token : String → Token) : Except Fault Lexer := do
  let l ← l.markKey
  let (name, c) := l.cursor.step.span isNameChar
  if name.isEmpty || !(c.atWordEnd || c.rest.head?.any isAfterName) then c.fault
  else return { l.push (token (String.ofList name)) with cursor := c, keyAllowed := false }

def tag (l : Lexer) : Except Fault Lexer := do
  let l ← l.markKey
  let (text, c) ← TagText.read l.inFlow l.cursor
  return { l.push (.tag text) with cursor := c, keyAllowed := false }

def block (l : Lexer) (style : Style) : Except Fault Lexer := do
  let l ← l.dropKey
  let (text, c) ← Block.read (style == .literal) l.limit l.cursor
  return { l.push (.scalar style text) with cursor := c, keyAllowed := true }

def quoted (l : Lexer) (quote : Char) : Except Fault Lexer := do
  let l ← l.markKey
  let (text, c) ← Quoted.read quote l.cursor
  return { l.push (.scalar .quoted text) with cursor := c, keyAllowed := false }

/-- Behind a plain scalar, a key may begin if a break has been passed over. -/
def plain (l : Lexer) : Except Fault Lexer := do
  let l ← l.markKey
  let (text, broken, c) ← Plain.read l.inFlow l.limit l.cursor
  return { l.push (.scalar .plain text) with cursor := c, keyAllowed := broken }

/-- The characters that begin no plain scalar by themselves. -/
def isIndicator (c : Char) : Bool := "-?:,[]\x7b\x7d#&*!|>'\"%@\x60".toList.contains c

/-- Whether a plain scalar begins with a character, by the one behind it. -/
def beginsPlain (inFlow : Bool) (c : Char) (next : Option Char) : Bool :=
  !(endsWord (some c) || isIndicator c) ||
    (c == '-' && !next.any isBlank) ||
    (!inFlow && (c == '?' || c == ':') && !endsWord next)

/-- Reads the token that begins with a character, which is the next one. -/
def token (l : Lexer) (c : Char) : Except Fault Lexer :=
  let next := l.cursor.peek 1
  if c == '%' && l.cursor.column == 0 then l.directive
  else if l.cursor.atMark '-' then l.documentMark .documentStart
  else if l.cursor.atMark '.' then l.documentMark .documentEnd
  else if c == '[' then l.openBracket .sequenceStart
  else if c == '{' then l.openBracket .mappingStart
  else if c == ']' then l.closeBracket .sequenceEnd
  else if c == '}' then l.closeBracket .mappingEnd
  else if c == ',' then l.comma
  else if c == '-' && endsWord next then l.hyphen
  else if c == '?' && (l.inFlow || endsWord next) then l.questionMark
  else if c == ':' && (l.inFlow || endsWord next) then l.colon
  else if c == '*' then l.name .alias
  else if c == '&' then l.name .anchor
  else if c == '!' then l.tag
  else if c == '|' && !l.inFlow then l.block .literal
  else if c == '>' && !l.inFlow then l.block .folded
  else if c == '\'' || c == '"' then l.quoted c
  else if beginsPlain l.inFlow c next then l.plain
  else l.cursor.fault

/-- Reads the tokens up to the end of the text. -/
def run : Nat → Lexer → Except Fault Lexer
  | 0, l => .ok l
  | fuel + 1, l => do
    let (keyAllowed, cursor) := skipSpace l.inFlow l.keyAllowed l.cursor
    let l ← { l with keyAllowed, cursor }.expireAll
    match cursor.rest with
    | [] => (l.closeBlocks fun _ => true).dropKey
    | c :: _ => run fuel (← (l.closeBlocks (cursor.column < ·)).token c)

end Lexer

/-- The tokens of a text. -/
def Token.ofText (text : String) : Except Fault (List Token) := do
  let cs := text.toList
  if !cs.all isAllowed then throw .badCharacter
  let l ← Lexer.run (cs.length + 1) { cursor := { rest := cs } }
  return l.tokens.toList

end Criteria.Yaml
