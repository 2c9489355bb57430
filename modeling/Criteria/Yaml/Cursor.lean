set_option autoImplicit false

/-
Places in a YAML text: the rest of the text, with the line and the column reached. A
line ends with any of five breaks, of which carriage return and line feed together are one.
-/
namespace Criteria.Yaml

/-- The characters that a YAML text may hold. -/
def isAllowed (c : Char) : Bool :=
  c == '\t' || c == '\n' || c == '\r' || (' ' ≤ c && c ≤ '~') || c == '\x85' ||
    ('\u00a0' ≤ c && c ≤ '\ufffd') || 0x10000 ≤ c.toNat

def isBreak (c : Char) : Bool :=
  c == '\n' || c == '\r' || c == '\x85' || c == '\u2028' || c == '\u2029'

def isBlank (c : Char) : Bool := c == ' ' || c == '\t'

/-- The characters of names: of anchors, directives and tag handles. -/
def isNameChar (c : Char) : Bool := c.isAlphanum || c == '_' || c == '-'

/-- Whether a line ends where the given character is next. -/
def endsLine : Option Char → Bool
  | none => true
  | some c => isBreak c

/-- Whether a word ends where the given character is next. -/
def endsWord : Option Char → Bool
  | none => true
  | some c => isBlank c || isBreak c

/-- Why a text is not the YAML that is wanted. -/
inductive Fault where
  | badCharacter
  | badToken (line column : Nat)
  | badDocument
  | secondDocument
  | unknownAlias (name : String)
  | unknownHandle (handle : String)
  | notA (expected : String)
  | missing (member : String)
  | repeated (member : String)
  deriving DecidableEq

def Fault.message : Fault → String
  | .badCharacter => "the text holds a character that is not allowed"
  | .badToken line column =>
    "no token fits at line " ++ toString (line + 1) ++ " column " ++ toString (column + 1)
  | .badDocument => "the tokens make no document"
  | .secondDocument => "there is more than one document"
  | .unknownAlias name => "unknown anchor " ++ name
  | .unknownHandle handle => "unknown tag handle " ++ handle
  | .notA expected => "expected " ++ expected
  | .missing member => "missing member " ++ member
  | .repeated member => "repeated member " ++ member

structure Cursor where
  rest : List Char
  /-- How many characters lie behind. -/
  offset : Nat := 0
  line : Nat := 0
  column : Nat := 0

namespace Cursor

def fault {α : Type} (c : Cursor) : Except Fault α := .error (.badToken c.line c.column)

def peek (c : Cursor) (n : Nat) : Option Char := c.rest[n]?

def isAt (c : Cursor) (char : Char) : Bool := c.rest.head? == some char

def atBlank (c : Cursor) : Bool := c.rest.head?.any isBlank

def atBreak (c : Cursor) : Bool := c.rest.head?.any isBreak

def atLineEnd (c : Cursor) : Bool := endsLine c.rest.head?

def atWordEnd (c : Cursor) : Bool := endsWord c.rest.head?

/-- Passes over characters of the same line. -/
def skip (c : Cursor) (n : Nat) : Cursor :=
  { c with rest := c.rest.drop n, offset := c.offset + n, column := c.column + n }

def step (c : Cursor) : Cursor := c.skip 1

/-- Passes over characters of the same line as long as they satisfy a test. -/
def skipWhile (c : Cursor) (p : Char → Bool) : Cursor := c.skip (c.rest.takeWhile p).length

/-- The characters that `skipWhile` passes over, and where it ends. -/
def span (c : Cursor) (p : Char → Bool) : List Char × Cursor :=
  (c.rest.takeWhile p, c.skipWhile p)

/-- Passes over one break. -/
def nextLine (c : Cursor) : Cursor :=
  match c.rest with
  | '\r' :: '\n' :: rest => ⟨rest, c.offset + 2, c.line + 1, 0⟩
  | _ :: rest => ⟨rest, c.offset + 1, c.line + 1, 0⟩
  | [] => c

/-- What the break here stands for in the text of a scalar. -/
def breakText (c : Cursor) : List Char :=
  match c.rest with
  | [] => []
  | char :: _ => if char == '\u2028' || char == '\u2029' then [char] else ['\n']

def skipComment (c : Cursor) : Cursor :=
  if c.isAt '#' then c.skipWhile (!isBreak ·) else c

/-- Whether a line begins here with three of a character and the end of a word. -/
def atMark (c : Cursor) (char : Char) : Bool :=
  c.column == 0 && c.rest.take 3 == [char, char, char] && endsWord (c.peek 3)

/-- Whether a line that ends or begins a document begins here. -/
def atDocumentMark (c : Cursor) : Bool := c.atMark '-' || c.atMark '.'

theorem length_skip (c : Cursor) (n : Nat) :
    (c.skip n).rest.length = c.rest.length - n := by
  simp [skip]

theorem length_skipWhile_le (c : Cursor) (p : Char → Bool) :
    (c.skipWhile p).rest.length ≤ c.rest.length := by
  simp [skipWhile, length_skip]

theorem length_skipComment_le (c : Cursor) : c.skipComment.rest.length ≤ c.rest.length := by
  unfold skipComment
  split
  · exact length_skipWhile_le c _
  · exact Nat.le_refl _

theorem length_nextLine_lt (c : Cursor) (h : c.rest ≠ []) :
    c.nextLine.rest.length < c.rest.length := by
  unfold nextLine
  split <;> rename_i hc
  · simp only [hc, List.length_cons]
    omega
  · simp only [hc, List.length_cons]
    omega
  · exact absurd hc h

theorem rest_ne_nil_of_any {c : Cursor} {p : Char → Bool} (h : c.rest.head?.any p = true) :
    c.rest ≠ [] := by
  intro hn
  simp [hn] at h

end Cursor
end Criteria.Yaml
