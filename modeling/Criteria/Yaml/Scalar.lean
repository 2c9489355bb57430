import Criteria.Text.Digits
import Criteria.Text.Hex
import Criteria.Yaml.Cursor

set_option autoImplicit false

/-
The text of scalars in their five styles: plain, in single or double quotes, and as
blocks that keep or fold their lines. Texts are collected with the last character first.
-/
namespace Criteria.Yaml

/-- The styles that readers of a scalar tell apart. -/
inductive Style where
  | plain | quoted | literal | folded
  deriving DecidableEq

/-- The white space between two words of a scalar. -/
inductive Gap where
  | within (blanks : List Char)
  /-- Breaks: the first, and the others with the last one first. -/
  | across (first more : List Char)

namespace Gap

def isAcross : Gap → Bool
  | within _ => false
  | across _ _ => true

/-- A single break stands for a space; of several, the first is dropped. -/
def text : Gap → List Char
  | within blanks => blanks
  | across first more =>
    if first == ['\n'] then (if more.isEmpty then [' '] else more.reverse)
    else first ++ more.reverse

/-- Reads on behind the first break, up to the next word. A tab must not stand left of
column `indent`. -/
def readAcross (indent : Nat) (first more : List Char) (c : Cursor) :
    Except Fault (Gap × Cursor) :=
  if _ : c.atBreak then readAcross indent first (c.breakText ++ more) c.nextLine
  else if _ : c.atBlank then
    if c.isAt '\t' && c.column < indent then c.fault
    else readAcross indent first more c.step
  else .ok (across first more, c)
termination_by c.rest.length
decreasing_by
  · exact c.length_nextLine_lt (Cursor.rest_ne_nil_of_any ‹_›)
  · have := List.length_pos_iff.2 (Cursor.rest_ne_nil_of_any ‹_›)
    simp only [Cursor.step, Cursor.length_skip]
    omega

def read (indent : Nat) (c : Cursor) : Except Fault (Gap × Cursor) :=
  let (blanks, c) := c.span isBlank
  if c.atBreak then readAcross indent c.breakText [] c.nextLine
  else .ok (within blanks, c)

end Gap

namespace Plain

/-- The characters that end a plain scalar inside brackets. -/
def isFlowIndicator (c : Char) : Bool :=
  c == ',' || c == '[' || c == ']' || c == '{' || c == '}'

/-- Reads a word, and how many characters it takes; none at a colon that would have
to be set off. -/
def word? (inFlow : Bool) : List Char → Nat → List Char → Option (List Char × Nat)
  | text, n, [] => some (text, n)
  | text, n, c :: rest =>
    let next := rest.head?
    if endsWord (some c) then some (text, n)
    else if inFlow && c == ':' && next.any fun d => isFlowIndicator d || d == '?' then none
    else if (c == ':' && endsWord next) || (inFlow && isFlowIndicator c) then some (text, n)
    else word? inFlow (c :: text) (n + 1) rest

/-- Reads words and the gaps between them. The last gap is not part of the text; the
flag says whether it holds a break. -/
def readWords (inFlow : Bool) (indent : Nat) :
    Nat → List Char → Gap → Cursor → Except Fault (List Char × Bool × Cursor)
  | 0, text, gap, c => .ok (text, gap.isAcross, c)
  | fuel + 1, text, gap, c =>
    if c.atDocumentMark || c.isAt '#' then .ok (text, gap.isAcross, c)
    else match word? inFlow [] 0 c.rest with
    | none => c.fault
    | some (_, 0) => .ok (text, gap.isAcross, c)
    | some (word, n) => do
      let text := word ++ gap.text.reverseAux text
      let c := c.skip n
      if c.atBlank || c.atBreak then
        let (gap, c) ← Gap.read indent c
        if !inFlow && c.column < indent then return (text, gap.isAcross, c)
        else readWords inFlow indent fuel text gap c
      else return (text, false, c)

/-- A plain scalar whose further lines reach column `indent` at least. -/
def read (inFlow : Bool) (indent : Nat) (c : Cursor) :
    Except Fault (String × Bool × Cursor) := do
  let (text, broken, c) ← readWords inFlow indent (c.rest.length + 1) [] (.within []) c
  return (String.ofList text.reverse, broken, c)

end Plain

namespace Quoted

/-- The character that a letter behind a backslash stands for. -/
def escape? : Char → Option Char
  | '0' => some '\x00'
  | 'a' => some '\x07'
  | 'b' => some '\x08'
  | 't' => some '\t'
  | '\t' => some '\t'
  | 'n' => some '\n'
  | 'v' => some '\x0b'
  | 'f' => some '\x0c'
  | 'r' => some '\r'
  | 'e' => some '\x1b'
  | ' ' => some ' '
  | '"' => some '"'
  | '/' => some '/'
  | '\\' => some '\\'
  | 'N' => some '\x85'
  | '_' => some '\u00a0'
  | 'L' => some '\u2028'
  | 'P' => some '\u2029'
  | _ => none

/-- How many digits follow a letter that begins a code point. -/
def codeLength? : Char → Option Nat
  | 'x' => some 2
  | 'u' => some 4
  | 'U' => some 8
  | _ => none

def codePoint? (length : Nat) (cs : List Char) : Option Char := do
  let digits := cs.take length
  guard (digits.length = length)
  let n ← Text.hex? digits
  if n.isValidChar then some (Char.ofNat n) else none

/-- Reads a word in single quotes, where two quotes stand for one. -/
def singleWord : List Char → Nat → List Char → List Char × Nat
  | text, n, '\'' :: '\'' :: rest => singleWord ('\'' :: text) (n + 2) rest
  | text, n, c :: rest =>
    if c == '\'' || endsWord (some c) then (text, n) else singleWord (c :: text) (n + 1) rest
  | text, n, [] => (text, n)

/-- Reads a word in double quotes, up to a backslash before a break at most. -/
def doubleWord? (text : List Char) (n : Nat) (cs : List Char) : Option (List Char × Nat) :=
  match cs with
  | [] => some (text, n)
  | '\\' :: [] => none
  | '\\' :: c :: rest =>
    if isBreak c then some (text, n)
    else match codeLength? c with
    | some length =>
      match codePoint? length rest with
      | some char => doubleWord? (char :: text) (n + 2 + length) (rest.drop length)
      | none => none
    | none =>
      match escape? c with
      | some char => doubleWord? (char :: text) (n + 2) rest
      | none => none
  | c :: rest =>
    if c == '"' || endsWord (some c) then some (text, n)
    else doubleWord? (c :: text) (n + 1) rest
termination_by cs.length
decreasing_by all_goals simp +arith

def word? (quote : Char) (text cs : List Char) : Option (List Char × Nat) :=
  if quote == '"' then doubleWord? text 0 cs else some (singleWord text 0 cs)

def readWords (quote : Char) : Nat → List Char → Cursor → Except Fault (List Char × Cursor)
  | 0, _, c => c.fault
  | fuel + 1, text, c =>
    if c.atDocumentMark then c.fault
    else match word? quote text c.rest with
    | none => c.fault
    | some (text, n) =>
      let c := c.skip n
      match c.rest with
      | [] => c.fault
      | char :: _ =>
        if char == quote then .ok (text, c.step)
        else do
          let (gap, c) ←
            if char == '\\' then Gap.readAcross 0 [] [] c.step.nextLine else Gap.read 0 c
          readWords quote fuel (gap.text.reverseAux text) c

/-- A scalar in quotes, read from its first quote on. -/
def read (quote : Char) (c : Cursor) : Except Fault (String × Cursor) := do
  let (text, c) ← readWords quote (c.rest.length + 1) [] c.step
  return (String.ofList text.reverse, c)

end Quoted

namespace Block

/-- What becomes of the breaks at the end of a block. -/
inductive Chomping where
  | strip | clip | keep
  deriving DecidableEq

def chomping? : Option Char → Option Chomping
  | some '+' => some .keep
  | some '-' => some .strip
  | _ => none

def digit? : Option Char → Option Nat
  | some c => if c.isDigit then some (Text.digitValue c) else none
  | none => none

/-- Reads what follows the indicator of a block: how its end is treated and by how much
it is indented, both left to the default or given in either order. -/
def readHeader (c : Cursor) : Except Fault (Chomping × Option Nat × Cursor) := do
  let (chomping, increment, c) :=
    match chomping? (c.peek 0), digit? (c.peek 0) with
    | some chomping, _ =>
      match digit? (c.peek 1) with
      | some n => (chomping, some n, c.skip 2)
      | none => (chomping, none, c.step)
    | none, some n =>
      match chomping? (c.peek 1) with
      | some chomping => (chomping, some n, c.skip 2)
      | none => (.clip, some n, c.step)
    | none, none => (.clip, none, c)
  let c := (c.skipWhile isBlank).skipComment
  if increment == some 0 || !c.atLineEnd then c.fault
  else return (chomping, increment, c.nextLine)

/-- Passes over the spaces that indent a line, up to column `indent` if it is known. -/
def skipIndent (indent : Option Nat) (c : Cursor) : Cursor :=
  let spaces := (c.rest.takeWhile (· == ' ')).length
  match indent with
  | some n => c.skip (min spaces (n - c.column))
  | none => c.skip spaces

theorem length_skipIndent_le (indent : Option Nat) (c : Cursor) :
    (skipIndent indent c).rest.length ≤ c.rest.length := by
  unfold skipIndent
  split <;> simp [Cursor.length_skip]

/-- Reads empty lines, and the indentation of the next one: the breaks, the last one
first, and the furthest column that was reached. -/
def readBreaks (indent : Option Nat) (breaks : List Char) (furthest : Nat) (c : Cursor) :
    Except Fault (List Char × Nat × Cursor) :=
  let next := skipIndent indent c
  let furthest := max furthest next.column
  if next.isAt '\t' && indent.all (next.column < ·) then next.fault
  else if _ : next.atBreak then
    readBreaks indent (next.breakText ++ breaks) furthest next.nextLine
  else .ok (breaks, furthest, next)
termination_by c.rest.length
decreasing_by
  exact Nat.lt_of_lt_of_le (Cursor.length_nextLine_lt _ (Cursor.rest_ne_nil_of_any ‹_›))
    (length_skipIndent_le indent c)

/-- The text of a block so far: what is read for certain, the break behind the last line,
the empty lines behind that, the last one first, and whether the last line began with a
blank. -/
structure Lines where
  text : List Char := []
  lead : List Char := []
  breaks : List Char
  afterBlank : Bool := false

/-- Reads the lines that are indented as far as the block. -/
def readLines (literal : Bool) (indent : Nat) : Nat → Lines → Cursor → Except Fault (Lines × Cursor)
  | 0, lines, c => .ok (lines, c)
  | fuel + 1, lines, c =>
    if c.column != indent || c.rest.isEmpty then .ok (lines, c)
    else do
      let folds := !literal && lines.lead == ['\n'] && !lines.afterBlank && !c.atBlank
      let joint :=
        if folds then (if lines.breaks.isEmpty then [' '] else lines.breaks)
        else lines.breaks ++ lines.lead
      let (line, behind) := c.span (!isBreak ·)
      let (breaks, _, next) ← readBreaks (some indent) [] 0 behind.nextLine
      readLines literal indent fuel
        { text := line.reverseAux (joint ++ lines.text), lead := behind.breakText, breaks,
          afterBlank := c.atBlank } next

def Lines.chomp (lines : Lines) : Chomping → List Char
  | .strip => lines.text
  | .clip => lines.lead ++ lines.text
  | .keep => lines.breaks ++ (lines.lead ++ lines.text)

/-- A block scalar, read from its indicator on, inside a block that begins left of
column `limit`. -/
def read (literal : Bool) (limit : Nat) (c : Cursor) : Except Fault (String × Cursor) := do
  let (chomping, increment, c) ← readHeader c.step
  let given := increment.map fun n => (limit - 1) + n
  let (breaks, furthest, c) ← readBreaks given [] 0 c
  let indent := given.getD (max furthest (max limit 1))
  let (lines, c) ← readLines literal indent (c.rest.length + 1) { breaks } c
  return (String.ofList (lines.chomp chomping).reverse, c)

end Block
end Criteria.Yaml
