import Criteria.Text.Blank

set_option autoImplicit false

/-
Files of assignments to variables. A line assigns a value to a name; quotes carry a value
over several lines, and a dollar sign refers to another variable. The first line that is
malformed ends the file.
-/
namespace Criteria

/-- A part of a value: characters, or what another variable holds. -/
inductive Piece where
  | char (c : Char)
  | reference (name : String)
  deriving DecidableEq

structure Assignment where
  name : String
  value : List Piece
  deriving DecidableEq

namespace Assignment

/-- How a value is being read. -/
inductive Phase where
  | running
  | escaped
  | strong
  /-- In a name behind a dollar sign, the last character first. -/
  | name (text : List Char)
  /-- In a name in braces. -/
  | braced (text : List Char)
  /-- Behind a blank, where a comment only may follow. -/
  | ended
  | comment

/-- A value that has been read so far, the last piece first. -/
structure Progress where
  phase : Phase := .running
  /-- Whether double quotes are open. -/
  weak : Bool := false
  pieces : List Piece := []

namespace Progress

def add (p : Progress) (c : Char) : Progress :=
  { p with phase := .running, pieces := .char c :: p.pieces }

def refer (p : Progress) (name : List Char) : Progress :=
  { p with phase := .running, pieces := .reference (String.ofList name.reverse) :: p.pieces }

/-- What a character means outside of names, single quotes and comments. -/
def advance (p : Progress) (c : Char) : Progress :=
  if c == '$' then { p with phase := .name [] }
  else if c == '\\' then { p with phase := .escaped }
  else if c == '"' then { p with weak := !p.weak }
  else if p.weak then p.add c
  else if c == '\'' then { p with phase := .strong }
  else if c == ' ' || c == '\t' then { p with phase := .ended }
  else p.add c

/-- A reference without braces ends at the first character that is no letter or digit,
which stands for itself even if it is a quote. -/
def isReferenceChar (c : Char) : Bool := c.isAlphanum || 0x80 ≤ c.toNat

def step? (p : Progress) (c : Char) : Option Progress :=
  match p.phase with
  | .comment => some p
  | .ended =>
    if c == ' ' || c == '\t' then some p
    else if c == '#' then some { p with phase := .comment }
    else none
  | .escaped =>
    if ['\\', '\'', '"', '$', ' '].contains c then some (p.add c)
    else if c == 'n' then some (p.add '\n')
    else none
  | .strong =>
    if c == '\'' then some { p with phase := .running }
    else some { p with pieces := .char c :: p.pieces }
  | .name text =>
    if isReferenceChar c then some { p with phase := .name (c :: text) }
    else if c == '{' && text.isEmpty then some { p with phase := .braced [] }
    else if c == '$' then some { p.refer text with phase := .name [] }
    else some ((p.refer text).add c)
  | .braced text =>
    if c == '}' then some (p.refer text) else some { p with phase := .braced (c :: text) }
  | .running => some (p.advance c)

/-- The value, if its quotes and braces are closed. -/
def finish? (p : Progress) : Option (List Piece) :=
  if p.weak then none
  else match p.phase with
  | .strong => none
  | .braced _ => none
  | .name text => some (p.refer text).pieces.reverse
  | _ => some p.pieces.reverse

end Progress

def value? (cs : List Char) : Option (List Piece) := do
  (← cs.foldlM Progress.step? {}).finish?

/-- A name at the beginning of a line, and the rest of the line. -/
def name? (cs : List Char) : Option (String × List Char) :=
  if cs.head?.any fun c => c.isAlpha || c == '_' then
    let name := cs.takeWhile fun c => c.isAlphanum || c == '_' || c == '.'
    some (String.ofList name, cs.drop name.length)
  else none

def afterEquals? : List Char → Option (List Char)
  | '=' :: rest => some rest
  | _ => none

/-- The name that is assigned to, and the rest behind the sign. The word `export` may
come first. -/
def target? (cs : List Char) : Option (String × List Char) := do
  let (name, rest) ← name? cs
  let rest := Text.trimStart rest
  match afterEquals? rest with
  | some rest => return (name, rest)
  | none =>
    guard (name == "export")
    let (name, rest) ← name? rest
    return (name, ← afterEquals? (Text.trimStart rest))

/-- A line that is not empty and no comment. -/
def ofLine? (cs : List Char) : Option Assignment := do
  let (name, rest) ← target? cs
  let rest := Text.trimStart rest
  if rest.isEmpty || rest.head? == some '#' then return ⟨name, []⟩
  else return ⟨name, ← value? rest⟩

/-- How the quotes stand where a line may end. -/
inductive Quoting where
  | plain | blank | escape | strong | strongEscape | weak | weakEscape
  deriving DecidableEq

/-- What a character outside of quotes leads to. -/
def Quoting.start (c : Char) : Quoting :=
  if c == '\\' then .escape
  else if c == '"' then .weak
  else if c == '\'' then .strong
  else .plain

def Quoting.next (c : Char) : Quoting → Quoting
  | .plain => if Text.isBlank c && c != '\n' && c != '\r' then .blank else .start c
  | .blank => .start c
  | .escape => .plain
  | .strong => if c == '\\' then .strongEscape else if c == '\'' then .plain else .strong
  | .strongEscape => .strong
  | .weak => if c == '\\' then .weakEscape else if c == '"' then .plain else .weak
  | .weakEscape => .weak

/-- Reads a line with the quotes that are open before it: those open behind it, or how
many characters come before a comment. -/
def scan (n : Nat) (quoting : Quoting) : List Char → Sum Nat Quoting
  | [] => .inr quoting
  | c :: rest =>
    if quoting == .blank && c == '#' then .inl n else scan (n + 1) (quoting.next c) rest

/-- The lines of a text with their breaks. -/
def lines (cs : List Char) : List (List Char) :=
  let step (c : Char) (lines : List (List Char)) : List (List Char) :=
    match lines with
    | [] => [[c]]
    | line :: more => if c == '\n' then [c] :: lines else (c :: line) :: more
  cs.foldr step []

def withoutBreak (cs : List Char) : List Char :=
  match cs.reverse with
  | '\n' :: '\r' :: rest => rest.reverse
  | '\n' :: rest => rest.reverse
  | _ => cs

/-- Joins the lines that quotes hold together, leaving out comments; none for an end that
comes too early. -/
def joined (carried : List Char) (quoting : Quoting) : List (List Char) → List (Option (List Char))
  | [] => if quoting = .plain then [] else [none]
  | line :: more =>
    if (Text.trimStart (carried ++ line)).head? == some '#' then joined [] .plain more
    else match scan 0 quoting line with
    | .inl n => some (carried ++ line.take n) :: joined [] .plain more
    | .inr .plain => some (withoutBreak (carried ++ line)) :: joined [] .plain more
    | .inr quoting => joined (carried ++ line) quoting more

/-- The assignments up to the first malformed line. -/
def ofLines : List (Option (List Char)) → List Assignment
  | [] => []
  | none :: _ => []
  | some line :: more =>
    let line := Text.trimStart line
    if line.isEmpty || line.head? == some '#' then ofLines more
    else match ofLine? line with
    | some assignment => assignment :: ofLines more
    | none => []

def withoutMark : List Char → List Char
  | '\ufeff' :: rest => rest
  | cs => cs

/-- The assignments of a file, from its text. -/
def ofText (text : String) : List Assignment :=
  ofLines (joined [] .plain (lines (withoutMark text.toList)))

/-- The variables that a value refers to. -/
def references (a : Assignment) : List String :=
  a.value.filterMap fun piece => match piece with
    | .char _ => none
    | .reference name => some name

end Assignment
end Criteria
