import Criteria.Yaml.Token

set_option autoImplicit false

/-
Documents as trees of nodes, built from the tokens of a text. Aliases stay in the tree as
the numbers of the nodes that they stand for, so that a node may hold an alias of itself.
-/
namespace Criteria.Yaml

inductive Node where
  | scalar (tag : Option String) (style : Style) (text : String)
  | sequence (items : List Node)
  | mapping (members : List (Node × Node))
  | alias (number : Nat)

structure Document where
  root : Node
  /-- The nodes that have numbers; of two with one number, the first counts. -/
  numbered : List (Nat × Node)

/-- What stands where a node is left out. -/
def Node.blank : Node := .scalar none .plain ""

/-- The node that an alias stands for; any other stands for itself. -/
def Document.target (d : Document) : Node → Node
  | .alias number => (d.numbered.lookup number).getD .blank
  | node => node

/-- Tokens that are being read as a tree. -/
structure Reading where
  rest : List Token
  /-- What the handles of tags stand for. -/
  handles : List (String × String)
  /-- The numbers of the anchors by name, each name once. -/
  names : List (String × Nat) := []
  numbered : List (Nat × Node) := []

namespace Reading

abbrev Result := Except Fault (Node × Reading)

def drop (r : Reading) (n : Nat) : Reading := { r with rest := r.rest.drop n }

/-- Defines an anchor. Its number is how many names had been defined before. -/
def define (r : Reading) (name : String) : Reading :=
  let others := r.names.filter fun entry => entry.1 != name
  { r with names := (name, r.names.length) :: others }

/-- Ends a node with a number. Of nodes with the same number, the one that begins last
keeps it; `before` counts those that had ended when this one began. -/
def number (r : Reading) (before number : Nat) (node : Node) : Reading :=
  let inner := r.numbered.take (r.numbered.length - before)
  if inner.any fun entry => entry.1 == number then r
  else { r with numbered := (number, node) :: r.numbered }

/-- The full tag that a written one stands for. -/
def fullTag (r : Reading) (tag : TagText) : Except Fault String :=
  if tag.handle.isEmpty then .ok tag.rest
  else match r.handles.lookup tag.handle with
    | some start => .ok (start ++ tag.rest)
    | none => .error (.unknownHandle tag.handle)

/-- The anchor and the tag before a node, in either order. -/
def properties (r : Reading) : Option String × Option TagText × Reading :=
  match r.rest with
  | .anchor name :: .tag tag :: _ => (some name, some tag, r.drop 2)
  | .tag tag :: .anchor name :: _ => (some name, some tag, r.drop 2)
  | .anchor name :: _ => (some name, none, r.drop 1)
  | .tag tag :: _ => (none, some tag, r.drop 1)
  | _ => (none, none, r)

/-- A node, or a blank one before certain tokens. -/
def nodeUnless (stops : List Token) (node : Reading → Result) (r : Reading) : Result :=
  match r.rest with
  | token :: _ => if stops.contains token then .ok (.blank, r) else node r
  | [] => node r

/-- The value behind a key, or a blank one if there is no colon. -/
def value (stops : List Token) (node : Reading → Result) (r : Reading) : Result :=
  match r.rest with
  | .value :: _ => nodeUnless stops node (r.drop 1)
  | _ => .ok (.blank, r)

/-- The key of a pair that stands in a sequence for itself. Where it is left out, the
token in its place is passed over. -/
def soleKey (node : Reading → Result) (r : Reading) : Result :=
  match r.rest with
  | .value :: _ => .ok (.blank, r.drop 1)
  | .flowEntry :: _ => .ok (.blank, r.drop 1)
  | .sequenceEnd :: _ => .ok (.blank, r.drop 1)
  | _ => node r

/-- Passes over the comma before all but the first item in brackets, unless the items
end. -/
def separator (first : Bool) (close : Token) (r : Reading) : Except Fault Reading :=
  match r.rest with
  | token :: _ =>
    if first || token == close then .ok r
    else if token == .flowEntry then .ok (r.drop 1)
    else .error .badDocument
  | [] => .error .badDocument

/-- The tokens that end a key or value of a block. -/
def blockStops : List Token := [.key, .value, .blockEnd]

mutual

/-- A node; `block` and `bare` say whether it may be a block, and a sequence without a
block of its own. -/
def node (block bare : Bool) : Nat → Reading → Result
  | 0, _ => .error .badDocument
  | fuel + 1, r =>
    match r.rest with
    | .alias name :: _ =>
      match r.names.lookup name with
      | some number => .ok (.alias number, r.drop 1)
      | none => .error (.unknownAlias name)
    | _ => do
      let (anchor, tag, r) := r.properties
      let tag ← tag.mapM r.fullTag
      let before := r.numbered.length
      let (named, r) := match anchor with
        | some name => (some r.names.length, r.define name)
        | none => (none, r)
      let (node, r) ← match r.rest with
        | .scalar style text :: _ =>
          pure (.scalar (tag.filter (· != "!")) style text, r.drop 1)
        | .sequenceStart :: _ => flowItems fuel true [] (r.drop 1)
        | .mappingStart :: _ => flowPairs fuel true [] (r.drop 1)
        | token :: _ =>
          if token == .blockEntry && bare then bareItems fuel [] r
          else if token == .blockSequence && block then blockItems fuel [] (r.drop 1)
          else if token == .blockMapping && block then blockPairs fuel [] (r.drop 1)
          else if anchor.isSome || tag.isSome then pure (.scalar tag .plain "", r)
          else .error .badDocument
        | [] =>
          if anchor.isSome || tag.isSome then pure (.scalar tag .plain "", r)
          else .error .badDocument
      match named with
      | some number => return (node, r.number before number node)
      | none => return (node, r)

/-- The items of a block sequence, the last one first, and its end. -/
def blockItems : Nat → List Node → Reading → Result
  | 0, _, _ => .error .badDocument
  | fuel + 1, items, r =>
    match r.rest with
    | .blockEntry :: _ => do
      let (item, r) ← nodeUnless [.blockEntry, .blockEnd] (node true false fuel) (r.drop 1)
      blockItems fuel (item :: items) r
    | .blockEnd :: _ => .ok (.sequence items.reverse, r.drop 1)
    | _ => .error .badDocument

/-- The items of a sequence that stands in a mapping without a block of its own. -/
def bareItems : Nat → List Node → Reading → Result
  | 0, _, _ => .error .badDocument
  | fuel + 1, items, r =>
    match r.rest with
    | .blockEntry :: _ => do
      let (item, r) ← nodeUnless (.blockEntry :: blockStops) (node true false fuel) (r.drop 1)
      bareItems fuel (item :: items) r
    | _ => .ok (.sequence items.reverse, r)

/-- The keys and values of a block mapping, and its end. -/
def blockPairs : Nat → List (Node × Node) → Reading → Result
  | 0, _, _ => .error .badDocument
  | fuel + 1, members, r =>
    match r.rest with
    | .key :: _ => do
      let (key, r) ← nodeUnless blockStops (node true true fuel) (r.drop 1)
      let (value, r) ← value blockStops (node true true fuel) r
      blockPairs fuel ((key, value) :: members) r
    | .blockEnd :: _ => .ok (.mapping members.reverse, r.drop 1)
    | _ => .error .badDocument

/-- The items between square brackets; a pair among them is a mapping of its own. -/
def flowItems : Nat → Bool → List Node → Reading → Result
  | 0, _, _, _ => .error .badDocument
  | fuel + 1, first, items, r => do
    let r ← r.separator first .sequenceEnd
    match r.rest with
    | .sequenceEnd :: _ => return (.sequence items.reverse, r.drop 1)
    | .key :: _ =>
      let (key, r) ← soleKey (node false false fuel) (r.drop 1)
      let (value, r) ← value [.flowEntry, .sequenceEnd] (node false false fuel) r
      flowItems fuel false (.mapping [(key, value)] :: items) r
    | _ =>
      let (item, r) ← node false false fuel r
      flowItems fuel false (item :: items) r

/-- The keys and values between braces. -/
def flowPairs : Nat → Bool → List (Node × Node) → Reading → Result
  | 0, _, _, _ => .error .badDocument
  | fuel + 1, first, members, r => do
    let r ← r.separator first .mappingEnd
    match r.rest with
    | .mappingEnd :: _ => return (.mapping members.reverse, r.drop 1)
    | .key :: _ =>
      let stops := [.flowEntry, .mappingEnd]
      let (key, r) ← nodeUnless (.value :: stops) (node false false fuel) (r.drop 1)
      let (value, r) ← value stops (node false false fuel) r
      flowPairs fuel false ((key, value) :: members) r
    | _ =>
      let (key, r) ← node false false fuel r
      flowPairs fuel false ((key, .blank) :: members) r

end

/-- What handles stand for if no directive says otherwise. -/
def usualHandles : List (String × String) := [("!", "!"), ("!!", "tag:yaml.org,2002:")]

/-- Reads directives, up to the mark that begins the document. Each handle may be defined
once, and so may the version, which is 1.1 or 1.2. -/
def directives : Bool → List (String × String) → List Token →
    Except Fault (List (String × String) × List Token)
  | versioned, handles, .version major minor :: rest =>
    if versioned || major != 1 || !(minor == 1 || minor == 2) then .error .badDocument
    else directives true handles rest
  | versioned, handles, .handle tag :: rest =>
    if (handles.lookup tag.handle).isSome then .error .badDocument
    else directives versioned ((tag.handle, tag.rest) :: handles) rest
  | _, handles, .documentStart :: rest => .ok (handles, rest)
  | _, _, _ => .error .badDocument

/-- Whether a token belongs to the frame of documents. -/
def isFrame : Token → Bool
  | .version _ _ | .handle _ | .documentStart | .documentEnd => true
  | _ => false

/-- The root of a document behind its mark, which may be blank. -/
def root (fuel : Nat) (r : Reading) : Result :=
  match r.rest with
  | [] => .ok (.blank, r)
  | token :: _ => if isFrame token then .ok (.blank, r) else node true false fuel r

def start (tokens : List Token) : Result :=
  let fuel := 3 * tokens.length + 3
  match tokens with
  | [] => .error (.notA "document")
  | token :: _ =>
    if isFrame token && token != .documentEnd then do
      let (handles, rest) ← directives false [] tokens
      root fuel { rest, handles := handles ++ usualHandles }
    else node true false fuel { rest := tokens, handles := usualHandles }

end Reading

/-- The only document in a text. -/
def Document.ofText (text : String) : Except Fault Document := do
  let (root, r) ← Reading.start (← Token.ofText text)
  if r.rest.all (· == .documentEnd) then return { root, numbered := r.numbered }
  else throw .secondDocument

end Criteria.Yaml
