import Criteria.Yaml.Document

set_option autoImplicit false

/-
Typed data from the nodes of a document. Plain scalars are told by their text, and a blank
node may stand for an empty list or mapping.
-/
namespace Criteria.Yaml

namespace Node

def isNullText (text : String) : Bool := ["null", "Null", "NULL", "~"].contains text

def flagText? (text : String) : Option Bool :=
  if ["true", "True", "TRUE"].contains text then some true
  else if ["false", "False", "FALSE"].contains text then some false
  else none

def nullTag : String := "tag:yaml.org,2002:null"

def flagTag : String := "tag:yaml.org,2002:bool"

/-- The name in a tag of the text itself. -/
def localName? (tag : String) : Option String :=
  match tag.toList with
  | '!' :: name => some (String.ofList name)
  | _ => none

end Node

namespace Document

variable {α : Type}

/-- Any scalar is text, whatever its style and tag. -/
def text (d : Document) (node : Node) : Except Fault String :=
  match d.target node with
  | .scalar _ _ text => .ok text
  | _ => .error (.notA "text")

/-- A flag is a plain word, or one in a block that is tagged as a flag. -/
def flag (d : Document) (node : Node) : Except Fault Bool :=
  let word (text : String) : Except Fault Bool :=
    match Node.flagText? text with
    | some b => .ok b
    | none => .error (.notA "flag")
  match d.target node with
  | .scalar _ .plain text => word text
  | .scalar (some tag) .literal text =>
    if tag == Node.flagTag then word text else .error (.notA "flag")
  | _ => .error (.notA "flag")

/-- A plain word for nothing, or a value. -/
def option (d : Document) (read : Node → Except Fault α) (node : Node) :
    Except Fault (Option α) :=
  match d.target node with
  | .scalar none .plain text =>
    if text.isEmpty || Node.isNullText text then .ok none else some <$> read node
  | .scalar (some tag) .plain text =>
    if tag != Node.nullTag then some <$> read node
    else if Node.isNullText text then .ok none
    else .error (.notA "null")
  | _ => some <$> read node

def list (d : Document) (read : Node → Except Fault α) (node : Node) : Except Fault (List α) :=
  match d.target node with
  | .sequence items => items.mapM read
  | .scalar _ .plain text => if text.isEmpty then .ok [] else .error (.notA "list")
  | _ => .error (.notA "list")

/-- A named constant is its name, or the name as a tag of nothing. -/
def named (d : Document) (expected : String) (ofName? : String → Option α) (node : Node) :
    Except Fault α :=
  let known (name : String) : Except Fault α :=
    match ofName? name with
    | some a => .ok a
    | none => .error (.notA expected)
  match d.target node with
  | .scalar tag style text =>
    match tag.bind Node.localName? with
    | none => known text
    | some name =>
      if style == .plain && (text.isEmpty || Node.isNullText text) then known name
      else .error (.notA expected)
  | _ => .error (.notA expected)

/-- The members of a mapping, of which those with known names come once. -/
def members (d : Document) (known : List String) (node : Node) :
    Except Fault (List (String × Node)) := do
  let members ← match d.target node with
    | .mapping members => members.mapM fun (key, value) => return (← d.text key, value)
    | .scalar _ .plain text => if text.isEmpty then pure [] else .error (.notA "mapping")
    | _ => .error (.notA "mapping")
  for name in known do
    if 1 < (members.filter fun member => member.1 == name).length then throw (.repeated name)
  return members

end Document

/-- A member that must be there. -/
def required {α : Type} (members : List (String × Node)) (name : String)
    (read : Node → Except Fault α) : Except Fault α :=
  match members.lookup name with
  | some node => read node
  | none => .error (.missing name)

/-- A member that has a default. -/
def withDefault {α : Type} (members : List (String × Node)) (name : String) (default : α)
    (read : Node → Except Fault α) : Except Fault α :=
  match members.lookup name with
  | some node => read node
  | none => .ok default

end Criteria.Yaml
