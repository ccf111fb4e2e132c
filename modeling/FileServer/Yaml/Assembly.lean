import FileServer.Bytes
import FileServer.Yaml.Fault
import FileServer.Yaml.Lexer
import FileServer.Yaml.Scalar

/-! Nodes, and the one document of a text, assembled from its tokens. A node with an anchor takes a
slot of the document, and an alias names a slot. Of the nodes that have taken one slot the last holds
it, also where that node begins behind the alias. What is left out, such as the value of a key that
nothing follows, is an empty plain scalar. -/
namespace FileServer.Yaml

inductive Node
  | scalar (style : Style) (tag : Option Bytes) (text : String)
  | mapping (entries : List (Node × Node))
  | alias (slot : Nat)

structure Anchored where
  slot : Nat
  node : Option Node

structure Document where
  root : Node
  anchored : List Anchored

namespace Document

def holder? (d : Document) (slot : Nat) : Option Node :=
  (d.anchored.reverse.find? (·.slot == slot)).bind (·.node)

def follow (d : Document) : Node → Except Fault Node
  | .alias slot =>
    match d.holder? slot with
    | some node => .ok node
    | none => .error .unknownAnchor
  | node => .ok node

end Document

structure Properties where
  anchor : Option String := none
  tag : Option Bytes := none
  deriving DecidableEq, Repr

inductive Awaits
  | entry
  | key
  | colon (key : Node)
  | value (key : Node)
  | comma

structure Frame where
  isFlow : Bool
  place : Option Nat
  entries : List (Node × Node)
  awaits : Awaits

inductive Phase
  | before (directives : Bool)
  | content (marked : Bool)
  | inside
  | behind
  | over

structure Assembly where
  phase : Phase := .before false
  frames : List Frame := []
  pending : Option Properties := none
  root : Option Node := none
  anchors : List (String × Nat) := []
  anchored : Array Anchored := #[]
  handles : List (String × Bytes) := []
  versioned : Bool := false

namespace Assembly

abbrev Step := Except Fault Assembly

def empty : Node := .scalar .plain none ""

/-- A name that is new takes the next slot. One that is given again takes the slot behind all that
the names stand for, which the next new name then shares. -/
def takeSlot (a : Assembly) (name : Option String) (node : Option Node) : Assembly :=
  match name with
  | none => a
  | some name =>
    let slot := a.anchors.length
    { a with
      anchors := (name, slot) :: a.anchors.filter (·.1 != name)
      anchored := a.anchored.push ⟨slot, node⟩ }

def accept (a : Assembly) (node : Node) : Step :=
  match a.frames with
  | [] => .ok { a with root := some node, phase := .behind }
  | frame :: outer =>
    let take (entries : List (Node × Node)) (awaits : Awaits) : Step :=
      .ok { a with frames := { frame with entries, awaits } :: outer }
    let afterEntry : Awaits := if frame.isFlow then .comma else .entry
    match frame.awaits with
    | .key => take frame.entries (.colon node)
    | .value key => take ((key, node) :: frame.entries) afterEntry
    | .entry =>
      if frame.isFlow then take ((node, empty) :: frame.entries) .comma
      else .error .unexpectedToken
    | _ => .error .unexpectedToken

def acceptScalar (a : Assembly) (properties : Properties) (style : Style) (text : String) : Step :=
  let node := Node.scalar style properties.tag text
  ({ a with pending := none }.takeSlot properties.anchor node).accept node

def acceptsNode (a : Assembly) : Bool :=
  match a.phase, a.frames with
  | .content _, _ => true
  | .inside, frame :: _ =>
    match frame.awaits with
    | .key => true
    | .value _ => true
    | .entry => frame.isFlow
    | _ => false
  | _, _ => false

def openMapping (a : Assembly) (isFlow : Bool) (properties : Properties) : Assembly :=
  let place := properties.anchor.map fun _ => a.anchored.size
  { a.takeSlot properties.anchor none with
    phase := .inside
    pending := none
    frames := ⟨isFlow, place, [], .entry⟩ :: a.frames }

def closeMapping (a : Assembly) (frame : Frame) (outer : List Frame) : Step :=
  let node := Node.mapping frame.entries.reverse
  let anchored := match frame.place with
    | some place => a.anchored.modify place ({ · with node })
    | none => a.anchored
  accept { a with frames := outer, anchored } node

def fillNode (a : Assembly) : Step :=
  match a.pending with
  | some properties => a.acceptScalar properties .plain ""
  | none =>
    match a.phase, a.frames with
    | .content true, _ => a.accept empty
    | .inside, frame :: _ =>
      match frame.awaits with
      | .key => a.accept empty
      | .value _ => a.accept empty
      | _ => .ok a
    | _, _ => .ok a

def fillValue (a : Assembly) : Step :=
  match a.frames with
  | frame :: outer =>
    match frame.awaits with
    | .colon key =>
      accept { a with frames := { frame with awaits := .value key } :: outer } empty
    | _ => .ok a
  | [] => .ok a

def defaultHandles : List (String × Bytes) :=
  [("!", Bytes.ofText "!"), ("!!", Bytes.ofText "tag:yaml.org,2002:")]

def resolveTag (a : Assembly) (handle : String) (rest : Bytes) : Except Fault Bytes :=
  if handle = "" then .ok rest
  else
    match (a.handles ++ defaultHandles).find? (·.1 == handle) with
    | some (_, stem) => .ok (stem ++ rest)
    | none => .error .undefinedHandle

def property (a : Assembly) (token : Token) : Step := do
  let properties := a.pending.getD {}
  match token, properties.anchor, properties.tag with
  | .anchor name, none, _ => .ok { a with pending := some { properties with anchor := some name } }
  | .tag handle rest, _, none =>
    .ok { a with pending := some { properties with tag := some (← a.resolveTag handle rest) } }
  | _, _, _ => .error .unexpectedToken

def node (a : Assembly) (token : Token) : Step :=
  let properties := a.pending.getD {}
  match token with
  | .scalar style text => a.acceptScalar properties style text
  | .flowStart => .ok (a.openMapping true properties)
  | .blockStart =>
    if (a.frames.head?).any (·.isFlow) then .error .unexpectedToken
    else .ok (a.openMapping false properties)
  | .alias name =>
    match a.pending, a.anchors.find? (·.1 == name) with
    | none, some (_, slot) => a.accept (.alias slot)
    | none, none => .error .unknownAnchor
    | some _, _ => .error .unexpectedToken
  | token => a.property token

def mark (a : Assembly) (token : Token) : Step := do
  let a ← a.fillNode
  let a ← if token = .value then .ok a else a.fillValue
  match a.frames with
  | [] => .error .unexpectedToken
  | frame :: outer =>
    let wait (awaits : Awaits) : Step := .ok { a with frames := { frame with awaits } :: outer }
    match token, frame.awaits, frame.isFlow with
    | .value, .colon key, _ => wait (.value key)
    | .key, .entry, _ => wait .key
    | .blockEnd, .entry, false => a.closeMapping frame outer
    | .flowEntry, .comma, true => wait .entry
    | .flowEnd, .comma, true => a.closeMapping frame outer
    | .flowEnd, .entry, true => a.closeMapping frame outer
    | _, _, _ => .error .unexpectedToken

def isNodeToken : Token → Bool
  | .alias _ => true
  | .anchor _ => true
  | .tag _ _ => true
  | .scalar _ _ => true
  | .flowStart => true
  | .blockStart => true
  | _ => false

def version (a : Assembly) (major minor : Nat) : Step :=
  if a.versioned || major ≠ 1 || (minor ≠ 1 && minor ≠ 2) then .error .invalidDirective
  else .ok { a with versioned := true, phase := .before true }

def tagHandle (a : Assembly) (handle : String) (stem : Bytes) : Step :=
  if a.handles.any (·.1 == handle) then .error .invalidDirective
  else .ok { a with handles := (handle, stem) :: a.handles, phase := .before true }

def inner (a : Assembly) (token : Token) : Step :=
  if isNodeToken token && a.acceptsNode then a.node token
  else if isNodeToken token then .error .unexpectedToken
  else a.mark token

def outer (a : Assembly) (token : Token) : Step := do
  let a ← a.fillNode
  match a.phase, token with
  | .behind, .documentEnd => .ok { a with phase := .over }
  | .over, .documentEnd => .ok a
  | .behind, .documentStart => .error .secondDocument
  | .over, .documentStart => .error .secondDocument
  | _, _ => .error .unexpectedToken

def step (a : Assembly) (token : Token) : Step :=
  match a.phase, token with
  | .before _, .version major minor => a.version major minor
  | .before _, .tagHandle handle stem => a.tagHandle handle stem
  | .before _, .documentStart => .ok { a with phase := .content true }
  | .before true, _ => .error .unexpectedToken
  | .before false, token => inner { a with phase := .content false } token
  | .content _, .documentEnd => a.outer token
  | .content _, .documentStart => a.outer token
  | .content _, token => a.inner token
  | .inside, token => a.inner token
  | .behind, token => a.outer token
  | .over, token => a.outer token

def finish (a : Assembly) : Except Fault (Option Document) := do
  let a ← a.fillNode
  match a.phase, a.frames with
  | .before false, _ => .ok none
  | .behind, _ => .ok (a.root.map (⟨·, a.anchored.toList⟩))
  | .over, _ => .ok (a.root.map (⟨·, a.anchored.toList⟩))
  | _, _ => .error .unexpectedToken

end Assembly

def Document.read (text : String) : Except Fault (Option Document) := do
  let tokens ← Token.scan text
  let assembly ← tokens.foldlM Assembly.step {}
  assembly.finish

end FileServer.Yaml
