import FileServer.Sequence
import FileServer.Text.Basic

/-! Arguments of the command line: a port, the document root and a model in this order, and a
configuration file behind its option anywhere among them. A value is looked at when the next
argument has been taken, so an argument that nobody knows is reported before it. -/
namespace FileServer

structure Arguments where
  port : UInt16
  root : String
  config : Option String
  deriving DecidableEq, Repr

inductive ArgumentFault
  | invalidValue
  | valueValidation
  | unknownArgument
  | argumentConflict
  | tooManyValues
  | missingRequired
  deriving DecidableEq, Repr

inductive Refusal
  | help
  | version
  | fault (fault : ArgumentFault)
  deriving DecidableEq, Repr

inductive Slot
  | port
  | root
  | model
  | config
  deriving DecidableEq, Repr

inductive Flag
  | config
  | help
  | version
  deriving DecidableEq, Repr

namespace Arguments

def modelName : String := "async"

structure Reader where
  port : Option UInt16 := none
  root : Option String := none
  config : Option String := none
  slots : List Slot := [.port, .root, .model]
  pending : Option (Slot × Option String) := none
  onlyValues : Bool := false

abbrev Step := Except Refusal Reader

def refuse {α : Type} (fault : ArgumentFault) : Except Refusal α := .error (.fault fault)

def port? (value : String) : Option UInt16 :=
  match value.toList with
  | ['-'] => none
  | '-' :: cs => if cs.all (· == '0') then some 0 else none
  | cs =>
    match Text.readNumber 10 0xffff cs with
    | .ok n => some n.toUInt16
    | .error _ => none

namespace Reader

def store (r : Reader) (slot : Slot) (value : String) : Step :=
  match slot with
  | .port =>
    match port? value with
    | some port => .ok { r with port }
    | none => refuse .valueValidation
  | .root => if value = "" then refuse .invalidValue else .ok { r with root := some value }
  | .model => if value = modelName then .ok r else refuse .invalidValue
  | .config =>
    if r.config.isSome then refuse .argumentConflict
    else if value = "" then refuse .invalidValue
    else .ok { r with config := some value }

def settle (r : Reader) : Step :=
  match r.pending with
  | none => .ok r
  | some (_, none) => refuse .invalidValue
  | some (slot, some value) => store { r with pending := none } slot value

def flag (r : Reader) (flag : Flag) (attached : Option String) : Step := do
  let r ← r.settle
  match flag, attached with
  | .config, none => .ok { r with pending := some (.config, none) }
  | .config, some value => r.store .config value
  | .help, _ => .error .help
  | .version, _ => .error .version

def longFlags : List (String × Flag) :=
  [("config", .config), ("help", .help), ("version", .version)]

def shortFlags : List (Char × Flag) := [('c', .config), ('h', .help), ('V', .version)]

def long (r : Reader) (cs : List Char) : Step :=
  let (name, attached) := match Sequence.cut? ['='] cs with
    | some (name, value) => (name, some (String.ofList value))
    | none => (cs, none)
  match longFlags.find? (·.1 == String.ofList name), attached with
  | none, _ => refuse .unknownArgument
  | some (_, .config), attached => r.flag .config attached
  | some (_, flag), none => r.flag flag none
  | some _, some _ => refuse .tooManyValues

def short (r : Reader) (c : Char) (rest : List Char) : Step :=
  match shortFlags.find? (·.1 == c), rest with
  | none, _ => refuse .unknownArgument
  | some (_, flag), [] => r.flag flag none
  | some (_, flag), '=' :: value => r.flag flag (some (String.ofList value))
  | some (_, flag), value => r.flag flag (some (String.ofList value))

def value (r : Reader) (value : String) : Step :=
  match r.pending, r.onlyValues, r.slots with
  | some (slot, none), false, _ => .ok { r with pending := some (slot, some value) }
  | _, _, [] => refuse .unknownArgument
  | _, _, slot :: slots => do
    let r ← r.settle
    .ok { r with slots, pending := some (slot, some value) }

def take (r : Reader) (argument : String) : Step :=
  if r.onlyValues then r.value argument
  else
    match argument.toList with
    | ['-', '-'] => .ok { r with onlyValues := true }
    | '-' :: '-' :: cs => r.long cs
    | '-' :: c :: rest => r.short c rest
    | _ => r.value argument

end Reader

def read (arguments : List String) : Except Refusal Arguments := do
  let r ← arguments.foldlM Reader.take {}
  let r ← r.settle
  match r.port, r.root with
  | some port, some root => .ok ⟨port, root, r.config⟩
  | _, _ => refuse .missingRequired

end Arguments

end FileServer
