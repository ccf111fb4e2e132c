import FileServer.Address.Block
import FileServer.Address.Host
import FileServer.Surroundings
import FileServer.Text.Basic

/-! Access lists: ordered rules over blocks of addresses. The first rule whose block holds an address
decides; an address that no rule covers is admitted. Each line that is neither blank nor a comment
reads `allow from HOST` or `deny from HOST`; a host is a block, an address, or a name that is resolved.
The first line at fault ends the reading, and no name after it is asked for. -/
namespace FileServer

structure Rule where
  allow : Bool
  block : Block
  deriving DecidableEq, Repr

abbrev AccessList := List Rule

def AccessList.admits (rules : AccessList) (a : Address) : Bool :=
  match rules.find? (·.block.contains a) with
  | none => true
  | some rule => rule.allow

abbrev Resolver := String → Except Failure (List Address)

namespace Resolver

def silent : Resolver := fun _ => .ok []

def ofNames (names : List (String × List Address)) : Resolver := fun host =>
  match names.find? (·.1 == host) with
  | some (_, addresses) => .ok addresses
  | none => .error ⟨.notFound, "unknown host " ++ host⟩

def namesZone (name : List Char) : Bool :=
  match Sequence.cut? ['%'] name with
  | some (address, _) => (WideAddress.read? address).isSome
  | none => false

def literal : Resolver := fun host =>
  let name := host.toList
  match IpAddress.ofName? name with
  | some (.narrow a) => .ok [a]
  | some (.wide _ _) => .ok []
  | none =>
    if name.contains (Char.ofNat 0) then .error .embeddedNul
    else if namesZone name || name == ['*'] then .error .unknownName
    else .error .unresolvedName

end Resolver

inductive RuleFault
  | invalidLine (line : Nat) (text : String)
  | invalidDirective (line : Nat) (directive : String)
  | unresolved (line : Nat) (host : String) (cause : Failure)
  deriving DecidableEq, Repr

namespace RuleFault

def line : RuleFault → Nat
  | .invalidLine line _ => line
  | .invalidDirective line _ => line
  | .unresolved line _ _ => line

def message : RuleFault → String
  | .invalidLine line text => s!"line {line}: invalid rule '" ++ text ++ "'"
  | .invalidDirective line directive =>
    s!"line {line}: expected 'allow' or 'deny', found '" ++ directive ++ "'"
  | .unresolved line host cause =>
    s!"line {line}: lookup of '" ++ host ++ "' failed: " ++ cause.text

def cause? : RuleFault → Option Failure
  | .unresolved _ _ cause => some cause
  | _ => none

end RuleFault

namespace AccessList

abbrev Read (α : Type) := Traced String (Except RuleFault α)

def resolveHost (resolver : Resolver) (line : Nat) (host : List Char) : Read (List Block) :=
  let name := String.ofList host
  match Block.read name with
  | .ok block => ⟨[], .ok [block]⟩
  | .error _ =>
    match Address.read? host with
    | some a => ⟨[], .ok [.host a]⟩
    | none =>
      match resolver name with
      | .ok addresses => ⟨[name], .ok (addresses.map .host)⟩
      | .error cause => ⟨[name], .error (.unresolved line name cause)⟩

def isSkipped (text : List Char) : Bool := text.isEmpty || text.head? == some '#'

def readLine (resolver : Resolver) (line : Nat) (raw : List Char) : Read (List Rule) :=
  let text := Text.trim raw
  if isSkipped text then ⟨[], .ok []⟩
  else
    match Sequence.cut? " from ".toList text with
    | none => ⟨[], .error (.invalidLine line (String.ofList text))⟩
    | some (directive, host) =>
      let directive := String.ofList (Text.trim directive)
      if directive = "allow" ∨ directive = "deny" then
        (resolveHost resolver line (Text.trim host)).map
          (·.map fun blocks => blocks.map (⟨directive == "allow", ·⟩))
      else ⟨[], .error (.invalidDirective line directive)⟩

def readLines (resolver : Resolver) (line : Nat) : List (List Char) → Read AccessList
  | [] => ⟨[], .ok []⟩
  | raw :: rest =>
    match readLine resolver line raw with
    | ⟨asked, .error fault⟩ => ⟨asked, .error fault⟩
    | ⟨asked, .ok rules⟩ =>
      let tail := readLines resolver (line + 1) rest
      ⟨asked ++ tail.trace, tail.value.map (rules ++ ·)⟩

def read (resolver : Resolver) (contents : String) : Read AccessList :=
  readLines resolver 1 (Sequence.pieces ['\n'] contents.toList)

end AccessList

end FileServer
