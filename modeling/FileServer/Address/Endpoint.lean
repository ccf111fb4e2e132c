import FileServer.Sequence
import FileServer.Text.Basic

/-! Addresses of either width, their written forms, and where a socket listens or where its peer is.
An address of 32 bits is four decimal octets without leading zeros between dots. One of 128 bits is
eight groups of 16 bits: `::` stands for one or more groups of zero, and the last two groups may be
written as a dotted address. -/
namespace FileServer

structure Address where
  word : UInt32
  deriving DecidableEq, Repr

namespace Address

def ofOctets (a b c d : UInt8) : Address :=
  ⟨a.toUInt32 <<< 24 ||| b.toUInt32 <<< 16 ||| c.toUInt32 <<< 8 ||| d.toUInt32⟩

def octets (a : Address) : List Nat :=
  [24, 16, 8, 0].map fun shift : UInt32 => (a.word >>> shift &&& 0xff).toNat

def unspecified : Address := ⟨0⟩

def text (a : Address) : String := String.ofList (['.'].intercalate (a.octets.map Text.decimal))

def readOctet? (cs : List Char) : Option UInt8 :=
  if cs.head? = some '0' ∧ cs ≠ ['0'] then none
  else if cs.length ≤ 3 ∧ cs ≠ [] ∧ cs.all Char.isDigit then
    match Text.readDigits 10 255 0 cs with
    | .ok n => some n.toUInt8
    | .error _ => none
  else none

def read? (cs : List Char) : Option Address :=
  match (Sequence.pieces ['.'] cs).map readOctet? with
  | [some a, some b, some c, some d] => some (ofOctets a b c d)
  | _ => none

end Address

structure WideAddress where
  groups : List UInt16
  eight : groups.length = 8
  deriving DecidableEq, Repr

namespace WideAddress

def mapped? (w : WideAddress) : Option Address :=
  match w.groups with
  | [0, 0, 0, 0, 0, 0xffff, high, low] => some ⟨high.toUInt32 <<< 16 ||| low.toUInt32⟩
  | _ => none

def isLocal (w : WideAddress) : Bool :=
  w.groups.head?.any fun first =>
    first &&& 0xffc0 == 0xfe80 || first &&& 0xff0f == 0xff01 || first &&& 0xff0f == 0xff02

def isUnspecified (w : WideAddress) : Bool := w.groups.all (· == 0)

def readGroup? (cs : List Char) : Option UInt16 :=
  if cs.length ≤ 4 ∧ cs ≠ [] then
    match Text.readDigits 16 0xffff 0 cs with
    | .ok n => some n.toUInt16
    | .error _ => none
  else none

def embedded (a : Address) : List UInt16 :=
  [(a.word >>> 16).toUInt16, (a.word &&& 0xffff).toUInt16]

def readGroups? (dotted : Bool) : List (List Char) → Option (List UInt16)
  | [] => some []
  | [cs] =>
    match dotted, Address.read? cs with
    | true, some a => some (embedded a)
    | _, _ => (readGroup? cs).map ([·])
  | cs :: rest =>
    match readGroup? cs, readGroups? dotted rest with
    | some g, some gs => some (g :: gs)
    | _, _ => none

def readSide? (dotted : Bool) (cs : List Char) : Option (List UInt16) :=
  if cs = [] then some [] else readGroups? dotted (Sequence.pieces [':'] cs)

def ofGroups? (groups : List UInt16) : Option WideAddress :=
  if h : groups.length = 8 then some ⟨groups, h⟩ else none

def read? (cs : List Char) : Option WideAddress :=
  match Sequence.cut? [':', ':'] cs with
  | none => (readSide? true cs).bind ofGroups?
  | some (front, back) =>
    match readSide? false front, readSide? true back with
    | some front, some back =>
      if front.length + back.length ≤ 7 then
        ofGroups? (front ++ List.replicate (8 - front.length - back.length) 0 ++ back)
      else none
    | _, _ => none

def zeroRun (groups : List UInt16) : Nat × Nat :=
  (List.range groups.length).foldl (fun best start =>
    let length := ((groups.drop start).takeWhile (· == 0)).length
    if best.2 < length then (start, length) else best) (0, 0)

def groupsText (groups : List UInt16) : String :=
  String.ofList ([':'].intercalate (groups.map fun g => Nat.toDigits 16 g.toNat))

def text (w : WideAddress) : String :=
  match w.mapped? with
  | some a => "::ffff:" ++ a.text
  | none =>
    let (start, length) := zeroRun w.groups
    if 1 < length then
      groupsText (w.groups.take start) ++ "::" ++ groupsText (w.groups.drop (start + length))
    else groupsText w.groups

end WideAddress

inductive IpAddress
  | narrow (a : Address)
  | wide (w : WideAddress) (scope : Nat)
  deriving DecidableEq, Repr

structure Endpoint where
  host : IpAddress
  port : UInt16
  deriving DecidableEq, Repr

namespace Endpoint

def readDecimal? (max : Nat) (cs : List Char) : Option Nat :=
  if cs = [] then none
  else
    match Text.readDigits 10 max 0 cs with
    | .ok n => some n
    | .error _ => none

def readNarrow? (cs : List Char) : Option Endpoint := do
  let (address, port) ← Sequence.cut? [':'] cs
  let address ← Address.read? address
  let port ← readDecimal? 0xffff port
  some ⟨.narrow address, port.toUInt16⟩

def readWide? : List Char → Option Endpoint
  | '[' :: cs => do
    let (inside, port) ← Sequence.cut? [']', ':'] cs
    let port ← readDecimal? 0xffff port
    match Sequence.cut? ['%'] inside with
    | none =>
      let w ← WideAddress.read? inside
      some ⟨.wide w 0, port.toUInt16⟩
    | some (address, zone) =>
      let w ← WideAddress.read? address
      let zone ← readDecimal? 0xffffffff zone
      some ⟨.wide w zone, port.toUInt16⟩
  | _ => none

def read? (s : String) : Option Endpoint :=
  (readNarrow? s.toList).or (readWide? s.toList)

def text (e : Endpoint) : String :=
  match e.host with
  | .narrow a => a.text ++ ":" ++ toString e.port.toNat
  | .wide w 0 => "[" ++ w.text ++ "]:" ++ toString e.port.toNat
  | .wide w scope => "[" ++ w.text ++ "%" ++ toString scope ++ "]:" ++ toString e.port.toNat

/-- Access lists hold narrow addresses only: a peer with any other address counts as the
unspecified one. -/
def narrowed (e : Endpoint) : Address :=
  match e.host with
  | .narrow a => a
  | .wide w _ => w.mapped?.getD .unspecified

def faultMessage : String := "invalid socket address syntax"

end Endpoint

end FileServer
