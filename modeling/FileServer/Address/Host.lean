import FileServer.Address.Endpoint

/-! What a host's name stands for when nobody has to be asked: an address, in a wider form than
elsewhere. A narrow one may be abbreviated to one to four numbers between dots, octal and hexadecimal
ones among them, the last of which fills all the bytes that the others leave; a wide one may name a
zone. -/
namespace FileServer

namespace Address

def readPart? : List Char → Option Nat
  | '0' :: mark :: digits =>
    if mark = 'x' ∨ mark = 'X' then number? 16 digits else number? 8 (mark :: digits)
  | digits => number? 10 digits
where
  number? (radix : Nat) (digits : List Char) : Option Nat :=
    if digits = [] then none
    else
      match Text.readDigits radix 0xffffffff 0 digits with
      | .ok n => some n
      | .error _ => none

def joinParts? (left : Nat) : List Nat → Option Nat
  | [] => none
  | [n] => if n < 256 ^ left then some n else none
  | n :: rest =>
    if n < 256 ∧ 1 < left then (joinParts? (left - 1) rest).map (n * 256 ^ (left - 1) + ·) else none

def readAbbreviated? (cs : List Char) : Option Address := do
  let parts ← (Sequence.pieces ['.'] cs).mapM readPart?
  let word ← joinParts? 4 parts
  some ⟨word.toUInt32⟩

end Address

namespace IpAddress

def localName : List Char := "localhost".toList

def localZone : List Char × Nat := ("lo".toList, 1)

def readZone? (w : WideAddress) (zone : List Char) : Option Nat :=
  if w.isLocal && zone == localZone.1 then some localZone.2
  else Endpoint.readDecimal? 0xffffffff zone

def readWide? (cs : List Char) : Option IpAddress :=
  match Sequence.cut? ['%'] cs with
  | none => (WideAddress.read? cs).map (.wide · 0)
  | some (address, zone) => do
    let w ← WideAddress.read? address
    let zone ← readZone? w zone
    some (.wide w zone)

def ofName? (name : List Char) : Option IpAddress :=
  if name.map Char.toLower = localName then some (.narrow (.ofOctets 127 0 0 1))
  else ((Address.readAbbreviated? name).map .narrow).or (readWide? name)

end IpAddress

end FileServer
