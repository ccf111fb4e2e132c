import FileServer.Address.Endpoint

/-! Blocks of addresses that share their leading bits. A block keeps its base free of bits outside
the mask, so membership is one comparison under the mask. -/
namespace FileServer

def mask (length : Nat) : UInt32 :=
  if length = 0 then 0
  else if 32 ≤ length then 0xffffffff
  else 0xffffffff <<< (32 - length).toUInt32

structure Block where
  base : Address
  length : Nat
  length_le : length ≤ 32
  aligned : base.word &&& mask length = base.word
  deriving DecidableEq, Repr

inductive BlockFault
  | invalidLength (length : Nat)
  | hostBitsSet (base : Address) (length : Nat)
  | malformed (text : String)
  deriving DecidableEq, Repr

def BlockFault.message : BlockFault → String
  | .invalidLength length => s!"prefix length {length} is larger than 32"
  | .hostBitsSet base length => s!"{base.text}/{length} has bits set outside its prefix"
  | .malformed text => "'" ++ text ++ "' is not a cidr block"

namespace Block

def make (base : Address) (length : Nat) : Except BlockFault Block :=
  if hl : length ≤ 32 then
    if ha : base.word &&& mask length = base.word then .ok ⟨base, length, hl, ha⟩
    else .error (.hostBitsSet base length)
  else .error (.invalidLength length)

theorem andMaskWhole (w : UInt32) : w &&& mask 32 = w := by
  apply UInt32.toBitVec_inj.mp
  show w.toBitVec &&& BitVec.allOnes 32 = w.toBitVec
  exact BitVec.and_allOnes

def host (a : Address) : Block := ⟨a, 32, Nat.le_refl 32, andMaskWhole a.word⟩

def contains (b : Block) (a : Address) : Bool := a.word &&& mask b.length == b.base.word

def text (b : Block) : String := b.base.text ++ "/" ++ toString b.length

def read (s : String) : Except BlockFault Block :=
  match Sequence.cut? ['/'] s.toList with
  | none => .error (.malformed s)
  | some (base, length) =>
    match Address.read? base, Text.readNumber 10 255 length with
    | some base, .ok length => make base length
    | _, _ => .error (.malformed s)

end Block

end FileServer
