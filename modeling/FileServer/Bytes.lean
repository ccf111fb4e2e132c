/-! Bytes on the wire and the text they encode. `ofText` and `text?` are inverse to each other;
`lossyText` reads anything, with a replacement character for each maximal ill-formed part. -/
namespace FileServer

abbrev Bytes := List UInt8

namespace Bytes

def ofText (s : String) : Bytes := s.toUTF8.data.toList

def text? (bs : Bytes) : Option String := String.fromUTF8? ⟨bs.toArray⟩

structure Partial where
  value : Nat
  due : Nat
  low : UInt8
  high : UInt8

inductive Lead
  | whole (c : Char)
  | opens (p : Partial)
  | never

def lead (b : UInt8) : Lead :=
  let n := b.toNat
  if n < 0x80 then .whole (Char.ofNat n)
  else if n < 0xc2 then .never
  else if n < 0xe0 then .opens ⟨n - 0xc0, 1, 0x80, 0xbf⟩
  else if n < 0xf0 then
    .opens ⟨n - 0xe0, 2, if n = 0xe0 then 0xa0 else 0x80, if n = 0xed then 0x9f else 0xbf⟩
  else if n < 0xf5 then
    .opens ⟨n - 0xf0, 3, if n = 0xf0 then 0x90 else 0x80, if n = 0xf4 then 0x8f else 0xbf⟩
  else .never

def replacement : Char := Char.ofNat 0xfffd

structure Reading where
  chars : List Char
  open? : Option Partial

def Reading.begin (chars : List Char) (b : UInt8) : Reading :=
  match lead b with
  | .whole c => ⟨c :: chars, none⟩
  | .opens p => ⟨chars, some p⟩
  | .never => ⟨replacement :: chars, none⟩

def Reading.next (r : Reading) (b : UInt8) : Reading :=
  match r.open? with
  | none => .begin r.chars b
  | some p =>
    if p.low ≤ b ∧ b ≤ p.high then
      let value := p.value * 64 + (b.toNat - 0x80)
      if p.due ≤ 1 then ⟨Char.ofNat value :: r.chars, none⟩
      else ⟨r.chars, some ⟨value, p.due - 1, 0x80, 0xbf⟩⟩
    else .begin (replacement :: r.chars) b

def Reading.finish (r : Reading) : List Char :=
  match r.open? with
  | none => r.chars.reverse
  | some _ => (replacement :: r.chars).reverse

def lossyText (bs : Bytes) : String :=
  String.ofList (bs.foldl Reading.next ⟨[], none⟩).finish

def crlf : Bytes := [13, 10]

def blankLine : Bytes := [13, 10, 13, 10]

end Bytes

end FileServer
