/-! Characters of a document: which are allowed, which are white, and where a place moves past one.
A carriage return and the line feed behind it are one line break. -/
namespace FileServer.Yaml

def nextLine : Char := Char.ofNat 0x85

def lineSeparator : Char := Char.ofNat 0x2028

def paragraphSeparator : Char := Char.ofNat 0x2029

def byteOrderMark : Char := Char.ofNat 0xfeff

def isAllowed (c : Char) : Bool :=
  let n := c.toNat
  n = 9 || n = 10 || n = 13 || (0x20 ≤ n && n ≤ 0x7e) || n = 0x85 || (0xa0 ≤ n && n ≤ 0xfffd)
    || 0x10000 ≤ n

def isBreak (c : Char) : Bool :=
  c == '\n' || c == '\r' || c == nextLine || c == lineSeparator || c == paragraphSeparator

def isBlank (c : Char) : Bool := c == ' ' || c == '\t'

def isWhite (c : Char) : Bool := isBlank c || isBreak c

def endsWord (c : Option Char) : Bool := c.all isWhite

def isWordChar (c : Char) : Bool := c.isAlphanum || c == '_' || c == '-'

structure Place where
  index : Nat := 0
  line : Nat := 0
  column : Nat := 0
  deriving DecidableEq, Repr

namespace Place

def past (p : Place) (c : Char) (next : Option Char) : Place :=
  if isBreak c && !(c == '\r' && next == some '\n') then ⟨p.index + 1, p.line + 1, 0⟩
  else ⟨p.index + 1, p.line, p.column + 1⟩

def pastFirst (p : Place) : Nat → List Char → Place
  | n + 1, c :: rest => (p.past c rest.head?).pastFirst n rest
  | _, _ => p

end Place

def startsMarker (mark : Char) (place : Place) (rest : List Char) : Bool :=
  match place.column, rest with
  | 0, a :: b :: c :: rest => a == mark && b == mark && c == mark && endsWord rest.head?
  | _, _ => false

def startsAnyMarker (place : Place) (rest : List Char) : Bool :=
  startsMarker '-' place rest || startsMarker '.' place rest

def breakLength : List Char → Nat
  | '\r' :: '\n' :: _ => 2
  | c :: _ => if isBreak c then 1 else 0
  | [] => 0

def breaks : List Char → List Char
  | [] => []
  | '\r' :: '\n' :: rest => '\n' :: breaks rest
  | c :: rest =>
    if c == lineSeparator || c == paragraphSeparator then c :: breaks rest
    else if isBreak c then '\n' :: breaks rest
    else breaks rest

/-- What a run of white space within a scalar stands for: itself where it stays on one line; else
its line breaks, of which a single line feed becomes a space and the first of several is dropped. -/
def folded (run : List Char) : List Char :=
  match breaks run with
  | [] => run
  | '\n' :: [] => [' ']
  | '\n' :: more => more
  | all => all

end FileServer.Yaml
