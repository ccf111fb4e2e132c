import FileServer.Yaml.Fault
import FileServer.Yaml.Scalar

/-! Scalars of whole lines behind a header. Lines of a folded one are joined, unless one of them
begins with a blank; the header says what becomes of the line breaks at the end. -/
namespace FileServer.Yaml.Block

structure Line where
  text : List Char
  ending : List Char
  deriving DecidableEq, Repr

def Line.length (line : Line) : Nat := line.text.length + line.ending.length

def Line.indentation (line : Line) : Nat := (line.text.takeWhile (· == ' ')).length

def lines (text : List Char) : List Char → List Line
  | [] => [⟨text.reverse, []⟩]
  | '\r' :: '\n' :: rest => ⟨text.reverse, ['\r', '\n']⟩ :: lines [] rest
  | c :: rest =>
    if isBreak c then ⟨text.reverse, [c]⟩ :: lines [] rest else lines (c :: text) rest

inductive Chomping
  | clip
  | strip
  | keep
  deriving DecidableEq, Repr

structure Header where
  chomping : Chomping := .clip
  indentation : Option Nat := none
  deriving DecidableEq, Repr

def chompingOf? : Char → Option Chomping
  | '+' => some .keep
  | '-' => some .strip
  | _ => none

def Header.indicator (h : Header) (seen : Bool × Bool) (c : Char) :
    Option (Except Fault (Header × (Bool × Bool))) :=
  match chompingOf? c with
  | some chomping => if seen.1 then none else some (.ok ({ h with chomping }, (true, seen.2)))
  | none =>
    if c.isDigit && !seen.2 then
      if c == '0' then some (.error .invalidBlockHeader)
      else some (.ok ({ h with indentation := some (c.toNat - '0'.toNat) }, (seen.1, true)))
    else none

def Header.readFrom (h : Header) (seen : Bool × Bool) : List Char → Except Fault Header
  | [] => .ok h
  | c :: rest =>
    match h.indicator seen c with
    | some (.ok (h, seen)) => h.readFrom seen rest
    | some (.error fault) => .error fault
    | none =>
      match (c :: rest).dropWhile isBlank with
      | [] => .ok h
      | '#' :: _ => .ok h
      | _ => .error .invalidBlockHeader

def widest (most : Nat) : List Line → Except Fault Nat
  | [] => .ok most
  | line :: rest =>
    let most := max most line.indentation
    match line.text.drop line.indentation with
    | [] => if line.ending.isEmpty then .ok most else widest most rest
    | c :: _ => if c == '\t' then .error .tabIndentation else .ok most

structure State where
  text : List Char := []
  ending : List Char := []
  empty : List Char := []
  leadingBlank : Bool := false
  consumed : Nat := 0

def State.skipLine (s : State) (line : Line) : State :=
  { s with empty := s.empty ++ breaks line.ending, consumed := s.consumed + line.length }

def State.joined (s : State) (literal startsBlank : Bool) : List Char :=
  if !literal && s.ending == ['\n'] && !s.leadingBlank && !startsBlank then
    (if s.empty.isEmpty then [' '] else s.empty.reverse) ++ s.text
  else (s.ending ++ s.empty).reverse ++ s.text

def State.addLine (s : State) (literal : Bool) (indentation : Nat) (line : Line) : State :=
  let content := line.text.drop indentation
  let startsBlank := content.head?.any isBlank
  { text := content.reverse ++ s.joined literal startsBlank
    ending := breaks line.ending
    empty := []
    leadingBlank := startsBlank
    consumed := s.consumed + line.length }

def State.chomped (s : State) : Chomping → List Char
  | .strip => s.text.reverse
  | .clip => s.text.reverse ++ s.ending
  | .keep => s.text.reverse ++ s.ending ++ s.empty

def readLines (literal : Bool) (indentation : Nat) (s : State) : List Line → Except Fault State
  | [] => .ok s
  | line :: rest =>
    let skipped := min indentation line.indentation
    match line.text.drop skipped with
    | [] =>
      if line.ending.isEmpty then .ok { s with consumed := s.consumed + skipped }
      else readLines literal indentation (s.skipLine line) rest
    | c :: _ =>
      if skipped < indentation then
        if c == '\t' then .error .tabIndentation
        else .ok { s with consumed := s.consumed + skipped }
      else readLines literal indentation (s.addLine literal indentation line) rest

def read (literal : Bool) (margin : Nat) (place : Place) (rest : List Char) :
    Except Fault Written := do
  match lines [] rest with
  | [] => .ok ⟨"", place, true⟩
  | first :: more =>
    let header ← Header.readFrom {} (false, false) first.text
    let indentation ← match header.indentation with
      | some n => .ok (margin - 1 + n)
      | none => (widest 0 more).map fun most => max most (max margin 1)
    let s ← readLines literal indentation { consumed := first.length } more
    .ok ⟨String.ofList (s.chomped header.chomping), place.pastFirst s.consumed rest, true⟩

end FileServer.Yaml.Block
