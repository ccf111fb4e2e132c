import FileServer.Yaml.Fault
import FileServer.Yaml.Scalar

/-! Scalars between quotes. Single quotes are doubled inside single ones; between double ones a
backslash escapes, the line break included. -/
namespace FileServer.Yaml.Quoted

def escaped? : Char → Option Nat
  | '0' => some 0
  | 'a' => some 7
  | 'b' => some 8
  | 't' => some 9
  | '\t' => some 9
  | 'n' => some 10
  | 'v' => some 11
  | 'f' => some 12
  | 'r' => some 13
  | 'e' => some 27
  | ' ' => some 32
  | '"' => some 34
  | '/' => some 47
  | '\\' => some 92
  | 'N' => some 0x85
  | '_' => some 0xa0
  | 'L' => some 0x2028
  | 'P' => some 0x2029
  | _ => none

def digitCount? : Char → Option Nat
  | 'x' => some 2
  | 'u' => some 4
  | 'U' => some 8
  | _ => none

def hexValue? (c : Char) : Option Nat :=
  if c.isDigit then some (c.toNat - '0'.toNat)
  else if 'a' ≤ c ∧ c ≤ 'f' then some (c.toNat - 'a'.toNat + 10)
  else if 'A' ≤ c ∧ c ≤ 'F' then some (c.toNat - 'A'.toNat + 10)
  else none

def character? (n : Nat) : Option Char := if n.isValidChar then some (Char.ofNat n) else none

inductive Mode
  | text
  | doubled
  | escape
  | digits (left value : Nat)
  | lineFeed
  deriving DecidableEq, Repr

structure State where
  mode : Mode := .text
  text : List Char := []
  run : List Char := []
  joined : Bool := false

def State.flushed (s : State) : List Char :=
  if s.joined then (breaks s.run.reverse).reverse ++ s.text
  else (folded s.run.reverse).reverse ++ s.text

def State.push (s : State) (c : Char) : State := { text := c :: s.flushed }

def State.escape (s : State) (c : Char) (next : Option Char) : Except Fault State :=
  match escaped? c, digitCount? c with
  | some n, _ => .ok (s.push (Char.ofNat n))
  | none, some count => .ok { s with mode := .digits count 0 }
  | none, none =>
    if isBreak c then
      let mode := if c == '\r' && next == some '\n' then .lineFeed else .text
      .ok { mode, text := s.flushed, joined := true }
    else .error .invalidEscape

def State.digit (s : State) (left value : Nat) (c : Char) : Except Fault State :=
  match hexValue? c with
  | none => .error .invalidEscape
  | some d =>
    let value := value * 16 + d
    if 1 < left then .ok { s with mode := .digits (left - 1) value }
    else
      match character? value with
      | some c => .ok (s.push c)
      | none => .error .invalidEscape

def read (quote : Char) (place : Place) (s : State) : List Char → Except Fault Written
  | [] => .error .unclosedQuote
  | c :: rest => do
    let place' := place.past c rest.head?
    match s.mode with
    | .lineFeed => read quote place' { s with mode := .text } rest
    | .doubled => read quote place' (s.push c) rest
    | .escape => read quote place' (← s.escape c rest.head?) rest
    | .digits left value => read quote place' (← s.digit left value c) rest
    | .text =>
      if isWhite c then read quote place' { s with run := c :: s.run } rest
      else if startsAnyMarker place (c :: rest) then .error .markerInQuotes
      else if c == quote then
        if quote == '\'' && rest.head? == some '\'' then
          read quote place' { s with mode := .doubled } rest
        else .ok ⟨String.ofList s.flushed.reverse, place', false⟩
      else if c == '\\' && quote == '"' then read quote place' { s with mode := .escape } rest
      else read quote place' (s.push c) rest

end FileServer.Yaml.Quoted
