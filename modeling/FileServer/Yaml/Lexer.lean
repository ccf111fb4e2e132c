import FileServer.Bytes
import FileServer.Yaml.Scalar
import FileServer.Yaml.Scalar.Block
import FileServer.Yaml.Scalar.Quoted
import FileServer.Yaml.Tag

/-! Finding the tokens of a document, in the order in which their meaning needs them: the start of a
mapping and the mark of a key come before the key, although only the colon behind the key shows that
it is one. So every place where a key may have begun is kept until the colon is met or can no longer
be. -/
namespace FileServer.Yaml

inductive Token
  | version (major minor : Nat)
  | tagHandle (handle : String) (stem : Bytes)
  | documentStart
  | documentEnd
  | blockStart
  | blockEnd
  | flowStart
  | flowEnd
  | flowEntry
  | key
  | value
  | alias (name : String)
  | anchor (name : String)
  | tag (handle : String) (rest : Bytes)
  | scalar (style : Style) (text : String)
  deriving DecidableEq, Repr

structure Candidate where
  position : Nat
  place : Place
  required : Bool
  deriving DecidableEq, Repr

structure Lexer where
  place : Place := {}
  columns : List Nat := []
  candidates : List (Option Candidate) := [none]
  keyAllowed : Bool := true
  tokens : Array Token := #[]

namespace Lexer

abbrev Step := Except Fault Lexer

def inFlow (x : Lexer) : Bool := 1 < x.candidates.length

def margin (x : Lexer) : Nat :=
  match x.columns with
  | [] => 0
  | column :: _ => column + 1

def push (x : Lexer) (token : Token) : Lexer := { x with tokens := x.tokens.push token }

def moved (x : Lexer) (place : Place) : Lexer := { x with place }

def allowKey (x : Lexer) (allowed : Bool) : Lexer := { x with keyAllowed := allowed }

def advance (x : Lexer) (count : Nat) (rest : List Char) : Lexer :=
  x.moved (x.place.pastFirst count rest)

def Candidate.isStale (place : Place) (c : Candidate) : Bool :=
  c.place.line < place.line || c.place.index + 1024 < place.index

def dropStale (x : Lexer) : Step := do
  let candidates ← x.candidates.mapM fun
    | none => .ok none
    | some c =>
      if Candidate.isStale x.place c then
        if c.required then .error .missingColon else .ok none
      else .ok (some c)
  .ok { x with candidates }

def dropCandidate (x : Lexer) : Step :=
  match x.candidates with
  | some c :: rest =>
    if c.required then .error .missingColon else .ok { x with candidates := none :: rest }
  | _ => .ok x

def addCandidate (x : Lexer) : Step :=
  if x.keyAllowed then do
    let x ← x.dropCandidate
    let required := !x.inFlow && x.columns.head? == some x.place.column
    .ok { x with candidates := some ⟨x.tokens.size, x.place, required⟩ :: x.candidates.tail }
  else .ok x

def closeFrom (tokens : Array Token) (column : Nat) : List Nat → Array Token × List Nat
  | [] => (tokens, [])
  | c :: rest =>
    if column ≤ c then closeFrom (tokens.push .blockEnd) column rest else (tokens, c :: rest)

def close (x : Lexer) (column : Nat) : Lexer :=
  if x.inFlow then x
  else
    let (tokens, columns) := closeFrom x.tokens column x.columns
    { x with tokens, columns }

def openAt (x : Lexer) (column position : Nat) : Lexer :=
  if !x.inFlow && x.margin ≤ column then
    { x with
      columns := column :: x.columns
      tokens := x.tokens.insertIdxIfInBounds position .blockStart }
  else x

def document (x : Lexer) (token : Token) (rest : List Char) : Step := do
  let x ← (x.close 0).dropCandidate
  .ok (((x.allowKey false).push token).advance 3 rest)

def flowStart (x : Lexer) (rest : List Char) : Step := do
  let x ← x.addCandidate
  let x := ((x.allowKey true).push .flowStart).advance 1 rest
  .ok { x with candidates := none :: x.candidates }

def flowEnd (x : Lexer) (rest : List Char) : Step := do
  let x ← x.dropCandidate
  let x := ((x.allowKey false).push .flowEnd).advance 1 rest
  .ok { x with candidates := if x.inFlow then x.candidates.tail else x.candidates }

def flowEntry (x : Lexer) (rest : List Char) : Step := do
  let x ← x.dropCandidate
  .ok (((x.allowKey true).push .flowEntry).advance 1 rest)

def key (x : Lexer) (rest : List Char) : Step :=
  if !x.inFlow && !x.keyAllowed then .error .misplacedKey
  else do
    let x ← (x.openAt x.place.column x.tokens.size).dropCandidate
    .ok (((x.allowKey (!x.inFlow)).push .key).advance 1 rest)

def value (x : Lexer) (rest : List Char) : Step :=
  match x.candidates with
  | some c :: outer =>
    let x := { x with
      candidates := none :: outer
      tokens := x.tokens.insertIdxIfInBounds c.position .key }
    let x := x.openAt c.place.column c.position
    .ok (((x.allowKey false).push .value).advance 1 rest)
  | _ =>
    if !x.inFlow && !x.keyAllowed then .error .misplacedValue
    else
      let x := x.openAt x.place.column x.tokens.size
      .ok (((x.allowKey (!x.inFlow)).push .value).advance 1 rest)

def endsName (c : Option Char) : Bool :=
  endsWord c || c.any ['?', ':', ',', ']', '\x7d', '%', '@', '\x60'].contains

def name (x : Lexer) (token : String → Token) (rest : List Char) : Step := do
  let x ← x.addCandidate
  let word := (rest.drop 1).takeWhile isWordChar
  if word.isEmpty || !endsName (rest.drop (1 + word.length)).head? then .error .invalidAnchor
  else .ok (((x.allowKey false).push (token (String.ofList word))).advance (1 + word.length) rest)

def tag (x : Lexer) (rest : List Char) : Step := do
  let x ← x.addCandidate
  let written ← Tag.read rest
  let next := (rest.drop written.length).head?
  if endsWord next || (x.inFlow && next == some ',') then
    .ok (((x.allowKey false).push (.tag written.handle written.rest)).advance written.length rest)
  else .error .invalidTag

def isBare (cs : List Char) : Bool :=
  match cs.dropWhile isBlank with
  | [] => true
  | c :: _ => c == '#'

def digits? (cs : List Char) : Option Nat :=
  if cs.isEmpty || 9 < cs.length then none
  else some (cs.foldl (fun n c => n * 10 + (c.toNat - '0'.toNat)) 0)

def versionDirective (cs : List Char) : Except Fault Token :=
  let cs := cs.dropWhile isBlank
  let major := cs.takeWhile Char.isDigit
  let behind := cs.drop (major.length + 1)
  let minor := behind.takeWhile Char.isDigit
  match (cs.drop major.length).head?, digits? major, digits? minor with
  | some '.', some major, some minor' =>
    if isBare (behind.drop minor.length) then .ok (.version major minor')
    else .error .invalidDirective
  | _, _, _ => .error .invalidDirective

def handleDirective (cs : List Char) : Except Fault Token :=
  let cs := cs.dropWhile isBlank
  let word := (cs.drop 1).takeWhile isWordChar
  let closed := (cs.drop (1 + word.length)).head? == some '!'
  let handle := cs.take (if closed then 2 + word.length else 1 + word.length)
  let behind := cs.drop handle.length
  let uri := (behind.dropWhile isBlank).takeWhile Tag.isWideUriChar
  let last := (behind.dropWhile isBlank).drop uri.length
  if cs.head? != some '!' || !(closed || word.isEmpty) || !behind.head?.any isBlank || uri.isEmpty
      || !last.head?.all isBlank || !isBare last then
    .error .invalidDirective
  else do .ok (.tagHandle (String.ofList handle) (← Tag.unescaped uri))

def directive (x : Lexer) (rest : List Char) : Step := do
  let x ← (x.close 0).dropCandidate
  let line := rest.takeWhile (!isBreak ·)
  let word := (line.drop 1).takeWhile isWordChar
  let behind := line.drop (1 + word.length)
  let token ←
    if word == "YAML".toList then versionDirective behind
    else if word == "TAG".toList then handleDirective behind
    else .error .invalidDirective
  if behind.head?.all isBlank then
    let length := line.length + breakLength (rest.drop line.length)
    .ok (((x.allowKey false).push token).advance length rest)
  else .error .invalidDirective

def plain (x : Lexer) (rest : List Char) : Step := do
  let x ← x.addCandidate
  let written ← Plain.read x.inFlow x.margin x.place [] [] rest
  .ok (((x.allowKey written.overBreak).push (.scalar .plain written.text)).moved written.place)

def quoted (x : Lexer) (quote : Char) (rest : List Char) : Step := do
  let x ← x.addCandidate
  let written ← Quoted.read quote (x.advance 1 rest).place {} (rest.drop 1)
  .ok (((x.allowKey false).push (.scalar .quoted written.text)).moved written.place)

def block (x : Lexer) (literal : Bool) (rest : List Char) : Step := do
  let x ← x.dropCandidate
  let written ← Block.read literal x.margin (x.advance 1 rest).place (rest.drop 1)
  let style := if literal then Style.literal else .folded
  .ok (((x.allowKey true).push (.scalar style written.text)).moved written.place)

def startsPlain (inFlow : Bool) (c : Char) (next : Option Char) : Bool :=
  if c == '-' then next.any (!isBlank ·)
  else if c == '?' || c == ':' then !inFlow && !endsWord next
  else !isWhite c && !",[]\x7b\x7d#&*!|>'\"%@\x60".toList.contains c

def fetchIndicator (x : Lexer) (c : Char) (rest : List Char) : Step :=
  let next := (rest.drop 1).head?
  let apart := x.inFlow || endsWord next
  match c with
  | '[' => .error .sequence
  | ']' => .error .sequence
  | '\x7b' => x.flowStart rest
  | '\x7d' => x.flowEnd rest
  | ',' => x.flowEntry rest
  | '*' => x.name .alias rest
  | '&' => x.name .anchor rest
  | '!' => x.tag rest
  | '\'' => x.quoted c rest
  | '"' => x.quoted c rest
  | _ =>
    if c == '-' && endsWord next then .error .sequence
    else if c == '?' && apart then x.key rest
    else if c == ':' && apart then x.value rest
    else if (c == '|' || c == '>') && !x.inFlow then x.block (c == '|') rest
    else if startsPlain x.inFlow c next then x.plain rest
    else .error .strayCharacter

def fetch (x : Lexer) (c : Char) (rest : List Char) : Step := do
  let x ← x.dropStale
  let x := x.close (x.place.column + 1)
  if c == '%' && x.place.column == 0 then x.directive rest
  else if startsMarker '-' x.place rest then x.document .documentStart rest
  else if startsMarker '.' x.place rest then x.document .documentEnd rest
  else x.fetchIndicator c rest

def skipped (x : Lexer) (c : Char) (rest : List Char) : Option Lexer :=
  if c == ' ' || (c == '\t' && (x.inFlow || !x.keyAllowed)) then some (x.advance 1 rest)
  else if c == '#' then some (x.advance (rest.takeWhile (!isBreak ·)).length rest)
  else if isBreak c then
    some ((if x.inFlow then x else x.allowKey true).advance 1 rest)
  else if c == byteOrderMark && x.place.column == 0 then some (x.advance 1 rest)
  else none

def finish (x : Lexer) : Except Fault (List Token) := do
  let x ← x.dropStale
  let x ← (x.close 0).dropCandidate
  .ok x.tokens.toList

def scan : Nat → Lexer → List Char → Except Fault (List Token)
  | _, x, [] => x.finish
  | behind + 1, x, _ :: rest => scan behind x rest
  | 0, x, c :: rest => do
    let index := x.place.index
    let next ← match x.skipped c (c :: rest) with
      | some next => .ok next
      | none => x.fetch c (c :: rest)
    scan (next.place.index - index - 1) next rest

end Lexer

def Token.scan (text : String) : Except Fault (List Token) :=
  let cs := text.toList
  if cs.all isAllowed then Lexer.scan 0 {} cs else .error .forbiddenCharacter

end FileServer.Yaml
