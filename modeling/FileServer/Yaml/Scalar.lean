import FileServer.Yaml.Character
import FileServer.Yaml.Fault

/-! What a reader of a scalar brings back: the text, and where it came to stand. In a scalar without
quotes white space is folded; an indicator, a comment or a line that is not indented ends it. -/
namespace FileServer.Yaml

inductive Style
  | plain
  | quoted
  | literal
  | folded
  deriving DecidableEq, Repr

structure Written where
  text : String
  place : Place
  overBreak : Bool
  deriving DecidableEq, Repr

namespace Plain

def stops (inFlow : Bool) (c : Char) (next : Option Char) : Bool :=
  (c == ':' && endsWord next) || (inFlow && [',', '[', ']', '\x7b', '\x7d'].contains c)

def colonMisplaced (inFlow : Bool) (c : Char) (next : Option Char) : Bool :=
  inFlow && c == ':' && next.any [',', '?', '[', ']', '\x7b', '\x7d'].contains

def interrupted (inFlow : Bool) (margin : Nat) (place : Place) (c : Char) (rest : List Char) :
    Bool :=
  c == '#' || startsAnyMarker place (c :: rest) || (!inFlow && place.column < margin)

def isOverBreak (run : List Char) : Bool := run.any isBreak

def written (place : Place) (text run : List Char) : Written :=
  ⟨String.ofList text.reverse, place, isOverBreak run⟩

def read (inFlow : Bool) (margin : Nat) (place : Place) (text run : List Char) :
    List Char → Except Fault Written
  | [] => .ok (written place text run)
  | c :: rest =>
    let place' := place.past c rest.head?
    if isWhite c then
      if c == '\t' && isOverBreak run && place.column < margin then .error .tabIndentation
      else read inFlow margin place' text (c :: run) rest
    else if !run.isEmpty && interrupted inFlow margin place c rest then .ok (written place text run)
    else if colonMisplaced inFlow c rest.head? then .error .misplacedColon
    else if stops inFlow c rest.head? then .ok (written place text run)
    else read inFlow margin place' (c :: (folded run.reverse).reverse ++ text) [] rest

end Plain

end FileServer.Yaml
