import FileServer.Bytes
import FileServer.Yaml.Scalar.Quoted

/-! Tags as they are written: whole between angle brackets, behind a handle with an exclamation mark
at both ends, or behind a single one. -/
namespace FileServer.Yaml.Tag

def isUriChar (c : Char) : Bool :=
  isWordChar c || ";/?:@&=+$.%!~*'()".toList.contains c

def isWideUriChar (c : Char) : Bool := isUriChar c || c == ',' || c == '[' || c == ']'

def following? (b : UInt8) : Option Nat :=
  if b < 0x80 then some 0
  else if b < 0xc0 then none
  else if b < 0xe0 then some 1
  else if b < 0xf0 then some 2
  else if b < 0xf8 then some 3
  else none

def unescapedFrom (due : Nat) : List Char → Option Bytes
  | [] => if due = 0 then some [] else none
  | '%' :: a :: b :: rest =>
    match Quoted.hexValue? a, Quoted.hexValue? b with
    | some a, some b =>
      let byte := (a * 16 + b).toUInt8
      match due with
      | 0 => (following? byte).bind fun due => (unescapedFrom due rest).map (byte :: ·)
      | due + 1 =>
        if byte &&& 0xc0 = 0x80 then (unescapedFrom due rest).map (byte :: ·) else none
    | _, _ => none
  | c :: rest =>
    if c = '%' || due ≠ 0 then none
    else (unescapedFrom 0 rest).map (Bytes.ofText (String.singleton c) ++ ·)

def unescaped (cs : List Char) : Except Fault Bytes :=
  match unescapedFrom 0 cs with
  | some bytes => .ok (bytes.takeWhile (· != 0))
  | none => .error .invalidTag

structure Written where
  handle : String
  rest : Bytes
  length : Nat
  deriving DecidableEq, Repr

def verbatim (cs : List Char) : Except Fault Written :=
  let uri := (cs.drop 2).takeWhile isWideUriChar
  if uri.isEmpty || (cs.drop (2 + uri.length)).head? != some '>' then .error .invalidTag
  else do .ok ⟨"", ← unescaped uri, 3 + uri.length⟩

def shorthand (cs : List Char) : Except Fault Written :=
  let word := (cs.drop 1).takeWhile isWordChar
  if (cs.drop (1 + word.length)).head? == some '!' then
    let uri := (cs.drop (2 + word.length)).takeWhile isUriChar
    if uri.isEmpty then .error .invalidTag
    else do
      let handle := String.ofList ('!' :: word ++ ['!'])
      .ok ⟨handle, ← unescaped uri, 2 + word.length + uri.length⟩
  else do
    let uri := (cs.drop 1).takeWhile isUriChar
    let rest ← unescaped uri
    if rest.isEmpty then .ok ⟨"", Bytes.ofText "!", 1 + uri.length⟩
    else .ok ⟨"!", rest, 1 + uri.length⟩

def read (cs : List Char) : Except Fault Written :=
  if (cs.drop 1).head? == some '<' then verbatim cs else shorthand cs

end FileServer.Yaml.Tag
