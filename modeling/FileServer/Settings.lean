import FileServer.Address.Endpoint
import FileServer.Surroundings
import FileServer.Stream.Transport
import FileServer.Text.Basic
import FileServer.Text.Quoted
import FileServer.Yaml.Assembly

/-! Settings of the server, read from a document. Every field has a default, and a document may
leave out any of them; it may not name others, or one twice. Any scalar can be a text, but only a
plain one a number. -/
namespace FileServer

structure Settings where
  listen : String := "0.0.0.0:8080"
  tick : Nat := 1000
  patience : Nat := 5000
  readChunk : Nat := 8192
  writeChunk : Nat := 65536
  frame : Nat := 65536
  level : String := "info"
  deriving DecidableEq, Repr

inductive Level
  | error
  | warn
  | info
  | debug
  | trace
  deriving DecidableEq, Repr

namespace Level

def text : Level → String
  | .error => "ERROR"
  | .warn => "WARN"
  | .info => "INFO"
  | .debug => "DEBUG"
  | .trace => "TRACE"

def all : List Level := [.error, .warn, .info, .debug, .trace]

def read? (s : String) : Option Level :=
  match Text.readWord s.toList with
  | .ok 0 => none
  | .ok (n + 1) => all[n]?
  | .error _ => all.find? fun level => Text.sameIgnoringCase level.text s

end Level

inductive SettingsFault
  | unreadable (cause : Failure)
  | document (cause : Yaml.Fault)
  | level (text : String)
  | listen (text : String)
  deriving DecidableEq, Repr

def SettingsFault.message (file : String) : SettingsFault → String
  | .unreadable cause => "reading config file " ++ file ++ " failed: " ++ cause.text
  | .document cause => "parsing config file " ++ file ++ " failed: " ++ cause.message
  | .level text => "invalid log level " ++ Text.quote text
  | .listen text => "invalid listen address " ++ Text.quote text ++ ": " ++ Endpoint.faultMessage

namespace Settings

open Yaml (Document Node Fault)

def fields (d : Document) (names : List String) (node : Node) :
    Except Fault (List (String × Node)) := do
  match ← d.follow node with
  | .scalar .plain _ "" => .ok []
  | .mapping entries =>
    entries.foldlM (fun read (key, node) => do
      match ← d.follow key with
      | .scalar _ _ name =>
        if !names.contains name then .error (.unknownField name)
        else if read.any (·.1 == name) then .error (.duplicateField name)
        else .ok ((name, node) :: read)
      | _ => .error .wrongType) []
  | _ => .error .wrongType

def textOf (d : Document) (node : Node) : Except Fault String := do
  match ← d.follow node with
  | .scalar _ _ text => .ok text
  | _ => .error .wrongType

def radices : List (Char × Nat) := [('x', 16), ('o', 8), ('b', 2)]

def digits? (radix : Nat) (cs : List Char) : Option Nat :=
  if cs = [] then none
  else
    match Text.readDigits radix Text.maxWord 0 cs with
    | .ok n => some n
    | .error _ => none

def decimal? (cs : List Char) : Option Nat :=
  if 1 < cs.length && cs.head? == some '0' && cs.all Char.isDigit then none else digits? 10 cs

def number? (cs : List Char) : Option Nat :=
  let cs := if cs.head? == some '+' then cs.tail else cs
  match cs with
  | '0' :: mark :: rest =>
    match radices.find? (·.1 == mark) with
    | some (_, radix) => digits? radix rest
    | none => decimal? cs
  | cs => decimal? cs

def isNumeric : Yaml.Style → Option Bytes → Bool
  | .plain, _ => true
  | .literal, tag => tag == some (Bytes.ofText "tag:yaml.org,2002:int")
  | _, _ => false

def numberOf (d : Document) (node : Node) : Except Fault Nat := do
  match ← d.follow node with
  | .scalar style tag text =>
    if isNumeric style tag then
      match number? text.toList with
      | some n => .ok n
      | none => .error .wrongType
    else .error .wrongType
  | _ => .error .wrongType

def field {α : Type} (read : Node → Except Fault α) (name : String) (default : α)
    (fields : List (String × Node)) : Except Fault α :=
  match fields.find? (·.1 == name) with
  | some (_, node) => read node
  | none => .ok default

def sectionOf (d : Document) (names : List String) (name : String)
    (sections : List (String × Node)) : Except Fault (List (String × Node)) :=
  field (fields d names) name [] sections

def ofDocument (d : Document) : Except Fault Settings := do
  let defaults : Settings := {}
  let top ← fields d ["server", "reactor", "connection", "log_level"] d.root
  let server ← sectionOf d ["listen_addr"] "server" top
  let reactor ← sectionOf d ["tick_ms"] "reactor" top
  let connection ← sectionOf d
    ["io_timeout_ms", "read_chunk", "write_chunk", "max_frame_bytes"] "connection" top
  .ok {
    listen := ← field (textOf d) "listen_addr" defaults.listen server
    tick := ← field (numberOf d) "tick_ms" defaults.tick reactor
    patience := ← field (numberOf d) "io_timeout_ms" defaults.patience connection
    readChunk := ← field (numberOf d) "read_chunk" defaults.readChunk connection
    writeChunk := ← field (numberOf d) "write_chunk" defaults.writeChunk connection
    frame := ← field (numberOf d) "max_frame_bytes" defaults.frame connection
    level := ← field (textOf d) "log_level" defaults.level top }

def read (text : String) : Except Fault Settings := do
  if Text.trim text.toList = [] then .ok {}
  else
    match ← Document.read text with
    | none => .ok {}
    | some d => ofDocument d

def ofFile (contents : Except Failure Bytes) : Except SettingsFault Settings :=
  match contents with
  | .error cause => .error (.unreadable cause)
  | .ok bytes =>
    match Bytes.text? bytes with
    | none => .error (.unreadable .notText)
    | some text => (read text).mapError .document

def overridden (s : Settings) (listen : Option String) : Settings :=
  { s with listen := listen.getD s.listen }

def limits (s : Settings) : Limits := ⟨some s.patience, s.readChunk, s.writeChunk, s.frame⟩

def maxLevel (s : Settings) : Except SettingsFault Level :=
  match Level.read? s.level with
  | some level => .ok level
  | none => .error (.level s.level)

def listenOn (s : Settings) (port : UInt16) : Except SettingsFault Endpoint :=
  match Endpoint.read? s.listen with
  | some endpoint => .ok { endpoint with port }
  | none => .error (.listen s.listen)

end Settings

end FileServer
