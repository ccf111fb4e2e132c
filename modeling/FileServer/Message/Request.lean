import FileServer.Address.Endpoint
import FileServer.Bytes
import FileServer.Text.Basic

/-! Requests, as the service sees them and as they are sent. Seven methods have names of their own,
and any other token is kept as it is; names of headers keep the case they came with and are looked up
without regard to it. -/
namespace FileServer

structure Header where
  name : String
  value : String
  deriving DecidableEq, Repr

def Header.find? (headers : List Header) (name : String) : Option String :=
  (headers.find? fun h => Text.sameIgnoringCase h.name name).map Header.value

inductive Method
  | get
  | post
  | put
  | delete
  | head
  | options
  | patch
  | extension (token : String)
  deriving DecidableEq, Repr

namespace Method

def text : Method → String
  | .get => "GET"
  | .post => "POST"
  | .put => "PUT"
  | .delete => "DELETE"
  | .head => "HEAD"
  | .options => "OPTIONS"
  | .patch => "PATCH"
  | .extension token => token

def isTokenChar (c : Char) : Bool := c.isAlphanum || "!#$%&'*+-.^_\x60|~".toList.contains c

def isToken (s : String) : Bool := !s.toList.isEmpty && s.toList.all isTokenChar

def named : List Method := [.get, .post, .put, .delete, .head, .options, .patch]

def read? (s : String) : Option Method :=
  match named.find? (·.text == s) with
  | some m => some m
  | none => if isToken s then some (.extension s) else none

end Method

structure Request where
  method : Method
  uri : String
  version : String
  headers : List Header
  body : Bytes
  remote : Address
  deriving DecidableEq, Repr

inductive MissingPart
  | method
  | uri
  deriving DecidableEq, Repr

def MissingPart.message : MissingPart → String
  | .method => "method missing"
  | .uri => "uri missing"

namespace Request

def build (method : Option Method) (uri version : Option String) (headers : List Header)
    (body : Bytes) (remote : Address) : Except MissingPart Request :=
  match method, uri with
  | none, _ => .error .method
  | _, none => .error .uri
  | some method, some uri => .ok ⟨method, uri, version.getD "HTTP/1.1", headers, body, remote⟩

def sentBy (r : Request) (remote : Address) : Request := { r with remote := remote }

def withBody (r : Request) (body : Bytes) : Request := { r with body := body }

def header? (r : Request) (name : String) : Option String := Header.find? r.headers name

def contentLength? (r : Request) : Option (Except Text.NumberFault Nat) :=
  (r.header? "Content-Length").map fun value => Text.readWord (Text.trim value.toList)

def keepsAlive (r : Request) : Bool :=
  match r.header? "Connection" with
  | none => true
  | some value => !Text.sameIgnoringCase (String.ofList (Text.trim value.toList)) "close"

def isAddressed (r : Request) : Bool :=
  r.version != "HTTP/1.1" || (r.header? "Host").isSome

end Request

def Header.wire (h : Header) : Bytes := .ofText (h.name ++ ": " ++ h.value) ++ Bytes.crlf

def Request.wire (r : Request) : Bytes :=
  .ofText (r.method.text ++ " " ++ r.uri ++ " " ++ r.version) ++ Bytes.crlf
    ++ r.headers.flatMap Header.wire ++ Bytes.crlf ++ r.body

end FileServer
