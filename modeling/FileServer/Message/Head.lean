import FileServer.Message.Request
import FileServer.Sequence

/-! Reading the head of a request: what stands before the blank line. Of several faults the one
named first below is reported. -/
namespace FileServer

inductive RequestFault
  | invalidRequest
  | invalidMethod
  | invalidUri
  | invalidHeader
  | invalidContentLength
  | tooLarge
  deriving DecidableEq, Repr

def RequestFault.message : RequestFault → String
  | .invalidRequest => "malformed request line"
  | .invalidMethod => "invalid request method"
  | .invalidUri => "request uri must start with '/'"
  | .invalidHeader => "malformed header line"
  | .invalidContentLength => "invalid Content-Length"
  | .tooLarge => "request too large"

namespace Head

def readInitialLine (line : List Char) : Except RequestFault (Method × String × String) :=
  match Sequence.cut? [' '] line with
  | none => .error .invalidRequest
  | some (method, rest) =>
    match Sequence.cut? [' '] rest with
    | none => .error .invalidRequest
    | some (uri, version) =>
      match Method.read? (String.ofList method) with
      | none => .error .invalidMethod
      | some m =>
        if uri.head? = some '/' then .ok (m, String.ofList uri, String.ofList version)
        else .error .invalidUri

def readHeader (line : List Char) : Except RequestFault Header :=
  match Sequence.cut? [':', ' '] line with
  | none => .error .invalidHeader
  | some (name, value) => .ok ⟨String.ofList name, String.ofList value⟩

def readLines : List (List Char) → Except RequestFault Request
  | [] => .error .invalidRequest
  | initial :: rest => do
    let (method, uri, version) ← readInitialLine initial
    let headers ← rest.mapM readHeader
    .ok ⟨method, uri, version, headers, [], .unspecified⟩

def read (frame : Bytes) : Except RequestFault Request :=
  match Bytes.text? frame with
  | none => .error .invalidRequest
  | some text => readLines (Sequence.pieces ['\r', '\n'] text.toList)

end Head

end FileServer
