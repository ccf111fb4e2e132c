import FileServer.Address.Host
import FileServer.Host

/-! A server: a service behind a listening socket, and the clients that reach it over a network. -/
namespace FileServer

structure Network where
  reachable : Bool
  deriving DecidableEq, Repr

namespace Network

def unreachableFault : Failure := .system .networkUnreachable "Network is unreachable" 101

def locate? (text : String) : Option Endpoint :=
  match Endpoint.read? text with
  | some endpoint => some endpoint
  | none => do
    let (host, port) ← Sequence.cutLast? ':' text.toList
    let host ← IpAddress.ofName? host
    match Text.readNumber 10 0xffff port with
    | .ok port => some ⟨host, port.toUInt16⟩
    | .error _ => none

/-- No narrow address is refused, for nothing tells which are the machine's own; of the wide ones it
has none but those that stand for all, or for a narrow one. -/
def bind (endpoint : Endpoint) : Except Failure Endpoint :=
  match endpoint.host with
  | .narrow _ => .ok endpoint
  | .wide w _ =>
    if w.isUnspecified || w.mapped?.isSome then .ok endpoint else .error .addressNotAvailable

def bindsTo? (text : String) : Option Endpoint := (locate? text).bind (bind · |>.toOption)

end Network

namespace Server

def loopback : Address := .ofOctets 127 0 0 1

def bindFault : String := "binding listener failed"

def listening (service : Service) (tasks : Nat) : Host Duplex :=
  ({} : Host Duplex).listen service tasks

def connect (network : Network) (limits : Limits) (host : Host Duplex) :
    Except Failure (Host Duplex) :=
  if network.reachable then
    .ok ((host.connect {} loopback limits).arrive 0 (.ok host.site.links.length))
  else .error Network.unreachableFault

def serveBroken (service : Service) : Host.Ending := ((listening service 1).breakListeners).run.1

end Server

end FileServer
