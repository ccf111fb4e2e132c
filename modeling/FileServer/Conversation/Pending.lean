import FileServer.Conversation.Stage
import FileServer.Message.Response
import FileServer.Stream.Transport

/-! What a connection waits for, and what is done once that has come. A pending operation is a plain
value: it says what is to be read or written and how things go on, so a conversation can be held,
resumed and given up without running anything. -/
namespace FileServer

inductive Operation
  | receive
  | send (payload : Bytes)
  deriving DecidableEq, Repr

inductive Reading
  | frame (want : Want)
  | request (stage : Stage)
  | serving (stage : Stage)
  | script (rest : List Operation)
  deriving Repr

inductive Writing
  | last
  | serving
  | script (rest : List Operation)
  deriving Repr

inductive Pending
  | read (then' : Reading)
  | write (payload : Bytes) (then' : Writing)
  deriving Repr

inductive Event
  | framed (want : Want) (result : Except Oversize Bytes)
  | requested (result : Except RequestFault Request)
  | called (request : Request)
  | asked (effect : Effect)
  | received (bytes : Bytes)
  | sent
  deriving Repr

inductive Abort
  | date (fault : DateFault)
  | offsetOverflow
  deriving DecidableEq, Repr

def Abort.message : Abort → String
  | .date fault => fault.message
  | .offsetOverflow => "attempt to add with overflow"

inductive Next
  | ended
  | waits (pending : Pending)
  | aborted (fault : Abort)
  deriving Repr

structure Outcome where
  events : List Event
  buffer : Bytes
  next : Next
  deriving Repr

structure Context where
  limits : Limits
  remote : Address
  service : Service

namespace Conversation

def frame (context : Context) (want : Want) (buffer : Bytes) : Outcome :=
  match want.scan context.limits.frame buffer with
  | .found frame rest => ⟨[.framed want (.ok frame)], rest, .ended⟩
  | .oversize fault => ⟨[.framed want (.error fault)], buffer, .ended⟩
  | .missing => ⟨[], buffer, .waits (.read (.frame want))⟩

def request (context : Context) (stage : Stage) (buffer : Bytes) : Outcome :=
  match stage.scan context.limits.frame context.remote buffer with
  | .done result rest => ⟨[.requested result], rest, .ended⟩
  | .more stage buffer => ⟨[], buffer, .waits (.read (.request stage))⟩

def refusal : Pending := .write (Response.bare .badRequest).wire .last

def answer (context : Context) (request : Request) : List Event × Next :=
  let answer := context.service request
  (.called request :: answer.trace.map .asked,
    match answer.value with
    | .error fault => .aborted (.date fault)
    | .ok response =>
      .waits (.write response.wire (if request.keepsAlive then .serving else .last)))

def serve (context : Context) (stage : Stage) (buffer : Bytes) : Outcome :=
  match stage.scan context.limits.frame context.remote buffer with
  | .more stage buffer => ⟨[], buffer, .waits (.read (.serving stage))⟩
  | .done (.error _) rest => ⟨[], rest, .waits refusal⟩
  | .done (.ok request) rest =>
    if request.isAddressed then
      let (events, next) := answer context request
      ⟨events, rest, next⟩
    else ⟨[], rest, .waits refusal⟩

def script : List Operation → Next
  | [] => .ended
  | .receive :: rest => .waits (.read (.script rest))
  | .send payload :: rest => .waits (.write payload (.script rest))

def received (context : Context) (buffer bytes : Bytes) : Reading → Outcome
  | .frame want => frame context want (buffer ++ bytes)
  | .request stage => request context stage (buffer ++ bytes)
  | .serving stage => serve context stage (buffer ++ bytes)
  | .script rest => ⟨[.received bytes], buffer, script rest⟩

def sent (context : Context) (buffer : Bytes) : Writing → Outcome
  | .last => ⟨[], buffer, .ended⟩
  | .serving => serve context .head buffer
  | .script rest => ⟨[.sent], buffer, script rest⟩

end Conversation

namespace Next

def scriptLength : Next → Nat
  | .waits (.read (.script rest)) => rest.length + 1
  | .waits (.write _ (.script rest)) => rest.length + 1
  | _ => 0

def rank : Next → Nat
  | .waits (.write _ .last) => 1
  | .waits (.write _ _) => 3
  | .waits (.read _) => 2
  | .ended => 0
  | .aborted _ => 0

theorem rankBound (next : Next) : rank next ≤ 3 := by
  unfold rank
  split <;> omega

theorem scriptLengthOfScript (rest : List Operation) :
    scriptLength (Conversation.script rest) = rest.length := by
  cases rest with
  | nil => rfl
  | cons op rest => cases op <;> rfl

end Next

end FileServer
