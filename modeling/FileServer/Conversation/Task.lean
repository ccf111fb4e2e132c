import FileServer.Conversation.Pending
import FileServer.Stream.Transport

/-! One pending operation of a conversation, with all it needs to be resumed: the bytes received but
not yet used, and how much of a payload has been accepted. -/
namespace FileServer

structure Task where
  context : Context
  buffer : Bytes
  pending : Pending
  sent : Nat
  since : Nat

inductive Resumed
  | kept (task : Task)
  | completed (events : List Event) (successor : Option Task)
  | abandoned (cause : Abandonment)
  | aborted (events : List Event) (fault : Abort)

namespace Task

def isReady {σ : Type} (t : Transport σ) (task : Task) (s : σ) : Bool :=
  match task.pending with
  | .read _ => t.readable s
  | .write _ _ => t.writable s

def expired (task : Task) (now : Nat) : Bool := task.context.limits.expired task.since now

def start? (context : Context) (now : Nat) (outcome : Outcome) : Option Task :=
  match outcome.next with
  | .waits pending => some ⟨context, outcome.buffer, pending, 0, now⟩
  | .ended => none
  | .aborted _ => none

def serve? (context : Context) (now : Nat) : Option Task :=
  start? context now (Conversation.serve context .head [])

def script? (context : Context) (now : Nat) (operations : List Operation) : Option Task :=
  start? context now ⟨[], [], Conversation.script operations⟩

def complete (task : Task) (now : Nat) (outcome : Outcome) : Resumed :=
  match outcome.next with
  | .aborted fault => .aborted outcome.events fault
  | _ => .completed outcome.events (start? task.context now outcome)

variable {σ : Type}

def resumeRead (t : Transport σ) (task : Task) (reading : Reading) (now : Nat) (s : σ) :
    Resumed × σ :=
  match t.tryReceive task.context.limits.readChunk s with
  | (.ready bytes, s) =>
    (task.complete now (Conversation.received task.context task.buffer bytes reading), s)
  | (.wouldBlock, s) => (.kept task, s)
  | (.closed, s) => (.abandoned .closed, s)
  | (.failed cause, s) => (.abandoned (.socket cause), s)

def resumeWrite (t : Transport σ) (task : Task) (payload : Bytes) (writing : Writing) (now : Nat)
    (s : σ) : Resumed × σ :=
  match t.drain task.context.limits.writeChunk (payload.drop task.sent) task.sent s with
  | (.whole, s) => (task.complete now (Conversation.sent task.context task.buffer writing), s)
  | (.partly sent, s) => (.kept { task with sent }, s)
  | (.abandoned cause, s) => (.abandoned cause, s)
  | (.overflow, s) => (.aborted [] .offsetOverflow, s)

def resume (t : Transport σ) (task : Task) (now : Nat) (s : σ) : Resumed × σ :=
  match task.pending with
  | .read reading => resumeRead t task reading now s
  | .write payload writing => resumeWrite t task payload writing now s

end Task

end FileServer
