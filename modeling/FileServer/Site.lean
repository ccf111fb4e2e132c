import FileServer.Conversation.Task
import FileServer.Turn

/-! Links and listeners, and the tasks that work on them. A task on a link acts on the socket of
that link alone. A listener takes in the links that arrive in its queue, one in a turn, and has
them served. -/
namespace FileServer

structure Link (σ : Type) where
  socket : σ
  limits : Limits
  remote : Address
  held : Bool
  closed : Bool

abbrev Arrival := Except Failure Nat

structure Listener where
  service : Service
  queue : List Arrival := []
  broken : Bool := false

inductive Live
  | link (index : Nat) (task : Task)
  | listener (index : Nat)

structure Site (σ : Type) where
  links : List (Link σ) := []
  listeners : List Listener := []
  now : Nat := 0
  events : List (Nat × Event) := []

namespace Site

variable {σ : Type}

def modifyLink (site : Site σ) (index : Nat) (f : Link σ → Link σ) : Site σ :=
  { site with links := site.links.modify index f }

def modifySocket (site : Site σ) (index : Nat) (f : σ → σ) : Site σ :=
  site.modifyLink index fun link => { link with socket := f link.socket }

def tell (site : Site σ) (index : Nat) (events : List Event) : Site σ :=
  { site with events := site.events ++ events.map (index, ·) }

def context (link : Link σ) (service : Service) : Context := ⟨link.limits, link.remote, service⟩

def isReady (t : Transport σ) (site : Site σ) : Live → Bool
  | .link index task => (site.links[index]?).any fun link => task.isReady t link.socket
  | .listener index =>
    (site.listeners[index]?).any fun listener => listener.broken || !listener.queue.isEmpty

def isExpired (now : Nat) : Live → Bool
  | .link _ task => task.expired now
  | .listener _ => false

def resumeLink (t : Transport σ) (site : Site σ) (index : Nat) (link : Link σ) (task : Task) :
    Resumption Live × Site σ :=
  let (resumed, socket) := task.resume t site.now link.socket
  let site := site.modifySocket index fun _ => socket
  match resumed with
  | .kept task => (.goesOn (some (.link index task)) none, site)
  | .completed events successor =>
    (.goesOn none (successor.map (.link index)), site.tell index events)
  | .abandoned _ => (.givenUp, site)
  | .aborted events fault => (.fails (.aborted fault), site.tell index events)

/-- A link that is taken in is kept by its task alone. -/
def takeIn (site : Site σ) (index : Nat) (service : Service) : Option Live × Site σ :=
  match site.links[index]? with
  | none => (none, site)
  | some link =>
    ((Task.serve? (context link service) site.now).map (.link index),
      site.modifyLink index fun link => { link with held := false })

def isPassing (cause : Failure) : Bool :=
  [.wouldBlock, .interrupted, .connectionAborted].contains cause.kind

def accept (site : Site σ) (index : Nat) (listener : Listener) : Arrival → Resumption Live × Site σ
  | .ok link =>
    let (task, site) := site.takeIn link listener.service
    (.goesOn (some (.listener index)) task, site)
  | .error cause =>
    if isPassing cause then (.goesOn (some (.listener index)) none, site)
    else (.fails (.listener cause), site)

def resumeListener (site : Site σ) (index : Nat) (listener : Listener) :
    Resumption Live × Site σ :=
  if listener.broken then (.fails (.listener .cannotAccept), site)
  else
    match listener.queue with
    | [] => (.goesOn (some (.listener index)) none, site)
    | first :: queue =>
      accept { site with listeners := site.listeners.set index { listener with queue } } index
        listener first

def resume (t : Transport σ) (site : Site σ) : Live → Resumption Live × Site σ
  | .link index task =>
    match site.links[index]? with
    | none => (.givenUp, site)
    | some link => site.resumeLink t index link task
  | .listener index =>
    match site.listeners[index]? with
    | none => (.givenUp, site)
    | some listener => site.resumeListener index listener

def turn (t : Transport σ) (now : Nat) : Turn (Site σ) Live := ⟨isReady t, isExpired now, resume t⟩

end Site

end FileServer
