import FileServer.Proofs.Conversation.Payloads
import FileServer.Host

/-! Runs of a host without listeners, step by step, and what they show of one connection. What the
peer does is any act on the socket; a run is also read with every step on other connections left
out, so that only the turns and the passing of time are shared. -/
namespace FileServer

abbrev Handler := Request → Traced Effect Response

def Handler.service (handler : Handler) : Service := fun request => (handler request).map .ok

namespace Host

variable {σ : Type}

inductive Move (σ : Type)
  | connect (socket : σ) (remote : Address) (limits : Limits)
  | script (index : Nat) (operations : List Operation)
  | serve (index : Nat) (handler : Handler)
  | peer (index : Nat) (does : σ → Bytes × σ)
  | release (index : Nat)
  | turn
  | pass (milliseconds : Nat)

structure Shown where
  received : Bytes := []
  fault? : Option TurnFault := none

def peer (host : Host σ) (index : Nat) (does : σ → Bytes × σ) : Bytes × Host σ :=
  (((host.site.links[index]?).map fun link => (does link.socket).1).getD [],
    host.onSocket index fun socket => (does socket).2)

def step (t : Transport σ) (host : Host σ) : Move σ → Shown × Host σ
  | .connect socket remote limits => ({}, host.connect socket remote limits)
  | .script index operations => ({}, host.script index operations)
  | .serve index handler => ({}, host.serve index handler.service)
  | .peer index does =>
    let (received, host) := host.peer index does
    ({ received }, host)
  | .release index => ({}, host.release t index)
  | .turn =>
    let (fault?, host) := host.turn t
    ({ fault? }, host)
  | .pass milliseconds => ({}, host.pass milliseconds)

def eventsOf (c : Nat) (events : List (Nat × Event)) : List Event :=
  events.filterMap fun (index, event) => if index = c then some event else none

def tasksOf (c : Nat) (live : List Live) : List Task :=
  live.filterMap fun
    | .link index task => if index = c then some task else none
    | .listener _ => none

/-- What can be told of one connection: its own end, what its conversations have let others see so
far, and its live tasks in their order. -/
structure View (σ : Type) where
  shown : Shown
  link? : Option (Link σ)
  events : List Event
  tasks : List Task

def view (c : Nat) (shown : Shown) (host : Host σ) : View σ :=
  ⟨shown, host.site.links[c]?, eventsOf c host.site.events, tasksOf c host.live⟩

namespace Move

def isOf (c opened : Nat) : Move σ → Bool
  | .connect _ _ _ => opened == c
  | .script index _ => index == c
  | .serve index _ => index == c
  | .peer index _ => index == c
  | .release index => index == c
  | .turn => true
  | .pass _ => true

def opens : Move σ → Nat
  | .connect _ _ _ => 1
  | _ => 0

def alone : Move σ → Move σ
  | .connect socket remote limits => .connect socket remote limits
  | .script _ operations => .script 0 operations
  | .serve _ handler => .serve 0 handler
  | .peer _ does => .peer 0 does
  | .release _ => .release 0
  | .turn => .turn
  | .pass milliseconds => .pass milliseconds

/-- What a step may have written on a connection, sooner or later. -/
inductive Writes (index : Nat) (payload : Bytes) : Move σ → Prop where
  | said {operations : List Operation} (mem : .send payload ∈ operations) :
      Writes index payload (.script index operations)
  | answered {handler : Handler} {request : Request}
      (wire : (handler request).value.wire = payload) : Writes index payload (.serve index handler)
  | refused {handler : Handler} (wire : (Response.bare .badRequest).wire = payload) :
      Writes index payload (.serve index handler)

def limits? : Move σ → Option Limits
  | .connect _ _ limits => some limits
  | _ => none

end Move

def alone (c opened : Nat) : List (Move σ) → List (Move σ)
  | [] => []
  | move :: rest =>
    let later := alone c (opened + move.opens) rest
    if move.isOf c opened then move.alone :: later else later

def opened (moves : List (Move σ)) : List Limits := moves.filterMap Move.limits?

def Writes (moves : List (Move σ)) (index : Nat) (payload : Bytes) : Prop :=
  ∃ move ∈ moves, move.Writes index payload

/-- On the connection with this index something may be written whose last byte does not begin a slice
that ends within a word. -/
def Overlong (opened : List Limits) (writes : Nat → Bytes → Prop) (index : Nat) : Prop :=
  ∃ limits payload, opened[index]? = some limits ∧ writes index payload ∧
    Text.maxWord < payload.length - 1 + max limits.writeChunk 1

def faults (t : Transport σ) (host : Host σ) : List (Move σ) → List TurnFault
  | [] => []
  | move :: rest =>
    let (shown, next) := host.step t move
    shown.fault?.toList ++ faults t next rest

def views (t : Transport σ) (c : Nat) (host : Host σ) : List (Move σ) → List (View σ)
  | [] => []
  | move :: rest =>
    let (shown, next) := host.step t move
    let later := views t c next rest
    if move.isOf c host.site.links.length then next.view c shown :: later else later

end Host

end FileServer
