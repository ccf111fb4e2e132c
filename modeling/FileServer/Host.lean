import FileServer.Site
import FileServer.Stream.Channel

/-! A host of many connections that take turns. A connection is there for as long as someone keeps
it or a live task works on it. -/
namespace FileServer

structure Host (σ : Type) where
  site : Site σ := {}
  live : List Live := []

namespace Host

variable {σ : Type}

def worksOn (live : List Live) (index : Nat) : Bool :=
  live.any fun
    | .link other _ => other == index
    | .listener _ => false

def closeLeft (t : Transport σ) (live : List Live) (index : Nat) (link : Link σ) : Link σ :=
  if link.held || worksOn live index || link.closed then link
  else { link with socket := t.close link.socket, closed := true }

def tidy (t : Transport σ) (host : Host σ) : Host σ :=
  { host with site := { host.site with links := host.site.links.mapIdx (closeLeft t host.live) } }

def turn (t : Transport σ) (host : Host σ) : Option TurnFault × Host σ :=
  let swept := (Site.turn t host.site.now).take host.site host.live
  (swept.fault?, tidy t ⟨swept.world, swept.live⟩)

def idle (t : Transport σ) (host : Host σ) : Bool :=
  (Site.turn t host.site.now).idle host.site host.live

inductive Ending
  | finished
  | failed (fault : TurnFault)
  | waiting
  | unfinished
  deriving DecidableEq, Repr

/-- Takes turns until nothing is live, a turn fails, or all that is live would have to wait; at most
so many turns. -/
def runFor (t : Transport σ) : Nat → Host σ → Ending × Host σ
  | 0, host => (.unfinished, host)
  | turns + 1, host =>
    if host.live.isEmpty then (.finished, host)
    else if host.idle t then (.waiting, host)
    else
      match host.turn t with
      | (some fault, host) => (.failed fault, host)
      | (none, host) => runFor t turns host

def connect (host : Host σ) (socket : σ) (remote : Address) (limits : Limits) : Host σ :=
  { host with site := { host.site with
      links := host.site.links ++ [⟨socket, limits, remote, true, false⟩] } }

def register (host : Host σ) (index : Nat) (task : Option Task) : Host σ :=
  { host with live := host.live ++ (task.map (Live.link index)).toList }

def onHeld (host : Host σ) (index : Nat) (task : Link σ → Option Task) : Host σ :=
  match host.site.links[index]? with
  | some link => if link.held then host.register index (task link) else host
  | none => host

def serve (host : Host σ) (index : Nat) (service : Service) : Host σ :=
  host.onHeld index fun link => Task.serve? (Site.context link service) host.site.now

def script (host : Host σ) (index : Nat) (operations : List Operation) : Host σ :=
  host.onHeld index fun link =>
    Task.script? (Site.context link (.fixed (.bare .notFound))) host.site.now operations

def listen (host : Host σ) (service : Service) (tasks : Nat) : Host σ :=
  { site := { host.site with listeners := host.site.listeners ++ [{ service }] }
    live := host.live ++ List.replicate tasks (.listener host.site.listeners.length) }

def modifyListener (host : Host σ) (index : Nat) (f : Listener → Listener) : Host σ :=
  { host with site := { host.site with listeners := host.site.listeners.modify index f } }

def arrive (host : Host σ) (listener : Nat) (arrival : Arrival) : Host σ :=
  host.modifyListener listener fun l => { l with queue := l.queue ++ [arrival] }

def breakListeners (host : Host σ) : Host σ :=
  { host with site := { host.site with
      listeners := host.site.listeners.map fun listener => { listener with broken := true } } }

def onSocket (host : Host σ) (index : Nat) (f : σ → σ) : Host σ :=
  { host with site := host.site.modifySocket index f }

def release (t : Transport σ) (host : Host σ) (index : Nat) : Host σ :=
  tidy t { host with site := host.site.modifyLink index fun link => { link with held := false } }

def pass (host : Host σ) (milliseconds : Nat) : Host σ :=
  { host with site := { host.site with now := host.site.now + milliseconds } }

def weight (host : Host Duplex) : Nat :=
  (host.site.links.map fun link => 8 * link.socket.inbound.length).foldr (· + ·) 0
    + (host.site.listeners.map fun listener => 4 * listener.queue.length).foldr (· + ·) 0
    + (host.live.map fun
        | .link _ task =>
          let next := Next.waits task.pending
          4 * (task.buffer.length + next.scriptLength) + next.rank
        | .listener _ => 0).foldr (· + ·) 0

def run (host : Host Duplex) : Ending × Host Duplex :=
  runFor Duplex.transport (host.weight + 1) host

end Host

end FileServer
