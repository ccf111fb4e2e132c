import FileServer.Stream.Transport

/-! Two-ended streams. One end is ours; the other belongs to a peer who sends, takes what we have
sent, and may stop sending or leave. A peer who leaves without having taken everything resets the
stream: once what had arrived is read, one call reports that. A stream may have room for so much: what
has been sent and not been taken takes up memory, it is kept in pieces, and a piece in whole pages and
a cell for the bytes beyond them. A send then goes on until it is through or the memory is used up, so
it may be cut short, or not begin at all. -/
namespace FileServer

inductive Peer
  | sending
  | finished
  | gone
  deriving DecidableEq, Repr

structure Duplex where
  inbound : Bytes := []
  outbound : Bytes := []
  peer : Peer := .sending
  resetDue : Bool := false
  here : Bool := true
  deriving DecidableEq, Repr

namespace Duplex

def readable (d : Duplex) : Bool := !d.inbound.isEmpty || d.peer != .sending

def receive (d : Duplex) (most : Nat) : Except Failure Bytes × Duplex :=
  if d.inbound ≠ [] then (.ok (d.inbound.take most), { d with inbound := d.inbound.drop most })
  else if d.resetDue then (.error .connectionReset, { d with resetDue := false })
  else if d.peer = .sending then (.error .notReady, d)
  else (.ok [], d)

def send (d : Duplex) (payload : Bytes) : Except Failure Nat × Duplex :=
  if d.peer = .gone then (.error .brokenPipe, d)
  else (.ok payload.length, { d with outbound := d.outbound ++ payload })

def close (d : Duplex) : Duplex := { d with here := false }

def transport : Transport Duplex := ⟨receive, send, readable, fun _ => true, close⟩

def peerSends (d : Duplex) (bytes : Bytes) : Duplex :=
  if d.peer = .sending ∧ d.here then { d with inbound := d.inbound ++ bytes } else d

def peerFinishes (d : Duplex) : Duplex :=
  if d.peer = .sending then { d with peer := .finished } else d

def peerLeaves (d : Duplex) : Duplex :=
  if d.peer = .gone then d
  else { d with peer := .gone, outbound := [], resetDue := !d.outbound.isEmpty }

def peerTakes (d : Duplex) : Bytes × Duplex := (d.outbound, { d with outbound := [] })

end Duplex

structure Channel where
  ends : Duplex := {}
  used : Nat := 0
  deriving DecidableEq, Repr

namespace Channel

def memory : Nat := 212992

def pieceLimit : Nat := 36544

def page : Nat := 4096

def cellLimit : Nat := 3776

def cellSize (length : Nat) : Nat :=
  if length ≤ 192 then 768
  else if length ≤ 704 then 1280
  else if length ≤ 1728 then 2304
  else 4352

def pieceSize (length : Nat) : Nat :=
  let pages := (length - cellLimit + (page - 1)) / page
  cellSize (length - min length (pages * page)) + pages * page

def fill (used left : Nat) : Nat × Nat :=
  if left = 0 ∨ memory ≤ used then (0, used)
  else
    let piece := min left pieceLimit
    let (more, used) := fill (used + pieceSize piece) (left - piece)
    (piece + more, used)
termination_by left
decreasing_by
  simp only [pieceLimit]
  omega

def send (c : Channel) (payload : Bytes) : Except Failure Nat × Channel :=
  if c.ends.peer = .gone then (.error .brokenPipe, c)
  else
    let (kept, used) := fill c.used payload.length
    if payload ≠ [] ∧ kept = 0 then (.error .notReady, c)
    else
      (.ok kept, { ends := { c.ends with outbound := c.ends.outbound ++ payload.take kept }, used })

def receive (c : Channel) (most : Nat) : Except Failure Bytes × Channel :=
  let (result, ends) := c.ends.receive most
  (result, { c with ends })

def writable (c : Channel) : Bool := c.ends.peer == .gone || 4 * (c.used + 1) ≤ memory

def close (c : Channel) : Channel := { c with ends := c.ends.close }

def transport : Transport Channel := ⟨receive, send, (·.ends.readable), writable, close⟩

def peerSends (c : Channel) (bytes : Bytes) : Channel := { c with ends := c.ends.peerSends bytes }

def peerFinishes (c : Channel) : Channel := { c with ends := c.ends.peerFinishes }

def peerLeaves (c : Channel) : Channel := { ends := c.ends.peerLeaves, used := 0 }

def peerTakes (c : Channel) : Bytes × Channel :=
  let (bytes, ends) := c.ends.peerTakes
  (bytes, { ends, used := 0 })

end Channel

end FileServer
