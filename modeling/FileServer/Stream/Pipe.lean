import FileServer.Bytes

/-! A connection held in memory: what the peer has sent and nobody has read yet, and how much of it
one read takes. Writes are whole; from some point on they may fail. -/
namespace FileServer

structure Pipe where
  unread : Bytes := []
  closed : Bool := false
  chunk : Nat := 1024
  reads : Nat := 0
  writes : Nat := 0
  written : Bytes := []
  writesLeft : Option Nat := none
  deriving DecidableEq, Repr

namespace Pipe

inductive Read
  | chunk (bytes : Bytes) (pipe : Pipe)
  | waits
  | ended

def read (p : Pipe) : Read :=
  if p.unread = [] then if p.closed then .ended else .waits
  else
    let n := max p.chunk 1
    .chunk (p.unread.take n) { p with unread := p.unread.drop n, reads := p.reads + 1 }

def write? (p : Pipe) (payload : Bytes) : Option Pipe :=
  if p.writesLeft = some 0 then none
  else
    some { p with
      writes := p.writes + 1
      written := p.written ++ payload
      writesLeft := p.writesLeft.map (· - 1) }

def feed (p : Pipe) (bytes : Bytes) : Pipe := { p with unread := p.unread ++ bytes }

theorem writeUnread {p q : Pipe} {payload : Bytes} (h : p.write? payload = some q) :
    q.unread = p.unread := by
  simp only [write?] at h
  split at h
  · cases h
  · cases h; rfl

theorem readLength {p q : Pipe} {bytes : Bytes} (h : p.read = .chunk bytes q) :
    0 < bytes.length ∧ bytes.length + q.unread.length = p.unread.length := by
  simp only [read] at h
  split at h
  · split at h <;> cases h
  · next hne =>
    cases h
    have := List.length_pos_iff.mpr hne
    simp only [List.length_take, List.length_drop]
    omega

end Pipe

end FileServer
