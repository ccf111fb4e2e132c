import FileServer.Bytes
import FileServer.Surroundings
import FileServer.Text.Basic

/-! Calls that move bytes without waiting, on a socket or on anything that behaves like one, what
can be told of it beforehand, and why a pending operation is given up. A call that receives nothing has
met the end; one that sends nothing of something has met a closed peer. A payload is written piece by
piece, each one where the accepted bytes end; a piece that is accepted in part, or not at all for now,
ends the attempt until the next time. -/
namespace FileServer

structure Limits where
  patience : Option Nat := none
  readChunk : Nat := 8192
  writeChunk : Nat := 65536
  frame : Nat := 65536
  deriving DecidableEq, Repr

def Limits.expired (limits : Limits) (since now : Nat) : Bool :=
  match limits.patience with
  | none => false
  | some patience => patience ≤ now - since

inductive Attempt (α : Type)
  | ready (value : α)
  | wouldBlock
  | closed
  | failed (cause : Failure)
  deriving DecidableEq, Repr

/-- An interrupted call counts as one that would have had to wait. -/
def Attempt.ofResult {α : Type} : Except Failure α → Attempt α
  | .ok value => .ready value
  | .error cause =>
    if cause.kind = .wouldBlock ∨ cause.kind = .interrupted then .wouldBlock else .failed cause

inductive Abandonment
  | closed
  | socket (cause : Failure)
  | listener (cause : Failure)
  deriving DecidableEq, Repr

namespace Abandonment

def message : Abandonment → String
  | .closed => "connection closed by peer"
  | .socket cause => "socket error: " ++ cause.text
  | .listener cause => "listener error: " ++ cause.text

def cause? : Abandonment → Option Failure
  | .closed => none
  | .socket cause => some cause
  | .listener cause => some cause

end Abandonment

structure Transport (σ : Type) where
  receive : σ → Nat → Except Failure Bytes × σ
  send : σ → Bytes → Except Failure Nat × σ
  readable : σ → Bool
  writable : σ → Bool
  close : σ → σ

namespace Transport

variable {σ : Type}

def received : Except Failure Bytes → Attempt Bytes
  | .ok [] => .closed
  | result => .ofResult result

def tryReceive (t : Transport σ) (most : Nat) (s : σ) : Attempt Bytes × σ :=
  let (result, s) := t.receive s (max most 1)
  (received result, s)

def accepted (payload : Bytes) : Except Failure Nat → Attempt Nat
  | .ok 0 => if payload = [] then .ready 0 else .closed
  | result => .ofResult result

def trySend (t : Transport σ) (payload : Bytes) (s : σ) : Attempt Nat × σ :=
  let (result, s) := t.send s payload
  (accepted payload result, s)

end Transport

inductive Drained
  | whole
  | partly (sent : Nat)
  | abandoned (cause : Abandonment)
  | overflow
  deriving DecidableEq, Repr

namespace Transport

variable {σ : Type}

def drain (t : Transport σ) (chunk : Nat) (rest : Bytes) (sent : Nat) (s : σ) : Drained × σ :=
  if rest = [] then (.whole, s)
  else if Text.maxWord < sent + max chunk 1 then (.overflow, s)
  else
    let piece := rest.take (max chunk 1)
    match t.trySend piece s with
    | (.ready n, s) =>
      if n < piece.length then (.partly (sent + n), s)
      else drain t chunk (rest.drop n) (sent + n) s
    | (.wouldBlock, s) => (.partly sent, s)
    | (.closed, s) => (.abandoned .closed, s)
    | (.failed cause, s) => (.abandoned (.socket cause), s)
termination_by rest.length
decreasing_by
  next hne _ hn =>
    have := List.length_pos_iff.mpr hne
    simp only [piece, List.length_take] at hn
    simp only [List.length_drop]
    omega

end Transport

end FileServer
