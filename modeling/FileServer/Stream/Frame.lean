import FileServer.Bytes
import FileServer.Sequence

/-! Frames in a buffer: everything up to a separator, or a fixed number of bytes. A frame is never
looked for beyond a limit, but a separator that has already arrived is always honoured. -/
namespace FileServer

inductive Want
  | upTo (separator : Bytes)
  | exactly (length : Nat)
  deriving DecidableEq, Repr

structure Oversize where
  buffered : Nat
  limit : Nat
  deriving DecidableEq, Repr

def Oversize.message (o : Oversize) : String :=
  s!"frame exceeds {o.limit} bytes ({o.buffered} buffered)"

inductive Scan
  | found (frame rest : Bytes)
  | oversize (fault : Oversize)
  | missing
  deriving DecidableEq, Repr

def Want.scan (limit : Nat) (buffer : Bytes) : Want → Scan
  | .upTo separator =>
    match Sequence.cut? separator buffer with
    | some (frame, rest) => .found frame rest
    | none => if limit < buffer.length then .oversize ⟨buffer.length, limit⟩ else .missing
  | .exactly length =>
    if limit < length then .oversize ⟨buffer.length, limit⟩
    else if length ≤ buffer.length then .found (buffer.take length) (buffer.drop length)
    else .missing

def Want.overhead : Want → Nat
  | .upTo separator => separator.length
  | .exactly _ => 0

theorem Want.scanLength {limit : Nat} {want : Want} {buffer frame rest : Bytes}
    (h : want.scan limit buffer = .found frame rest) :
    frame.length + want.overhead + rest.length = buffer.length := by
  cases want with
  | upTo separator =>
    simp only [scan] at h
    split at h
    · next hc => cases h; exact Sequence.cutLength hc
    · split at h <;> cases h
  | exactly length =>
    simp only [scan] at h
    split at h
    · cases h
    · split at h
      · cases h
        simp only [overhead, List.length_take, List.length_drop]
        omega
      · cases h

end FileServer
