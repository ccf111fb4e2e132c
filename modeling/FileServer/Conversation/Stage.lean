import FileServer.Message.Head
import FileServer.Stream.Frame

/-! Reading one request from a buffer. A request is awaited in two stages: its head, up to the blank
line, and then the body its head announces. -/
namespace FileServer

inductive Stage
  | head
  | body (request : Request) (length : Nat)
  deriving DecidableEq, Repr

inductive Progress
  | done (result : Except RequestFault Request) (rest : Bytes)
  | more (stage : Stage) (buffer : Bytes)
  deriving Repr

def Progress.buffer : Progress → Bytes
  | .done _ rest => rest
  | .more _ buffer => buffer

namespace Stage

def scanBody (limit : Nat) (request : Request) (length : Nat) (buffer : Bytes) : Progress :=
  match (Want.exactly length).scan limit buffer with
  | .missing => .more (.body request length) buffer
  | .oversize _ => .done (.error .tooLarge) buffer
  | .found bytes rest => .done (.ok (request.withBody bytes)) rest

def afterHead (limit : Nat) (request : Request) (rest : Bytes) : Progress :=
  match request.contentLength? with
  | none => .done (.ok request) rest
  | some (.error _) => .done (.error .invalidContentLength) rest
  | some (.ok 0) => .done (.ok request) rest
  | some (.ok length) => scanBody limit request length rest

def scanHead (limit : Nat) (remote : Address) (buffer : Bytes) : Progress :=
  match (Want.upTo Bytes.blankLine).scan limit buffer with
  | .missing => .more .head buffer
  | .oversize _ => .done (.error .tooLarge) buffer
  | .found frame rest =>
    match Head.read frame with
    | .error fault => .done (.error fault) rest
    | .ok request => afterHead limit (request.sentBy remote) rest

def scan (limit : Nat) (remote : Address) (buffer : Bytes) : Stage → Progress
  | .head => scanHead limit remote buffer
  | .body request length => scanBody limit request length buffer

theorem scanBodyLength (limit : Nat) (request : Request) (length : Nat) (buffer : Bytes) :
    (scanBody limit request length buffer).buffer.length ≤ buffer.length := by
  unfold scanBody
  split
  · exact Nat.le_refl _
  · exact Nat.le_refl _
  · next h =>
    have := Want.scanLength h
    simp only [Progress.buffer]
    omega

theorem afterHeadLength (limit : Nat) (request : Request) (rest : Bytes) :
    (afterHead limit request rest).buffer.length ≤ rest.length := by
  unfold afterHead
  split
  · exact Nat.le_refl _
  · exact Nat.le_refl _
  · exact Nat.le_refl _
  · exact scanBodyLength ..

theorem scanHeadLength (limit : Nat) (remote : Address) (buffer : Bytes) :
    (scanHead limit remote buffer).buffer.length ≤ buffer.length := by
  unfold scanHead
  split
  · exact Nat.le_refl _
  · exact Nat.le_refl _
  · next frame rest h =>
    have := Want.scanLength h
    split
    · simp only [Progress.buffer]
      omega
    · next request _ =>
      have := afterHeadLength limit (request.sentBy remote) rest
      omega

theorem scanLength (limit : Nat) (remote : Address) (buffer : Bytes) (stage : Stage) :
    (stage.scan limit remote buffer).buffer.length ≤ buffer.length := by
  cases stage with
  | head => exact scanHeadLength ..
  | body request length => exact scanBodyLength ..

theorem scanHeadTakes {limit : Nat} {remote : Address} {buffer rest : Bytes}
    {request : Request} (h : scanHead limit remote buffer = .done (.ok request) rest) :
    rest.length + 4 ≤ buffer.length := by
  unfold scanHead at h
  split at h
  · cases h
  · cases h
  · next frame tail hs =>
    have length := Want.scanLength hs
    simp only [Want.overhead, Bytes.blankLine, List.length_cons, List.length_nil] at length
    split at h
    · cases h
    · next r _ =>
      have := afterHeadLength limit (r.sentBy remote) tail
      rw [h] at this
      simp only [Progress.buffer] at this
      omega

end Stage

end FileServer
