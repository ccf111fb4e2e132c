import FileServer.Conversation.Pending
import FileServer.Stream.Pipe

/-! One connection over a pipe, with at most one operation pending. A session is driven by steps:
the peer does something, an operation may be started in place of the pending one, and then
everything runs that can run without more from the peer. -/
namespace FileServer

structure Session where
  pipe : Pipe
  buffer : Bytes := []
  next : Next := .ended

inductive Start
  | frame (want : Want)
  | request
  | write (payload : Bytes)
  | serve
  | nothing
  deriving DecidableEq, Repr

structure Step where
  chunk? : Option Nat := none
  feed : Bytes := []
  close : Bool := false
  start? : Option Start := none

namespace Session

def goOn (session : Session) (pipe : Pipe) (outcome : Outcome) : List Event × Session :=
  (outcome.events, { session with pipe, buffer := outcome.buffer, next := outcome.next })

def advance? (context : Context) (s : Session) : Option (List Event × Session) :=
  match s.next with
  | .ended => none
  | .aborted _ => none
  | .waits (.read reading) =>
    match s.pipe.read with
    | .waits => none
    | .ended => some ([], { s with next := .ended })
    | .chunk bytes pipe => some (s.goOn pipe (Conversation.received context s.buffer bytes reading))
  | .waits (.write payload writing) =>
    match s.pipe.write? payload with
    | none => some ([], { s with next := .ended })
    | some pipe => some (s.goOn pipe (Conversation.sent context s.buffer writing))

/-- What is left to do. A byte counts for more unread than in the buffer, so reading it counts. -/
def weight (s : Session) : Nat :=
  4 * (2 * s.pipe.unread.length + s.buffer.length + s.next.scriptLength) + s.next.rank

theorem frameLight (context : Context) (want : Want) (buffer : Bytes) :
    (Conversation.frame context want buffer).buffer.length ≤ buffer.length ∧
      Next.scriptLength (Conversation.frame context want buffer).next = 0 := by
  unfold Conversation.frame
  split
  · next h =>
    have := Want.scanLength h
    exact ⟨by simp only; omega, rfl⟩
  · exact ⟨Nat.le_refl _, rfl⟩
  · exact ⟨Nat.le_refl _, rfl⟩

theorem requestLight (context : Context) (stage : Stage) (buffer : Bytes) :
    (Conversation.request context stage buffer).buffer.length ≤ buffer.length ∧
      Next.scriptLength (Conversation.request context stage buffer).next = 0 := by
  have := Stage.scanLength context.limits.frame context.remote buffer stage
  unfold Conversation.request
  split <;> next h =>
    rw [h] at this
    exact ⟨this, rfl⟩

theorem answerLight (context : Context) (request : Request) :
    Next.scriptLength (Conversation.answer context request).2 = 0 := by
  unfold Conversation.answer
  simp only
  split
  · rfl
  · split <;> rfl

theorem serveLight (context : Context) (stage : Stage) (buffer : Bytes) :
    (Conversation.serve context stage buffer).buffer.length ≤ buffer.length ∧
      Next.scriptLength (Conversation.serve context stage buffer).next = 0 := by
  have := Stage.scanLength context.limits.frame context.remote buffer stage
  unfold Conversation.serve
  split
  · next h => rw [h] at this; exact ⟨this, rfl⟩
  · next h => rw [h] at this; exact ⟨this, rfl⟩
  · next h =>
    rw [h] at this
    split
    · exact ⟨this, answerLight ..⟩
    · exact ⟨this, rfl⟩

theorem serveHeadLight (context : Context) (buffer : Bytes) :
    let outcome := Conversation.serve context .head buffer
    outcome.buffer.length < buffer.length ∨
      outcome.buffer.length ≤ buffer.length ∧ outcome.next.rank < 3 := by
  have bound := Stage.scanLength context.limits.frame context.remote buffer .head
  unfold Conversation.serve
  split
  · next h => rw [h] at bound; exact .inr ⟨bound, Nat.le_refl 3⟩
  · next h => rw [h] at bound; exact .inr ⟨bound, Nat.le_succ 2⟩
  · next h =>
    have := Stage.scanHeadTakes h
    split <;> exact .inl (by simp only; omega)

theorem receivedLighter (context : Context) (s : Session) (reading : Reading) (bytes : Bytes)
    (pipe : Pipe) (hs : s.next = .waits (.read reading)) (hr : s.pipe.read = .chunk bytes pipe) :
    weight (s.goOn pipe (Conversation.received context s.buffer bytes reading)).2 < weight s := by
  obtain ⟨hpos, hlen⟩ := Pipe.readLength hr
  have high := Next.rankBound (Conversation.received context s.buffer bytes reading).next
  simp only [weight, goOn, hs]
  cases reading with
  | frame want =>
    have := frameLight context want (s.buffer ++ bytes)
    simp only [Conversation.received, Next.rank, Next.scriptLength, List.length_append] at *
    omega
  | request stage =>
    have := requestLight context stage (s.buffer ++ bytes)
    simp only [Conversation.received, Next.rank, Next.scriptLength, List.length_append] at *
    omega
  | serving stage =>
    have := serveLight context stage (s.buffer ++ bytes)
    simp only [Conversation.received, Next.rank, Next.scriptLength, List.length_append] at *
    omega
  | script rest =>
    have := Next.scriptLengthOfScript rest
    simp only [Conversation.received, Next.rank, Next.scriptLength] at *
    omega

theorem sentLighter (context : Context) (s : Session) (payload : Bytes) (writing : Writing)
    (pipe : Pipe) (hs : s.next = .waits (.write payload writing))
    (hw : pipe.unread = s.pipe.unread) :
    weight (s.goOn pipe (Conversation.sent context s.buffer writing)).2 < weight s := by
  have high := Next.rankBound (Conversation.sent context s.buffer writing).next
  simp only [weight, goOn, hs, hw]
  cases writing with
  | last =>
    simp only [Conversation.sent, Next.rank, Next.scriptLength]
    omega
  | serving =>
    have light := serveLight context .head s.buffer
    have := serveHeadLight context s.buffer
    simp only [Conversation.sent] at *
    simp only [Next.rank, Next.scriptLength] at light this ⊢
    simp only [Next.rank] at high
    omega
  | script rest =>
    have := Next.scriptLengthOfScript rest
    simp only [Conversation.sent, Next.rank, Next.scriptLength] at *
    omega

theorem endedLighter (s : Session) (pending : Pending) (h : s.next = .waits pending) :
    weight { s with next := .ended } < weight s := by
  simp only [weight, h]
  cases pending with
  | read reading => simp only [Next.rank, Next.scriptLength]; omega
  | write payload writing => cases writing <;> simp only [Next.rank, Next.scriptLength] <;> omega

theorem advanceLighter {context : Context} {s s' : Session} {events : List Event}
    (h : advance? context s = some (events, s')) : weight s' < weight s := by
  unfold advance? at h
  split at h
  · cases h
  · cases h
  · next reading hs =>
    split at h
    · cases h
    · cases h; exact endedLighter s _ hs
    · next bytes pipe hr =>
      cases h
      exact receivedLighter context s reading bytes pipe hs hr
  · next payload writing hs =>
    split at h
    · cases h; exact endedLighter s _ hs
    · next pipe hw =>
      cases h
      exact sentLighter context s payload writing pipe hs (Pipe.writeUnread hw)

def run (context : Context) (s : Session) : List Event × Session :=
  match h : advance? context s with
  | none => ([], s)
  | some (events, s') =>
    have := advanceLighter h
    let (more, last) := run context s'
    (events ++ more, last)
termination_by weight s

def starting (context : Context) (buffer : Bytes) : Start → Outcome
  | .frame want => Conversation.frame context want buffer
  | .request => Conversation.request context .head buffer
  | .write payload => ⟨[], buffer, .waits (.write payload .last)⟩
  | .serve => Conversation.serve context .head buffer
  | .nothing => ⟨[], buffer, .ended⟩

def begin (context : Context) (s : Session) (step : Step) : List Event × Session :=
  let pipe := { s.pipe with
    chunk := step.chunk?.getD s.pipe.chunk
    unread := s.pipe.unread ++ step.feed
    closed := s.pipe.closed || step.close }
  match step.start? with
  | none => ([], { s with pipe })
  | some start => s.goOn pipe (starting context s.buffer start)

def perform (context : Context) (s : Session) (step : Step) : List Event × Session :=
  let (events, begun) := s.begin context step
  let (more, last) := run context begun
  (events ++ more, last)

end Session

end FileServer
