import FileServer.Conversation.Pending
import FileServer.Proofs.Sequence

/-! What a whole stream says, read in one pass. `Message.read` takes one request off a stream that
is all there, and `decode` tells from that alone what is written, what is called and how it ends. A
scan of a buffer says about the stream that begins with it what the one pass says. -/
namespace FileServer

inductive Message
  | incomplete
  | refused (fault : RequestFault)
  | complete (request : Request) (rest : Bytes)
  deriving DecidableEq, Repr

namespace Message

def body (limit : Nat) (request : Request) (length : Nat) (stream : Bytes) : Message :=
  if limit < length then .refused .tooLarge
  else if stream.length < length then .incomplete
  else .complete (request.withBody (stream.take length)) (stream.drop length)

def announced (limit : Nat) (request : Request) (stream : Bytes) : Message :=
  match request.contentLength? with
  | none => .complete request stream
  | some (.error _) => .refused .invalidContentLength
  | some (.ok length) => body limit request length stream

def read (limit : Nat) (remote : Address) (stream : Bytes) : Message :=
  match Sequence.cut? Bytes.blankLine stream with
  | none => if limit < stream.length then .refused .tooLarge else .incomplete
  | some (head, rest) =>
    match Head.read head with
    | .error fault => .refused fault
    | .ok request => announced limit (request.sentBy remote) rest

theorem bodyShorter {limit length request stream request' rest}
    (h : body limit request length stream = .complete request' rest) :
    rest.length ≤ stream.length := by
  unfold body at h
  split at h
  · cases h
  · split at h
    · cases h
    · cases h
      simp only [List.length_drop]
      omega

theorem announcedShorter {limit request stream request' rest}
    (h : announced limit request stream = .complete request' rest) :
    rest.length ≤ stream.length := by
  unfold announced at h
  split at h
  · cases h; exact Nat.le_refl _
  · cases h
  · exact bodyShorter h

theorem readShorter {limit remote stream request rest}
    (h : read limit remote stream = .complete request rest) : rest.length < stream.length := by
  unfold read at h
  split at h
  · split at h <;> cases h
  · next head tail found =>
    have shorter := Sequence.cutShorter found (List.cons_ne_nil _ _)
    split at h
    · cases h
    · exact Nat.lt_of_le_of_lt (announcedShorter h) shorter

end Message

inductive Ending
  | waiting
  | stopped
  | aborted (fault : Abort)
  deriving DecidableEq, Repr

structure Transcript where
  events : List Event
  written : Bytes
  ending : Ending

namespace Transcript

def waiting : Transcript := ⟨[], [], .waiting⟩

def refusal : Transcript := ⟨[], (Response.bare .badRequest).wire, .stopped⟩

def after (events : List Event) (written : Bytes) (later : Transcript) : Transcript :=
  ⟨events ++ later.events, written ++ later.written, later.ending⟩

def settled (closed : Bool) (t : Transcript) : Transcript :=
  if closed ∧ t.ending = .waiting then { t with ending := .stopped } else t

@[simp] theorem afterAfter (t : Transcript) (events more : List Event) (written then' : Bytes) :
    (t.after more then').after events written = t.after (events ++ more) (written ++ then') := by
  simp only [after, List.append_assoc]

@[simp] theorem settledAfter (t : Transcript) (closed : Bool) (events : List Event)
    (written : Bytes) :
    (t.after events written).settled closed = (t.settled closed).after events written := by
  by_cases spent : closed ∧ t.ending = .waiting
  · have same : (t.after events written).ending = .waiting := spent.2
    rw [settled, settled, if_pos spent, if_pos ⟨spent.1, same⟩]
    rfl
  · have same : (t.after events written).ending = t.ending := rfl
    rw [settled, settled, if_neg spent, if_neg (same ▸ spent)]

@[simp] theorem settledEvents (t : Transcript) (closed : Bool) :
    (t.settled closed).events = t.events := by
  unfold settled
  split <;> rfl

@[simp] theorem settledWritten (t : Transcript) (closed : Bool) :
    (t.settled closed).written = t.written := by
  unfold settled
  split <;> rfl

theorem settledEnding (t : Transcript) (closed : Bool) :
    t.ending = .waiting ∨ (t.settled closed).ending = t.ending := by
  unfold settled
  split
  · next waits => exact .inl waits.2
  · exact .inr rfl

theorem settledStill {t : Transcript} {closed : Bool} (still : t.ending = .waiting → closed = false) :
    t.settled closed = t := by
  refine if_neg fun spent => ?_
  rw [still spent.2] at spent
  exact absurd spent.1 Bool.false_ne_true

end Transcript

def exchange (context : Context) (request : Request) (later : Transcript) : Transcript :=
  if request.isAddressed then
    let answer := context.service request
    let events := .called request :: answer.trace.map .asked
    match answer.value with
    | .error fault => ⟨events, [], .aborted (.date fault)⟩
    | .ok response =>
      if request.keepsAlive then later.after events response.wire
      else ⟨events, response.wire, .stopped⟩
  else .refusal

def Message.transcript (context : Context) (later : Bytes → Transcript) : Message → Transcript
  | .incomplete => .waiting
  | .refused _ => .refusal
  | .complete request rest => exchange context request (later rest)

def decode (context : Context) (stream : Bytes) : Transcript :=
  match h : Message.read context.limits.frame context.remote stream with
  | .incomplete => .waiting
  | .refused _ => .refusal
  | .complete request rest =>
    have := Message.readShorter h
    exchange context request (decode context rest)
termination_by stream.length

theorem decodeTranscript (context : Context) (stream : Bytes) : decode context stream =
    (Message.read context.limits.frame context.remote stream).transcript context
      (decode context) := by
  rw [decode]
  split <;> next h => simp only [h, Message.transcript]

def goesOn (context : Context) (request : Request) : Prop :=
  request.isAddressed ∧ request.keepsAlive ∧
    ∃ response, (context.service request).value = .ok response

theorem exchangeStops {context : Context} {request : Request} (stops : ¬ goesOn context request) (later other : Transcript) :
    exchange context request later = exchange context request other := by
  unfold exchange
  split
  · next addressed =>
    simp only
    split
    · rfl
    · next response answered =>
      split
      · next alive => exact absurd ⟨addressed, alive, response, answered⟩ stops
      · rfl
  · rfl

/-- Every head that is come to ends, if it ends at all, with no more than one byte past the limit. -/
inductive HeadsFit (context : Context) : Bytes → Prop where
  | intro {stream}
      (here : ∀ head rest, Sequence.cut? Bytes.blankLine stream = some (head, rest) →
        head.length + Bytes.blankLine.length ≤ context.limits.frame + 1)
      (next : ∀ request rest,
        Message.read context.limits.frame context.remote stream = .complete request rest →
        goesOn context request → HeadsFit context rest) :
      HeadsFit context stream

theorem headsFitAbsent {context : Context} {stream : Bytes}
    (absent : Sequence.cut? Bytes.blankLine stream = none) : HeadsFit context stream := by
  refine .intro ?_ ?_
  · intro head rest found
    rw [absent] at found
    cases found
  · intro request rest complete
    simp only [Message.read, absent] at complete
    split at complete <;> cases complete

namespace Stage

def message (limit : Nat) (remote : Address) (stream : Bytes) : Stage → Message
  | .head => Message.read limit remote stream
  | .body request length => Message.body limit request length stream

def InTime (limit : Nat) (stream : Bytes) : Stage → Prop
  | .head => ∀ head rest, Sequence.cut? Bytes.blankLine stream = some (head, rest) →
      head.length + Bytes.blankLine.length ≤ limit + 1
  | .body _ _ => True

end Stage

inductive Foretold (limit : Nat) (remote : Address) (more : Bytes) : Progress → Message → Prop where
  | complete (request : Request) (rest : Bytes) :
      Foretold limit remote more (.done (.ok request) rest) (.complete request (rest ++ more))
  | refused (fault : RequestFault) (rest : Bytes) :
      Foretold limit remote more (.done (.error fault) rest) (.refused fault)
  | awaited {stage : Stage} {buffer : Bytes}
      (quiet : stage.message limit remote buffer = .incomplete)
      (inTime : stage.InTime limit (buffer ++ more)) :
      Foretold limit remote more (.more stage buffer) (stage.message limit remote (buffer ++ more))

theorem Head.readPlain {frame : Bytes} {request : Request} (h : Head.read frame = .ok request) :
    request.body = [] := by
  unfold Head.read at h
  split at h
  · cases h
  · unfold Head.readLines at h
    split at h
    · cases h
    · simp only [bind, Except.bind] at h
      split at h
      · cases h
      · split at h
        · cases h
        · cases h
          rfl

namespace Stage

variable {limit : Nat} {remote : Address} {buffer more : Bytes}

theorem scanBodyForetold (request : Request) (length : Nat) :
    Foretold limit remote more (scanBody limit request length buffer)
      (Message.body limit request length (buffer ++ more)) := by
  unfold scanBody Want.scan
  by_cases large : limit < length
  · simp only [Message.body, if_pos large]
    exact .refused ..
  · by_cases enough : length ≤ buffer.length
    · have longer : ¬ (buffer ++ more).length < length := by
        rw [List.length_append]
        omega
      simp only [Message.body, if_neg large, if_pos enough, if_neg longer,
        List.take_append_of_le_length enough, List.drop_append_of_le_length enough]
      exact .complete ..
    · simp only [if_neg large, if_neg enough]
      have short : buffer.length < length := Nat.lt_of_not_le enough
      have quiet : (Stage.body request length).message limit remote buffer = .incomplete := by
        simp only [message, Message.body, if_neg large, if_pos short]
      exact .awaited quiet trivial

theorem afterHeadForetold (request : Request) (plain : request.body = []) :
    Foretold limit remote more (afterHead limit request buffer)
      (Message.announced limit request (buffer ++ more)) := by
  unfold afterHead Message.announced
  rcases request.contentLength? with _ | (_ | (_ | length))
  · exact .complete ..
  · exact .refused ..
  · simp only [Message.body, Nat.not_lt_zero, if_false, List.take_zero, List.drop_zero,
      Request.withBody, ← plain]
    exact .complete ..
  · exact scanBodyForetold request (length + 1)

-- A scan that gives up for length has seen no separator; that none comes later is what being in
-- time is for.
theorem scanForetold (stage : Stage) (inTime : stage.InTime limit (buffer ++ more)) :
    Foretold limit remote more (stage.scan limit remote buffer)
      (stage.message limit remote (buffer ++ more)) := by
  cases stage with
  | body request length => exact scanBodyForetold request length
  | head =>
    simp only [scan, scanHead, Want.scan]
    cases found : Sequence.cut? Bytes.blankLine buffer with
    | some pieces =>
      obtain ⟨head, rest⟩ := pieces
      simp only [message, Message.read, Sequence.cutExtend found]
      cases parsed : Head.read head with
      | error fault => exact .refused ..
      | ok request =>
        have plain := Head.readPlain parsed
        exact afterHeadForetold (request.sentBy remote) plain
    | none =>
      by_cases large : limit < buffer.length
      · have absent : Sequence.cut? Bytes.blankLine (buffer ++ more) = none := by
          cases later : Sequence.cut? Bytes.blankLine (buffer ++ more) with
          | none => rfl
          | some pieces =>
            have bound := inTime pieces.1 pieces.2 later
            have beyond := Sequence.cutBeyond found later
            omega
        have longer : limit < (buffer ++ more).length := by
          rw [List.length_append]
          omega
        simp only [message, Message.read, absent, if_pos large, if_pos longer]
        exact .refused ..
      · simp only [if_neg large]
        have quiet : Stage.head.message limit remote buffer = .incomplete := by
          simp only [message, Message.read, found, if_neg large]
        exact .awaited quiet inTime

end Stage

end FileServer
