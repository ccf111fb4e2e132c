import FileServer.Proofs.Conversation.Schedule
import FileServer.Proofs.Conversation.Transcript

/-! What a stream says when it is known where its reads break off. The limit on a head is tested only
on a buffer without a blank line, so the places where reads end are all that the cuts of a stream can
add to what its bytes say: `decodeAt` reads a whole stream in one pass, told of these places, and a
session that serves comes to what it tells. A place is given by how much of the stream is unread
behind it, which stays the same number while the stream is consumed from its front. -/
namespace FileServer

/-- A read breaks off inside the head, more than `limit` bytes behind its first one and before the
end of its blank line. -/
def Overrun (limit : Nat) (breaks : List Nat) (stream : Bytes) : Prop :=
  ∃ head rest, Sequence.cut? Bytes.blankLine stream = some (head, rest) ∧
    ∃ left ∈ breaks, rest.length < left ∧ left + limit < stream.length

theorem overrunFound {limit : Nat} {breaks : List Nat} {stream head rest : Bytes}
    (found : Sequence.cut? Bytes.blankLine stream = some (head, rest)) :
    Overrun limit breaks stream ↔
      ∃ left ∈ breaks, rest.length < left ∧ left + limit < stream.length := by
  constructor
  · rintro ⟨_, _, same, broken⟩
    cases found.symm.trans same
    exact broken
  · exact fun broken => ⟨head, rest, found, broken⟩

theorem overrunAbsent {limit : Nat} {breaks : List Nat} {stream : Bytes}
    (absent : Sequence.cut? Bytes.blankLine stream = none) : ¬ Overrun limit breaks stream := by
  rintro ⟨_, _, found, _⟩
  cases absent.symm.trans found

instance (limit : Nat) (breaks : List Nat) (stream : Bytes) :
    Decidable (Overrun limit breaks stream) :=
  match cut : Sequence.cut? Bytes.blankLine stream with
  | none => isFalse (overrunAbsent cut)
  | some (_, _) => decidable_of_iff _ (overrunFound cut).symm

namespace Message

def readAt (limit : Nat) (remote : Address) (breaks : List Nat) (stream : Bytes) : Message :=
  if Overrun limit breaks stream then .refused .tooLarge else read limit remote stream

theorem readAtComplete {limit remote breaks stream request rest}
    (h : readAt limit remote breaks stream = .complete request rest) :
    ¬ Overrun limit breaks stream ∧ read limit remote stream = .complete request rest := by
  unfold readAt at h
  split at h
  · cases h
  · next calm => exact ⟨calm, h⟩

end Message

def decodeAt (context : Context) (breaks : List Nat) (stream : Bytes) : Transcript :=
  match h : Message.readAt context.limits.frame context.remote breaks stream with
  | .incomplete => .waiting
  | .refused _ => .refusal
  | .complete request rest =>
    have := Message.readShorter (Message.readAtComplete h).2
    exchange context request (decodeAt context breaks rest)
termination_by stream.length

theorem decodeAtTranscript (context : Context) (breaks : List Nat) (stream : Bytes) :
    decodeAt context breaks stream =
      (Message.readAt context.limits.frame context.remote breaks stream).transcript context
        (decodeAt context breaks) := by
  rw [decodeAt]
  split <;> next h => simp only [h, Message.transcript]

namespace Stage

def messageAt (limit : Nat) (remote : Address) (breaks : List Nat) (stream : Bytes) :
    Stage → Message
  | .head => Message.readAt limit remote breaks stream
  | .body request length => Message.body limit request length stream

def Awaits (limit : Nat) (buffer : Bytes) : Stage → Prop
  | .head => Sequence.cut? Bytes.blankLine buffer = none ∧ buffer.length ≤ limit
  | .body _ length => buffer.length < length ∧ length ≤ limit

variable {limit : Nat} {remote : Address} {breaks : List Nat} {stage : Stage}
  {buffer more rest : Bytes} {request : Request}

theorem messageAtComplete
    (h : stage.messageAt limit remote breaks buffer = .complete request rest) :
    stage.message limit remote buffer = .complete request rest := by
  cases stage with
  | head => exact (Message.readAtComplete h).2
  | body => exact h

theorem messageAtInTime (inTime : stage.InTime limit buffer) :
    stage.messageAt limit remote breaks buffer = stage.message limit remote buffer := by
  cases stage with
  | body => rfl
  | head =>
    refine if_neg ?_
    rintro ⟨head, rest, found, left, _, inside, beyond⟩
    have bound := inTime head rest found
    have whole := Sequence.cutLength found
    omega

theorem awaitsShort (awaits : stage.Awaits limit buffer) : buffer.length ≤ limit := by
  cases stage with
  | head => exact awaits.2
  | body request length => exact Nat.le_of_lt (Nat.lt_of_lt_of_le awaits.1 awaits.2)

theorem awaitsQuiet (awaits : stage.Awaits limit buffer) :
    stage.messageAt limit remote breaks buffer = .incomplete := by
  cases stage with
  | head =>
    obtain ⟨absent, short⟩ := awaits
    simp only [messageAt, Message.readAt, if_neg (overrunAbsent absent), Message.read, absent,
      if_neg (Nat.not_lt.mpr short)]
  | body request length =>
    obtain ⟨short, fits⟩ := awaits
    simp only [messageAt, Message.body, if_neg (Nat.not_lt.mpr fits), if_pos short]

theorem awaitsLeavesNew (awaits : stage.Awaits limit buffer)
    (complete : stage.message limit remote (buffer ++ more) = .complete request rest) :
    rest.length ≤ more.length := by
  cases stage with
  | body request length =>
    obtain ⟨short, fits⟩ := awaits
    simp only [message, Message.body, if_neg (Nat.not_lt.mpr fits)] at complete
    split at complete
    · cases complete
    · cases complete
      simp only [List.length_drop, List.length_append]
      omega
  | head =>
    simp only [message, Message.read] at complete
    split at complete
    · split at complete <;> cases complete
    · next head tail found =>
      have beyond := Sequence.cutBeyond awaits.1 found
      have whole := Sequence.cutLength found
      rw [List.length_append] at whole
      split at complete
      · cases complete
      · have shorter := Message.announcedShorter complete
        omega

theorem scanBodyAwaits {asked : Request} {length : Nat}
    (scanned : scanBody limit asked length buffer = .more stage rest) :
    stage.Awaits limit rest := by
  unfold scanBody Want.scan at scanned
  by_cases large : limit < length
  · simp only [if_pos large] at scanned
    cases scanned
  · by_cases enough : length ≤ buffer.length
    · simp only [if_neg large, if_pos enough] at scanned
      cases scanned
    · simp only [if_neg large, if_neg enough] at scanned
      cases scanned
      exact ⟨Nat.lt_of_not_le enough, Nat.le_of_not_lt large⟩

theorem scanAwaits {stage' : Stage}
    (scanned : stage.scan limit remote buffer = .more stage' rest) : stage'.Awaits limit rest := by
  cases stage with
  | body request length => exact scanBodyAwaits scanned
  | head =>
    simp only [scan, scanHead, Want.scan] at scanned
    cases found : Sequence.cut? Bytes.blankLine buffer with
    | none =>
      by_cases large : limit < buffer.length
      · simp only [found, if_pos large] at scanned
        cases scanned
      · simp only [found, if_neg large] at scanned
        cases scanned
        exact ⟨found, Nat.le_of_not_lt large⟩
    | some pieces =>
      simp only [found] at scanned
      split at scanned
      · cases scanned
      · unfold afterHead at scanned
        split at scanned
        · cases scanned
        · cases scanned
        · cases scanned
        · exact scanBodyAwaits scanned

end Stage

theorem decodeAtFitting {context : Context} {breaks : List Nat} {stream : Bytes}
    (fits : HeadsFit context stream) : decodeAt context breaks stream = decode context stream := by
  induction fits with
  | @intro stream here next ih =>
    have same : Message.readAt context.limits.frame context.remote breaks stream =
        Message.read context.limits.frame context.remote stream :=
      Stage.head.messageAtInTime here
    rw [decodeAtTranscript, decodeTranscript, same]
    cases complete : Message.read context.limits.frame context.remote stream with
    | incomplete => rfl
    | refused fault => rfl
    | complete request rest =>
      by_cases goes : goesOn context request
      · exact congrArg (exchange context request) (ih request rest complete goes)
      · exact exchangeStops goes _ _

inductive ForetoldAt (limit : Nat) (remote : Address) (breaks : List Nat) (more : Bytes) :
    Progress → Message → Prop where
  | complete (request : Request) (rest : Bytes) :
      ForetoldAt limit remote breaks more (.done (.ok request) rest)
        (.complete request (rest ++ more))
  | refused (fault : RequestFault) (rest : Bytes) :
      ForetoldAt limit remote breaks more (.done (.error fault) rest) (.refused fault)
  | awaited (stage : Stage) (buffer : Bytes) :
      ForetoldAt limit remote breaks more (.more stage buffer)
        (stage.messageAt limit remote breaks (buffer ++ more))

theorem Foretold.broken {limit : Nat} {remote : Address} {more : Bytes} {progress : Progress}
    {whole : Message} (breaks : List Nat) (foretold : Foretold limit remote more progress whole) :
    ForetoldAt limit remote breaks more progress whole := by
  cases foretold with
  | complete request rest => exact .complete request rest
  | refused fault rest => exact .refused fault rest
  | @awaited stage buffer quiet inTime =>
    rw [← Stage.messageAtInTime inTime]
    exact .awaited stage buffer

namespace Stage

variable {limit : Nat} {remote : Address} {breaks : List Nat} {buffer more : Bytes}

-- Scans take place where a read has just ended. One that finds its head has met no break inside it,
-- and one that gives up for length is itself the break.
theorem scanForetoldAt (stage : Stage)
    (gap : ∀ left ∈ breaks, left ≤ more.length ∨ (buffer ++ more).length ≤ left + limit)
    (marked : more.length ∈ breaks) :
    ForetoldAt limit remote breaks more (stage.scan limit remote buffer)
      (stage.messageAt limit remote breaks (buffer ++ more)) := by
  cases stage with
  | body request length => exact (scanBodyForetold request length).broken breaks
  | head =>
    simp only [scan, scanHead, Want.scan, messageAt, Message.readAt]
    cases found : Sequence.cut? Bytes.blankLine buffer with
    | some pieces =>
      obtain ⟨head, rest⟩ := pieces
      have whole := Sequence.cutExtend found more
      have calm : ¬ Overrun limit breaks (buffer ++ more) := by
        rw [overrunFound whole]
        rintro ⟨left, mem, inside, beyond⟩
        rw [List.length_append] at inside
        rcases gap left mem with behind | before <;> omega
      simp only [if_neg calm, Message.read, whole]
      cases parsed : Head.read head with
      | error fault => exact .refused ..
      | ok request =>
        have plain := Head.readPlain parsed
        exact (afterHeadForetold (request.sentBy remote) plain).broken breaks
    | none =>
      by_cases large : limit < buffer.length
      · have gaveUp : Message.readAt limit remote breaks (buffer ++ more) = .refused .tooLarge := by
          cases later : Sequence.cut? Bytes.blankLine (buffer ++ more) with
          | none =>
            have longer : limit < (buffer ++ more).length := by
              rw [List.length_append]
              omega
            simp only [Message.readAt, if_neg (overrunAbsent later), Message.read, later,
              if_pos longer]
          | some pieces =>
            have beyond := Sequence.cutBeyond found later
            have whole := Sequence.cutLength later
            rw [List.length_append] at whole
            refine if_pos ((overrunFound later).mpr ⟨more.length, marked, by omega, ?_⟩)
            rw [List.length_append]
            omega
        unfold Message.readAt at gaveUp
        simp only [gaveUp, if_pos large]
        exact .refused ..
      · simp only [if_neg large]
        exact .awaited .head buffer

end Stage

end FileServer
