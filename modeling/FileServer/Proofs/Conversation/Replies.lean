import FileServer.Proofs.Conversation.Transcript

/-! What is to be written to a client, reply by reply. A stream that has been received so far says
which requests there are in it and what each is answered; a scan of what is left of the stream in a
buffer says the same, whatever comes behind it. -/
namespace FileServer

structure Reply where
  request? : Option Request
  payload : Bytes
  deriving DecidableEq, Repr

def Reply.refusal : Reply := ⟨none, (Response.bare .badRequest).wire⟩

def Context.replies (context : Context) (request : Request) (later : List Reply) : List Reply :=
  if request.isAddressed then
    match (context.service request).value with
    | .error _ => [⟨some request, []⟩]
    | .ok response =>
      ⟨some request, response.wire⟩ :: if request.keepsAlive then later else []
  else [.refusal]

def Message.replies (context : Context) (later : Bytes → List Reply) : Message → List Reply
  | .incomplete => []
  | .refused _ => [.refusal]
  | .complete request rest => context.replies request (later rest)

def replies (context : Context) (stream : Bytes) : List Reply :=
  match h : Message.read context.limits.frame context.remote stream with
  | .incomplete => []
  | .refused _ => [.refusal]
  | .complete request rest =>
    have := Message.readShorter h
    context.replies request (replies context rest)
termination_by stream.length

theorem repliesMessage (context : Context) (stream : Bytes) : replies context stream =
    (Message.read context.limits.frame context.remote stream).replies context (replies context) := by
  rw [replies]
  split <;> next h => simp only [h, Message.replies]

theorem repliesWritten (context : Context) (stream : Bytes) :
    (replies context stream).flatMap Reply.payload = (decode context stream).written := by
  induction stream using replies.induct context with
  | case1 stream awaits =>
    rw [repliesMessage, decodeTranscript, awaits]
    rfl
  | case2 stream fault refused =>
    rw [repliesMessage, decodeTranscript, refused]
    exact List.append_nil _
  | case3 stream request rest complete shorter ih =>
    rw [repliesMessage, decodeTranscript, complete]
    simp only [Message.replies, Context.replies, Message.transcript, exchange]
    split
    · cases answered : (context.service request).value with
      | error fault => rfl
      | ok response =>
        by_cases alive : request.keepsAlive
        · simp only [if_pos alive, List.flatMap_cons, ih, Transcript.after]
        · simp only [if_neg alive, List.flatMap_cons, List.flatMap_nil, List.append_nil]
    · exact List.append_nil _

inductive Tells (limit : Nat) (remote : Address) (whole : Bytes → Message) : Progress → Prop where
  | complete {request : Request} {rest : Bytes}
      (told : ∀ more, whole more = .complete request (rest ++ more)) :
      Tells limit remote whole (.done (.ok request) rest)
  | refused {fault : RequestFault} {rest : Bytes} (told : whole [] = .refused fault) :
      Tells limit remote whole (.done (.error fault) rest)
  | awaited {stage : Stage} {buffer : Bytes}
      (quiet : stage.message limit remote buffer = .incomplete)
      (told : ∀ more, whole more = stage.message limit remote (buffer ++ more)) :
      Tells limit remote whole (.more stage buffer)

theorem Foretold.tells {limit : Nat} {remote : Address} {whole : Bytes → Message}
    {progress : Progress} (foretold : ∀ more, Foretold limit remote more progress (whole more)) :
    Tells limit remote whole progress := by
  match progress with
  | .done (.ok request) rest =>
    refine .complete fun more => ?_
    have told := foretold more
    generalize whole more = message at told
    cases told
    rfl
  | .done (.error fault) rest =>
    refine .refused ?_
    have told := foretold []
    generalize whole [] = message at told
    cases told
    rfl
  | .more stage buffer =>
    refine .awaited ?_ fun more => ?_
    · have told := foretold []
      generalize whole [] = message at told
      cases told with
      | awaited quiet => exact quiet
    · have told := foretold more
      generalize whole more = message at told
      cases told
      rfl

theorem Stage.scanTells (limit : Nat) (remote : Address) (stage : Stage) (buffer : Bytes) :
    Tells limit remote (fun more => stage.message limit remote (buffer ++ more))
      (stage.scan limit remote buffer) := by
  cases stage with
  | body request length => exact Foretold.tells fun more => scanBodyForetold request length
  | head =>
    simp only [scan, scanHead, Want.scan]
    cases found : Sequence.cut? Bytes.blankLine buffer with
    | some pieces =>
      obtain ⟨head, rest⟩ := pieces
      refine Foretold.tells fun more => ?_
      simp only [message, Message.read, Sequence.cutExtend found]
      cases parsed : Head.read head with
      | error fault => exact .refused ..
      | ok request =>
        have plain := Head.readPlain parsed
        exact afterHeadForetold (request.sentBy remote) plain
    | none =>
      have here : Stage.head.message limit remote buffer =
          if limit < buffer.length then .refused .tooLarge else .incomplete := by
        simp only [message, Message.read, found]
      by_cases large : limit < buffer.length
      · simp only [if_pos large] at here ⊢
        refine .refused ?_
        rw [List.append_nil]
        exact here
      · simp only [if_neg large] at here ⊢
        exact .awaited here fun more => rfl

end FileServer
