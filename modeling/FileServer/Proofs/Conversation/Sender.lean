import FileServer.Proofs.Conversation.Schedule

/-! Who a request is from. Every request a connection reads carries the address of the connection,
and no byte of the stream has a say in it; so services that answer such requests alike are not told
apart by any schedule. -/
namespace FileServer

def Stage.IsFrom (remote : Address) : Stage → Prop
  | .head => True
  | .body request _ => request.remote = remote

def Progress.IsFrom (remote : Address) : Progress → Prop
  | .done (.ok request) _ => request.remote = remote
  | .done (.error _) _ => True
  | .more stage _ => stage.IsFrom remote

def Next.IsFrom (remote : Address) : Next → Prop
  | .waits (.read (.request stage)) => stage.IsFrom remote
  | .waits (.read (.serving stage)) => stage.IsFrom remote
  | _ => True

structure Context.Alike (one other : Context) : Prop where
  limits : one.limits = other.limits
  remote : one.remote = other.remote
  service : ∀ request, request.remote = one.remote → one.service request = other.service request

namespace Stage

variable {remote : Address}

theorem scanBodyIsFrom {request : Request} (limit length : Nat) (buffer : Bytes)
    (sender : request.remote = remote) : (scanBody limit request length buffer).IsFrom remote := by
  unfold scanBody
  split
  · exact sender
  · trivial
  · exact sender

theorem scanIsFrom (stage : Stage) (limit : Nat) (buffer : Bytes) (sender : stage.IsFrom remote) :
    (stage.scan limit remote buffer).IsFrom remote := by
  cases stage with
  | body request length => exact scanBodyIsFrom limit length buffer sender
  | head =>
    simp only [scan, scanHead]
    split
    · trivial
    · trivial
    · split
      · trivial
      · simp only [afterHead]
        split
        · rfl
        · trivial
        · rfl
        · exact scanBodyIsFrom _ _ _ rfl

end Stage

namespace Conversation

variable {one other : Context}

theorem answerIsFrom (context : Context) (request : Request) (remote : Address) :
    (answer context request).2.IsFrom remote := by
  simp only [answer]
  split
  · trivial
  · split <;> trivial

theorem serveAlike (alike : one.Alike other) (stage : Stage) (buffer : Bytes)
    (sender : stage.IsFrom one.remote) :
    serve one stage buffer = serve other stage buffer ∧
      (serve one stage buffer).next.IsFrom one.remote := by
  obtain ⟨limits, remote, service⟩ := one
  obtain ⟨limits', remote', service'⟩ := other
  obtain ⟨rfl, rfl, same⟩ := alike
  simp only at sender same ⊢
  have scanned := Stage.scanIsFrom stage limits.frame buffer sender
  simp only [serve]
  split
  · next found =>
    rw [found] at scanned
    exact ⟨rfl, scanned⟩
  · exact ⟨rfl, trivial⟩
  · next request rest found =>
    rw [found] at scanned
    split
    · refine ⟨?_, answerIsFrom _ request remote⟩
      simp only [answer, same request scanned]
    · exact ⟨rfl, trivial⟩

theorem requestAlike (alike : one.Alike other) (stage : Stage) (buffer : Bytes)
    (sender : stage.IsFrom one.remote) :
    request one stage buffer = request other stage buffer ∧
      (request one stage buffer).next.IsFrom one.remote := by
  have scanned := Stage.scanIsFrom stage one.limits.frame buffer sender
  refine ⟨by simp only [request, alike.limits, alike.remote], ?_⟩
  simp only [request]
  split
  · trivial
  · next found =>
    rw [found] at scanned
    exact scanned

theorem frameAlike (alike : one.Alike other) (want : Want) (buffer : Bytes) :
    frame one want buffer = frame other want buffer ∧
      (frame one want buffer).next.IsFrom one.remote := by
  refine ⟨by simp only [frame, alike.limits], ?_⟩
  simp only [frame]
  split <;> trivial

theorem scriptIsFrom (remote : Address) (rest : List Operation) : (script rest).IsFrom remote := by
  rcases rest with _ | ⟨_ | _, _⟩ <;> trivial

theorem receivedAlike (alike : one.Alike other) (buffer bytes : Bytes) (reading : Reading)
    (sender : Next.IsFrom one.remote (.waits (.read reading))) :
    received one buffer bytes reading = received other buffer bytes reading ∧
      (received one buffer bytes reading).next.IsFrom one.remote := by
  cases reading with
  | frame want => exact frameAlike alike want _
  | request stage => exact requestAlike alike stage _ sender
  | serving stage => exact serveAlike alike stage _ sender
  | script rest => exact ⟨rfl, scriptIsFrom one.remote rest⟩

theorem sentAlike (alike : one.Alike other) (buffer : Bytes) (writing : Writing) :
    sent one buffer writing = sent other buffer writing ∧
      (sent one buffer writing).next.IsFrom one.remote := by
  cases writing with
  | last => exact ⟨rfl, trivial⟩
  | serving => exact serveAlike alike .head buffer trivial
  | script rest => exact ⟨rfl, scriptIsFrom one.remote rest⟩

end Conversation

namespace Session

variable {one other : Context}

theorem startingAlike (alike : one.Alike other) (buffer : Bytes) (start : Start) :
    starting one buffer start = starting other buffer start ∧
      (starting one buffer start).next.IsFrom one.remote := by
  cases start with
  | frame want => exact Conversation.frameAlike alike want buffer
  | request => exact Conversation.requestAlike alike .head buffer trivial
  | write payload => exact ⟨rfl, trivial⟩
  | serve => exact Conversation.serveAlike alike .head buffer trivial
  | nothing => exact ⟨rfl, trivial⟩

theorem advanceAlike (alike : one.Alike other) (s : Session) (sender : s.next.IsFrom one.remote) :
    s.advance? one = s.advance? other ∧
      ∀ result, s.advance? one = some result → result.2.next.IsFrom one.remote := by
  obtain ⟨pipe, buffer, next⟩ := s
  match next with
  | .ended => exact ⟨rfl, fun _ h => nomatch h⟩
  | .aborted _ => exact ⟨rfl, fun _ h => nomatch h⟩
  | .waits (.read reading) =>
    simp only [advance?]
    cases pipe.read with
    | waits => exact ⟨rfl, fun _ h => nomatch h⟩
    | ended => exact ⟨rfl, fun _ h => Option.some.inj h ▸ trivial⟩
    | chunk bytes pipe =>
      obtain ⟨same, kept⟩ := Conversation.receivedAlike alike buffer bytes reading sender
      exact ⟨by simp only [same], fun _ h => Option.some.inj h ▸ kept⟩
  | .waits (.write payload writing) =>
    simp only [advance?]
    cases pipe.write? payload with
    | none => exact ⟨rfl, fun _ h => Option.some.inj h ▸ trivial⟩
    | some pipe =>
      obtain ⟨same, kept⟩ := Conversation.sentAlike alike buffer writing
      exact ⟨by simp only [same], fun _ h => Option.some.inj h ▸ kept⟩

theorem actAlike (alike : one.Alike other) (s : Session) (next : Act)
    (sender : s.next.IsFrom one.remote) :
    s.act one next = s.act other next ∧ (s.act one next).2.next.IsFrom one.remote := by
  match next with
  | .start what =>
    obtain ⟨same, kept⟩ := startingAlike alike s.buffer what
    exact ⟨by simp only [act, same], kept⟩
  | .move (.arrive _) | .move (.chunk _) | .move .close => exact ⟨rfl, sender⟩
  | .move .resume =>
    obtain ⟨same, kept⟩ := advanceAlike alike s sender
    simp only [act, move, ← same]
    cases advanced : s.advance? one with
    | none => exact ⟨trivial, sender⟩
    | some result => exact ⟨trivial, kept result advanced⟩

theorem followAlike (alike : one.Alike other) (s : Session) (acts : List Act)
    (sender : s.next.IsFrom one.remote) :
    s.follow one acts = s.follow other acts ∧
      (s.follow one acts).2.next.IsFrom one.remote := by
  induction acts generalizing s with
  | nil => exact ⟨rfl, sender⟩
  | cons next rest ih =>
    obtain ⟨same, kept⟩ := actAlike alike s next sender
    obtain ⟨rest, last⟩ := ih (s.act one next).2 kept
    simp only [follow, ← same]
    exact ⟨by rw [rest], last⟩

theorem runAlike (alike : one.Alike other) (s : Session) (sender : s.next.IsFrom one.remote) :
    s.run one = s.run other := by
  induction s using run.induct one with
  | case1 s quiet =>
    have same := (advanceAlike alike s sender).1
    rw [runQuiet quiet, runQuiet (same ▸ quiet)]
  | case2 s events next advanced lighter more last found ih =>
    obtain ⟨same, kept⟩ := advanceAlike alike s sender
    have advanced' : s.advance? other = some (events, next) := same ▸ advanced
    rw [runAdvanced advanced, runAdvanced advanced', ih (kept _ advanced)]

theorem finishAlike (alike : one.Alike other) (s : Session) (acts : List Act)
    (sender : s.next.IsFrom one.remote) : s.finish one acts = s.finish other acts := by
  obtain ⟨same, kept⟩ := followAlike alike s acts sender
  simp only [finish, ← same, runAlike alike _ kept]

end Session

end FileServer
