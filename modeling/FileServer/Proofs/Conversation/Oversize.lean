import FileServer.Proofs.Conversation.Serving

/-! What becomes of a request that is longer than the limit. A body over the limit is never accepted,
and a head over it only where no read breaks off inside it beyond the limit: the limit is tested while
a blank line is looked for, not on a head that has been found. So two schedules of one stream differ
only where such a head is reached and one of them breaks it off there. -/
namespace FileServer

/-- Reading goes on from the whole stream to `rest`: what has been shown and written on the way. -/
inductive Reached (context : Context) (breaks : List Nat) :
    Bytes → List Event → Bytes → Bytes → Prop where
  | here (stream : Bytes) : Reached context breaks stream [] [] stream
  | beyond {stream after rest written : Bytes} {request : Request} {response : Response}
      {events : List Event}
      (complete : Message.readAt context.limits.frame context.remote breaks stream =
        .complete request after)
      (addressed : request.isAddressed) (alive : request.keepsAlive)
      (answered : (context.service request).value = .ok response)
      (later : Reached context breaks after events written rest) :
      Reached context breaks stream
        ((.called request :: (context.service request).trace.map .asked) ++ events)
        (response.wire ++ written) rest

/-- The stream begins with a request that is too long: its head is broken off beyond the limit, or it
announces a body over the limit. -/
inductive Oversized (limit : Nat) (breaks : List Nat) (stream : Bytes) : Prop where
  | head (overrun : Overrun limit breaks stream)
  | body {head rest : Bytes} {request : Request} {length : Nat}
      (found : Sequence.cut? Bytes.blankLine stream = some (head, rest))
      (parsed : Head.read head = .ok request)
      (announced : request.contentLength? = some (.ok length)) (large : limit < length)

section Exchange

variable {context : Context} {request : Request} {response : Response}

theorem exchangeGoesOn (addressed : request.isAddressed) (alive : request.keepsAlive)
    (answered : (context.service request).value = .ok response) (later : Transcript) :
    exchange context request later = later.after
      (.called request :: (context.service request).trace.map .asked) response.wire := by
  simp only [exchange, if_pos addressed, answered, if_pos alive]

theorem exchangeCalls {called : Request} {later : Transcript}
    (mem : .called called ∈ (exchange context request later).events) :
    (called = request ∧ request.isAddressed) ∨
      goesOn context request ∧ .called called ∈ later.events := by
  have own : .called called ∈
      (.called request :: (context.service request).trace.map .asked : List Event) →
        called = request := by
    intro mem
    rcases List.mem_cons.mp mem with same | asked
    · exact Event.called.inj same
    · obtain ⟨_, _, different⟩ := List.mem_map.mp asked
      cases different
  unfold exchange at mem
  split at mem
  · next addressed =>
    simp only at mem
    split at mem
    · exact .inl ⟨own mem, addressed⟩
    · next response answered =>
      split at mem
      · next alive =>
        rcases List.mem_append.mp mem with here | there
        · exact .inl ⟨own here, addressed⟩
        · exact .inr ⟨⟨addressed, alive, response, answered⟩, there⟩
      · exact .inl ⟨own mem, addressed⟩
  · cases mem

end Exchange

theorem Message.readBodyFits {limit : Nat} {remote : Address} {stream rest : Bytes}
    {request : Request} (complete : read limit remote stream = .complete request rest) :
    request.body.length ≤ limit := by
  unfold read at complete
  split at complete
  · split at complete <;> cases complete
  · split at complete
    · cases complete
    · next parsed =>
      unfold announced at complete
      split at complete
      · cases complete
        rw [Request.sentBy, Head.readPlain parsed]
        exact Nat.zero_le _
      · cases complete
      · next length _ =>
        unfold body at complete
        split at complete
        · cases complete
        · next fits =>
          split at complete
          · cases complete
          · cases complete
            exact Nat.le_trans (List.length_take_le ..) (Nat.le_of_not_lt fits)

section Reach

variable {context : Context} {breaks other : List Nat} {stream written rest : Bytes}
  {events : List Event}

theorem reachedTells (reached : Reached context breaks stream events written rest) :
    decodeAt context breaks stream = (decodeAt context breaks rest).after events written := by
  induction reached with
  | here stream => rfl
  | beyond complete addressed alive answered later ih =>
    rw [decodeAtTranscript, complete, Message.transcript,
      exchangeGoesOn addressed alive answered, ih, Transcript.afterAfter]

theorem oversizedRefused (oversized : Oversized context.limits.frame breaks stream) :
    decodeAt context breaks stream = .refusal := by
  rw [decodeAtTranscript, Message.readAt]
  by_cases overrun : Overrun context.limits.frame breaks stream
  · rw [if_pos overrun]
    rfl
  · rw [if_neg overrun]
    cases oversized with
    | head overruns => exact absurd overruns overrun
    | @body head rest request length found parsed announced large =>
      have same : (request.sentBy context.remote).contentLength? = some (.ok length) := announced
      simp only [Message.read, found, parsed, Message.announced, same, Message.body, if_pos large]
      rfl

theorem calledAddressed {request : Request}
    (called : .called request ∈ (decodeAt context breaks stream).events) :
    request.isAddressed ∧
      ∃ events written rest after, Reached context breaks stream events written rest ∧
        Message.readAt context.limits.frame context.remote breaks rest =
          .complete request after := by
  induction stream using decodeAt.induct context breaks with
  | case1 stream incomplete =>
    rw [decodeAtTranscript, incomplete] at called
    cases called
  | case2 stream fault refused =>
    rw [decodeAtTranscript, refused] at called
    cases called
  | case3 stream first after complete shorter ih =>
    rw [decodeAtTranscript, complete] at called
    rcases exchangeCalls called with ⟨rfl, own⟩ | ⟨⟨addressed, alive, response, answered⟩, later⟩
    · exact ⟨own, [], [], stream, after, .here stream, complete⟩
    · obtain ⟨own, events, written, rest, next, reached, last⟩ := ih later
      exact ⟨own, _, _, rest, next, .beyond complete addressed alive answered reached, last⟩

theorem calledReached {request : Request}
    (called : .called request ∈ (decodeAt context breaks stream).events) :
    ∃ events written rest after, Reached context breaks stream events written rest ∧
      Message.readAt context.limits.frame context.remote breaks rest = .complete request after :=
  (calledAddressed called).2

theorem readAtAgrees {limit : Nat} {remote : Address}
    (agree : Overrun limit breaks stream ↔ Overrun limit other stream) :
    Message.readAt limit remote breaks stream = Message.readAt limit remote other stream := by
  simp only [Message.readAt, agree]

-- The two passes go hand in hand as long as they agree on the head they have come to.
theorem passesDiffer (differ : decodeAt context breaks stream ≠ decodeAt context other stream) :
    ∃ events written rest, Reached context breaks stream events written rest ∧
      Reached context other stream events written rest ∧
      ¬ (Overrun context.limits.frame breaks rest ↔ Overrun context.limits.frame other rest) := by
  induction stream using decodeAt.induct context breaks with
  | case1 stream incomplete =>
    refine ⟨[], [], stream, .here _, .here _, fun agree => differ ?_⟩
    have same := (readAtAgrees agree).symm.trans incomplete
    rw [decodeAtTranscript, decodeAtTranscript context other, incomplete, same]
    rfl
  | case2 stream fault refused =>
    refine ⟨[], [], stream, .here _, .here _, fun agree => differ ?_⟩
    have same := (readAtAgrees agree).symm.trans refused
    rw [decodeAtTranscript, decodeAtTranscript context other, refused, same]
    rfl
  | case3 stream request after complete shorter ih =>
    by_cases agree : Overrun context.limits.frame breaks stream ↔
        Overrun context.limits.frame other stream
    · have same := (readAtAgrees agree).symm.trans complete
      rw [decodeAtTranscript, decodeAtTranscript context other, complete, same] at differ
      by_cases goes : goesOn context request
      · obtain ⟨addressed, alive, response, answered⟩ := goes
        have later : decodeAt context breaks after ≠ decodeAt context other after :=
          fun equal => differ (congrArg (exchange context request) equal)
        obtain ⟨events, written, rest, mine, theirs, disagree⟩ := ih later
        exact ⟨_, _, rest, .beyond complete addressed alive answered mine,
          .beyond same addressed alive answered theirs, disagree⟩
      · exact absurd (exchangeStops goes _ _) differ
    · exact ⟨[], [], stream, .here _, .here _, agree⟩

end Reach

namespace Session

theorem servedThere (context : Context) (moves : List Move) {events : List Event}
    {written rest : Bytes} {t : Transcript} (orderly : ClosesLast (serving moves))
    (reached : Reached context (servedBreaks context moves) (arrivals (serving moves)) events written
      rest)
    (there : decodeAt context (servedBreaks context moves) rest = t) :
    let served := finish context { pipe := {} } (serving moves)
    served.1 = events ++ t.events ∧ served.2.pipe.written = written ++ t.written ∧
      (t.ending = .waiting ∨ served.2.next.ending = t.ending) := by
  intro served
  have told := servedTells context moves orderly
  rw [reachedTells reached, there] at told
  have shown := congrArg Transcript.events told
  have output := congrArg Transcript.written told
  have ending := congrArg Transcript.ending told
  rw [Transcript.settledEvents] at shown
  rw [Transcript.settledWritten] at output
  refine ⟨shown.symm, output.symm, ?_⟩
  rcases (t.after events written).settledEnding (closes (serving moves)) with waits | same
  · exact .inl waits
  · exact .inr (ending.symm.trans same)

/-- A request that is called has a body within the limit, and no read breaks off inside its head
beyond the limit. Any request that is too long otherwise, once it is reached, is answered with a
refusal that ends the connection: nothing more is called or written. Another schedule of the same
stream calls and writes the same, unless both reach a head that only one of them breaks off so. -/
theorem oversizeByBreaks (context : Context) (moves : List Move)
    (orderly : ClosesLast (serving moves)) :
    let limit := context.limits.frame
    let stream := arrivals (serving moves)
    let breaks := servedBreaks context moves
    let served := finish context { pipe := {} } (serving moves)
    (∀ request, .called request ∈ served.1 →
      ∃ events written rest after, Reached context breaks stream events written rest ∧
        Message.read limit context.remote rest = .complete request after ∧
        request.body.length ≤ limit ∧ ¬ Overrun limit breaks rest) ∧
      (∀ events written rest, Reached context breaks stream events written rest →
        Oversized limit breaks rest →
          served.1 = events ∧
            served.2.pipe.written = written ++ (Response.bare .badRequest).wire ∧
            served.2.next.ending = .stopped) ∧
      ∀ others, ClosesLast (serving others) → arrivals (serving others) = stream →
        let twin := finish context { pipe := {} } (serving others)
        (twin.1 = served.1 ∧ twin.2.pipe.written = served.2.pipe.written) ∨
          ∃ events written rest, Reached context breaks stream events written rest ∧
            Reached context (servedBreaks context others) stream events written rest ∧
            ¬ (Overrun limit breaks rest ↔ Overrun limit (servedBreaks context others) rest) := by
  intro limit stream breaks served
  obtain ⟨shown, output, -⟩ := servedThere context moves orderly (.here _) rfl
  rw [List.nil_append] at shown output
  refine ⟨fun request called => ?_, fun events written rest reached oversized => ?_,
    fun others orderly same => ?_⟩
  · rw [shown] at called
    obtain ⟨events, written, rest, after, reached, complete⟩ := calledReached called
    obtain ⟨calm, read⟩ := Message.readAtComplete complete
    exact ⟨events, written, rest, after, reached, read, Message.readBodyFits read, calm⟩
  · obtain ⟨shown, output, ending⟩ :=
      servedThere context moves orderly reached (oversizedRefused oversized)
    exact ⟨shown.trans (List.append_nil _), output, ending.resolve_left nofun⟩
  · obtain ⟨twinShown, twinOutput, -⟩ := servedThere context others orderly (.here _) rfl
    rw [List.nil_append, same] at twinShown twinOutput
    by_cases agree : decodeAt context breaks stream =
        decodeAt context (servedBreaks context others) stream
    · rw [← agree] at twinShown twinOutput
      exact .inl ⟨twinShown.trans shown.symm, twinOutput.trans output.symm⟩
    · exact .inr (passesDiffer agree)

theorem oversizeByBreaksBehindShort :
    let context : Context := ⟨{ frame := 16 }, .ofOctets 127 0 0 1, .fixed (.bare .ok)⟩
    let moves := [.arrive (Bytes.ofText "GET / HTTP/1.0\r\n\r\nGET /a HTTP/1.0\r\nk:"), .resume,
      .arrive (Bytes.ofText " v\r\n\r\n")]
    let short : Request := ⟨.get, "/", "HTTP/1.0", [], [], context.remote⟩
    let rest := Bytes.ofText "GET /a HTTP/1.0\r\nk: v\r\n\r\n"
    let served := finish context { pipe := {} } (serving moves)
    ClosesLast (serving moves) ∧ Overrun 16 (servedBreaks context moves) rest ∧
      served.1 = [.called short] ∧ served.2.next.ending = .stopped ∧
      served.2.pipe.written = (Response.bare .ok).wire ++ (Response.bare .badRequest).wire := by
  intro context moves short rest served
  have overrun : Overrun 16 (servedBreaks context moves) rest := by decide +kernel
  have complete : Message.readAt 16 context.remote (servedBreaks context moves)
      (arrivals (serving moves)) = .complete short rest := by decide +kernel
  have reached : Reached context (servedBreaks context moves) (arrivals (serving moves))
      [.called short] ((Response.bare .ok).wire ++ []) rest :=
    .beyond complete rfl rfl rfl (.here rest)
  obtain ⟨_, refused, _⟩ := oversizeByBreaks context moves trivial
  obtain ⟨called, written, ending⟩ := refused _ _ rest reached (.head overrun)
  rw [List.append_nil] at written
  exact ⟨trivial, overrun, called, ending, written⟩

theorem oversizeCalledWhole :
    let context : Context := ⟨{ frame := 16 }, .ofOctets 127 0 0 1, .echo⟩
    let head := Bytes.ofText "GET /a HTTP/1.0\r\nk: v"
    let stream := head ++ Bytes.blankLine
    let whole := [.arrive stream]
    let halves := [.arrive (stream.take 18), .resume, .arrive (stream.drop 18)]
    let served := finish context { pipe := {} } (serving whole)
    let twin := finish context { pipe := {} } (serving halves)
    Sequence.cut? Bytes.blankLine stream = some (head, []) ∧ context.limits.frame < head.length ∧
      arrivals (serving whole) = stream ∧ arrivals (serving halves) = stream ∧
      served.1 = [.called ⟨.get, "/a", "HTTP/1.0", [⟨"k", "v"⟩], [], context.remote⟩] ∧
      twin.1 = [] ∧ twin.2.pipe.written = (Response.bare .badRequest).wire := by
  intro context head stream whole halves served twin
  have cut : Sequence.cut? Bytes.blankLine stream = some (head, []) := by decide +kernel
  have long : context.limits.frame < head.length := by decide +kernel
  have joined : arrivals (serving halves) = stream := by decide +kernel
  have called : served.1 = [.called ⟨.get, "/a", "HTTP/1.0", [⟨"k", "v"⟩], [], context.remote⟩] := by
    have complete : Message.readAt 16 context.remote (servedBreaks context whole)
        (arrivals (serving whole)) =
          .complete ⟨.get, "/a", "HTTP/1.0", [⟨"k", "v"⟩], [], context.remote⟩ [] := by
      decide +kernel
    have nothing : Message.readAt 16 context.remote (servedBreaks context whole) [] = .incomplete := by
      decide +kernel
    have waits : decodeAt context (servedBreaks context whole) [] = .waiting := by
      rw [decodeAtTranscript, nothing]
      rfl
    exact (servedThere context whole trivial (.beyond complete rfl rfl rfl (.here [])) waits).1
  have overrun : Overrun 16 (servedBreaks context halves) (arrivals (serving halves)) := by
    decide +kernel
  obtain ⟨uncalled, refused, -⟩ :=
    servedThere context halves trivial (.here _) (oversizedRefused (.head overrun))
  exact ⟨cut, long, rfl, joined, called, uncalled, refused⟩

end Session

end FileServer
