import FileServer.Proofs.Conversation.Schedule
import FileServer.Proofs.Conversation.Transcript
import FileServer.Proofs.Message.Wire

/-! Reading undoes writing. Requests that are written one behind the other are read one after the
other as they were written, but for the address they come from, however their bytes are cut; and not
a byte behind the last one is used. -/
namespace FileServer

namespace Message

variable {limit : Nat} {r : Request}

theorem cutWritten (plain : r.Plain) (more : Bytes) :
    Sequence.cut? Bytes.blankLine (r.wire ++ more) = some (r.head, r.body ++ more) := by
  have cut := Sequence.cutOfAbsent (r.body ++ more) (Request.headFree plain)
  rw [Request.wireHead, List.append_assoc]
  exact Sequence.cutComplete cut

theorem readWritten (wellFormed : r.WellFormed limit) (remote : Address) (more : Bytes) :
    read limit remote (r.wire ++ more) = .complete (r.sentBy remote) more := by
  have plain := wellFormed.toPlain
  simp only [read, cutWritten plain, Head.readWritten plain]
  have same : ((r.withBody []).sentBy .unspecified |>.sentBy remote).contentLength? =
      r.contentLength? := rfl
  rcases wellFormed.announced with announced | ⟨announced, empty⟩
  · have large : ¬ limit < r.body.length := Nat.not_lt.mpr wellFormed.bodyFits
    have short : ¬ (r.body ++ more).length < r.body.length := by
      simp only [List.length_append]
      omega
    simp only [Message.announced, same, announced, body, if_neg large, if_neg short,
      List.take_left, List.drop_left]
    rfl
  · simp only [Message.announced, same, announced, empty, List.nil_append]
    rw [← empty]
    rfl

theorem inTimeWritten (wellFormed : r.WellFormed limit) (more : Bytes) :
    Stage.InTime limit (r.wire ++ more) .head := by
  intro head rest found
  rw [cutWritten wellFormed.toPlain] at found
  cases found
  have fits := wellFormed.headFits
  rw [Request.wireHead, List.length_append, List.length_append] at fits
  exact Nat.le_trans (Nat.le_add_right _ _) fits

end Message

inductive Awaits (context : Context) (buffer ahead : Bytes) :
    Next → List Request → Bytes → Prop where
  | idle : Awaits context buffer ahead .ended [] (buffer ++ ahead)
  | busy (stage : Stage) (request : Request) (rest : Bytes)
      (quiet : stage.message context.limits.frame context.remote buffer = .incomplete)
      (inTime : stage.InTime context.limits.frame (buffer ++ ahead))
      (complete : stage.message context.limits.frame context.remote (buffer ++ ahead) =
        .complete request rest) :
      Awaits context buffer ahead (.waits (.read (.request stage))) [request] rest

def told (request : Request) : Event := .requested (.ok request)

theorem Conversation.requestAwaits {context : Context} {buffer ahead rest : Bytes} {r : Request}
    (stage : Stage) (inTime : stage.InTime context.limits.frame (buffer ++ ahead))
    (complete : stage.message context.limits.frame context.remote (buffer ++ ahead) =
      .complete r rest) :
    let outcome := request context stage buffer
    ∃ owed, outcome.events ++ owed.map told = [told r] ∧
      Awaits context outcome.buffer ahead outcome.next owed rest := by
  have foretold : Foretold context.limits.frame context.remote ahead _ _ :=
    Stage.scanForetold stage inTime
  rw [complete] at foretold
  unfold request
  generalize stage.scan context.limits.frame context.remote buffer = scanned at foretold
  generalize whole : Message.complete r rest = message at foretold
  cases foretold with
  | @awaited stage' buffer' quiet inTime =>
    exact ⟨[r], rfl, .busy stage' r rest quiet inTime whole.symm⟩
  | refused fault rest => cases whole
  | complete request rest' =>
    cases whole
    exact ⟨[], rfl, .idle⟩

namespace Session

variable {context : Context} {s s' : Session} {due rest : Bytes} {owed : List Request}

inductive Successive (context : Context) : Session → List Act → Nat → Prop where
  | done (s : Session) : Successive context s [] 0
  | start {s : Session} {acts : List Act} {n : Nat} (free : s.next = .ended)
      (later : Successive context (s.act context (.start .request)).2 acts n) :
      Successive context s (.start .request :: acts) (n + 1)
  | move {s : Session} {acts : List Act} {n : Nat} (it : Move)
      (later : Successive context (s.move context it).2 acts n) :
      Successive context s (.move it :: acts) n

theorem Successive.resumed {acts : List Act} {n : Nat} (h : Successive context s acts n) (m : Nat) :
    Successive context s (acts ++ List.replicate m (.move .resume)) n := by
  induction h with
  | done s =>
    induction m generalizing s with
    | zero => exact .done s
    | succ m ih => exact .move .resume (ih _)
  | start free later ih => exact .start free ih
  | move it later ih => exact .move it ih

structure Reads (context : Context) (s : Session) (due : Bytes) (owed : List Request)
    (rest : Bytes) : Prop where
  awaits : Awaits context s.buffer (s.pipe.unread ++ due) s.next owed rest
  spent : s.pipe.closed → due = []

theorem freeReads (reading : Reads context s due owed rest) (free : s.next = .ended) :
    owed = [] ∧ s.buffer ++ (s.pipe.unread ++ due) = rest := by
  obtain ⟨awaits, spent⟩ := reading
  rw [free] at awaits
  cases awaits with
  | idle => exact ⟨rfl, rfl⟩

theorem startReads {r : Request} (reading : Reads context s due owed (r.wire ++ rest))
    (free : s.next = .ended) (wellFormed : r.WellFormed context.limits.frame) :
    let started := s.act context (.start .request)
    ∃ owed', Reads context started.2 due owed' rest ∧
      started.1 ++ owed'.map told = [told (r.sentBy context.remote)] := by
  obtain ⟨_, stream⟩ := freeReads reading free
  have inTime := Message.inTimeWritten wellFormed rest
  have complete := Message.readWritten wellFormed context.remote rest
  rw [← stream] at inTime complete
  obtain ⟨owed, events, awaits⟩ := Conversation.requestAwaits .head inTime complete
  exact ⟨owed, ⟨awaits, reading.spent⟩, events⟩

theorem advanceReads {events : List Event} (reading : Reads context s due owed rest)
    (advanced : s.advance? context = some (events, s')) :
    ∃ owed', Reads context s' due owed' rest ∧ events ++ owed'.map told = owed.map told := by
  obtain ⟨awaits, spent⟩ := reading
  generalize pending : s.next = next at awaits
  cases awaits with
  | idle =>
    rw [advanceIdle context pending] at advanced
    cases advanced
  | busy stage request rest quiet inTime complete =>
    obtain ⟨empty, closed, _⟩ | ⟨bytes, pipe, taken, closed, _, _, went⟩ :=
      advanceRead pending advanced
    -- The stream holds the whole request, so a read of it is not given up.
    · rw [empty, spent closed, List.append_nil, List.append_nil, quiet] at complete
      cases complete
    · cases went
      rw [taken, List.append_assoc, ← List.append_assoc s.buffer] at inTime complete
      obtain ⟨owed, events, awaits⟩ := Conversation.requestAwaits stage inTime complete
      exact ⟨owed, ⟨awaits, closed ▸ spent⟩, events⟩

theorem moveReads (it : Move) (reading : Reads context s (it.arrives ++ due) owed rest)
    (orderly : it = .close → due = []) :
    let moved := s.move context it
    ∃ owed', Reads context moved.2 due owed' rest ∧ moved.1 ++ owed'.map told = owed.map told := by
  obtain ⟨awaits, spent⟩ := id reading
  cases it with
  | arrive bytes =>
    refine ⟨owed, ⟨?_, fun closed => (List.append_eq_nil_iff.mp (spent closed)).2⟩, rfl⟩
    simpa only [move, Pipe.feed, List.append_assoc, Move.arrives] using awaits
  | chunk size => exact ⟨owed, ⟨awaits, spent⟩, rfl⟩
  | close => exact ⟨owed, ⟨awaits, fun _ => orderly rfl⟩, rfl⟩
  | resume =>
    simp only [move]
    cases advanced : s.advance? context with
    | none => exact ⟨owed, reading, rfl⟩
    | some result => exact advanceReads reading advanced

theorem followReads {acts : List Act} {requests : List Request} {tail : Bytes}
    (successive : Successive context s acts requests.length)
    (reading : Reads context s (arrivals acts) owed (requests.flatMap Request.wire ++ tail))
    (wellFormed : ∀ r ∈ requests, r.WellFormed context.limits.frame) (orderly : ClosesLast acts) :
    let followed := s.follow context acts
    ∃ owed', Reads context followed.2 [] owed' tail ∧
      followed.1 ++ owed'.map told =
        owed.map told ++ requests.map fun r => told (r.sentBy context.remote) := by
  generalize many : requests.length = n at successive
  -- On the schedule; only a start takes a request off the list, and nothing is owed where it stands.
  induction successive generalizing requests owed with
  | done s =>
    obtain rfl := List.eq_nil_of_length_eq_zero many
    exact ⟨owed, reading, by simp [follow]⟩
  | @start s acts n free later ih =>
    obtain _ | ⟨r, requests⟩ := requests
    · cases many
    · rw [List.flatMap_cons, List.append_assoc] at reading
      obtain ⟨rfl, _⟩ := freeReads reading free
      obtain ⟨owed₁, reading₁, events₁⟩ :=
        startReads reading free (wellFormed r List.mem_cons_self)
      obtain ⟨owed₂, reading₂, events₂⟩ := ih reading₁
        (fun r mem => wellFormed r (List.mem_cons_of_mem _ mem)) orderly (Nat.succ.inj many)
      refine ⟨owed₂, reading₂, ?_⟩
      simp only [follow, List.append_assoc, events₂]
      rw [← List.append_assoc, events₁]
      rfl
  | @move s acts n it later ih =>
    have last : it = .close → arrivals acts = [] := by
      rintro rfl
      exact orderly
    have orderly : ClosesLast acts := closesLastTail orderly
    obtain ⟨owed₁, reading₁, events₁⟩ := moveReads it reading last
    obtain ⟨owed₂, reading₂, events₂⟩ := ih reading₁ wellFormed orderly many
    refine ⟨owed₂, reading₂, ?_⟩
    simp only [follow, act, List.append_assoc, events₂]
    rw [← List.append_assoc, events₁]

theorem quietReads (reading : Reads context s [] owed rest) (quiet : s.advance? context = none) :
    s.next = .ended := by
  obtain ⟨awaits, spent⟩ := reading
  generalize pending : s.next = next at awaits
  cases awaits with
  | idle => rfl
  | busy stage request rest short inTime complete =>
    obtain ⟨empty, still⟩ := quietRead pending quiet
    rw [empty, List.append_nil, List.append_nil, short] at complete
    cases complete

theorem finishReads {acts : List Act} {requests : List Request} {tail : Bytes}
    (successive : Successive context s acts requests.length)
    (reading : Reads context s (arrivals acts) [] (requests.flatMap Request.wire ++ tail))
    (wellFormed : ∀ r ∈ requests, r.WellFormed context.limits.frame) (orderly : ClosesLast acts) :
    let read := s.finish context acts
    read.1 = requests.map (fun r => told (r.sentBy context.remote)) ∧
      Reads context read.2 [] [] tail ∧ read.2.next = .ended := by
  obtain ⟨n, finished, quiet⟩ := finishFollows context s acts
  rw [finished] at quiet ⊢
  rw [← arrivalsResumed acts n] at reading
  obtain ⟨owed, last, events⟩ :=
    followReads (successive.resumed n) reading wellFormed (closesLastResumed orderly n)
  have ended := quietReads last quiet
  obtain ⟨rfl, _⟩ := freeReads last ended
  rw [List.map_nil, List.append_nil] at events
  exact ⟨events, last, ended⟩

def readOn (context : Context) (s : Session) : Nat → List Event × Session
  | 0 => ([], s)
  | n + 1 =>
    let (events, s) := s.finish context [.start .request]
    let (more, last) := readOn context s n
    (events ++ more, last)

theorem readOnReads {requests : List Request} {tail : Bytes}
    (reading : Reads context s [] [] (requests.flatMap Request.wire ++ tail))
    (free : s.next = .ended) (wellFormed : ∀ r ∈ requests, r.WellFormed context.limits.frame) :
    let read := s.readOn context requests.length
    read.1 = requests.map (fun r => told (r.sentBy context.remote)) ∧
      Reads context read.2 [] [] tail ∧ read.2.next = .ended := by
  induction requests generalizing s with
  | nil => exact ⟨rfl, reading, free⟩
  | cons r requests ih =>
    have one : Successive context s [.start .request] [r].length := .start free (.done _)
    have here : Reads context s (arrivals [.start .request]) []
        ([r].flatMap Request.wire ++ (requests.flatMap Request.wire ++ tail)) := by
      simpa [arrivals, Act.arrives] using reading
    have first : ∀ r' ∈ [r], r'.WellFormed context.limits.frame := by
      intro r' mem
      exact wellFormed r' (List.mem_cons.mpr (.inl (List.mem_singleton.mp mem)))
    obtain ⟨events, reading, ended⟩ := finishReads one here first trivial
    obtain ⟨more, last, ended⟩ :=
      ih reading ended fun r mem => wellFormed r (List.mem_cons_of_mem _ mem)
    refine ⟨?_, last, ended⟩
    simp only [List.length_cons, readOn, events, more]
    rfl

/-- However the bytes of well-formed requests are cut, and whenever the reads are started, one after
the other, so many of them give those requests back in their order, and leave what follows unused. -/
theorem requestsReadBack (context : Context) (requests : List Request) (tail : Bytes)
    (acts : List Act) (n : Nat) (wellFormed : ∀ r ∈ requests, r.WellFormed context.limits.frame)
    (arrived : arrivals acts = requests.flatMap Request.wire ++ tail) (orderly : ClosesLast acts)
    (successive : Successive context { pipe := {} } acts n) (few : n ≤ requests.length) :
    let read := finish context { pipe := {} } acts
    let last := read.2.readOn context (requests.length - n)
    read.1 ++ last.1 = requests.map (fun r => .requested (.ok (r.sentBy context.remote))) ∧
      last.2.next = .ended ∧ last.2.buffer ++ last.2.pipe.unread = tail := by
  have split : requests.flatMap Request.wire ++ tail = (requests.take n).flatMap Request.wire ++
      ((requests.drop n).flatMap Request.wire ++ tail) := by
    rw [← List.append_assoc, ← List.flatMap_append, List.take_append_drop]
  have started : Successive context { pipe := {} } acts (requests.take n).length := by
    rwa [List.length_take, Nat.min_eq_left few]
  have begun : Reads context { pipe := {} } (arrivals acts) []
      ((requests.take n).flatMap Request.wire ++
        ((requests.drop n).flatMap Request.wire ++ tail)) := by
    rw [arrived, split]
    exact ⟨.idle, nofun⟩
  obtain ⟨events, reading, ended⟩ :=
    finishReads started begun (fun r mem => wellFormed r (List.mem_of_mem_take mem)) orderly
  obtain ⟨more, last, ended⟩ :=
    readOnReads reading ended fun r mem => wellFormed r (List.mem_of_mem_drop mem)
  rw [List.length_drop] at more last ended
  obtain ⟨_, unused⟩ := freeReads last ended
  rw [List.append_nil] at unused
  refine ⟨?_, ended, unused⟩
  rw [events, more, ← List.map_append, List.take_append_drop]
  rfl

theorem requestsReadBackInTwoPieces :
    let context : Context := ⟨{}, .ofOctets 127 0 0 1, .echo⟩
    let first : Request := ⟨.post, "/a", "HTTP/1.1",
      [⟨"Content-Length", "2"⟩, ⟨"k:", "v\r"⟩], [104, 105], .unspecified⟩
    let second : Request := ⟨.get, "/", "", [], [], .unspecified⟩
    let stream := [first, second].flatMap Request.wire ++ [13, 10]
    let acts := [.start .request, .move (.arrive (stream.take 40)), .move .resume,
      .move (.arrive (stream.drop 40))]
    let read := finish context { pipe := {} } acts
    let last := read.2.readOn context 1
    (∀ r ∈ [first, second], r.WellFormed context.limits.frame) ∧
      Successive context { pipe := {} } acts 1 ∧
      read.1 ++ last.1 = [.requested (.ok (first.sentBy context.remote)),
        .requested (.ok (second.sentBy context.remote))] ∧
      last.2.next = .ended ∧ last.2.buffer ++ last.2.pipe.unread = [13, 10] := by
  intro context first second stream acts read last
  have plain : ∀ h ∈ first.headers, h.Plain := by
    intro h mem
    simp only [first, List.mem_cons, List.not_mem_nil, or_false] at mem
    rcases mem with rfl | rfl
    · exact ⟨by decide +kernel, by decide +kernel, by decide +kernel⟩
    · exact ⟨by decide +kernel, by decide +kernel, by decide +kernel⟩
  have wellFormed : ∀ r ∈ [first, second], r.WellFormed context.limits.frame := by
    intro r mem
    simp only [List.mem_cons, List.not_mem_nil, or_false] at mem
    rcases mem with rfl | rfl
    · exact ⟨⟨by decide +kernel, by decide +kernel, by decide +kernel, by decide +kernel,
        by decide +kernel, plain⟩, by decide +kernel, by decide +kernel, by decide +kernel⟩
    · exact ⟨⟨by decide +kernel, by decide +kernel, by decide +kernel, by decide +kernel,
        by decide +kernel, nofun⟩, by decide +kernel, by decide +kernel, by decide +kernel⟩
  have arrived : arrivals acts = stream := by
    simp [acts, arrivals, Act.arrives, Move.arrives]
  have successive : Successive context { pipe := {} } acts 1 :=
    .start rfl (.move _ (.move _ (.move _ (.done _))))
  exact ⟨wellFormed, successive, requestsReadBack context [first, second] [13, 10] acts 1 wellFormed
    arrived trivial successive (by decide)⟩

end Session

end FileServer
