import FileServer.Proofs.Conversation.Breaks

/-! Serving refines decoding. However a stream is cut into reads, and whenever the pending operation
is attempted, a session that serves comes to what one pass tells that is given the whole stream and the
places where reads break off; and where all heads fit, these places do not matter. What a pending
operation waits for marks a place in the stream, and `Outlook` is what the pass says of the stream from
there on. The breaks of a whole schedule lie at or before the bytes that a step has just taken, or at or
behind them, so none inside. -/
namespace FileServer

def Next.ending : Next → Ending
  | .ended => .stopped
  | .waits _ => .waiting
  | .aborted fault => .aborted fault

/-- What the rest of a conversation comes to where `buffer` has been received and `ahead` has not.
Behind a request that has been read, no break lies between the bytes in the buffer. -/
inductive Outlook (context : Context) (breaks : List Nat) (buffer ahead : Bytes) :
    Next → Transcript → Prop where
  | ended : Outlook context breaks buffer ahead .ended ⟨[], [], .stopped⟩
  | aborted (fault : Abort) :
      Outlook context breaks buffer ahead (.aborted fault) ⟨[], [], .aborted fault⟩
  | parting (payload : Bytes) :
      Outlook context breaks buffer ahead (.waits (.write payload .last)) ⟨[], payload, .stopped⟩
  | answering (payload : Bytes)
      (gap : ∀ left ∈ breaks, left ≤ ahead.length ∨ (buffer ++ ahead).length ≤ left) :
      Outlook context breaks buffer ahead (.waits (.write payload .serving))
        ((decodeAt context breaks (buffer ++ ahead)).after [] payload)
  | reading (stage : Stage) (awaits : stage.Awaits context.limits.frame buffer) :
      Outlook context breaks buffer ahead (.waits (.read (.serving stage)))
        ((stage.messageAt context.limits.frame context.remote breaks (buffer ++ ahead)).transcript
          context (decodeAt context breaks))

namespace Conversation

variable {context : Context} {breaks : List Nat} {buffer ahead : Bytes}

theorem answerOutlook (request : Request) (rest : Bytes) (addressed : request.isAddressed)
    (gap : ∀ left ∈ breaks, left ≤ ahead.length ∨ (rest ++ ahead).length ≤ left) :
    ∃ t, Outlook context breaks rest ahead (answer context request).2 t ∧
      exchange context request (decodeAt context breaks (rest ++ ahead)) =
        t.after (answer context request).1 [] := by
  simp only [exchange, if_pos addressed, answer]
  cases (context.service request).value with
  | error fault =>
    exact ⟨_, .aborted (.date fault), by simp only [Transcript.after, List.append_nil]⟩
  | ok response =>
    by_cases alive : request.keepsAlive
    · refine ⟨_, by simpa only [if_pos alive] using .answering response.wire gap, ?_⟩
      simp only [if_pos alive, Transcript.afterAfter, List.append_nil, List.nil_append]
    · refine ⟨_, by simpa only [if_neg alive] using .parting response.wire, ?_⟩
      simp only [if_neg alive, Transcript.after, List.append_nil, List.nil_append]

theorem serveOutlook (stage : Stage)
    (gap : ∀ left ∈ breaks,
      left ≤ ahead.length ∨ (buffer ++ ahead).length ≤ left + context.limits.frame)
    (marked : ahead.length ∈ breaks)
    (fresh : ∀ request rest,
      stage.message context.limits.frame context.remote (buffer ++ ahead) = .complete request rest →
        ∀ left ∈ breaks, left ≤ ahead.length ∨ rest.length ≤ left) :
    let outcome := serve context stage buffer
    ∃ t, Outlook context breaks outcome.buffer ahead outcome.next t ∧
      (stage.messageAt context.limits.frame context.remote breaks (buffer ++ ahead)).transcript
        context (decodeAt context breaks) = t.after outcome.events [] := by
  have foretold : ForetoldAt context.limits.frame context.remote breaks ahead _ _ :=
    Stage.scanForetoldAt stage gap marked
  have fresh : ∀ request rest, stage.messageAt context.limits.frame context.remote breaks
      (buffer ++ ahead) = .complete request rest →
        ∀ left ∈ breaks, left ≤ ahead.length ∨ rest.length ≤ left :=
    fun request rest complete => fresh request rest (Stage.messageAtComplete complete)
  unfold serve
  generalize stage.messageAt context.limits.frame context.remote breaks (buffer ++ ahead) = whole
    at foretold fresh
  cases scanned : stage.scan context.limits.frame context.remote buffer with
  | more stage' buffer' =>
    rw [scanned] at foretold
    cases foretold
    exact ⟨_, .reading stage' (Stage.scanAwaits scanned), rfl⟩
  | done result rest =>
    rw [scanned] at foretold
    cases foretold with
    | refused fault => exact ⟨_, .parting _, rfl⟩
    | complete request =>
      by_cases addressed : request.isAddressed
      · simp only [if_pos addressed]
        exact answerOutlook request rest addressed (fresh request (rest ++ ahead) rfl)
      · simp only [if_neg addressed, Message.transcript, exchange]
        exact ⟨_, .parting _, rfl⟩

end Conversation

namespace Session

variable {context : Context} {breaks : List Nat} {s s' : Session} {due : Bytes} {t : Transcript}
  {closed : Bool} {pipe : Pipe}

structure Serves (context : Context) (breaks : List Nat) (s : Session) (due : Bytes)
    (t : Transcript) : Prop where
  outlook : Outlook context breaks s.buffer (s.pipe.unread ++ due) s.next t
  unbounded : s.pipe.writesLeft = none
  spent : s.pipe.closed → due = []
  marked : (s.pipe.unread ++ due).length ∈ breaks

def Continues (context : Context) (breaks : List Nat) (closed : Bool) (s : Session) (due : Bytes)
    (t : Transcript) (stepped : List Event × Session) : Prop :=
  ∃ t' written, Serves context breaks stepped.2 due t' ∧
    stepped.2.pipe.written = s.pipe.written ++ written ∧
    t.settled closed = (t'.after stepped.1 written).settled closed

theorem stillContinues (serving : Serves context breaks s' due t)
    (written : s'.pipe.written = s.pipe.written) :
    Continues context breaks closed s due t ([], s') :=
  ⟨t, [], serving, by rw [written, List.append_nil], rfl⟩

theorem sentServes (free : pipe.writesLeft = none) (spent : pipe.closed → due = [])
    (marked : (pipe.unread ++ due).length ∈ breaks)
    (behind : ∀ left ∈ breaks, left ≤ (pipe.unread ++ due).length ∨
      (s.buffer ++ (pipe.unread ++ due)).length ≤ left) :
    let stepped := s.goOn pipe (Conversation.sent context s.buffer .serving)
    ∃ t', Serves context breaks stepped.2 due t' ∧
      decodeAt context breaks (s.buffer ++ (pipe.unread ++ due)) = t'.after stepped.1 [] := by
  have gap : ∀ left ∈ breaks, left ≤ (pipe.unread ++ due).length ∨
      (s.buffer ++ (pipe.unread ++ due)).length ≤ left + context.limits.frame := by
    intro left mem
    exact (behind left mem).imp_right (Nat.le_trans · (Nat.le_add_right ..))
  have fresh : ∀ request rest, Stage.head.message context.limits.frame context.remote
      (s.buffer ++ (pipe.unread ++ due)) = .complete request rest →
        ∀ left ∈ breaks, left ≤ (pipe.unread ++ due).length ∨ rest.length ≤ left := by
    intro request rest complete left mem
    have shorter := Message.readShorter complete
    exact (behind left mem).imp_right (Nat.le_trans (Nat.le_of_lt shorter))
  obtain ⟨t', outlook, same⟩ := Conversation.serveOutlook .head gap marked fresh
  exact ⟨t', ⟨outlook, free, spent, marked⟩, (decodeAtTranscript ..).trans same⟩

theorem receivedServes {stage : Stage} {bytes : Bytes} (free : pipe.writesLeft = none)
    (spent : pipe.closed → due = []) (marked : (pipe.unread ++ due).length ∈ breaks)
    (awaits : stage.Awaits context.limits.frame s.buffer)
    (gap : ∀ left ∈ breaks, (bytes ++ (pipe.unread ++ due)).length ≤ left ∨
      left ≤ (pipe.unread ++ due).length) :
    let stepped := s.goOn pipe (Conversation.received context s.buffer bytes (.serving stage))
    ∃ t', Serves context breaks stepped.2 due t' ∧
      (stage.messageAt context.limits.frame context.remote breaks
        (s.buffer ++ (bytes ++ (pipe.unread ++ due)))).transcript context
          (decodeAt context breaks) = t'.after stepped.1 [] := by
  have short := Stage.awaitsShort awaits
  -- An earlier break lies before the bytes just read, at most what was in the buffer before them.
  have near : ∀ left ∈ breaks, left ≤ (pipe.unread ++ due).length ∨
      (s.buffer ++ bytes ++ (pipe.unread ++ due)).length ≤ left + context.limits.frame := by
    intro left mem
    refine (gap left mem).symm.imp_right fun before => ?_
    rw [List.length_append] at before
    rw [List.length_append, List.length_append]
    omega
  have fresh : ∀ request rest, stage.message context.limits.frame context.remote
      (s.buffer ++ bytes ++ (pipe.unread ++ due)) = .complete request rest →
        ∀ left ∈ breaks, left ≤ (pipe.unread ++ due).length ∨ rest.length ≤ left := by
    intro request rest complete left mem
    rw [List.append_assoc] at complete
    have new := Stage.awaitsLeavesNew awaits complete
    exact (gap left mem).symm.imp_right (Nat.le_trans new)
  obtain ⟨t', outlook, same⟩ := Conversation.serveOutlook stage near marked fresh
  rw [List.append_assoc] at same
  exact ⟨t', ⟨outlook, free, spent, marked⟩, same⟩

theorem advanceServes {events : List Event} (serving : Serves context breaks s due t)
    (advanced : s.advance? context = some (events, s'))
    (gap : ∀ left ∈ breaks,
      (s.pipe.unread ++ due).length ≤ left ∨ left ≤ (s'.pipe.unread ++ due).length)
    (marked : (s'.pipe.unread ++ due).length ∈ breaks)
    (settles : s.pipe.closed → closed = true) :
    Continues context breaks closed s due t (events, s') := by
  obtain ⟨outlook, unbounded, spent, _⟩ := serving
  generalize pending : s.next = next at outlook
  cases outlook with
  | ended =>
    rw [advanceIdle context pending] at advanced
    cases advanced
  | aborted fault =>
    rw [advanceAborted context pending] at advanced
    cases advanced
  | parting payload =>
    obtain ⟨pipe, wrote, unread, same, left, written⟩ := advanceWrite context pending unbounded
    cases advanced.symm.trans wrote
    refine ⟨_, payload, ⟨.ended, left, same ▸ spent, marked⟩, written, ?_⟩
    simp only [Conversation.sent, Transcript.after, List.append_nil]
  | answering payload behind =>
    obtain ⟨pipe, wrote, unread, same, left, written⟩ := advanceWrite context pending unbounded
    cases advanced.symm.trans wrote
    rw [← unread] at behind ⊢
    obtain ⟨t', serves, told⟩ := sentServes left (same ▸ spent) marked behind
    refine ⟨t', payload, serves, written, ?_⟩
    rw [told, Transcript.afterAfter, List.nil_append, List.append_nil]
    rfl
  | reading stage awaits =>
    obtain ⟨empty, gone, rfl, rfl⟩ | ⟨bytes, pipe, taken, same, left, written, went⟩ :=
      advanceRead pending advanced
    -- Nothing is due from a peer who has closed: the pass waited here too, until it was settled.
    · refine ⟨_, [], ⟨.ended, unbounded, spent, marked⟩, (List.append_nil _).symm, ?_⟩
      simp only [empty, spent gone, List.append_nil, Stage.awaitsQuiet awaits, settles gone]
      rfl
    · cases went
      rw [taken, List.append_assoc] at gap ⊢
      obtain ⟨t', serves, told⟩ :=
        receivedServes (left.trans unbounded) (same ▸ spent) marked awaits gap
      refine ⟨t', [], serves, written.trans (List.append_nil _).symm, ?_⟩
      rw [told]
      rfl

theorem moveServes (it : Move) (serving : Serves context breaks s (it.arrives ++ due) t)
    (orderly : it = .close → due = [])
    (gap : ∀ left ∈ breaks, (s.pipe.unread ++ (it.arrives ++ due)).length ≤ left ∨
      left ≤ ((s.move context it).2.pipe.unread ++ due).length)
    (marked : ((s.move context it).2.pipe.unread ++ due).length ∈ breaks)
    (settles : (s.move context it).2.pipe.closed → closed = true) :
    Continues context breaks closed s due t (s.move context it) := by
  obtain ⟨outlook, unbounded, spent, _⟩ := id serving
  cases it with
  | arrive bytes =>
    refine stillContinues ⟨?_, unbounded, fun closed => ?_, marked⟩ rfl
    · simpa only [move, Pipe.feed, List.append_assoc, Move.arrives] using outlook
    · exact (List.append_eq_nil_iff.mp (spent closed)).2
  | chunk size => exact stillContinues ⟨outlook, unbounded, spent, marked⟩ rfl
  | close => exact stillContinues ⟨outlook, unbounded, fun _ => orderly rfl, marked⟩ rfl
  | resume =>
    simp only [move] at gap marked settles ⊢
    cases advanced : s.advance? context with
    | none => exact stillContinues serving rfl
    | some stepped =>
      rw [advanced] at gap marked settles
      refine advanceServes serving advanced gap marked fun before => settles ?_
      exact (advancePipe advanced).2.trans before

theorem followServes (moves : List Move) (past : List Nat)
    (serving : Serves context (past ++ s.remains context (moves.map .move)) s
      (arrivals (moves.map .move)) t)
    (behind : ∀ left ∈ past, (s.due (moves.map .move)).length ≤ left)
    (orderly : ClosesLast (moves.map .move))
    (settles : (s.follow context (moves.map .move)).2.pipe.closed → closed = true) :
    Continues context (past ++ s.remains context (moves.map .move)) closed s [] t
      (s.follow context (moves.map .move)) := by
  induction moves generalizing s t past with
  | nil => exact stillContinues serving rfl
  | cons it rest ih =>
    have last : it = .close → arrivals (rest.map .move) = [] := by
      rintro rfl
      exact orderly
    have orderly : ClosesLast (rest.map .move) := closesLastTail orderly
    have taken := actTakes context s (.move it) (rest.map .move)
    rw [List.map_cons, remains] at serving ⊢
    have gap : ∀ left ∈ past ++ ((s.move context it).2.due (rest.map .move)).length ::
        (s.move context it).2.remains context (rest.map .move),
        (s.due (.move it :: rest.map .move)).length ≤ left ∨
          left ≤ ((s.move context it).2.due (rest.map .move)).length := by
      intro left mem
      rcases List.mem_append.mp mem with before | after
      · exact .inl (behind left before)
      · rcases List.mem_cons.mp after with rfl | later
        · exact .inr (Nat.le_refl _)
        · exact .inr (remainsWithin left later)
    have first : (s.move context it).2.pipe.closed → closed = true := fun gone => settles <| by
      rw [List.map_cons]
      simp only [follow, act, followCloses, gone, Bool.true_or]
    obtain ⟨t₁, written₁, serves₁, grown₁, same₁⟩ :=
      moveServes it serving last gap (List.mem_append_right _ List.mem_cons_self) first
    have behind : ∀ left ∈ past ++ [((s.move context it).2.due (rest.map .move)).length],
        ((s.move context it).2.due (rest.map .move)).length ≤ left := by
      intro left mem
      rcases List.mem_append.mp mem with before | same
      · exact Nat.le_trans taken (behind left before)
      · exact Nat.le_of_eq (List.mem_singleton.mp same).symm
    rw [List.append_cons] at serves₁
    obtain ⟨t₂, written₂, serves₂, grown₂, same₂⟩ := ih _ serves₁ behind orderly settles
    rw [← List.append_cons] at serves₂
    refine ⟨t₂, written₁ ++ written₂, serves₂, grown₂.trans ?_, ?_⟩
    · rw [← List.append_assoc]
      exact congrArg (· ++ written₂) grown₁
    · rw [same₁, Transcript.settledAfter, same₂, ← Transcript.settledAfter, Transcript.afterAfter]
      rfl

theorem quietServes (serving : Serves context breaks s [] t) (quiet : s.advance? context = none) :
    t = ⟨[], [], s.next.ending⟩ ∧ (s.next.ending = .waiting → s.pipe.closed = false) := by
  obtain ⟨outlook, unbounded, spent, _⟩ := serving
  generalize pending : s.next = next at outlook
  cases outlook with
  | ended => exact ⟨rfl, nofun⟩
  | aborted fault => exact ⟨rfl, nofun⟩
  | parting payload =>
    obtain ⟨pipe, wrote, _⟩ := advanceWrite context pending unbounded
    cases quiet.symm.trans wrote
  | answering payload gap =>
    obtain ⟨pipe, wrote, _⟩ := advanceWrite context pending unbounded
    cases quiet.symm.trans wrote
  | reading stage awaits =>
    obtain ⟨empty, still⟩ := quietRead pending quiet
    refine ⟨?_, fun _ => still⟩
    simp only [empty, List.append_nil, Stage.awaitsQuiet awaits]
    rfl

def serving (moves : List Move) : List Act := .start .serve :: moves.map .move

theorem servedQuiet (moves : List Move) (orderly : ClosesLast (serving moves))
    (quiet : advance? context (follow context { pipe := {} } (serving moves)).2 = none) :
    let served := follow context { pipe := {} } (serving moves)
    (decodeAt context (remains context { pipe := {} } (serving moves))
      (arrivals (serving moves))).settled (closes (serving moves)) =
        ⟨served.1, served.2.pipe.written, served.2.next.ending⟩ := by
  let begun : Session := ⟨{}, [], .waits (.read (.serving .head))⟩
  have started : Serves context (remains context { pipe := {} } (serving moves)) begun
      (arrivals (moves.map .move)) (decodeAt context
        (remains context { pipe := {} } (serving moves)) (arrivals (moves.map .move))) := by
    rw [decodeAtTranscript]
    exact ⟨.reading .head ⟨rfl, Nat.zero_le _⟩, rfl, (nomatch ·), List.mem_cons_self⟩
  have behind : ∀ left ∈ [(begun.due (moves.map .move)).length],
      (begun.due (moves.map .move)).length ≤ left := by
    intro left mem
    exact Nat.le_of_eq (List.mem_singleton.mp mem).symm
  have closing : (begun.follow context (moves.map .move)).2.pipe.closed =
      closes (serving moves) := followCloses context { pipe := {} } (serving moves)
  obtain ⟨t, written, serves, grown, same⟩ :=
    followServes moves _ started behind orderly closing.symm.trans
  obtain ⟨rfl, still⟩ := quietServes serves quiet
  refine same.trans ?_
  rw [Transcript.settledStill fun wait => closing.symm.trans (still wait)]
  simp only [Transcript.after, List.append_nil]
  exact congrArg (Transcript.mk _ · _) grown.symm

def servedBreaks (context : Context) (moves : List Move) : List Nat :=
  remains context { pipe := {} } (through context { pipe := {} } (serving moves))

/-- However the stream is cut, and whatever the lengths of its heads, a session that serves calls,
writes and ends as one pass tells that knows where its reads broke off. -/
theorem servedTells (context : Context) (moves : List Move) (orderly : ClosesLast (serving moves)) :
    let served := finish context { pipe := {} } (serving moves)
    (decodeAt context (servedBreaks context moves) (arrivals (serving moves))).settled
      (closes (serving moves)) = ⟨served.1, served.2.pipe.written, served.2.next.ending⟩ := by
  obtain ⟨followed, quiet⟩ := finishThrough context { pipe := {} } (serving moves)
  generalize tries : (follow context { pipe := {} } (serving moves)).2.weight = n
  have whole : through context { pipe := {} } (serving moves) =
      serving (moves ++ List.replicate n .resume) := by
    rw [through, tries]
    simp only [serving, List.map_append, List.map_replicate, List.cons_append]
  have arrived : arrivals (serving (moves ++ List.replicate n .resume)) =
      arrivals (serving moves) := by
    rw [← whole]
    exact arrivalsResumed ..
  have closing : closes (serving (moves ++ List.replicate n .resume)) = closes (serving moves) := by
    rw [← whole]
    exact closesResumed ..
  have orderly : ClosesLast (serving (moves ++ List.replicate n .resume)) := by
    rw [← whole]
    exact closesLastResumed orderly _
  rw [followed, whole] at quiet
  have told := servedQuiet _ orderly quiet
  rwa [arrived, closing, ← whole, ← followed] at told

/-- However the stream is cut, and whenever the pending operation is attempted, a session that
serves calls, writes and ends as one pass spent the whole stream tells. -/
theorem serveRefinesDecode (context : Context) (moves : List Move)
    (fits : HeadsFit context (arrivals (moves.map .move)))
    (orderly : ClosesLast (moves.map .move)) :
    let served := finish context { pipe := {} } (.start .serve :: moves.map .move)
    let told := (decode context (arrivals (moves.map .move))).settled (closes (moves.map .move))
    served.1 = told.events ∧ served.2.pipe.written = told.written ∧
      served.2.next.ending = told.ending := by
  have told := servedTells context moves orderly
  have same : decodeAt context (servedBreaks context moves) (arrivals (serving moves)) =
      decode context (arrivals (moves.map .move)) := decodeAtFitting fits
  have closing : closes (serving moves) = closes (moves.map .move) := closesCons _ _
  rw [same, closing] at told
  simp only [told]
  exact ⟨rfl, rfl, rfl⟩

theorem serveRefinesDecodeInTwoReads :
    let context : Context := ⟨{}, .ofOctets 127 0 0 1, .echo⟩
    let moves := [.arrive (Bytes.ofText "GET / HTTP/1.1\r\nHo"), .resume,
      .arrive (Bytes.ofText "st: a\r\n\r\nGET /")]
    let served := finish context { pipe := {} } (.start .serve :: moves.map .move)
    HeadsFit context (arrivals (moves.map .move)) ∧ ClosesLast (moves.map .move) ∧
      served.1 = [.called ⟨.get, "/", "HTTP/1.1", [⟨"Host", "a"⟩], [], context.remote⟩] ∧
      served.2.next.ending = .waiting := by
  intro context moves served
  have cut : Sequence.cut? Bytes.blankLine (arrivals (moves.map .move)) =
      some (Bytes.ofText "GET / HTTP/1.1\r\nHost: a", Bytes.ofText "GET /") := rfl
  have first : Message.read context.limits.frame context.remote (arrivals (moves.map .move)) =
      .complete ⟨.get, "/", "HTTP/1.1", [⟨"Host", "a"⟩], [], context.remote⟩
        (Bytes.ofText "GET /") := by decide +kernel
  have second : Message.read context.limits.frame context.remote (Bytes.ofText "GET /") =
      .incomplete := by decide +kernel
  have fits : HeadsFit context (arrivals (moves.map .move)) := by
    refine .intro ?_ ?_
    · intro head rest found
      cases cut.symm.trans found
      decide +kernel
    · intro request rest complete _
      cases first.symm.trans complete
      exact headsFitAbsent rfl
  obtain ⟨called, _, ending⟩ := serveRefinesDecode context moves fits trivial
  rw [decodeTranscript, first, Message.transcript, decodeTranscript, second] at called ending
  exact ⟨fits, trivial, called, ending⟩

end Session

end FileServer
