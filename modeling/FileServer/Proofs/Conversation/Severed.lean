import FileServer.Proofs.Conversation.Replies
import FileServer.Proofs.Conversation.Serving

/-! A connection whose writes fail from some point on. Up to the first failure it goes as the one does
whose writes all succeed, and behind it nothing is read, called or written any more. So its output is
a beginning of the replies of the other one, cut between two of them. -/
namespace FileServer

def Pipe.upTo (p : Pipe) (most : Nat) : Pipe := { p with writesLeft := some (most - p.writes) }

def Session.upTo (s : Session) (most : Nat) : Session := { s with pipe := s.pipe.upTo most }

inductive Reply.Due (context : Context) : Reply → Prop where
  | refusal : Due context .refusal
  | answer {request : Request} {response : Response} (addressed : request.isAddressed)
      (answered : (context.service request).value = .ok response) :
      Due context ⟨some request, response.wire⟩

def Reply.shown (context : Context) (reply : Reply) : List Event :=
  match reply.request? with
  | none => []
  | some request => .called request :: (context.service request).trace.map .asked

def shown (context : Context) (replies : List Reply) : List Event :=
  replies.flatMap (Reply.shown context)

theorem shownMore (context : Context) (replies : List Reply) (reply : Reply) :
    shown context (replies ++ [reply]) = shown context replies ++ reply.shown context := by
  simp only [shown, List.flatMap_append, List.flatMap_cons, List.flatMap_nil, List.append_nil]

inductive Outgoing (context : Context) (done : List Reply) : Next → List Event → Prop where
  | reading (stage : Stage) :
      Outgoing context done (.waits (.read (.serving stage))) (shown context done)
  | answering {reply : Reply} (due : reply.Due context) :
      Outgoing context done (.waits (.write reply.payload .serving))
        (shown context (done ++ [reply]))
  | parting {reply : Reply} (due : reply.Due context) :
      Outgoing context done (.waits (.write reply.payload .last)) (shown context (done ++ [reply]))
  | ended : Outgoing context done .ended (shown context done)
  | aborted {request : Request} {fault : DateFault}
      (failed : (context.service request).value = .error fault) :
      Outgoing context done (.aborted (.date fault)) (shown context (done ++ [⟨some request, []⟩]))

theorem Outgoing.open {context : Context} {done : List Reply} {next : Next} {events : List Event}
    (outgoing : Outgoing context done next events) :
    ∃ underway : Option Reply, events = shown context (done ++ underway.toList) := by
  cases outgoing with
  | reading stage => exact ⟨none, by rw [Option.toList_none, List.append_nil]⟩
  | answering due => exact ⟨some _, rfl⟩
  | parting due => exact ⟨some _, rfl⟩
  | ended => exact ⟨none, by rw [Option.toList_none, List.append_nil]⟩
  | aborted failed => exact ⟨some _, rfl⟩

namespace Conversation

theorem answerOutgoing (context : Context) (done : List Reply) {request : Request}
    (addressed : request.isAddressed) :
    Outgoing context done (answer context request).2
      (shown context done ++ (answer context request).1) := by
  have told (payload : Bytes) : shown context (done ++ [⟨some request, payload⟩]) =
      shown context done ++ (.called request :: (context.service request).trace.map .asked) :=
    shownMore context done ⟨some request, payload⟩
  simp only [answer]
  cases answered : (context.service request).value with
  | error fault =>
    rw [← told []]
    exact .aborted answered
  | ok response =>
    rw [← told response.wire]
    by_cases alive : request.keepsAlive
    · simp only [if_pos alive]
      exact .answering (.answer addressed answered)
    · simp only [if_neg alive]
      exact .parting (.answer addressed answered)

theorem serveOutgoing (context : Context) (done : List Reply) (stage : Stage) (buffer : Bytes) :
    let outcome := serve context stage buffer
    Outgoing context done outcome.next (shown context done ++ outcome.events) := by
  intro outcome
  have refused : Outgoing context done (.waits refusal) (shown context done ++ []) :=
    shownMore context done .refusal ▸ .parting .refusal
  unfold outcome serve
  split
  · simp only [List.append_nil]
    exact .reading _
  · exact refused
  · next request rest _ =>
    split
    · next addressed => exact answerOutgoing context done addressed
    · exact refused

end Conversation

namespace Pipe

variable {p q : Pipe} {most : Nat}

theorem writeFree (free : p.writesLeft = none) (payload : Bytes) : p.write? payload =
    some { p with writes := p.writes + 1, written := p.written ++ payload } := by
  simp only [write?, free, reduceCtorEq, if_false, Option.map_none]

theorem writeWithin (within : p.writes < most) (payload : Bytes) : (p.upTo most).write? payload =
    some (Pipe.upTo { p with writes := p.writes + 1, written := p.written ++ payload } most) := by
  have more : ¬ most - p.writes = 0 := by omega
  have less : most - p.writes - 1 = most - (p.writes + 1) := by omega
  simp only [write?, upTo, Option.some.injEq, more, if_false, Option.map_some, less]

theorem writeBeyond (p : Pipe) (payload : Bytes) : (p.upTo p.writes).write? payload = none := by
  simp only [write?, upTo, Nat.sub_self, if_true]

theorem readUpTo (p : Pipe) (most : Nat) : (p.upTo most).read =
    match p.read with
    | .waits => .waits
    | .ended => .ended
    | .chunk bytes q => .chunk bytes (q.upTo most) := by
  unfold read
  by_cases empty : p.unread = []
  · rw [if_pos empty, if_pos (show (p.upTo most).unread = [] from empty)]
    cases closed : p.closed <;> simp only [upTo, closed, if_true, Bool.false_eq_true, if_false]
  · rw [if_neg empty, if_neg (show ¬ (p.upTo most).unread = [] from empty)]
    rfl

theorem readKeeps {bytes : Bytes} (took : p.read = .chunk bytes q) :
    q.writes = p.writes ∧ q.written = p.written ∧ q.writesLeft = p.writesLeft := by
  unfold read at took
  split at took
  · split at took <;> cases took
  · cases took
    exact ⟨rfl, rfl, rfl⟩

end Pipe

namespace Session

variable {context : Context} {s : Session} {most : Nat}

/-! One attempt. It makes no write, or one, where that is what is pending. -/

theorem advanceRemains {s' : Session} {events : List Event} (free : s.pipe.writesLeft = none)
    (advanced : s.advance? context = some (events, s')) : s'.pipe.writesLeft = none ∧
      (s'.pipe.writes = s.pipe.writes ∨ s'.pipe.writes = s.pipe.writes + 1 ∧
        ∃ payload writing, s.next = .waits (.write payload writing)) := by
  unfold advance? at advanced
  split at advanced
  · cases advanced
  · cases advanced
  · split at advanced
    · cases advanced
    · cases advanced
      exact ⟨free, .inl rfl⟩
    · next took =>
      cases advanced
      obtain ⟨writes, _, left⟩ := Pipe.readKeeps took
      exact ⟨left.trans free, .inl writes⟩
  · next payload writing pending =>
    rw [Pipe.writeFree free] at advanced
    cases advanced
    exact ⟨free, .inr ⟨rfl, payload, writing, pending⟩⟩

theorem advanceUpTo (free : s.pipe.writesLeft = none)
    (within : ∀ payload writing, s.next = .waits (.write payload writing) → s.pipe.writes < most) :
    (s.upTo most).advance? context =
      (s.advance? context).map fun told => (told.1, told.2.upTo most) := by
  unfold advance? upTo
  match pending : s.next with
  | .ended => rfl
  | .aborted fault => rfl
  | .waits (.read reading) =>
    simp only [Pipe.readUpTo]
    cases s.pipe.read <;> rfl
  | .waits (.write payload writing) =>
    simp only [Pipe.writeFree free, Pipe.writeWithin (within payload writing pending)]
    rfl

theorem advanceSevered {payload : Bytes} {writing : Writing}
    (pending : s.next = .waits (.write payload writing)) :
    (s.upTo s.pipe.writes).advance? context =
      some ([], { s.upTo s.pipe.writes with next := .ended }) := by
  simp only [advance?, upTo, pending, Pipe.writeBeyond]

theorem actRemains (context : Context) (free : s.pipe.writesLeft = none) (act : Act) :
    (s.act context act).2.pipe.writesLeft = none ∧
      ((s.act context act).2.pipe.writes = s.pipe.writes ∨
        (s.act context act).2.pipe.writes = s.pipe.writes + 1 ∧ act = .move .resume ∧
          ∃ payload writing, s.next = .waits (.write payload writing)) := by
  match act with
  | .start _ | .move (.arrive _) | .move (.chunk _) | .move .close => exact ⟨free, .inl rfl⟩
  | .move .resume =>
    simp only [Session.act, move]
    cases advanced : s.advance? context with
    | none => exact ⟨free, .inl rfl⟩
    | some told =>
      obtain ⟨still, same | ⟨more, pending⟩⟩ := advanceRemains free advanced
      · exact ⟨still, .inl same⟩
      · exact ⟨still, .inr ⟨more, trivial, pending⟩⟩

theorem actUpTo (context : Context) (free : s.pipe.writesLeft = none) {act : Act}
    (within : (s.act context act).2.pipe.writes ≤ most) : (s.upTo most).act context act =
      ((s.act context act).1, (s.act context act).2.upTo most) := by
  match act with
  | .start _ | .move (.arrive _) | .move (.chunk _) | .move .close => rfl
  | .move .resume =>
    have room (payload : Bytes) (writing : Writing)
        (pending : s.next = .waits (.write payload writing)) : s.pipe.writes < most := by
      obtain ⟨pipe, advanced, _⟩ := advanceWrite context pending free
      simp only [Session.act, move, advance?, pending, Pipe.writeFree free, Option.getD_some,
        goOn] at within
      exact within
    simp only [Session.act, move, advanceUpTo free room]
    cases s.advance? context <;> rfl

/-! A whole schedule. -/

theorem followRemains (context : Context) (free : s.pipe.writesLeft = none) (acts : List Act) :
    (follow context s acts).2.pipe.writesLeft = none ∧
      s.pipe.writes ≤ (follow context s acts).2.pipe.writes := by
  induction acts generalizing s with
  | nil => exact ⟨free, Nat.le_refl _⟩
  | cons act rest ih =>
    obtain ⟨still, step⟩ := actRemains context free act
    obtain ⟨last, more⟩ := ih still
    refine ⟨last, Nat.le_trans ?_ more⟩
    omega

theorem followUpTo (context : Context) (free : s.pipe.writesLeft = none) {acts : List Act}
    (within : (follow context s acts).2.pipe.writes ≤ most) : follow context (s.upTo most) acts =
      ((follow context s acts).1, (follow context s acts).2.upTo most) := by
  induction acts generalizing s with
  | nil => rfl
  | cons act rest ih =>
    obtain ⟨still, _⟩ := actRemains context free act
    obtain ⟨_, more⟩ := followRemains context still rest
    simp only [follow, actUpTo context free (Nat.le_trans more within), ih still within]

-- The attempt at which the count passes the limit is the only one of its kind.
theorem followSevered (context : Context) (free : s.pipe.writesLeft = none) {moves : List Move}
    (here : s.pipe.writes ≤ most)
    (beyond : most < (follow context s (moves.map .move)).2.pipe.writes) :
    ∃ before after, moves = before ++ .resume :: after ∧
      (follow context s (before.map .move)).2.pipe.writes = most ∧
      ∃ payload writing,
        (follow context s (before.map .move)).2.next = .waits (.write payload writing) := by
  induction moves generalizing s with
  | nil => exact absurd here (Nat.not_le_of_lt beyond)
  | cons it rest ih =>
    obtain ⟨still, step⟩ := actRemains context free (.move it)
    by_cases within : (s.act context (.move it)).2.pipe.writes ≤ most
    · obtain ⟨before, after, rfl, there⟩ := ih still within beyond
      exact ⟨it :: before, after, rfl, there⟩
    · obtain same | ⟨more, resumed, pending⟩ := step
      · omega
      · cases resumed
        exact ⟨[], rest, rfl, (by simp only [List.map_nil, follow]; omega), pending⟩

structure Over (first last : List Event × Session) : Prop where
  events : last.1 = first.1
  next : last.2.next = .ended
  buffer : last.2.buffer = first.2.buffer
  reads : last.2.pipe.reads = first.2.pipe.reads
  writes : last.2.pipe.writes = first.2.pipe.writes
  written : last.2.pipe.written = first.2.pipe.written

theorem Over.trans {first next last : List Event × Session} (sooner : Over first next)
    (later : Over next last) : Over first last where
  events := later.events.trans sooner.events
  next := later.next
  buffer := later.buffer.trans sooner.buffer
  reads := later.reads.trans sooner.reads
  writes := later.writes.trans sooner.writes
  written := later.written.trans sooner.written

theorem followOver (context : Context) (idle : s.next = .ended) (events : List Event)
    (moves : List Move) :
    let last := follow context s (moves.map .move)
    Over (events, s) (events ++ last.1, last.2) := by
  induction moves generalizing s events with
  | nil => exact ⟨List.append_nil _, idle, rfl, rfl, rfl, rfl⟩
  | cons it rest ih =>
    have here : Over (events, s) (events ++ (s.move context it).1, (s.move context it).2) := by
      match it with
      | .arrive _ | .chunk _ | .close => exact ⟨List.append_nil _, idle, rfl, rfl, rfl, rfl⟩
      | .resume =>
        simp only [move, advanceIdle context idle, Option.getD_none, List.append_nil]
        exact ⟨rfl, idle, rfl, rfl, rfl, rfl⟩
    have later := here.trans (ih here.next _)
    simp only [List.append_assoc] at later
    exact later

/-! What is known of a connection whose writes all succeed, when `done` has been written. -/

structure Accounts (context : Context) (done : List Reply) (events : List Event) (s : Session) :
    Prop where
  due : ∀ reply ∈ done, reply.Due context
  written : s.pipe.written = done.flatMap Reply.payload
  writes : s.pipe.writes = done.length
  free : s.pipe.writesLeft = none
  outgoing : Outgoing context done s.next events

variable {done : List Reply} {events : List Event}

theorem startAccounts (context : Context) :
    let begun := act context { pipe := {} } (.start .serve)
    Accounts context [] begun.1 begun.2 :=
  ⟨nofun, rfl, rfl, rfl, Conversation.serveOutgoing context [] .head []⟩

theorem Accounts.read {reading : Reading} (accounts : Accounts context done events s)
    (pending : s.next = .waits (.read reading)) :
    Accounts context done (events ++ (s.move context .resume).1) (s.move context .resume).2 := by
  have outgoing := accounts.outgoing
  rw [pending] at outgoing
  cases outgoing with
  | reading stage =>
    simp only [move, advance?, pending]
    cases took : s.pipe.read with
    | waits =>
      refine { accounts with outgoing := ?_ }
      simp only [pending, Option.getD_none, List.append_nil]
      exact .reading stage
    | ended =>
      refine { accounts with outgoing := ?_ }
      simp only [Option.getD_some, List.append_nil]
      exact .ended
    | chunk bytes pipe =>
      obtain ⟨writes, written, left⟩ := Pipe.readKeeps took
      exact ⟨accounts.due, written.trans accounts.written, writes.trans accounts.writes,
        left.trans accounts.free,
        Conversation.serveOutgoing context done stage (s.buffer ++ bytes)⟩

theorem Accounts.write {payload : Bytes} {writing : Writing}
    (accounts : Accounts context done events s)
    (pending : s.next = .waits (.write payload writing)) :
    ∃ reply, events = shown context (done ++ [reply]) ∧
      Accounts context (done ++ [reply]) (events ++ (s.move context .resume).1)
        (s.move context .resume).2 := by
  have outgoing := accounts.outgoing
  rw [pending] at outgoing
  have goes (reply : Reply) (due : reply.Due context) (same : payload = reply.payload)
      (outgoing : let outcome := Conversation.sent context s.buffer writing
        Outgoing context (done ++ [reply]) outcome.next (events ++ outcome.events)) :
      Accounts context (done ++ [reply]) (events ++ (s.move context .resume).1)
        (s.move context .resume).2 := by
    simp only [move, advance?, pending, Pipe.writeFree accounts.free, Option.getD_some, goOn]
    refine ⟨?_, ?_, ?_, accounts.free, outgoing⟩
    · rintro other mem
      rcases List.mem_append.mp mem with old | new
      · exact accounts.due other old
      · exact List.mem_singleton.mp new ▸ due
    · simp only [accounts.written, same, List.flatMap_append, List.flatMap_cons, List.flatMap_nil,
        List.append_nil]
    · simp only [accounts.writes, List.length_append, List.length_singleton]
  cases outgoing with
  | @answering reply due =>
    exact ⟨reply, rfl, goes reply due rfl (Conversation.serveOutgoing context _ .head s.buffer)⟩
  | @parting reply due =>
    refine ⟨reply, rfl, goes reply due rfl ?_⟩
    simp only [Conversation.sent, List.append_nil]
    exact .ended

theorem moveAccounts (accounts : Accounts context done events s) (it : Move) :
    ∃ more, Accounts context (done ++ more) (events ++ (s.move context it).1)
      (s.move context it).2 := by
  have still : Accounts context (done ++ []) (events ++ []) s := by
    simpa only [List.append_nil] using accounts
  match it with
  | .arrive _ | .chunk _ | .close =>
    exact ⟨[], still.due, still.written, still.writes, still.free, still.outgoing⟩
  | .resume =>
    match pending : s.next with
    | .waits (.read reading) =>
      refine ⟨[], ?_⟩
      rw [List.append_nil]
      exact accounts.read pending
    | .waits (.write payload writing) =>
      obtain ⟨reply, _, after⟩ := accounts.write pending
      exact ⟨[reply], after⟩
    | .ended =>
      rw [move, advanceIdle context pending]
      exact ⟨[], still⟩
    | .aborted fault =>
      rw [move, advanceAborted context pending]
      exact ⟨[], still⟩

theorem followAccounts (accounts : Accounts context done events s) (moves : List Move) :
    ∃ more, Accounts context (done ++ more)
      (events ++ (follow context s (moves.map .move)).1) (follow context s (moves.map .move)).2 := by
  induction moves generalizing s done events with
  | nil =>
    refine ⟨[], ?_⟩
    simpa only [List.map_nil, follow, List.append_nil] using accounts
  | cons it rest ih =>
    obtain ⟨first, here⟩ := moveAccounts accounts it
    obtain ⟨later, there⟩ := ih here
    refine ⟨first ++ later, ?_⟩
    simpa only [List.map_cons, follow, act, List.append_assoc] using there

theorem servedAccounts (context : Context) (moves : List Move) :
    let served := follow context { pipe := {} } (serving moves)
    ∃ replies, Accounts context replies served.1 served.2 :=
  followAccounts (startAccounts context) moves

theorem servedLonger (context : Context) (s : Session) (before after : List Move) :
    let begun := follow context s (serving before)
    let later := follow context begun.2 (after.map .move)
    follow context s (serving (before ++ after)) = (begun.1 ++ later.1, later.2) := by
  have joined : serving (before ++ after) = serving before ++ after.map .move := by
    simp only [serving, List.map_append, List.cons_append]
  rw [joined, followAppend]

theorem servedOver (context : Context) {before : List Move} {payload : Bytes} {writing : Writing}
    (pending : (follow context { pipe := {} } (serving before)).2.next =
      .waits (.write payload writing))
    (count : (follow context { pipe := {} } (serving before)).2.pipe.writes = most)
    (later : List Move) :
    Over (follow context { pipe := {} } (serving before))
      (follow context { pipe := { writesLeft := some most } }
        (serving (before ++ .resume :: later))) := by
  generalize followed : follow context { pipe := {} } (serving before) = there at *
  have same : follow context { pipe := { writesLeft := some most } } (serving before) =
      (there.1, there.2.upTo most) :=
    followed ▸ followUpTo context (s := { pipe := {} }) rfl (followed ▸ Nat.le_of_eq count)
  have failed : (there.2.upTo most).move context .resume =
      ([], { there.2.upTo most with next := .ended }) := by
    rw [← count, move, advanceSevered pending, Option.getD_some]
  have stopped := followOver context (s := { there.2.upTo most with next := .ended }) rfl there.1 later
  rw [servedLonger, same]
  simp only [List.map_cons, follow, act, failed, List.nil_append]
  exact ⟨stopped.events, stopped.next, stopped.buffer, stopped.reads, stopped.writes,
    stopped.written⟩

/-- A write that fails cuts a conversation off and changes nothing else about it. As long as no more
writes are made than succeed, all is the same as if every write succeeded. The attempt to make one
more ends it where it is: nothing is pending, and whatever comes later, nothing is shown, read or
written. So of the replies that would be written, the first ones are, and what has been shown is what
comes before each of these and before the one that failed. -/
theorem severedBetweenReplies (context : Context) (moves : List Move) (most : Nat) :
    let whole (moves : List Move) := follow context { pipe := {} } (serving moves)
    let cut (moves : List Move) :=
      follow context { pipe := { writesLeft := some most } } (serving moves)
    ((whole moves).2.pipe.writes ≤ most → cut moves = ((whole moves).1, (whole moves).2.upTo most)) ∧
      (most < (whole moves).2.pipe.writes → ∃ before after, moves = before ++ .resume :: after ∧
        (whole before).2.pipe.writes = most ∧
        (∃ payload writing, (whole before).2.next = .waits (.write payload writing)) ∧
        ∀ later, Over (whole before) (cut (before ++ .resume :: later))) ∧
      ∃ replies, (∀ reply ∈ replies, reply.Due context) ∧
        replies.length = (whole moves).2.pipe.writes ∧
        (whole moves).2.pipe.written = replies.flatMap Reply.payload ∧
        (∃ underway : Option Reply,
          (whole moves).1 = shown context (replies ++ underway.toList)) ∧
        (most < replies.length →
          (cut moves).2.pipe.written = (replies.take most).flatMap Reply.payload ∧
            (cut moves).1 = shown context (replies.take (most + 1))) := by
  intro whole cut
  have within : (whole moves).2.pipe.writes ≤ most →
      cut moves = ((whole moves).1, (whole moves).2.upTo most) :=
    followUpTo context (s := { pipe := {} }) rfl
  have beyond (more : most < (whole moves).2.pipe.writes) :
      ∃ before after, moves = before ++ .resume :: after ∧ (whole before).2.pipe.writes = most ∧
        (∃ payload writing, (whole before).2.next = .waits (.write payload writing)) ∧
        ∀ later, Over (whole before) (cut (before ++ .resume :: later)) := by
    have free : (act context { pipe := {} } (.start .serve)).2.pipe.writesLeft = none := rfl
    obtain ⟨before, after, split, count, payload, writing, pending⟩ :=
      followSevered context free (Nat.zero_le most) more
    exact ⟨before, after, split, count, ⟨payload, writing, pending⟩,
      servedOver context pending count⟩
  refine ⟨within, beyond, ?_⟩
  by_cases more : most < (whole moves).2.pipe.writes
  · obtain ⟨before, after, rfl, count, ⟨payload, writing, pending⟩, stopped⟩ := beyond more
    obtain ⟨done, sofar⟩ := servedAccounts context before
    obtain ⟨reply, events, next⟩ := sofar.write pending
    obtain ⟨rest, last⟩ := followAccounts next after
    have told : Accounts context (done ++ reply :: rest) (whole (before ++ .resume :: after)).1
        (whole (before ++ .resume :: after)).2 := by
      rw [List.append_cons]
      simp only [whole, servedLonger, List.map_cons, follow, act, ← List.append_assoc]
      exact last
    have length : done.length = most := sofar.writes.symm.trans count
    have first : (done ++ reply :: rest).take most = done := List.take_left' length
    have second : (done ++ reply :: rest).take (most + 1) = done ++ [reply] := by
      rw [List.append_cons]
      exact List.take_left' (by rw [List.length_append, List.length_singleton, length])
    refine ⟨_, told.due, told.writes.symm, told.written, told.outgoing.open, fun _ => ?_⟩
    rw [first, second]
    exact ⟨(stopped after).written.trans sofar.written, (stopped after).events.trans events⟩
  · obtain ⟨replies, accounts⟩ := servedAccounts context moves
    exact ⟨replies, accounts.due, accounts.writes.symm, accounts.written, accounts.outgoing.open,
      fun beyond => absurd (accounts.writes ▸ beyond) more⟩

theorem severedBehindFirst :
    let context : Context := ⟨{}, .ofOctets 127 0 0 1, .fixed (.bare .ok)⟩
    let moves := [.arrive (Bytes.ofText "GET /a HTTP/1.0\r\n\r\nGET /b HTTP/1.0\r\n\r\n"), .resume,
      .resume, .resume]
    let whole := follow context { pipe := {} } (serving moves)
    let cut := follow context { pipe := { writesLeft := some 1 } } (serving moves)
    1 < whole.2.pipe.writes ∧ cut.2.next = .ended ∧
      cut.2.pipe.written = (Response.bare .ok).wire := by
  intro context moves whole cut
  have more : 1 < whole.2.pipe.writes := by decide +kernel
  have written : cut.2.pipe.written = (Response.bare .ok).wire := by decide +kernel
  obtain ⟨_, beyond, _⟩ := severedBetweenReplies context moves 1
  obtain ⟨before, after, split, _, _, stopped⟩ := beyond more
  have ended := (stopped after).next
  rw [← split] at ended
  exact ⟨more, ended, written⟩

end Session

end FileServer
