import FileServer.Proofs.Conversation.Offsets
import FileServer.Proofs.Host.Faults

/-! Connections of one host interfere where a turn fails, and nowhere else. A step on another connection
leaves what is kept of one as it was, and any other step does to it what it does to the whole; so the
views of a connection are those of a run in which it is the only one. -/
namespace FileServer.Host

variable {σ : Type} {t : Transport σ} {c : Nat} {opened : List Limits} {writes : Nat → Bytes → Prop}
  {host : Host σ} {move : Move σ} {rest : List (Move σ)}

def only (c : Nat) (host : Host σ) : Host σ := ⟨host.site.only c, ownLive c host.live⟩

theorem viewOnly (shown : Shown) (host : Host σ) :
    (host.only c).view 0 shown = host.view c shown := by
  have links := Site.linksOnly (c := c) host.site
  have events := eventsOfOwn 0 (eventsOf c host.site.events)
  have tasks := tasksOfOwn 0 (tasksOf c host.live)
  simp only [view, only, ownLive, links, tasks]
  simp only [Site.only, events]

theorem tidyOnly (t : Transport σ) (host : Host σ) : (host.tidy t).only c = (host.only c).tidy t := by
  have works := worksOnOwn c host.live
  simp only [tidy, only, Site.only, List.getElem?_mapIdx]
  cases host.site.links[c]? with
  | none => rfl
  | some link =>
    simp only [Option.map_some, Option.toList_some, List.mapIdx_cons, List.mapIdx_nil, closeLeft,
      works]

theorem tidiedStill (t : Transport σ) (host : Host σ)
    (tidied : ∀ link, host.site.links[c]? = some link →
      link.held ∨ worksOn host.live c ∨ link.closed) :
    (host.tidy t).only c = host.only c := by
  simp only [tidy, only, Site.only, List.getElem?_mapIdx]
  cases there : host.site.links[c]? with
  | none => rfl
  | some link =>
    have still : closeLeft t host.live c link = link := by
      rcases tidied link there with held | works | closed
      · simp only [closeLeft, held, Bool.true_or, if_true]
      · simp only [closeLeft, works, Bool.or_true, Bool.true_or, if_true]
      · simp only [closeLeft, closed, Bool.or_true, if_true]
    simp only [Option.map_some, still]

theorem turnOnly (t : Transport σ) (host : Host σ) (onLinks : ∀ one ∈ host.live, one.OnLink)
    (sound : (host.turn t).1 = none) :
    (host.only c).turn t = ((host.turn t).1, (host.turn t).2.only c) := by
  have sampled := Turn.sampleOnly (c := c) t host.site.now host.site host.live
  have linked := (Site.turn t host.site.now).sampleAll host.site onLinks
  have swept := Turn.sweepOnly (c := c) t host.site.now host.site _ linked sound
  have taken : (Site.turn t host.site.now).take (host.site.only c) (ownLive c host.live) =
      ((Site.turn t host.site.now).take host.site host.live).only c := by
    rw [Turn.take, ← sampled]
    exact swept
  have whole : (host.only c).turn t =
      let swept := (Site.turn t host.site.now).take (host.site.only c) (ownLive c host.live)
      (swept.fault?, tidy t ⟨swept.world, swept.live⟩) := rfl
  rw [whole, taken, turn, tidyOnly, only, ← Turn.liveOnly]
  rfl

theorem registerOwn (host : Host σ) (task : Option Task) :
    (host.register c task).only c = (host.only c).register 0 task := by
  cases task with
  | none => simp only [register, only, Option.map_none, Option.toList_none, List.append_nil]
  | some task =>
    have one : ownLive c [.link c task] = [.link 0 task] := ownLiveOwn c [task]
    simp only [register, only, Option.map_some, Option.toList_some, ownLiveAppend, one]

theorem registerOther {index : Nat} (other : index ≠ c) (host : Host σ) (task : Option Task) :
    (host.register index task).only c = host.only c := by
  cases task with
  | none => simp only [register, only, Option.map_none, Option.toList_none, List.append_nil]
  | some task =>
    have none' : ownLive c [.link index task] = [] := ownLiveOther other [task]
    simp only [register, only, Option.map_some, Option.toList_some, ownLiveAppend, none',
      List.append_nil]

theorem onHeldOwn (host : Host σ) (task : Link σ → Option Task) :
    (host.onHeld c task).only c = (host.only c).onHeld 0 task := by
  have there : (host.only c).site.links[0]? = host.site.links[c]? := Site.linksOnly host.site
  simp only [onHeld, there]
  split
  · split
    · exact registerOwn host _
    · rfl
  · rfl

theorem onHeldOther {index : Nat} (other : index ≠ c) (host : Host σ)
    (task : Link σ → Option Task) : (host.onHeld index task).only c = host.only c := by
  unfold onHeld
  split
  · split
    · exact registerOther other host _
    · rfl
  · rfl

theorem connectOther (host : Host σ) (socket : σ) (remote : Address) (limits : Limits)
    (other : host.site.links.length ≠ c) :
    (host.connect socket remote limits).only c = host.only c := by
  have same : (host.site.links ++ [⟨socket, limits, remote, true, false⟩])[c]? =
      host.site.links[c]? := by
    rw [List.getElem?_append]
    split
    · rfl
    · next beyond =>
      have past : host.site.links.length < c := by omega
      rw [List.getElem?_eq_none (Nat.le_of_lt past), List.getElem?_eq_none]
      simp only [List.length_singleton]
      omega
  simp only [connect, only, Site.only, same]

theorem connectOwn (host : Host σ) (socket : σ) (remote : Address) (limits : Limits)
    (own : host.site.links.length = c) :
    (host.connect socket remote limits).only c = (host.only c).connect socket remote limits := by
  subst own
  have absent : host.site.links[host.site.links.length]? = none :=
    List.getElem?_eq_none (Nat.le_refl _)
  simp only [connect, only, Site.only, absent, List.getElem?_concat_length]
  rfl

theorem stepOther (t : Transport σ) (calm : host.Calm opened writes (move :: rest))
    (other : ¬ move.isOf c host.site.links.length) : (host.step t move).2.only c = host.only c := by
  cases move with
  | connect socket remote limits =>
    exact connectOther host socket remote limits fun own => other (beq_iff_eq.mpr own)
  | script index operations =>
    exact onHeldOther (fun own => other (beq_iff_eq.mpr own)) host _
  | serve index handler =>
    exact onHeldOther (fun own => other (beq_iff_eq.mpr own)) host _
  | peer index does =>
    have apart : index ≠ c := fun own => other (beq_iff_eq.mpr own)
    simp only [step, peer, onSocket, only, Site.modifySocket, Site.modifyOther apart]
  | release index =>
    have apart : index ≠ c := fun own => other (beq_iff_eq.mpr own)
    simp only [step, release]
    rw [tidiedStill]
    · simp only [only, Site.modifyOther apart]
    · intro link there
      simp only [Site.modifyLink, List.getElem?_modify_ne _ _ apart] at there
      exact calm.tidied c link there
  | turn => exact absurd rfl other
  | pass milliseconds => exact absurd rfl other

theorem stepOwn (t : Transport σ) (calm : host.Calm opened writes (move :: rest))
    (sound : (host.step t move).1.fault? = none) (own : move.isOf c host.site.links.length) :
    (host.only c).step t move.alone = ((host.step t move).1, (host.step t move).2.only c) := by
  cases move with
  | connect socket remote limits =>
    simp only [step, Move.alone, connectOwn host socket remote limits (beq_iff_eq.mp own)]
  | script index operations =>
    obtain rfl := beq_iff_eq.mp own
    simp only [step, Move.alone, script, onHeldOwn]
    rfl
  | serve index handler =>
    obtain rfl := beq_iff_eq.mp own
    simp only [step, Move.alone, serve, onHeldOwn]
    rfl
  | peer index does =>
    obtain rfl := beq_iff_eq.mp own
    simp only [step, Move.alone, peer, onSocket, only, Site.linksOnly, Site.modifySocket,
      Site.modifyOwn]
  | release index =>
    obtain rfl := beq_iff_eq.mp own
    simp only [step, Move.alone, release, tidyOnly]
    simp only [only, Site.modifyOwn]
  | turn =>
    have onLinks := fun one mem => (calm.live one mem).onLink
    simp only [step, Move.alone, turnOnly t host onLinks sound]
  | pass milliseconds => rfl

theorem stepLength (t : Transport σ) (calm : host.Calm opened writes (move :: rest)) :
    (host.step t move).2.site.links.length = host.site.links.length + move.opens := by
  have before := congrArg List.length calm.limits
  have behind := congrArg List.length (stepCalm t calm).limits
  have opens : ((move :: rest).filterMap Move.limits?).length =
      move.opens + (rest.filterMap Move.limits?).length := by
    cases move with
    | connect socket remote limits => exact Nat.add_comm _ 1
    | _ => exact (Nat.zero_add _).symm
  rw [List.length_append, List.length_map] at before behind
  omega

theorem aloneIsOf (own : move.isOf c host.site.links.length) :
    move.alone.isOf 0 (host.only c).site.links.length := by
  cases move with
  | connect socket remote limits =>
    obtain rfl := beq_iff_eq.mp own
    have absent : host.site.links[host.site.links.length]? = none :=
      List.getElem?_eq_none (Nat.le_refl _)
    simp only [Move.alone, Move.isOf, only, Site.only, absent]
    rfl
  | _ => rfl

theorem viewsOnly (t : Transport σ) (moves : List (Move σ)) (calm : host.Calm opened writes moves)
    (sound : faults t host moves = []) :
    views t c host moves = views t 0 (host.only c) (alone c host.site.links.length moves) := by
  -- A step of another connection is dropped on the right; the host it leaves still projects alike.
  induction moves generalizing host with
  | nil => rfl
  | cons move rest ih =>
    obtain ⟨first, soundLater⟩ := List.append_eq_nil_iff.mp sound
    have later := ih (stepCalm t calm) soundLater
    rw [stepLength t calm] at later
    by_cases own : move.isOf c host.site.links.length
    · have step := stepOwn t calm (Option.toList_eq_nil_iff.mp first) own
      have ownAlone := aloneIsOf own
      simp only [views, alone, if_pos own, if_pos ownAlone, step, viewOnly, later]
    · have still := stepOther t calm own
      simp only [views, alone, if_neg own, later, still]

/-- Unless a turn fails, leaving out every step on other connections changes nothing that is seen of a
connection: what its peer receives and when, what its callbacks and its handler are given and in what
order, when its end is closed, and which of its tasks are live in what order. And a turn fails only
where something is written whose last byte does not begin a slice that ends within a word. -/
theorem aloneUnlessOverflow (t : Transport σ) (c : Nat) (moves : List (Move σ)) :
    (faults t {} moves = [] → views t c {} moves = views t 0 {} (alone c 0 moves)) ∧
      ∀ fault ∈ faults t {} moves,
        fault = .aborted .offsetOverflow ∧ ∃ index, Overlong (Host.opened moves) (Writes moves) index := by
  have calm := emptyCalm moves
  refine ⟨fun sound => ?_, faultsOverlong t moves {} calm⟩
  have whole := viewsOnly (c := c) t moves calm sound
  rw [show ({} : Host σ).only c = {} from rfl] at whole
  exact whole

theorem aloneUnlessOverflowBesideServed :
    let handler : Handler := fun _ => ⟨[], .bare .ok⟩
    let here : Address := .ofOctets 10 0 0 1
    let get : Bytes := Bytes.ofText "GET / HTTP/1.0\r\n\r\n"
    let moves : List (Move Duplex) :=
      [.connect {} here {}, .connect {} here {}, .serve 0 handler,
        .script 1 [.receive, .send [104, 105]], .peer 0 fun d => ([], d.peerSends get), .turn,
        .peer 1 fun d => ([], d.peerSends [97]), .peer 0 fun d => ([], d.peerLeaves), .turn,
        .release 0, .turn, .peer 1 Duplex.peerTakes, .release 1]
    faults Duplex.transport {} moves = [] ∧
      views Duplex.transport 1 {} moves = views Duplex.transport 0 {}
        [.connect {} here {}, .script 0 [.receive, .send [104, 105]], .turn,
          .peer 0 fun d => ([], d.peerSends [97]), .turn, .turn, .peer 0 Duplex.peerTakes,
          .release 0] := by
  intro handler here get moves
  obtain ⟨alike, overlong⟩ := aloneUnlessOverflow Duplex.transport 1 moves
  have sound : faults Duplex.transport {} moves = [] := by
    refine List.eq_nil_iff_forall_not_mem.mpr fun fault mem => ?_
    obtain ⟨-, index, limits, payload, there, ⟨move, written, writes⟩, past⟩ := overlong fault mem
    have usual : limits = {} := by
      have mem := List.mem_of_getElem? there
      simpa [Host.opened, moves, Move.limits?] using mem
    have short : payload.length ≤ 1000 := by
      simp only [moves, List.mem_cons, List.not_mem_nil, or_false] at written
      rcases written with rfl | rfl | rfl | rfl | rfl | rfl | rfl | rfl | rfl | rfl | rfl | rfl | rfl <;>
        cases writes
      · next wire => exact wire ▸ by decide +kernel
      · next wire => exact wire ▸ by decide +kernel
      · next mem =>
        obtain rfl : payload = [104, 105] := by simpa using mem
        decide
    have words : 1000 - 1 + max ({} : Limits).writeChunk 1 ≤ Text.maxWord := by decide
    rw [usual] at past
    omega
  exact ⟨sound, alike sound⟩

/-! A run in which a turn fails: on one connection a payload that was sent in part has an end beyond
a word, and behind it the other connection waits to answer. -/

section Stalled

variable {payload : Bytes}

def stalledContext : Context :=
  ⟨{ writeChunk := Text.maxWord }, .ofOctets 10 0 0 7, .fixed (.bare .notFound)⟩

def besideContext : Context := ⟨{}, .ofOctets 10 0 0 7, .fixed (.bare .notFound)⟩

def stalledTask (payload : Bytes) (sent : Nat) : Task :=
  ⟨stalledContext, [], .write payload (.script []), sent, 0⟩

def besideTask (pending : Pending) : Task := ⟨besideContext, [], pending, 0, 0⟩

def bothLinks (first second : Channel) : List (Link Channel) :=
  [⟨first, stalledContext.limits, stalledContext.remote, true, false⟩,
    ⟨second, besideContext.limits, besideContext.remote, true, false⟩]

def arrived (payload : Bytes) : Host Channel :=
  ⟨{ links := bothLinks {} { ends.inbound := [104, 105] } },
    [.link 0 (stalledTask payload 0), .link 1 (besideTask (.read (.script [.send [120]])))]⟩

def stalled (payload : Bytes) (first : Channel) : Host Channel :=
  ⟨{ links := bothLinks first {}, events := [(1, .received [104, 105])] },
    [.link 0 (stalledTask payload 219264), .link 1 (besideTask (.write [120] (.script [])))]⟩

theorem stalledTurn (long : payload.length = 400000) :
    (arrived payload).turn Channel.transport =
      (none, stalled payload ⟨{ outbound := payload.take 219264 }, 222720⟩) := by
  have pending : (stalledTask payload 0).pending = .write payload (.script []) := rfl
  obtain ⟨kept, -⟩ := Task.stalledWrite long pending rfl rfl
  have through : ((stalledTask payload 0).resume Channel.transport 0 {}).1.abort? = none := by
    rw [kept]
    rfl
  have swept : (Site.turn Channel.transport 0).take (arrived payload).site (arrived payload).live =
      (fun attempt : Resumed × Channel =>
        let later := (Site.turn Channel.transport 0).sweep
          ((arrived payload).site.after 0 attempt.2 attempt.1.events)
          [(.link 1 (besideTask (.read (.script [.send [120]]))), true)]
        { later with registered := attempt.1.tasks.map (.link 0) ++ later.registered })
        ((stalledTask payload 0).resume Channel.transport 0 {}) :=
    Turn.sweepLink Channel.transport 0 0 (arrived payload).site _ _ rfl through
  rw [kept] at swept
  simp only [turn, show (arrived payload).site.now = 0 from rfl, swept]
  rfl

theorem overflowTurn (long : payload.length = 400000) :
    (stalled payload {}).turn Channel.transport =
      (some (.aborted .offsetOverflow), { stalled payload {} with live := [] }) := by
  have pending : (stalledTask payload 0).pending = .write payload (.script []) := rfl
  obtain ⟨-, overflows⟩ := Task.stalledWrite long pending rfl rfl
  have aborted : (stalledTask payload 219264).resume Channel.transport 0 {} =
      (.aborted [] .offsetOverflow, {}) := overflows {}
  have aborts : ((stalledTask payload 219264).resume Channel.transport 0 {}).1.abort? =
      some .offsetOverflow := by
    rw [aborted]
    rfl
  have swept : (Site.turn Channel.transport 0).take (stalled payload {}).site
      (stalled payload {}).live =
      (fun attempt : Resumed × Channel =>
        ⟨(stalled payload {}).site.after 0 attempt.2 attempt.1.events, [], [],
          some (.aborted .offsetOverflow)⟩)
        ((stalledTask payload 219264).resume Channel.transport 0 {}) :=
    Turn.sweepAborted Channel.transport 0 0 (stalled payload {}).site _ _ rfl aborts
  rw [aborted] at swept
  simp only [turn, show (stalled payload {}).site.now = 0 from rfl, swept]
  rfl

def stalledMoves (payload : Bytes) : List (Move Channel) :=
  [.connect {} (.ofOctets 10 0 0 7) { writeChunk := Text.maxWord },
    .connect {} (.ofOctets 10 0 0 7) {}, .script 0 [.send payload],
    .script 1 [.receive, .send [120]], .peer 1 fun c => ([], c.peerSends [104, 105]),
    .turn, .peer 0 Channel.peerTakes, .turn, .peer 1 Channel.peerTakes]

theorem stalledRun (long : payload.length = 400000) :
    faults Channel.transport {} (stalledMoves payload) = [.aborted .offsetOverflow] ∧
      (views Channel.transport 1 {} (stalledMoves payload)).map (·.shown.received) =
        [[], [], [], [], [], []] := by
  have first := stalledTurn long
  have second := overflowTurn long
  constructor
  · calc faults Channel.transport {} (stalledMoves payload)
      _ = ((arrived payload).turn Channel.transport).1.toList ++
          faults Channel.transport ((arrived payload).turn Channel.transport).2
            ((stalledMoves payload).drop 6) := rfl
      _ = ((stalled payload {}).turn Channel.transport).1.toList ++ [] := by rw [first]; rfl
      _ = [.aborted .offsetOverflow] := by rw [second]; rfl
  · calc (views Channel.transport 1 {} (stalledMoves payload)).map (·.shown.received)
      _ = [] :: [] :: [] :: [] :: (views Channel.transport 1
          ((arrived payload).turn Channel.transport).2 ((stalledMoves payload).drop 6)).map
            (·.shown.received) := rfl
      _ = [] :: [] :: [] :: [] :: [] :: (views Channel.transport 1
          ((stalled payload {}).turn Channel.transport).2 ((stalledMoves payload).drop 8)).map
            (·.shown.received) := by rw [first]; rfl
      _ = [[], [], [], [], [], []] := by rw [second]; rfl

end Stalled

theorem aloneChangedBehindOverflow :
    let payload : Bytes := List.replicate 400000 97
    faults Channel.transport {} (stalledMoves payload) = [.aborted .offsetOverflow] ∧
      (views Channel.transport 1 {} (stalledMoves payload)).map (·.shown.received) =
        [[], [], [], [], [], []] ∧
      (views Channel.transport 0 {} (alone 1 0 (stalledMoves payload))).map (·.shown.received) =
        [[], [], [], [], [], [120]] := by
  intro payload
  have long : payload.length = 400000 := List.length_replicate
  obtain ⟨faults, received⟩ := stalledRun long
  refine ⟨faults, received, ?_⟩
  have left : alone 1 0 (stalledMoves payload) =
      [.connect {} (.ofOctets 10 0 0 7) {}, .script 0 [.receive, .send [120]],
        .peer 0 fun c => ([], c.peerSends [104, 105]), .turn, .turn, .peer 0 Channel.peerTakes] := rfl
  rw [left]
  decide +kernel

end FileServer.Host
