import FileServer.Proofs.Host.Attempts

/-! The order in which tasks are live. A sweep is told task by task, with the attempts that it makes;
what is skipped stays in front and in its order, and what the attempts leave comes behind it in the
order of the attempts. -/
namespace FileServer

namespace Turn

variable {ω τ : Type} {turn : Turn ω τ} {w : ω} {pairs : List (τ × Bool)} {log : List (ω × τ)}
  {swept : Swept ω τ}

def recorded (turn : Turn ω τ) : Turn (ω × List (ω × τ)) τ where
  ready w := turn.ready w.1
  expired := turn.expired
  resume w task := ((turn.resume w.1 task).1, (turn.resume w.1 task).2, w.2 ++ [(w.1, task)])

theorem resumeRecorded {task : τ} {resumption : Resumption τ} {w' : ω}
    (resumed : turn.resume w task = (resumption, w')) (past : List (ω × τ)) :
    turn.recorded.resume (w, past) task = (resumption, w', past ++ [(w, task)]) := by
  simp only [recorded, resumed]

theorem Goes.recorded (goes : turn.Goes w pairs log swept) (past : List (ω × τ)) :
    turn.recorded.sweep (w, past) pairs =
      ⟨(swept.world, past ++ log), swept.skipped, swept.registered, swept.fault?⟩ := by
  induction goes generalizing past with
  | through w => simp only [sweep, List.append_nil]
  | expired late later ih =>
    have late : turn.recorded.expired _ = true := late
    simp only [sweep, if_pos late, ih past]
  | skipped early later ih =>
    have early : ¬ turn.recorded.expired _ = true := early
    simp only [sweep, if_neg early, ih past]
  | goesOn resumed later ih =>
    simp only [sweep, resumeRecorded resumed, ih, List.append_assoc, List.singleton_append]
  | givenUp resumed later ih =>
    simp only [sweep, resumeRecorded resumed, ih, List.append_assoc, List.singleton_append]
  | fails rest resumed => simp only [sweep, resumeRecorded resumed]

def waits (turn : Turn ω τ) (pair : τ × Bool) : Bool := !pair.2 && !turn.expired pair.1

theorem Goes.inOrder (goes : turn.Goes w pairs log swept) (sound : swept.fault? = none) :
    log.map Prod.snd = (pairs.filter Prod.snd).map Prod.fst ∧
      swept.skipped = (pairs.filter turn.waits).map Prod.fst := by
  induction goes with
  | through w => exact ⟨rfl, rfl⟩
  | expired late later ih =>
    obtain ⟨attempted, skipped⟩ := ih sound
    simpa [waits, late] using ⟨attempted, skipped⟩
  | skipped early later ih =>
    obtain ⟨attempted, skipped⟩ := ih sound
    simpa [waits, early] using ⟨attempted, skipped⟩
  | goesOn resumed later ih =>
    obtain ⟨attempted, skipped⟩ := ih sound
    simpa [waits] using ⟨attempted, skipped⟩
  | givenUp resumed later ih =>
    obtain ⟨attempted, skipped⟩ := ih sound
    simpa [waits] using ⟨attempted, skipped⟩
  | fails rest resumed => cases sound

theorem Goes.registers (goes : turn.Goes w pairs log swept) :
    swept.registered = log.flatMap fun attempt => (turn.resume attempt.1 attempt.2).1.tasks := by
  induction goes with
  | through w => rfl
  | expired late later ih => exact ih
  | skipped early later ih => exact ih
  | goesOn resumed later ih => simp only [List.flatMap_cons, resumed, Resumption.tasks, ih]
  | givenUp resumed later ih =>
    simp only [List.flatMap_cons, resumed, Resumption.tasks, List.nil_append, ih]
  | fails rest resumed =>
    simp only [List.flatMap_cons, resumed, Resumption.tasks, List.flatMap_nil, List.append_nil]

theorem Goes.stops (goes : turn.Goes w pairs log swept) {fault : TurnFault}
    (failed : swept.fault? = some fault) :
    ∃ earlier last, log = earlier ++ [last] ∧ (turn.resume last.1 last.2).1 = .fails fault ∧
      log.map Prod.snd <+: (pairs.filter Prod.snd).map Prod.fst := by
  have behind {w : ω} {task : τ} {rest : List (τ × Bool)} {log : List (ω × τ)} {fault : TurnFault}
      (stopped : ∃ earlier last, log = earlier ++ [last] ∧
        (turn.resume last.1 last.2).1 = .fails fault ∧
        log.map Prod.snd <+: (rest.filter Prod.snd).map Prod.fst) :
      ∃ earlier last, (w, task) :: log = earlier ++ [last] ∧
        (turn.resume last.1 last.2).1 = .fails fault ∧
        ((w, task) :: log).map Prod.snd <+:
          (((task, true) :: rest).filter Prod.snd).map Prod.fst := by
    obtain ⟨earlier, last, rfl, fails, before⟩ := stopped
    refine ⟨(w, task) :: earlier, last, rfl, fails, ?_⟩
    exact (List.prefix_cons_inj task).mpr before
  induction goes with
  | through w => cases failed
  | expired late later ih => exact ih failed
  | skipped early later ih => exact ih failed
  | goesOn resumed later ih => exact behind (ih failed)
  | givenUp resumed later ih => exact behind (ih failed)
  | @fails w w' task fault rest resumed =>
    cases failed
    refine ⟨[], (w, task), rfl, by rw [resumed], ?_⟩
    exact (List.prefix_cons_inj task).mpr List.nil_prefix

def newPlace? (turn : Turn ω τ) (pairs : List (τ × Bool)) (place : Nat) : Option Nat :=
  if (pairs[place]?).any turn.waits then some ((pairs.take place).countP turn.waits) else none

variable {place next : Nat}

theorem newPlaceSkipped (moved : turn.newPlace? pairs place = some next) :
    ∃ pair, pairs[place]? = some pair ∧ turn.waits pair ∧
      next = (pairs.take place).countP turn.waits := by
  unfold newPlace? at moved
  split at moved
  · next skipped =>
    cases moved
    obtain ⟨pair, there, waits⟩ := (Option.any_eq_true _ _).mp skipped
    exact ⟨pair, there, waits, rfl⟩
  · cases moved

theorem newPlaceKeeps (moved : turn.newPlace? pairs place = some next) :
    next ≤ place ∧ ((pairs.filter turn.waits).map Prod.fst)[next]? = (pairs.map Prod.fst)[place]? := by
  obtain ⟨pair, there, waits, rfl⟩ := newPlaceSkipped moved
  refine ⟨Nat.le_trans List.countP_le_length (List.length_take_le ..), ?_⟩
  obtain ⟨bound, same⟩ := List.getElem?_eq_some_iff.mp there
  have cut : pairs = pairs.take place ++ pair :: pairs.drop (place + 1) := by
    rw [← same, ← List.drop_eq_getElem_cons bound, List.take_append_drop]
  have kept := congrArg (List.filter turn.waits) cut
  rw [List.filter_append, List.filter_cons_of_pos waits] at kept
  rw [List.getElem?_map, List.getElem?_map, there, kept, List.countP_eq_length_filter,
    List.getElem?_append_right (Nat.le_refl _), Nat.sub_self, List.getElem?_cons_zero]

theorem newPlaceOrder {place' next' : Nat} (before : place < place')
    (moved : turn.newPlace? pairs place = some next)
    (moved' : turn.newPlace? pairs place' = some next') : next < next' := by
  obtain ⟨pair, there, waits, rfl⟩ := newPlaceSkipped moved
  obtain ⟨_, _, _, rfl⟩ := newPlaceSkipped moved'
  obtain ⟨bound, same⟩ := List.getElem?_eq_some_iff.mp there
  have one : (pairs.take (place + 1)).countP turn.waits =
      (pairs.take place).countP turn.waits + 1 := by
    rw [List.take_succ_eq_append_getElem bound, List.countP_append, same,
      List.countP_singleton, if_pos waits]
  have more : (pairs.take (place + 1)).countP turn.waits ≤
      (pairs.take place').countP turn.waits :=
    (List.take_prefix_take_left before).sublist.countP_le
  omega

end Turn

variable {σ : Type} {t : Transport σ}

inductive Task.Continues (task : Task) : Outcome → Prop where
  | received {reading : Reading} (pending : task.pending = .read reading) (bytes : Bytes) :
      Continues task (Conversation.received task.context task.buffer bytes reading)
  | sent {payload : Bytes} {writing : Writing} (pending : task.pending = .write payload writing) :
      Continues task (Conversation.sent task.context task.buffer writing)

inductive Task.Leaves (now : Nat) (task : Task) : Resumed → Prop where
  | kept (sent : Nat) : Leaves now task (.kept { task with sent })
  | completed {outcome : Outcome} (continues : task.Continues outcome) :
      Leaves now task (.completed outcome.events (start? task.context now outcome))
  | abandoned (cause : Abandonment) : Leaves now task (.abandoned cause)
  | aborted (events : List Event) (fault : Abort) : Leaves now task (.aborted events fault)

def Resumed.onLink (index : Nat) : Resumed → Resumption Live
  | .kept task => .goesOn (some (.link index task)) none
  | .completed _ successor => .goesOn none (successor.map (.link index))
  | .abandoned _ => .givenUp
  | .aborted _ fault => .fails (.aborted fault)

/-- What an attempt leaves. A task goes on only where it is completed; what is not completed but stays
is the same but for how much has been sent, and nothing is told of it. -/
inductive Site.Leaves (site : Site σ) : Live → Resumption Live × Site σ → Prop where
  | link (index : Nat) {task : Task} {resumed : Resumed} (socket : σ)
      (leaves : task.Leaves site.now resumed) :
      Leaves site (.link index task) (resumed.onLink index, site.after index socket resumed.events)
  | gone (index : Nat) (task : Task) (gone : site.links[index]? = none) :
      Leaves site (.link index task) (.givenUp, site)
  | listens (index : Nat) {later : Site σ} (accepted : Option Live)
      (silent : later.events = site.events) :
      Leaves site (.listener index) (.goesOn (some (.listener index)) accepted, later)
  | failed (index : Nat) {later : Site σ} (cause : Failure) (silent : later.events = site.events) :
      Leaves site (.listener index) (.fails (.listener cause), later)
  | missing (index : Nat) (missing : site.listeners[index]? = none) :
      Leaves site (.listener index) (.givenUp, site)

theorem Task.completeLeaves {task : Task} {outcome : Outcome} (continues : task.Continues outcome)
    (now : Nat) : task.Leaves now (task.complete now outcome) := by
  unfold complete
  split
  · exact .aborted _ _
  · exact .completed continues

theorem Task.resumeLeaves (t : Transport σ) (task : Task) (now : Nat) (s : σ) :
    task.Leaves now (task.resume t now s).1 := by
  unfold resume
  split
  · next reading pending =>
    unfold resumeRead
    split
    · exact completeLeaves (.received pending _) now
    · exact .kept task.sent
    · exact .abandoned _
    · exact .abandoned _
  · next payload writing pending =>
    unfold resumeWrite
    split
    · exact completeLeaves (.sent pending) now
    · exact .kept _
    · exact .abandoned _
    · exact .aborted _ _

namespace Site

theorem resumeLinkAttempt {site : Site σ} {index : Nat} {link : Link σ} {task : Task}
    {resumed : Resumed} {socket : σ}
    (attempt : task.resume t site.now link.socket = (resumed, socket)) :
    site.resumeLink t index link task =
      (resumed.onLink index, site.after index socket resumed.events) := by
  simp only [resumeLink, attempt]
  cases resumed with
  | kept task => exact congrArg (Prod.mk _) (tellNothing _ index).symm
  | completed events successor => rfl
  | abandoned cause => exact congrArg (Prod.mk _) (tellNothing _ index).symm
  | aborted events fault => rfl

theorem acceptLeaves {site taken : Site σ} (silent : taken.events = site.events) (index : Nat)
    (listener : Listener) (arrival : Arrival) :
    site.Leaves (.listener index) (taken.accept index listener arrival) := by
  cases arrival with
  | ok c =>
    simp only [accept, takeIn]
    split
    · exact .listens index _ silent
    · exact .listens index _ silent
  | error cause =>
    simp only [accept]
    split
    · exact .listens index _ silent
    · exact .failed index cause silent

theorem resumeLeaves (t : Transport σ) (site : Site σ) (one : Live) :
    site.Leaves one (site.resume t one) := by
  unfold resume
  split
  · next index task =>
    split
    · next gone => exact .gone index task gone
    · next link there =>
      rw [resumeLinkAttempt rfl]
      exact .link index _ (task.resumeLeaves t site.now link.socket)
  · next index =>
    split
    · next missing => exact .missing index missing
    · next listener there =>
      unfold resumeListener
      split
      · exact .failed index _ rfl
      · split
        · exact .listens index none rfl
        · next first queue queued =>
          have taken (listeners : List Listener) : { site with listeners }.events = site.events := rfl
          exact acceptLeaves (taken _) index listener first

end Site

namespace Host

def sampled (host : Host σ) (ready : Nat → Bool) : List (Live × Bool) :=
  host.live.mapIdx fun place one => (one, ready place)

def turnOn (t : Transport σ) (host : Host σ) (ready : Nat → Bool) : Option TurnFault × Host σ :=
  let swept := (Site.turn t host.site.now).sweep host.site (host.sampled ready)
  (swept.fault?, tidy t ⟨swept.world, swept.live⟩)

theorem turnSampled (t : Transport σ) (host : Host σ) :
    ∃ ready, host.turn t = host.turnOn t ready := by
  refine ⟨fun place => (host.live[place]?).any (Site.isReady t host.site), ?_⟩
  have same : (Site.turn t host.site.now).sample host.site host.live =
      host.sampled fun place => (host.live[place]?).any (Site.isReady t host.site) := by
    refine List.ext_getElem? fun place => ?_
    simp only [Turn.sample, sampled, List.getElem?_map, List.getElem?_mapIdx]
    cases host.live[place]? <;> rfl
  simp only [turn, turnOn, Turn.take, same]

theorem sampledTasks (host : Host σ) (ready : Nat → Bool) :
    (host.sampled ready).map Prod.fst = host.live := by
  refine List.ext_getElem? fun place => ?_
  simp only [sampled, List.getElem?_map, List.getElem?_mapIdx, Option.map_map, Function.comp_def,
    Option.map_id']

structure Round (σ : Type) where
  since : Site σ → Site σ := id
  joins : List Live := []
  ready : Nat → Bool

def enter (host : Host σ) (round : Round σ) : Host σ :=
  ⟨round.since host.site, host.live ++ round.joins⟩

/-- A task that is skipped in each of those turns: its place before the first and after the last, and
the host that they leave. -/
inductive Skipped (t : Transport σ) : Host σ → List (Round σ) → Nat → Nat → Host σ → Prop where
  | still (host : Host σ) (place : Nat) : Skipped t host [] place place host
  | turn {host last : Host σ} {round : Round σ} {rest : List (Round σ)} {place next place' : Nat}
      (sound : ((host.enter round).turnOn t round.ready).1 = none)
      (moved : (Site.turn t (host.enter round).site.now).newPlace?
        ((host.enter round).sampled round.ready) place = some next)
      (later : Skipped t ((host.enter round).turnOn t round.ready).2 rest next place' last) :
      Skipped t host (round :: rest) place place' last

variable {host last : Host σ} {ready : Nat → Bool} {rounds : List (Round σ)}
  {place place' other other' : Nat}

theorem turnOnSkips (sound : (host.turnOn t ready).1 = none) :
    let turn := Site.turn t host.site.now
    let pairs := host.sampled ready
    (host.turnOn t ready).2.live = (pairs.filter turn.waits).map Prod.fst ++
      (turn.attempts host.site pairs).flatMap fun attempt => (attempt.1.resume t attempt.2).1.tasks := by
  intro turn pairs
  have goes := turn.sweepGoes host.site pairs
  have live : (host.turnOn t ready).2.live = _ := Turn.liveSound sound
  rw [live, (goes.inOrder sound).2, goes.registers]
  rfl

theorem liveBehind {front : List Live} {one : Live} (there : front[place]? = some one)
    (more : List Live) : (front ++ more)[place]? = some one :=
  (List.getElem?_append_left (List.getElem?_eq_some_iff.mp there).1).trans there

theorem turnOnKeeps (sound : (host.turnOn t ready).1 = none)
    (moved : (Site.turn t host.site.now).newPlace? (host.sampled ready) place = some place') :
    place' ≤ place ∧
      ∀ one, host.live[place]? = some one → (host.turnOn t ready).2.live[place']? = some one := by
  obtain ⟨earlier, kept⟩ := Turn.newPlaceKeeps moved
  refine ⟨earlier, fun one there => ?_⟩
  rw [sampledTasks, there] at kept
  rw [turnOnSkips sound]
  exact liveBehind kept _

theorem Skipped.stays (skipped : Skipped t host rounds place place' last) :
    place' ≤ place ∧ ∀ one, host.live[place]? = some one → last.live[place']? = some one := by
  induction skipped with
  | still host place => exact ⟨Nat.le_refl _, fun _ there => there⟩
  | turn sound moved later ih =>
    obtain ⟨earlier, kept⟩ := turnOnKeeps sound moved
    obtain ⟨earlier', stays⟩ := ih
    exact ⟨Nat.le_trans earlier' earlier, fun one there => stays one (kept one (liveBehind there _))⟩

theorem Skipped.order (skipped : Skipped t host rounds place place' last)
    (skipped' : Skipped t host rounds other other' last) (before : place < other) :
    place' < other' := by
  induction skipped generalizing other with
  | still host place =>
    cases skipped' with
    | still => exact before
  | turn sound moved later ih =>
    cases skipped' with
    | turn _ moved' later' => exact ih later' (Turn.newPlaceOrder before moved moved')

/-- Whatever sample of readiness a turn goes by, one that succeeds attempts the ready tasks, each once
and in their order; those that wait come first in the next live list, in theirs, and behind them what
each attempt has left. One that fails has attempted a beginning of them, up to the failure. Over any
number of turns no task that is skipped comes to a later place, and none overtakes another. -/
theorem turnsKeepOrder (t : Transport σ) (host : Host σ) :
    (∃ ready, host.turn t = host.turnOn t ready) ∧
      (∀ (site : Site σ) (one : Live), site.Leaves one (site.resume t one)) ∧
      (∀ ready, let turn := Site.turn t host.site.now
        let pairs := host.sampled ready
        let swept := turn.recorded.sweep (host.site, []) pairs
        let attempts := swept.world.2
        let left := attempts.flatMap fun attempt => (attempt.1.resume t attempt.2).1.tasks
        let next := host.turnOn t ready
        next = (swept.fault?, tidy t ⟨swept.world.1, swept.live⟩) ∧
        (next.1 = none → attempts.map Prod.snd = (pairs.filter Prod.snd).map Prod.fst ∧
          next.2.live = (pairs.filter turn.waits).map Prod.fst ++ left) ∧
        ∀ fault, next.1 = some fault → ∃ earlier failing, attempts = earlier ++ [failing] ∧
          (failing.1.resume t failing.2).1 = .fails fault ∧
          attempts.map Prod.snd <+: (pairs.filter Prod.snd).map Prod.fst ∧ next.2.live = left) ∧
      ∀ rounds place place' last, Skipped t host rounds place place' last →
        place' ≤ place ∧ (∀ one, host.live[place]? = some one → last.live[place']? = some one) ∧
        ∀ other other', Skipped t host rounds other other' last → place < other →
          place' < other' := by
  refine ⟨turnSampled t host, Site.resumeLeaves t, fun ready => ?_, ?_⟩
  · intro turn pairs swept attempts left next
    have goes := turn.sweepGoes host.site pairs
    have same : swept = _ := goes.recorded []
    have made : attempts = turn.attempts host.site pairs := congrArg (·.world.2) same
    simp only [left, made]
    refine ⟨?_, fun sound => ⟨(goes.inOrder sound).1, turnOnSkips sound⟩, fun fault failed => ?_⟩
    · rw [same]
      rfl
    · obtain ⟨earlier, failing, split, fails, before⟩ := goes.stops failed
      refine ⟨earlier, failing, split, fails, before, ?_⟩
      have live : next.2.live = (turn.sweep host.site pairs).registered := Turn.liveFailed failed
      exact live.trans goes.registers
  · intro rounds place place' last skipped
    obtain ⟨earlier, stays⟩ := skipped.stays
    exact ⟨earlier, stays, fun other other' skipped' before => skipped.order skipped' before⟩

theorem turnsKeepOrderAroundListener :
    let t := Duplex.transport
    let first := (({} : Host Duplex).connect {} (.ofOctets 10 0 0 1) {}).serve 0 .echo
    let host := ((first.listen .echo 1).connect {} (.ofOctets 10 0 0 2) {}).serve 1 .echo
    let rounds : List (Round Duplex) := [{ ready := (· == 1) }, { ready := fun _ => false }]
    let once := host.turnOn t (· == 1)
    let last := (once.2.turnOn t fun _ => false).2
    let broken := host.breakListeners.turnOn t (· == 1)
    Skipped t host rounds 0 0 last ∧ Skipped t host rounds 2 1 last ∧
      (∀ one, host.live[2]? = some one → last.live[1]? = some one) ∧
      (∀ front back, Skipped t host rounds 0 front last → Skipped t host rounds 2 back last →
        front < back) ∧
      once.1 = none ∧
      (∃ attempts : List (Site Duplex × Live), attempts.map Prod.snd = [.listener 0] ∧
        once.2.live.length = 2 +
          (attempts.flatMap fun attempt => (attempt.1.resume t attempt.2).1.tasks).length) ∧
      broken.1 = some (.listener .cannotAccept) ∧ broken.2.live = [] := by
  intro t first host rounds once last broken
  have sound : once.1 = none := rfl
  have skipped : Skipped t host rounds 0 0 last := .turn rfl rfl (.turn rfl rfl (.still _ _))
  have skipped' : Skipped t host rounds 2 1 last := .turn rfl rfl (.turn rfl rfl (.still _ _))
  have failed : broken.1 = some (.listener .cannotAccept) := rfl
  obtain ⟨_, _, turns, places⟩ := turnsKeepOrder t host
  obtain ⟨_, stays, _⟩ := places rounds 2 1 last skipped'
  obtain ⟨attempted, live⟩ := (turns (· == 1)).2.1 sound
  obtain ⟨_, _, stops, _⟩ := turnsKeepOrder t host.breakListeners
  obtain ⟨_, _, _, _, _, left⟩ := (stops (· == 1)).2.2 _ failed
  refine ⟨skipped, skipped', stays, fun front back ahead behind => ?_, sound, ⟨_, attempted, ?_⟩,
    failed, left⟩
  · obtain ⟨_, _, order⟩ := places rounds 0 front last ahead
    exact order 2 back behind (by decide)
  · exact (congrArg List.length live).trans List.length_append

end Host

end FileServer
