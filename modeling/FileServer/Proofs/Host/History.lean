import Mathlib.Data.List.Perm.Basic
import Mathlib.Data.List.Perm.Subperm
import Mathlib.Logic.Relation
import FileServer.Proofs.Host.Attempts

/-! Histories of a host that listens. Of the host that they leave, `Ledger` is what decides about the
connections one by one, and `Change` is all that may happen to it; what every change keeps holds
after any history. -/
namespace FileServer

variable {σ : Type} {t : Transport σ}

def Listener.clients (listener : Listener) : List Nat := listener.queue.filterMap Except.toOption

def Site.waiting (site : Site σ) : List Nat := site.listeners.flatMap Listener.clients

def Site.takes? (site : Site σ) : Live → Option (Nat × Option Context)
  | .link _ _ => none
  | .listener index =>
    match site.listeners[index]? with
    | none => none
    | some listener =>
      match listener.broken, listener.queue with
      | false, .ok c :: _ => some (c, (site.links[c]?).map (Site.context · listener.service))
      | _, _ => none

structure Ledger (σ : Type) where
  opened : Nat
  waiting : List Nat
  tasks : List Live
  events : List (Nat × Event)
  past : List (Site σ × Live)

def Site.ledger (site : Site σ) (tasks : List Live) (past : List (Site σ × Live)) : Ledger σ :=
  ⟨site.links.length, site.waiting, tasks, site.events, past⟩

inductive Change (t : Transport σ) : Ledger σ → Ledger σ → Prop where
  | reordered (l : Ledger σ) {waiting : List Nat} {tasks : List Live}
      (clients : l.waiting.Perm waiting) (live : l.tasks.Perm tasks) :
      Change t l { l with waiting, tasks }
  | lost (l : Ledger σ) (task : Live) : Change t { l with tasks := task :: l.tasks } l
  | withdrawn (l : Ledger σ) (c : Nat) : Change t { l with waiting := c :: l.waiting } l
  | connected (l : Ledger σ) :
      Change t l { l with opened := l.opened + 1, waiting := l.opened :: l.waiting }
  | watched (l : Ledger σ) (index : Nat) :
      Change t l { l with tasks := .listener index :: l.tasks }
  | attempted (l : Ledger σ) (site : Site σ) (index : Nat) (task : Task) {link : Link σ}
      {resumed : Resumed} {socket : σ} (there : site.links[index]? = some link)
      (attempt : task.resume t site.now link.socket = (resumed, socket)) :
      Change t { l with tasks := .link index task :: l.tasks }
        { l with
          tasks := resumed.tasks.map (.link index) ++ l.tasks
          events := l.events ++ resumed.events.map (index, ·)
          past := l.past ++ [(site, .link index task)] }
  | missed (l : Ledger σ) (site : Site σ) (index : Nat) (task : Task)
      (gone : site.links[index]? = none) :
      Change t { l with tasks := .link index task :: l.tasks }
        { l with past := l.past ++ [(site, .link index task)] }
  | listened (l : Ledger σ) (site : Site σ) (index : Nat)
      (nothing : site.takes? (.listener index) = none) :
      Change t { l with tasks := .listener index :: l.tasks }
        { l with
          tasks := .listener index :: l.tasks
          past := l.past ++ [(site, .listener index)] }
  | accepted (l : Ledger σ) (site : Site σ) (index c : Nat) {context? : Option Context}
      (takes : site.takes? (.listener index) = some (c, context?)) :
      Change t { l with waiting := c :: l.waiting, tasks := .listener index :: l.tasks }
        { l with
          tasks := .listener index ::
            (((context?.bind (Task.serve? · site.now)).map (Live.link c)).toList ++ l.tasks)
          past := l.past ++ [(site, .listener index)] }

abbrev Changes (t : Transport σ) : Ledger σ → Ledger σ → Prop := Relation.ReflTransGen (Change t)

namespace Site

def pop (site : Site σ) (index : Nat) (listener : Listener) (queue : List Arrival) : Site σ :=
  { site with listeners := site.listeners.set index { listener with queue } }

theorem clientsSet {listeners : List Listener} {index : Nat} {listener : Listener}
    (there : listeners[index]? = some listener) :
    ∃ others, (listeners.flatMap Listener.clients).Perm (listener.clients ++ others) ∧
      ∀ changed : Listener, ((listeners.set index changed).flatMap Listener.clients).Perm
        (changed.clients ++ others) := by
  obtain ⟨bound, rfl⟩ := List.getElem?_eq_some_iff.mp there
  refine ⟨(listeners.eraseIdx index).flatMap Listener.clients, ?_, fun changed => ?_⟩
  · exact ((List.getElem_cons_eraseIdx_perm bound).flatMap_right Listener.clients).symm
  · exact (List.set_perm_cons_eraseIdx bound changed).flatMap_right Listener.clients

theorem waitingPop {site : Site σ} {index : Nat} {listener : Listener} {first : Arrival}
    {queue : List Arrival} (there : site.listeners[index]? = some listener)
    (queued : listener.queue = first :: queue) :
    site.waiting.Perm (first.toOption.toList ++ (site.pop index listener queue).waiting) := by
  obtain ⟨others, before, after⟩ := clientsSet there
  have clients : listener.clients =
      first.toOption.toList ++ { listener with queue : Listener }.clients := by
    simp only [Listener.clients, queued, List.filterMap_cons]
    cases first <;> rfl
  rw [clients, List.append_assoc] at before
  exact before.trans ((after { listener with queue }).symm.append_left _)

theorem afterLedger (site : Site σ) (index : Nat) (socket : σ) (events : List Event)
    (tasks : List Live) (past : List (Site σ × Live)) :
    (site.after index socket events).ledger tasks past =
      { site.ledger tasks past with events := site.events ++ events.map (index, ·) } := by
  have length : (site.after index socket events).links.length = site.links.length :=
    List.length_modify ..
  simp only [ledger, length]
  rfl

theorem resumeLinkLeaves {site : Site σ} {index : Nat} {task : Task} {link : Link σ}
    {resumed : Resumed} {socket : σ} (there : site.links[index]? = some link)
    (attempt : task.resume t site.now link.socket = (resumed, socket)) :
    (site.resume t (.link index task)).1.tasks = resumed.tasks.map (.link index) ∧
      (site.resume t (.link index task)).2 = site.after index socket resumed.events := by
  simp only [resume, there, resumeLink, attempt]
  cases resumed with
  | kept task => exact ⟨rfl, (tellNothing _ index).symm⟩
  | completed events successor => cases successor <;> exact ⟨rfl, rfl⟩
  | abandoned cause => exact ⟨rfl, (tellNothing _ index).symm⟩
  | aborted events fault => exact ⟨rfl, rfl⟩

theorem acceptLedger (site : Site σ) (index : Nat) (listener : Listener) (c : Nat)
    (tasks : List Live) (past : List (Site σ × Live)) :
    let accepted := site.accept index listener (.ok c)
    let context? := (site.links[c]?).map (context · listener.service)
    accepted.2.ledger (accepted.1.tasks ++ tasks) past = site.ledger (.listener index ::
      (((context?.bind (Task.serve? · site.now)).map (Live.link c)).toList ++ tasks)) past := by
  simp only [accept, takeIn]
  cases site.links[c]? with
  | none => rfl
  | some link =>
    simp only [ledger, modifyLink, List.length_modify]
    rfl

section Attempts

variable (tasks : List Live) (past : List (Site σ × Live))

theorem linkChanges (site : Site σ) (index : Nat) (task : Task) :
    let attempt := site.resume t (.link index task)
    Changes t (site.ledger (.link index task :: tasks) past)
      (attempt.2.ledger (attempt.1.tasks ++ tasks) (past ++ [(site, .link index task)])) := by
  cases there : site.links[index]? with
  | none =>
    simp only [resume, there]
    exact .single (.missed (site.ledger tasks past) site index task there)
  | some link =>
    cases attempt : task.resume t site.now link.socket with
    | mk resumed socket =>
      obtain ⟨successors, leaves⟩ := resumeLinkLeaves there attempt
      simp only [successors, leaves, afterLedger]
      exact .single (.attempted (site.ledger tasks past) site index task there attempt)

theorem listenerChanges (site : Site σ) (index : Nat) :
    let attempt := site.resume t (.listener index)
    Changes t (site.ledger (.listener index :: tasks) past)
      (attempt.2.ledger (attempt.1.tasks ++ tasks) (past ++ [(site, .listener index)])) := by
  have waits (nothing : site.takes? (.listener index) = none) :
      Changes t (site.ledger (.listener index :: tasks) past)
        (site.ledger (.listener index :: tasks) (past ++ [(site, .listener index)])) :=
    .single (.listened (site.ledger tasks past) site index nothing)
  have lost (left : Site σ) := Change.lost (t := t)
    (left.ledger tasks (past ++ [(site, .listener index)])) (.listener index)
  cases there : site.listeners[index]? with
  | none =>
    have nothing : site.takes? (.listener index) = none := by simp only [takes?, there]
    simp only [resume, there]
    exact (waits nothing).tail (lost site)
  | some listener =>
    simp only [resume, there, resumeListener]
    split
    · next broken =>
      have nothing : site.takes? (.listener index) = none := by
        simp only [takes?, there, broken]
      exact (waits nothing).tail (lost site)
    · next works =>
      have works := Bool.eq_false_iff.mpr works
      split
      · next queued =>
        have nothing : site.takes? (.listener index) = none := by
          simp only [takes?, there, works, queued]
        exact waits nothing
      · next first queue queued =>
        have popped {l : Ledger σ} (same : l.waiting = site.waiting) := Change.reordered (t := t) l
          (same ▸ waitingPop there queued) (.refl l.tasks)
        cases first with
        | error cause =>
          have nothing : site.takes? (.listener index) = none := by
            simp only [takes?, there, works, queued]
          have popped := (waits nothing).tail (popped rfl)
          simp only [accept]
          split
          · exact popped
          · exact popped.tail (lost (site.pop index listener queue))
        | ok c =>
          have takes : site.takes? (.listener index) =
              some (c, (site.links[c]?).map (context · listener.service)) := by
            simp only [takes?, there, works, queued]
          have accepted := Change.accepted (t := t)
            ((site.pop index listener queue).ledger tasks past) site index c takes
          have popped := popped (l := site.ledger (.listener index :: tasks) past) rfl
          have taken := (Relation.ReflTransGen.single popped).tail accepted
          have leaves := acceptLedger (site.pop index listener queue) index listener c tasks
            (past ++ [(site, .listener index)])
          exact Eq.mpr (congrArg (Changes t _) leaves) taken

end Attempts

theorem changesKept (t : Transport σ) (now : Nat) (before : Ledger σ) :
    (turn t now).Keeps fun site tasks past => Changes t before (site.ledger tasks past) where
  inAnyOrder same changes := changes.tail (.reordered _ (.refl _) same)
  afterLoss changes := changes.tail (.lost (ledger _ _ _) _)
  afterAttempt := by
    intro site one tasks past changes
    cases one with
    | link index task => exact changes.trans (linkChanges tasks past site index task)
    | listener index => exact changes.trans (listenerChanges tasks past site index)

end Site

section Touches

open Host (tasksOf eventsOf tasksOfAppend tasksOfOwn tasksOfOther eventsOfAppend eventsOfOwn
  eventsOfOther)

variable {c : Nat} {l l' : Ledger σ}

def Spares (c : Nat) : Site σ × Live → Prop
  | (site, .link index _) => index = c → site.links[c]? = none
  | (site, .listener index) => ∀ context?, site.takes? (.listener index) ≠ some (c, context?)

inductive Touch (t : Transport σ) (c : Nat) (l l' : Ledger σ) : Prop where
  | spared {more : List (Site σ × Live)} (spares : ∀ one ∈ more, Spares c one)
      (past : l'.past = l.past ++ more) (fewer : (tasksOf c l'.tasks).Subperm (tasksOf c l.tasks))
      (told : eventsOf c l'.events = eventsOf c l.events)
  | attempted {site : Site σ} {task : Task} {others : List Task} {link : Link σ} {resumed : Resumed}
      {socket : σ} (there : site.links[c]? = some link)
      (attempt : task.resume t site.now link.socket = (resumed, socket))
      (past : l'.past = l.past ++ [(site, .link c task)])
      (before : tasksOf c l.tasks = task :: others)
      (after : tasksOf c l'.tasks = resumed.tasks ++ others)
      (told : eventsOf c l'.events = eventsOf c l.events ++ resumed.events)
  | accepted {site : Site σ} {index : Nat} {context? : Option Context}
      (takes : site.takes? (.listener index) = some (c, context?)) (waited : c ∈ l.waiting)
      (past : l'.past = l.past ++ [(site, .listener index)])
      (after : tasksOf c l'.tasks =
        (context?.bind (Task.serve? · site.now)).toList ++ tasksOf c l.tasks)
      (told : eventsOf c l'.events = eventsOf c l.events)

theorem Touch.still (past : l'.past = l.past)
    (fewer : (tasksOf c l'.tasks).Subperm (tasksOf c l.tasks))
    (told : eventsOf c l'.events = eventsOf c l.events) : Touch t c l l' :=
  have nothing : ∀ one ∈ ([] : List (Site σ × Live)), Spares c one := nofun
  .spared nothing (by rw [past, List.append_nil]) fewer told

theorem Touch.passing {one : Site σ × Live} (spares : Spares c one) (past : l'.past = l.past ++ [one])
    (fewer : (tasksOf c l'.tasks).Subperm (tasksOf c l.tasks))
    (told : eventsOf c l'.events = eventsOf c l.events) : Touch t c l l' := by
  refine .spared ?_ past fewer told
  intro other mem
  obtain rfl := List.mem_singleton.mp mem
  exact spares

theorem Change.touch (change : Change t l l') (c : Nat) : Touch t c l l' := by
  have own (task : Task) (live : List Live) :
      tasksOf c (.link c task :: live) = task :: tasksOf c live :=
    (tasksOfAppend c [.link c task] live).trans
      (congrArg (· ++ tasksOf c live) (tasksOfOwn c [task]))
  have other {index : Nat} (apart : index ≠ c) (tasks : List Task) (live : List Live) :
      tasksOf c (tasks.map (.link index) ++ live) = tasksOf c live := by
    rw [tasksOfAppend, tasksOfOther apart, List.nil_append]
  cases change with
  | reordered _ clients live => exact .still rfl (live.filterMap _).symm.subperm rfl
  | lost _ task => exact .still rfl ((List.sublist_cons_self _ _).filterMap _).subperm rfl
  | withdrawn _ d => exact .still rfl (.refl _) rfl
  | connected => exact .still rfl (.refl _) rfl
  | watched _ index => exact .still rfl (.refl _) rfl
  | attempted l site index task there attempt =>
    by_cases same : index = c
    · subst same
      refine .attempted there attempt rfl (own task l.tasks) ?_ ?_
      · rw [tasksOfAppend, tasksOfOwn]
      · rw [eventsOfAppend, eventsOfOwn]
    · have spares : Spares c (site, .link index task) := fun mine => absurd mine same
      refine .passing spares rfl ?_ ?_
      · have before := other same [task] l.tasks
        exact (List.Perm.of_eq ((other same _ l.tasks).trans before.symm)).subperm
      · simp only [eventsOfAppend, eventsOfOther same, List.append_nil]
  | missed l site index task gone =>
    have spares : Spares c (site, .link index task) := by
      rintro rfl
      exact gone
    exact .passing spares rfl ((List.sublist_cons_self _ _).filterMap _).subperm rfl
  | listened l site index nothing =>
    have spares : Spares c (site, .listener index) := by
      intro context?
      rw [nothing]
      exact nofun
    exact .passing spares rfl (.refl _) rfl
  | @accepted l site index d context? takes =>
    rw [Option.toList_map]
    by_cases same : d = c
    · subst same
      refine .accepted takes List.mem_cons_self rfl ?_ rfl
      exact (tasksOfAppend ..).trans (congrArg (· ++ tasksOf d l.tasks) (tasksOfOwn d _))
    · have spares : Spares c (site, .listener index) := by
        intro context?
        rw [takes]
        rintro ⟨⟩
        exact same rfl
      exact .passing spares rfl (List.Perm.of_eq (other same _ l.tasks)).subperm rfl

end Touches

namespace Host

/-- What may happen to a host that listens. Clients come to one listener or another, or fail to; what
happens on a socket is any act on it. -/
inductive Happening (σ : Type)
  | listen (service : Service) (tasks : Nat)
  | watch (listener : Nat)
  | connect (listener : Nat) (socket : σ) (remote : Address) (limits : Limits)
  | refuse (listener : Nat) (cause : Failure)
  | peer (index : Nat) (does : σ → σ)
  | turn
  | pass (milliseconds : Nat)

def undergo (t : Transport σ) (host : Host σ) : Happening σ → Host σ
  | .listen service tasks => host.listen service tasks
  | .watch listener =>
    if listener < host.site.listeners.length then
      { host with live := host.live ++ [.listener listener] }
    else host
  | .connect listener socket remote limits =>
    (host.connect socket remote limits).arrive listener (.ok host.site.links.length)
  | .refuse listener cause => host.arrive listener (.error cause)
  | .peer index does => host.onSocket index does
  | .turn => (host.turn t).2
  | .pass milliseconds => host.pass milliseconds

def attempts (t : Transport σ) (host : Host σ) : Happening σ → List (Site σ × Live)
  | .turn =>
    let turn := Site.turn t host.site.now
    turn.attempts host.site (turn.sample host.site host.live)
  | _ => []

def history (t : Transport σ) (host : Host σ) : List (Happening σ) → List (Site σ × Live) × Host σ
  | [] => ([], host)
  | next :: rest =>
    let (later, last) := history t (host.undergo t next) rest
    (host.attempts t next ++ later, last)

def ledger (host : Host σ) (past : List (Site σ × Live)) : Ledger σ :=
  host.site.ledger host.live past

theorem arriveChanges (host : Host σ) (listener : Nat) (arrival : Arrival)
    (past : List (Site σ × Live)) :
    Changes t { host.ledger past with waiting := arrival.toOption.toList ++ host.site.waiting }
      ((host.arrive listener arrival).ledger past) := by
  cases there : host.site.listeners[listener]? with
  | none =>
    have same : host.arrive listener arrival = host := by
      simp only [arrive, modifyListener, List.modify_eq_set_getElem?, there]
      rfl
    rw [same]
    cases arrival with
    | error cause => exact .refl
    | ok c => exact .single (.withdrawn (host.ledger past) c)
  | some found =>
    obtain ⟨others, before, after⟩ := Site.clientsSet there
    have same : (host.arrive listener arrival).site.waiting = (host.site.listeners.set listener
        { found with queue := found.queue ++ [arrival] }).flatMap Listener.clients := by
      simp only [arrive, modifyListener, List.modify_eq_set_getElem?, there]
      rfl
    have clients : { found with queue := found.queue ++ [arrival] : Listener }.clients =
        found.clients ++ arrival.toOption.toList := by
      simp only [Listener.clients, List.filterMap_append]
      cases arrival <;> rfl
    have joined := after { found with queue := found.queue ++ [arrival] }
    rw [← same, clients] at joined
    have moved : (arrival.toOption.toList ++ host.site.waiting).Perm
        (host.arrive listener arrival).site.waiting := by
      refine (before.append_left _).trans (.trans ?_ joined.symm)
      rw [← List.append_assoc]
      exact List.perm_append_comm.append_right others
    exact .single (.reordered _ moved (.refl _))

theorem watchedChanges (l : Ledger σ) (index times : Nat) :
    Changes t l { l with tasks := l.tasks ++ List.replicate times (.listener index) } := by
  induction times generalizing l with
  | zero =>
    simp only [List.replicate_zero, List.append_nil]
    exact .refl
  | succ times ih =>
    have one := Change.watched (t := t) l index
    have more := (ih { l with tasks := .listener index :: l.tasks }).head one
    rw [List.replicate_succ]
    exact more.tail (.reordered _ (.refl _) List.perm_middle.symm)

theorem tidyLedger (host : Host σ) (past : List (Site σ × Live)) :
    (host.tidy t).ledger past = host.ledger past := by
  simp only [tidy, ledger, Site.ledger, List.length_mapIdx]
  rfl

theorem undergoChanges (t : Transport σ) (host : Host σ) (next : Happening σ)
    (past : List (Site σ × Live)) :
    Changes t (host.ledger past) ((host.undergo t next).ledger (past ++ host.attempts t next)) := by
  cases next with
  | listen service tasks =>
    have watched := watchedChanges (t := t) (host.ledger past) host.site.listeners.length tasks
    have waiting : (host.listen service tasks).site.waiting = host.site.waiting := by
      simp only [listen, Site.waiting, List.flatMap_append]
      exact List.append_nil _
    simp only [attempts, List.append_nil, undergo, ledger, Site.ledger, waiting]
    exact watched
  | watch listener =>
    simp only [attempts, List.append_nil, undergo]
    split
    · exact watchedChanges (host.ledger past) listener 1
    · exact .refl
  | connect listener socket remote limits =>
    have connected := Change.connected (t := t) (host.ledger past)
    have arrived := arriveChanges (t := t) (host.connect socket remote limits) listener
      (.ok host.site.links.length) past
    have length : (host.connect socket remote limits).site.links.length =
        host.site.links.length + 1 := List.length_append
    simp only [ledger, Site.ledger, length] at arrived
    simp only [attempts, List.append_nil]
    exact .head connected arrived
  | refuse listener cause =>
    simp only [attempts, List.append_nil]
    exact arriveChanges host listener (.error cause) past
  | peer index does =>
    simp only [attempts, List.append_nil]
    have length : (host.site.modifySocket index does).links.length = host.site.links.length :=
      List.length_modify ..
    simp only [undergo, onSocket, ledger, Site.ledger, length]
    exact .refl
  | turn =>
    have kept := (Site.changesKept t host.site.now (host.ledger past)).take host.site host.live past
      .refl
    simp only [undergo, turn, tidyLedger]
    exact kept
  | pass milliseconds =>
    simp only [attempts, List.append_nil]
    exact .refl

theorem historyChanges (t : Transport σ) (host : Host σ) (happenings : List (Happening σ))
    (past : List (Site σ × Live)) :
    let history := host.history t happenings
    Changes t (host.ledger past) (history.2.ledger (past ++ history.1)) := by
  induction happenings generalizing host past with
  | nil =>
    simp only [history, List.append_nil]
    exact .refl
  | cons next rest ih =>
    have later := ih (host.undergo t next) (past ++ host.attempts t next)
    simp only [List.append_assoc] at later
    exact (undergoChanges t host next past).trans later

end Host

end FileServer
