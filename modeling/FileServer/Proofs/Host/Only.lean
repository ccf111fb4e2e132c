import FileServer.Proofs.Host.Run

/-! One connection of many by itself. `only` keeps one link, its tasks and its events of a host, and
a turn of what is kept is what is kept of the turn. -/
namespace FileServer

namespace Host

variable {σ : Type} {c : Nat}

def ownLive (c : Nat) (live : List Live) : List Live := (tasksOf c live).map (.link 0)

theorem tasksOfAppend (c : Nat) (live more : List Live) :
    tasksOf c (live ++ more) = tasksOf c live ++ tasksOf c more := List.filterMap_append

theorem tasksOfOwn (c : Nat) (tasks : List Task) : tasksOf c (tasks.map (.link c)) = tasks := by
  induction tasks with
  | nil => rfl
  | cons task tasks ih =>
    simp only [tasksOf, List.map_cons, List.filterMap_cons, if_true] at ih ⊢
    rw [ih]

theorem tasksOfOther {index : Nat} (other : index ≠ c) (tasks : List Task) :
    tasksOf c (tasks.map (.link index)) = [] := by
  induction tasks with
  | nil => rfl
  | cons task tasks ih =>
    simp only [tasksOf, List.map_cons, List.filterMap_cons, if_neg other] at ih ⊢
    exact ih

theorem ownLiveAppend (c : Nat) (live more : List Live) :
    ownLive c (live ++ more) = ownLive c live ++ ownLive c more := by
  simp only [ownLive, tasksOfAppend, List.map_append]

theorem ownLiveOwn (c : Nat) (tasks : List Task) :
    ownLive c (tasks.map (.link c)) = tasks.map (.link 0) := by
  rw [ownLive, tasksOfOwn]

theorem ownLiveOther {index : Nat} (other : index ≠ c) (tasks : List Task) :
    ownLive c (tasks.map (.link index)) = [] := by
  rw [ownLive, tasksOfOther other, List.map_nil]

theorem eventsOfAppend (c : Nat) (events more : List (Nat × Event)) :
    eventsOf c (events ++ more) = eventsOf c events ++ eventsOf c more := List.filterMap_append

theorem eventsOfOwn (c : Nat) (events : List Event) : eventsOf c (events.map (c, ·)) = events := by
  induction events with
  | nil => rfl
  | cons event events ih =>
    simp only [eventsOf, List.map_cons, List.filterMap_cons, if_true] at ih ⊢
    rw [ih]

theorem eventsOfOther {index : Nat} (other : index ≠ c) (events : List Event) :
    eventsOf c (events.map (index, ·)) = [] := by
  induction events with
  | nil => rfl
  | cons event events ih =>
    simp only [eventsOf, List.map_cons, List.filterMap_cons, if_neg other] at ih ⊢
    exact ih

theorem worksOnOwn (c : Nat) (live : List Live) : worksOn (ownLive c live) 0 = worksOn live c := by
  induction live with
  | nil => rfl
  | cons one live ih =>
    cases one with
    | listener index => exact ih
    | link index task =>
      by_cases own : index = c
      · simp [worksOn, ownLive, tasksOf, own]
      · have other : (index == c) = false := beq_eq_false_iff_ne.mpr own
        simpa [worksOn, ownLive, tasksOf, own, other] using ih

end Host

namespace Site

variable {σ : Type} {c : Nat}

def only (c : Nat) (site : Site σ) : Site σ :=
  { links := (site.links[c]?).toList
    now := site.now
    events := (Host.eventsOf c site.events).map (0, ·) }

theorem linksOnly (site : Site σ) : (site.only c).links[0]? = site.links[c]? := by
  simp only [only]
  cases site.links[c]? <;> rfl

theorem modifyOwn (site : Site σ) (f : Link σ → Link σ) :
    (site.modifyLink c f).only c = (site.only c).modifyLink 0 f := by
  simp only [only, modifyLink, List.getElem?_modify_eq]
  cases site.links[c]? <;> rfl

theorem modifyOther {index : Nat} (other : index ≠ c) (site : Site σ) (f : Link σ → Link σ) :
    (site.modifyLink index f).only c = site.only c := by
  simp only [only, modifyLink, List.getElem?_modify_ne _ _ other]

theorem tellOwn (site : Site σ) (events : List Event) :
    (site.tell c events).only c = (site.only c).tell 0 events := by
  simp only [only, tell, Host.eventsOfAppend, Host.eventsOfOwn, List.map_append]

theorem tellOther {index : Nat} (other : index ≠ c) (site : Site σ) (events : List Event) :
    (site.tell index events).only c = site.only c := by
  simp only [only, tell, Host.eventsOfAppend, Host.eventsOfOther other, List.append_nil]

theorem readyOwn (t : Transport σ) (site : Site σ) (task : Task) :
    isReady t (site.only c) (.link 0 task) = isReady t site (.link c task) := by
  simp only [isReady, linksOnly]

def after (site : Site σ) (index : Nat) (socket : σ) (events : List Event) : Site σ :=
  (site.modifySocket index fun _ => socket).tell index events

theorem afterOwn (site : Site σ) (socket : σ) (events : List Event) :
    (site.after c socket events).only c = (site.only c).after 0 socket events := by
  rw [after, tellOwn, modifySocket, modifyOwn]
  rfl

theorem afterOther {index : Nat} (other : index ≠ c) (site : Site σ) (socket : σ)
    (events : List Event) : (site.after index socket events).only c = site.only c := by
  rw [after, tellOther other, modifySocket, modifyOther other]

theorem limitsModify (site : Site σ) (index : Nat) (f : Link σ → Link σ)
    (same : ∀ link, (f link).limits = link.limits) :
    (site.modifyLink index f).links.map Link.limits = site.links.map Link.limits := by
  refine List.ext_getElem? fun i => ?_
  simp only [modifyLink, List.getElem?_map, List.getElem?_modify]
  cases site.links[i]? with
  | none => rfl
  | some link =>
    split
    · exact congrArg some (same link)
    · rfl

theorem limitsAfter (site : Site σ) (index : Nat) (socket : σ) (events : List Event) :
    (site.after index socket events).links.map Link.limits = site.links.map Link.limits :=
  site.limitsModify index _ fun _ => rfl

theorem tellNothing (site : Site σ) (index : Nat) : site.tell index [] = site := by
  simp only [tell, List.map_nil, List.append_nil]

end Site

namespace Resumed

def events : Resumed → List Event
  | .completed events _ => events
  | .aborted events _ => events
  | _ => []

def tasks : Resumed → List Task
  | .kept task => [task]
  | .completed _ successor => successor.toList
  | _ => []

def abort? : Resumed → Option Abort
  | .aborted _ fault => some fault
  | _ => none

end Resumed

inductive Live.OnLink : Live → Prop where
  | intro (index : Nat) (task : Task) : OnLink (.link index task)

namespace Turn

variable {σ : Type} {c : Nat}

theorem sweepLink (t : Transport σ) (now index : Nat) (site : Site σ) (task : Task)
    (rest : List (Live × Bool)) {link : Link σ} (there : site.links[index]? = some link)
    (through : (task.resume t site.now link.socket).1.abort? = none) :
    let attempt := task.resume t site.now link.socket
    let swept := (Site.turn t now).sweep (site.after index attempt.2 attempt.1.events) rest
    (Site.turn t now).sweep site ((.link index task, true) :: rest) =
      { swept with registered := attempt.1.tasks.map (.link index) ++ swept.registered } := by
  simp only [sweep, Site.turn, Site.resume, there, Site.resumeLink]
  cases attempted : task.resume t site.now link.socket with
  | mk resumed socket =>
    rw [attempted] at through
    cases resumed with
    | kept task => simp [Resumed.events, Resumed.tasks, Site.after, Site.tellNothing]
    | completed events successor =>
      cases successor <;> simp [Resumed.events, Resumed.tasks, Site.after]
    | abandoned cause => simp [Resumed.events, Resumed.tasks, Site.after, Site.tellNothing]
    | aborted events fault => cases through

theorem sweepAborted (t : Transport σ) (now index : Nat) (site : Site σ) (task : Task)
    (rest : List (Live × Bool)) {link : Link σ} (there : site.links[index]? = some link)
    {fault : Abort} (aborts : (task.resume t site.now link.socket).1.abort? = some fault) :
    let attempt := task.resume t site.now link.socket
    (Site.turn t now).sweep site ((.link index task, true) :: rest) =
      ⟨site.after index attempt.2 attempt.1.events, [], [], some (.aborted fault)⟩ := by
  simp only [sweep, Site.turn, Site.resume, there, Site.resumeLink]
  cases attempted : task.resume t site.now link.socket with
  | mk resumed socket =>
    rw [attempted] at aborts
    cases resumed with
    | kept task => cases aborts
    | completed events successor => cases aborts
    | abandoned cause => cases aborts
    | aborted events other =>
      cases aborts
      rfl

theorem soundThrough (t : Transport σ) (now index : Nat) (site : Site σ) (task : Task)
    (rest : List (Live × Bool)) {link : Link σ} (there : site.links[index]? = some link)
    (sound : ((Site.turn t now).sweep site ((.link index task, true) :: rest)).fault? = none) :
    (task.resume t site.now link.socket).1.abort? = none := by
  cases aborts : (task.resume t site.now link.socket).1.abort? with
  | none => rfl
  | some fault =>
    rw [sweepAborted t now index site task rest there aborts] at sound
    cases sound

theorem sweepGone (t : Transport σ) (now index : Nat) (site : Site σ) (task : Task)
    (rest : List (Live × Bool)) (gone : site.links[index]? = none) :
    (Site.turn t now).sweep site ((.link index task, true) :: rest) =
      (Site.turn t now).sweep site rest := by
  simp only [sweep, Site.turn, Site.resume, gone]

theorem sweepWaiting (t : Transport σ) (now index : Nat) (site : Site σ) (task : Task)
    (rest : List (Live × Bool)) :
    let swept := (Site.turn t now).sweep site rest
    (Site.turn t now).sweep site ((.link index task, false) :: rest) =
      { swept with skipped := (if task.expired now then [] else [.link index task]) ++ swept.skipped } := by
  intro swept
  cases late : task.expired now with
  | true =>
    have expired : (Site.turn t now).expired (.link index task) = true := late
    rw [sweep, if_pos expired]
    rfl
  | false =>
    have waits : ¬ (Site.turn t now).expired (.link index task) = true := by
      rw [show (Site.turn t now).expired (.link index task) = false from late]
      exact Bool.false_ne_true
    rw [sweep, if_neg waits]
    rfl

def Swept.only (c : Nat) (swept : Swept (Site σ) Live) : Swept (Site σ) Live :=
  ⟨swept.world.only c, Host.ownLive c swept.skipped, Host.ownLive c swept.registered, swept.fault?⟩

def ownPairs (c : Nat) (pairs : List (Live × Bool)) : List (Live × Bool) :=
  pairs.filterMap fun
    | (.link index task, ready) => if index = c then some (.link 0 task, ready) else none
    | (.listener _, _) => none

theorem sampleAll {ω τ : Type} (turn : Turn ω τ) (w : ω) {holds : τ → Prop} {live : List τ}
    (all : ∀ one ∈ live, holds one) : ∀ pair ∈ turn.sample w live, holds pair.1 := by
  intro pair mem
  obtain ⟨one, there, rfl⟩ := List.mem_map.mp mem
  exact all one there

theorem sampleOnly (t : Transport σ) (now : Nat) (site : Site σ) (live : List Live) :
    ownPairs c ((Site.turn t now).sample site live) =
      (Site.turn t now).sample (site.only c) (Host.ownLive c live) := by
  induction live with
  | nil => rfl
  | cons one live ih =>
    simp only [sample, ownPairs, Host.ownLive, Host.tasksOf, List.map_cons, List.filterMap_cons] at ih ⊢
    cases one with
    | listener index => exact ih
    | link index task =>
      by_cases own : index = c
      · subst own
        simp only [if_true, List.map_cons, ih]
        rw [show (Site.turn t now).ready (site.only index) (.link 0 task) =
          (Site.turn t now).ready site (.link index task) from Site.readyOwn t site task]
      · simp only [if_neg own]
        exact ih

section Sound

variable (t : Transport σ) (now : Nat) {index : Nat} {site : Site σ} {task : Task} {ready : Bool}
  {rest : List (Live × Bool)}
  (later : ∀ site : Site σ, ((Site.turn t now).sweep site rest).fault? = none →
    (Site.turn t now).sweep (site.only c) (ownPairs c rest) =
      ((Site.turn t now).sweep site rest).only c)
include later

theorem sweepOwn
    (sound : ((Site.turn t now).sweep site ((.link c task, ready) :: rest)).fault? = none) :
    (Site.turn t now).sweep (site.only c) ((.link 0 task, ready) :: ownPairs c rest) =
      ((Site.turn t now).sweep site ((.link c task, ready) :: rest)).only c := by
  cases ready with
  | false =>
    rw [sweepWaiting] at sound
    rw [sweepWaiting, sweepWaiting, later site sound]
    simp only [Swept.only, Host.ownLiveAppend]
    split
    · rfl
    · have one : Host.ownLive c [.link c task] = [.link 0 task] := Host.ownLiveOwn c [task]
      rw [one]
  | true =>
    cases there : site.links[c]? with
    | none =>
      have gone := (Site.linksOnly site).trans there
      rw [sweepGone t now c site task rest there] at sound
      rw [sweepGone t now c site task rest there, sweepGone t now 0 _ task _ gone]
      exact later site sound
    | some link =>
      have own := (Site.linksOnly site).trans there
      have through := soundThrough t now c site task rest there sound
      rw [sweepLink t now c site task rest there through] at sound
      rw [sweepLink t now c site task rest there through, sweepLink t now 0 _ task _ own through]
      rw [show (site.only c).now = site.now from rfl, ← Site.afterOwn, later _ sound]
      simp only [Swept.only, Host.ownLiveAppend, Host.ownLiveOwn]

theorem sweepOther (other : index ≠ c)
    (sound : ((Site.turn t now).sweep site ((.link index task, ready) :: rest)).fault? = none) :
    (Site.turn t now).sweep (site.only c) (ownPairs c rest) =
      ((Site.turn t now).sweep site ((.link index task, ready) :: rest)).only c := by
  cases ready with
  | false =>
    rw [sweepWaiting] at sound
    rw [sweepWaiting, later site sound]
    simp only [Swept.only, Host.ownLiveAppend]
    split
    · rfl
    · have none' : Host.ownLive c [.link index task] = [] := Host.ownLiveOther other [task]
      rw [none', List.nil_append]
  | true =>
    cases there : site.links[index]? with
    | none =>
      rw [sweepGone t now index site task rest there] at sound
      rw [sweepGone t now index site task rest there]
      exact later site sound
    | some link =>
      have through := soundThrough t now index site task rest there sound
      rw [sweepLink t now index site task rest there through] at sound
      rw [sweepLink t now index site task rest there through]
      simp only [Swept.only, Host.ownLiveAppend, Host.ownLiveOther other, List.nil_append]
      rw [← Site.afterOther other site (task.resume t site.now link.socket).2
        (task.resume t site.now link.socket).1.events, later _ sound]
      rfl

end Sound

theorem sweepOnly (t : Transport σ) (now : Nat) (site : Site σ) (pairs : List (Live × Bool))
    (onLinks : ∀ pair ∈ pairs, pair.1.OnLink)
    (sound : ((Site.turn t now).sweep site pairs).fault? = none) :
    (Site.turn t now).sweep (site.only c) (ownPairs c pairs) =
      ((Site.turn t now).sweep site pairs).only c := by
  -- Readiness was sampled before; the site varies, for each attempt leaves another one behind.
  induction pairs generalizing site with
  | nil => rfl
  | cons pair rest ih =>
    obtain ⟨one, ready⟩ := pair
    have later := fun site => ih site fun pair mem => onLinks pair (List.mem_cons_of_mem _ mem)
    obtain ⟨index, task⟩ := onLinks _ List.mem_cons_self
    by_cases own : index = c
    · subst own
      have pairs : ownPairs index ((.link index task, ready) :: rest) =
          (.link 0 task, ready) :: ownPairs index rest := by
        simp only [ownPairs, List.filterMap_cons, if_true]
      rw [pairs]
      exact sweepOwn t now later sound
    · have pairs : ownPairs c ((.link index task, ready) :: rest) = ownPairs c rest := by
        simp only [ownPairs, List.filterMap_cons, if_neg own]
      rw [pairs]
      exact sweepOther t now later own sound

theorem liveOnly (c : Nat) (swept : Swept (Site σ) Live) :
    (swept.only c).live = Host.ownLive c swept.live := by
  simp only [Swept.live, Swept.only]
  split
  · rw [Host.ownLiveAppend]
  · rfl

end Turn

end FileServer
