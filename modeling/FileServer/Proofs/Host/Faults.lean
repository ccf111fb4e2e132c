import FileServer.Proofs.Host.Only

/-! How a turn of a run without listeners may fail. Of every live task it is known on which link it
works, under which limits, and what it may come to write; so a turn fails only where a slice of that
goes beyond a word. -/
namespace FileServer

variable {σ : Type} {t : Transport σ} {opened : List Limits} {writes : Nat → Bytes → Prop}

inductive Live.Writes (opened : List Limits) (writes : Nat → Bytes → Prop) : Live → Prop where
  | link {index : Nat} {task : Task} {limits : Limits} (there : opened[index]? = some limits)
      (known : task.Writes (writes index) limits) : Writes opened writes (.link index task)

theorem Live.Writes.onLink {one : Live} (known : one.Writes opened writes) : one.OnLink := by
  obtain ⟨there, known⟩ := known
  exact .intro _ _

theorem Resumed.Writes.tasks {writes : Bytes → Prop} {limits : Limits} {resumed : Resumed}
    (known : resumed.Writes writes limits) : ∀ task ∈ resumed.tasks, task.Writes writes limits := by
  intro task mem
  cases known with
  | kept known =>
    obtain rfl := List.mem_singleton.mp mem
    exact known
  | completed known => exact known task (Option.mem_toList.mp mem)
  | abandoned => cases mem
  | aborted said past => cases mem

namespace Turn

theorem sweepWrites (t : Transport σ) (now : Nat) (site : Site σ) (pairs : List (Live × Bool))
    (known : ∀ pair ∈ pairs, pair.1.Writes opened writes) :
    let swept := (Site.turn t now).sweep site pairs
    (∀ one ∈ swept.skipped, one.Writes opened writes) ∧
      (∀ one ∈ swept.registered, one.Writes opened writes) ∧
      swept.world.links.map Link.limits = site.links.map Link.limits ∧
      ∀ fault, swept.fault? = some fault →
        fault = .aborted .offsetOverflow ∧ ∃ index, Host.Overlong opened writes index := by
  induction pairs generalizing site with
  | nil => exact ⟨nofun, nofun, rfl, nofun⟩
  | cons pair rest ih =>
    obtain ⟨one, ready⟩ := pair
    have later := fun site => ih site fun pair mem => known pair (List.mem_cons_of_mem _ mem)
    cases known _ List.mem_cons_self with
    | @link index task limits opened' told =>
      cases ready with
      | false =>
        obtain ⟨skipped, registered, same, faults⟩ := later site
        rw [sweepWaiting]
        refine ⟨?_, registered, same, faults⟩
        intro one mem
        rcases List.mem_append.mp mem with mem | mem
        · split at mem
          · cases mem
          · obtain rfl := List.mem_singleton.mp mem
            exact .link opened' told
        · exact skipped one mem
      | true =>
        cases there : site.links[index]? with
        | none =>
          rw [sweepGone t now index site task rest there]
          exact later site
        | some link =>
          have attempt := Task.resumeWrites t told site.now link.socket
          have kept := Site.limitsAfter site index (task.resume t site.now link.socket).2
            (task.resume t site.now link.socket).1.events
          cases aborts : (task.resume t site.now link.socket).1.abort? with
          | some fault =>
            rw [sweepAborted t now index site task rest there aborts]
            refine ⟨nofun, nofun, kept, ?_⟩
            rintro - ⟨⟩
            generalize (task.resume t site.now link.socket).1 = resumed at attempt aborts
            cases attempt with
            | aborted said past =>
              cases aborts
              exact ⟨rfl, index, limits, _, opened', said, past⟩
            | _ => cases aborts
          | none =>
            rw [sweepLink t now index site task rest there aborts]
            obtain ⟨skipped, registered, same, faults⟩ := later
              (site.after index (task.resume t site.now link.socket).2
                (task.resume t site.now link.socket).1.events)
            refine ⟨skipped, ?_, same.trans kept, faults⟩
            intro one mem
            rcases List.mem_append.mp mem with mem | mem
            · obtain ⟨successor, goes, rfl⟩ := List.mem_map.mp mem
              exact .link opened' (attempt.tasks successor goes)
            · exact registered one mem

end Turn

namespace Host

/-- What holds before every step of a run without listeners. A link that is neither kept nor worked on
has been closed, so that tidying up behind another connection does not touch it. -/
structure Calm (opened : List Limits) (writes : Nat → Bytes → Prop) (moves : List (Move σ))
    (host : Host σ) : Prop where
  limits : host.site.links.map Link.limits ++ moves.filterMap Move.limits? = opened
  said : ∀ move ∈ moves, ∀ index payload, move.Writes index payload → writes index payload
  live : ∀ one ∈ host.live, one.Writes opened writes
  tidied : ∀ i link, host.site.links[i]? = some link →
    link.held ∨ worksOn host.live i ∨ link.closed

variable {host : Host σ} {move : Move σ} {rest : List (Move σ)}

theorem Calm.further (calm : host.Calm opened writes (move :: rest)) {next : Host σ}
    (limits : next.site.links.map Link.limits =
      host.site.links.map Link.limits ++ move.limits?.toList)
    (live : ∀ one ∈ next.live, one.Writes opened writes)
    (tidied : ∀ i link, next.site.links[i]? = some link →
      link.held ∨ worksOn next.live i ∨ link.closed) : next.Calm opened writes rest := by
  refine ⟨?_, fun move mem => calm.said move (List.mem_cons_of_mem _ mem), live, tidied⟩
  rw [limits, ← calm.limits, List.append_assoc]
  refine congrArg (_ ++ ·) ?_
  cases move <;> rfl

theorem Calm.linkLimits (calm : host.Calm opened writes (move :: rest)) {index : Nat} {link : Link σ}
    (there : host.site.links[index]? = some link) : opened[index]? = some link.limits := by
  have mapped : (host.site.links.map Link.limits)[index]? = some link.limits := by
    rw [List.getElem?_map, there, Option.map_some]
  obtain ⟨within, _⟩ := List.getElem?_eq_some_iff.mp mapped
  rw [← calm.limits, List.getElem?_append_left within, mapped]

theorem tidyLimits (t : Transport σ) (host : Host σ) :
    (host.tidy t).site.links.map Link.limits = host.site.links.map Link.limits := by
  refine List.ext_getElem? fun i => ?_
  simp only [tidy, List.getElem?_map, List.getElem?_mapIdx]
  cases host.site.links[i]? with
  | none => rfl
  | some link =>
    simp only [Option.map_some, closeLeft]
    split <;> rfl

theorem tidyTidied (t : Transport σ) (host : Host σ) (i : Nat) (link : Link σ)
    (there : (host.tidy t).site.links[i]? = some link) :
    link.held ∨ worksOn (host.tidy t).live i ∨ link.closed := by
  simp only [tidy, List.getElem?_mapIdx] at there
  obtain ⟨before, _, rfl⟩ := Option.map_eq_some_iff.mp there
  unfold closeLeft
  split
  · next left =>
    simp only [Bool.or_eq_true, or_assoc] at left
    exact left
  · exact .inr (.inr rfl)

theorem turnWrites (t : Transport σ) (host : Host σ) (known : ∀ one ∈ host.live, one.Writes opened writes) :
    (∀ one ∈ (host.turn t).2.live, one.Writes opened writes) ∧
      (host.turn t).2.site.links.map Link.limits = host.site.links.map Link.limits ∧
      ∀ fault, (host.turn t).1 = some fault →
        fault = .aborted .offsetOverflow ∧ ∃ index, Overlong opened writes index := by
  have sampled := (Site.turn t host.site.now).sampleAll host.site known
  obtain ⟨skipped, registered, limits, faults⟩ :=
    Turn.sweepWrites t host.site.now host.site _ sampled
  refine ⟨?_, (tidyLimits t _).trans limits, faults⟩
  intro one mem
  simp only [turn, tidy, Turn.take, Turn.Swept.live] at mem
  split at mem
  · rcases List.mem_append.mp mem with mem | mem
    · exact skipped one mem
    · exact registered one mem
  · exact registered one mem

theorem connectCalm {socket : σ} {remote : Address} {limits : Limits}
    (calm : host.Calm opened writes (.connect socket remote limits :: rest)) :
    (host.connect socket remote limits).Calm opened writes rest := by
  refine calm.further (by simp [connect, Move.limits?]) calm.live ?_
  intro i link there
  simp only [connect, List.getElem?_append] at there
  split at there
  · exact calm.tidied i link there
  · obtain rfl := List.mem_singleton.mp (List.mem_of_getElem? there)
    exact .inl rfl

theorem onHeldCalm (calm : host.Calm opened writes (move :: rest)) (none' : move.limits? = none)
    (index : Nat) {task : Link σ → Option Task}
    (known : ∀ link one, task link = some one → one.Writes (writes index) link.limits) :
    (host.onHeld index task).Calm opened writes rest := by
  have still : host.site.links.map Link.limits =
      host.site.links.map Link.limits ++ move.limits?.toList := by
    rw [none', Option.toList_none, List.append_nil]
  unfold onHeld
  split
  · next link there =>
    split
    · refine calm.further still ?_ ?_
      · intro one mem
        rcases List.mem_append.mp mem with mem | mem
        · exact calm.live one mem
        · obtain ⟨given, started, rfl⟩ := Option.map_eq_some_iff.mp (Option.mem_toList.mp mem)
          exact .link (calm.linkLimits there) (known link given started)
      · intro i link there
        rcases calm.tidied i link there with held | works | closed
        · exact .inl held
        · refine .inr (.inl ?_)
          simp only [register, worksOn, List.any_append, Bool.or_eq_true] at works ⊢
          exact .inl works
        · exact .inr (.inr closed)
    · exact calm.further still calm.live calm.tidied
  · exact calm.further still calm.live calm.tidied

theorem stepCalm (t : Transport σ) (calm : host.Calm opened writes (move :: rest)) :
    (host.step t move).2.Calm opened writes rest := by
  have said := calm.said move List.mem_cons_self
  cases move with
  | connect socket remote limits => exact connectCalm calm
  | script index operations =>
    refine onHeldCalm calm rfl index fun link => Task.scriptWrites _ ?_
    intro operation mem
    cases operation with
    | receive => trivial
    | send payload => exact said index payload (.said mem)
  | serve index handler =>
    refine onHeldCalm calm rfl index fun link => Task.serveWrites ⟨?_, ?_⟩ _
    · exact fun request => ⟨_, rfl, said index _ (.answered rfl)⟩
    · exact said index _ (.refused rfl)
  | peer index does =>
    refine calm.further ?_ calm.live ?_
    · have same := host.site.limitsModify index
        (fun link => { link with socket := (does link.socket).2 }) fun _ => rfl
      exact same.trans (List.append_nil _).symm
    · intro i link there
      simp only [step, peer, onSocket, Site.modifySocket, Site.modifyLink, List.getElem?_modify] at there
      obtain ⟨before, at', rfl⟩ := Option.map_eq_some_iff.mp there
      have tidied := calm.tidied i before at'
      split <;> exact tidied
  | release index =>
    have same := host.site.limitsModify index (fun link => { link with held := false }) fun _ => rfl
    refine calm.further ?_ calm.live (tidyTidied t _)
    exact (tidyLimits t _).trans (same.trans (List.append_nil _).symm)
  | turn =>
    obtain ⟨live, limits, _⟩ := turnWrites t host calm.live
    exact calm.further (limits.trans (List.append_nil _).symm) live (tidyTidied t _)
  | pass milliseconds => exact calm.further (List.append_nil _).symm calm.live calm.tidied

theorem stepFault (calm : host.Calm opened writes (move :: rest)) {fault : TurnFault}
    (failed : (host.step t move).1.fault? = some fault) :
    fault = .aborted .offsetOverflow ∧ ∃ index, Overlong opened writes index := by
  cases move with
  | turn => exact (turnWrites t host calm.live).2.2 fault failed
  | _ => cases failed

theorem faultsOverlong (t : Transport σ) (moves : List (Move σ)) (host : Host σ)
    (calm : host.Calm opened writes moves) : ∀ fault ∈ faults t host moves,
      fault = .aborted .offsetOverflow ∧ ∃ index, Overlong opened writes index := by
  induction moves generalizing host with
  | nil => exact nofun
  | cons move rest ih =>
    intro fault mem
    rcases List.mem_append.mp mem with mem | mem
    · exact stepFault calm (Option.mem_toList.mp mem)
    · exact ih _ (stepCalm t calm) fault mem

theorem emptyCalm (moves : List (Move σ)) : ({} : Host σ).Calm (Host.opened moves) (Writes moves) moves :=
  ⟨rfl, fun move mem _ _ writes => ⟨move, mem, writes⟩, nofun, nofun⟩

end Host

end FileServer
