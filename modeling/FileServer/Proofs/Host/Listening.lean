import FileServer.Proofs.Host.History

/-! Listeners stay as they were registered. A turn that succeeds loses none of the tasks that watch
them: they do not expire, and an attempt that does not fail the turn goes on watching. -/
namespace FileServer

variable {σ : Type} {t : Transport σ}

def listenersOf (live : List Live) : List Nat :=
  live.filterMap fun
    | .listener index => some index
    | .link _ _ => none

theorem listenersOfAppend (live more : List Live) :
    listenersOf (live ++ more) = listenersOf live ++ listenersOf more := List.filterMap_append

theorem listenersOfLinks (index : Nat) (tasks : List Task) :
    listenersOf (tasks.map (.link index)) = [] := by
  simp [listenersOf]

namespace Site

theorem acceptListens (site : Site σ) (index : Nat) (listener : Listener) (arrival : Arrival) :
    let attempt := site.accept index listener arrival
    attempt.2.listeners.length = site.listeners.length ∧
      ((∀ fault, attempt.1 ≠ .fails fault) → listenersOf attempt.1.tasks = [index]) := by
  cases arrival with
  | error cause =>
    simp only [accept]
    split
    · exact ⟨rfl, fun _ => rfl⟩
    · exact ⟨rfl, fun sound => absurd rfl (sound _)⟩
  | ok c =>
    simp only [accept, takeIn]
    cases site.links[c]? with
    | none => exact ⟨rfl, fun _ => rfl⟩
    | some link =>
      refine ⟨rfl, fun _ => ?_⟩
      cases task : Task.serve? (context link listener.service) site.now <;> rfl

theorem resumeListens (t : Transport σ) (site : Site σ) (one : Live)
    (there : ∀ index ∈ listenersOf [one], index < site.listeners.length) :
    let attempt := site.resume t one
    attempt.2.listeners.length = site.listeners.length ∧
      ((∀ fault, attempt.1 ≠ .fails fault) → listenersOf attempt.1.tasks = listenersOf [one]) := by
  cases one with
  | link index task =>
    cases there : site.links[index]? with
    | none =>
      simp only [resume, there]
      exact ⟨trivial, fun _ => rfl⟩
    | some link =>
      cases attempt : task.resume t site.now link.socket with
      | mk resumed socket =>
        obtain ⟨successors, leaves⟩ := resumeLinkLeaves there attempt
        simp only [successors, leaves, listenersOfLinks]
        exact ⟨rfl, fun _ => rfl⟩
  | listener index =>
    have bound := there index List.mem_cons_self
    simp only [resume, List.getElem?_eq_getElem bound, resumeListener]
    split
    · exact ⟨rfl, fun sound => absurd rfl (sound _)⟩
    · split
      · exact ⟨rfl, fun _ => rfl⟩
      · next first queue queued =>
        obtain ⟨length, stays⟩ := acceptListens (site.pop index site.listeners[index] queue) index
          site.listeners[index] first
        exact ⟨length.trans List.length_set, stays⟩

end Site

namespace Turn

theorem sweepListens (t : Transport σ) (now : Nat) (site : Site σ) (pairs : List (Live × Bool))
    (there : ∀ index ∈ listenersOf (pairs.map Prod.fst), index < site.listeners.length) :
    let swept := (Site.turn t now).sweep site pairs
    swept.world.listeners.length = site.listeners.length ∧
      (swept.fault? = none →
        (listenersOf (swept.skipped ++ swept.registered)).Perm
          (listenersOf (pairs.map Prod.fst))) := by
  induction pairs generalizing site with
  | nil => exact ⟨rfl, fun _ => .refl _⟩
  | cons pair rest ih =>
    obtain ⟨one, ready⟩ := pair
    have whole : listenersOf (((one, ready) :: rest).map Prod.fst) =
        listenersOf [one] ++ listenersOf (rest.map Prod.fst) := listenersOfAppend [one] _
    rw [whole] at there ⊢
    have behind := fun index mem => there index (List.mem_append_right _ mem)
    cases ready with
    | false =>
      obtain ⟨length, stay⟩ := ih site behind
      simp only [sweep]
      cases one with
      | link index task => split <;> exact ⟨length, stay⟩
      | listener index =>
        rw [if_neg (show ¬ (Site.turn t now).expired (.listener index) from Bool.false_ne_true)]
        exact ⟨length, fun sound => (stay sound).cons index⟩
    | true =>
      obtain ⟨length, stays⟩ := Site.resumeListens t site one fun index mem =>
        there index (List.mem_append_left _ mem)
      simp only [sweep, Site.turn]
      cases resumed : site.resume t one with
      | mk resumption next =>
        rw [resumed] at length stays
        obtain ⟨later, stay⟩ := ih next fun index mem => length ▸ behind index mem
        cases resumption with
        | goesOn itself successor =>
          refine ⟨later.trans length, fun sound => ?_⟩
          have here : listenersOf (itself.toList ++ successor.toList) = listenersOf [one] :=
            stays fun fault failed => by cases failed
          have moved := List.perm_append_comm_assoc
            (listenersOf ((Site.turn t now).sweep next rest).skipped) (listenersOf [one])
            (listenersOf ((Site.turn t now).sweep next rest).registered)
          have stay := stay sound
          rw [listenersOfAppend] at stay
          rw [listenersOfAppend, listenersOfAppend, here]
          exact moved.trans (stay.append_left _)
        | givenUp =>
          refine ⟨later.trans length, fun sound => ?_⟩
          rw [← stays fun fault failed => by cases failed]
          exact stay sound
        | fails fault => exact ⟨length, fun sound => by cases sound⟩

end Turn

namespace Host

def fault? (t : Transport σ) (host : Host σ) : Happening σ → Option TurnFault
  | .turn => (host.turn t).1
  | _ => none

def Succeeds (t : Transport σ) (host : Host σ) : List (Happening σ) → Prop
  | [] => True
  | next :: rest => host.fault? t next = none ∧ Succeeds t (host.undergo t next) rest

def newListeners : Happening σ → Nat
  | .listen _ _ => 1
  | _ => 0

def registers (listeners : Nat) : Happening σ → List Nat
  | .listen _ tasks => List.replicate tasks listeners
  | .watch listener => if listener < listeners then [listener] else []
  | _ => []

def registrations (listeners : Nat) : List (Happening σ) → List Nat
  | [] => []
  | next :: rest => registers listeners next ++ registrations (listeners + newListeners next) rest

theorem undergoListens (t : Transport σ) (host : Host σ) (next : Happening σ)
    (there : ∀ index ∈ listenersOf host.live, index < host.site.listeners.length)
    (sound : host.fault? t next = none) :
    (host.undergo t next).site.listeners.length =
        host.site.listeners.length + newListeners next ∧
      (listenersOf (host.undergo t next).live).Perm
        (listenersOf host.live ++ registers host.site.listeners.length next) := by
  have same : (listenersOf host.live).Perm (listenersOf host.live ++ []) :=
    .of_eq (List.append_nil _).symm
  cases next with
  | listen service tasks =>
    refine ⟨List.length_append, .of_eq ?_⟩
    have watched : listenersOf (List.replicate tasks (.listener host.site.listeners.length)) =
        List.replicate tasks host.site.listeners.length := by
      simp [listenersOf]
    simp only [undergo, listen, listenersOfAppend, watched, registers]
  | watch listener =>
    simp only [undergo, registers]
    split
    · exact ⟨rfl, .of_eq (listenersOfAppend ..)⟩
    · exact ⟨rfl, same⟩
  | connect listener socket remote limits => exact ⟨List.length_modify .., same⟩
  | refuse listener cause => exact ⟨List.length_modify .., same⟩
  | peer index does => exact ⟨rfl, same⟩
  | turn =>
    have sampled : ((Site.turn t host.site.now).sample host.site host.live).map Prod.fst =
        host.live := Turn.sampleTasks ..
    obtain ⟨length, stay⟩ := Turn.sweepListens t host.site.now host.site
      ((Site.turn t host.site.now).sample host.site host.live) (by rwa [sampled])
    have whole : (host.undergo t .turn).live = _ := Turn.liveSound sound
    refine ⟨length, ?_⟩
    rw [whole]
    exact (stay sound).trans (.of_eq (by rw [sampled]; exact (List.append_nil _).symm))
  | pass milliseconds => exact ⟨rfl, same⟩

theorem registersKnown (listeners : Nat) (next : Happening σ) :
    ∀ index ∈ registers listeners next, index < listeners + newListeners next := by
  intro index mem
  cases next with
  | listen service tasks =>
    obtain rfl := (List.mem_replicate.mp mem).2
    exact Nat.lt_succ_self _
  | watch listener =>
    simp only [registers] at mem
    split at mem
    · next known =>
      obtain rfl := List.mem_singleton.mp mem
      exact known
    · cases mem
  | _ => cases mem

theorem listenersKept (t : Transport σ) (host : Host σ) (happenings : List (Happening σ))
    (there : ∀ index ∈ listenersOf host.live, index < host.site.listeners.length)
    (sound : Succeeds t host happenings) :
    (listenersOf (host.history t happenings).2.live).Perm
      (listenersOf host.live ++ registrations host.site.listeners.length happenings) := by
  induction happenings generalizing host with
  | nil => exact .of_eq (List.append_nil _).symm
  | cons next rest ih =>
    obtain ⟨here, later⟩ := sound
    obtain ⟨length, watched⟩ := undergoListens t host next there here
    have known : ∀ index ∈ listenersOf (host.undergo t next).live,
        index < (host.undergo t next).site.listeners.length := by
      intro index mem
      rw [length]
      rcases List.mem_append.mp (watched.mem_iff.mp mem) with mem | mem
      · exact Nat.lt_add_right _ (there index mem)
      · exact registersKnown _ next index mem
    have kept := ih (host.undergo t next) known later
    rw [length] at kept
    refine kept.trans ((watched.append_right _).trans (.of_eq ?_))
    exact List.append_assoc ..

end Host

end FileServer
