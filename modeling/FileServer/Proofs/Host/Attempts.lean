import FileServer.Proofs.Host.Only

/-! Runs of a host that listens, attempt by attempt. A turn attempts the tasks that are ready one
after the other, each in the world that the one before has left; what every attempt keeps, and
keeps where a task is lost, a whole run keeps. -/
namespace FileServer

def Resumption.tasks {τ : Type} : Resumption τ → List τ
  | .goesOn itself successor => itself.toList ++ successor.toList
  | .givenUp => []
  | .fails _ => []

namespace Turn

variable {ω τ : Type} {turn : Turn ω τ}

def attempts (turn : Turn ω τ) (w : ω) : List (τ × Bool) → List (ω × τ)
  | [] => []
  | (_, false) :: rest => attempts turn w rest
  | (task, true) :: rest =>
    (w, task) ::
      match turn.resume w task with
      | (.fails _, _) => []
      | (_, w) => attempts turn w rest

inductive Goes (turn : Turn ω τ) : ω → List (τ × Bool) → List (ω × τ) → Swept ω τ → Prop where
  | through (w : ω) : Goes turn w [] [] ⟨w, [], [], none⟩
  | expired {w : ω} {task : τ} {rest : List (τ × Bool)} {log : List (ω × τ)} {swept : Swept ω τ}
      (late : turn.expired task) (later : Goes turn w rest log swept) :
      Goes turn w ((task, false) :: rest) log swept
  | skipped {w : ω} {task : τ} {rest : List (τ × Bool)} {log : List (ω × τ)} {swept : Swept ω τ}
      (early : ¬ turn.expired task) (later : Goes turn w rest log swept) :
      Goes turn w ((task, false) :: rest) log { swept with skipped := task :: swept.skipped }
  | goesOn {w w' : ω} {task : τ} {rest : List (τ × Bool)} {log : List (ω × τ)} {swept : Swept ω τ}
      {itself successor : Option τ} (resumed : turn.resume w task = (.goesOn itself successor, w'))
      (later : Goes turn w' rest log swept) :
      Goes turn w ((task, true) :: rest) ((w, task) :: log)
        { swept with registered := itself.toList ++ successor.toList ++ swept.registered }
  | givenUp {w w' : ω} {task : τ} {rest : List (τ × Bool)} {log : List (ω × τ)} {swept : Swept ω τ}
      (resumed : turn.resume w task = (.givenUp, w')) (later : Goes turn w' rest log swept) :
      Goes turn w ((task, true) :: rest) ((w, task) :: log) swept
  | fails {w w' : ω} {task : τ} {fault : TurnFault} (rest : List (τ × Bool))
      (resumed : turn.resume w task = (.fails fault, w')) :
      Goes turn w ((task, true) :: rest) [(w, task)] ⟨w', [], [], some fault⟩

theorem sweepGoes (turn : Turn ω τ) (w : ω) (pairs : List (τ × Bool)) :
    turn.Goes w pairs (turn.attempts w pairs) (turn.sweep w pairs) := by
  induction pairs generalizing w with
  | nil => exact .through w
  | cons pair rest ih =>
    obtain ⟨task, ready⟩ := pair
    cases ready with
    | false =>
      simp only [attempts, sweep]
      split
      · next late => exact .expired late (ih w)
      · next early => exact .skipped early (ih w)
    | true =>
      simp only [attempts, sweep]
      cases resumed : turn.resume w task with
      | mk resumption w' =>
        cases resumption with
        | goesOn itself successor => exact .goesOn resumed (ih w')
        | givenUp => exact .givenUp resumed (ih w')
        | fails fault => exact .fails rest resumed

structure Keeps (turn : Turn ω τ) (holds : ω → List τ → List (ω × τ) → Prop) : Prop where
  inAnyOrder : ∀ {w tasks tasks' past}, tasks.Perm tasks' → holds w tasks past → holds w tasks' past
  afterLoss : ∀ {w task tasks past}, holds w (task :: tasks) past → holds w tasks past
  afterAttempt : ∀ {w task tasks past}, holds w (task :: tasks) past →
    holds (turn.resume w task).2 ((turn.resume w task).1.tasks ++ tasks) (past ++ [(w, task)])

variable {holds : ω → List τ → List (ω × τ) → Prop}

theorem Keeps.afterLosses (keeps : turn.Keeps holds) {w : ω} {past : List (ω × τ)}
    {lost tasks : List τ} (before : holds w (lost ++ tasks) past) : holds w tasks past := by
  induction lost with
  | nil => exact before
  | cons task lost ih => exact ih (keeps.afterLoss before)

-- A task that has had its turn waits among the others until the sweep is through.
theorem Keeps.sweep (keeps : turn.Keeps holds) {w : ω} {pairs : List (τ × Bool)}
    {log : List (ω × τ)} {swept : Swept ω τ} (goes : turn.Goes w pairs log swept) (others : List τ)
    (past : List (ω × τ)) (before : holds w (pairs.map Prod.fst ++ others) past) :
    holds swept.world (swept.skipped ++ swept.registered ++ others) (past ++ log) := by
  induction goes generalizing others past with
  | through w => simpa only [List.append_nil, List.map_nil] using before
  | expired late later ih => exact ih others past (keeps.afterLoss before)
  | @skipped w task rest log swept early later ih =>
    have behind := ih (task :: others) past (keeps.inAnyOrder List.perm_middle.symm before)
    exact keeps.inAnyOrder List.perm_middle behind
  | @goesOn w w' task rest log swept itself successor resumed later ih =>
    have attempted := keeps.afterAttempt before
    rw [resumed] at attempted
    have moved := List.perm_append_comm_assoc (itself.toList ++ successor.toList)
      (rest.map Prod.fst) others
    have behind := ih _ _ (keeps.inAnyOrder moved attempted)
    have back := List.perm_append_comm_assoc swept.registered
      (itself.toList ++ successor.toList) others
    rw [List.append_assoc past] at behind
    refine keeps.inAnyOrder ?_ behind
    simp only [List.append_assoc] at back ⊢
    exact back.append_left _
  | givenUp resumed later ih =>
    have attempted := keeps.afterAttempt before
    rw [resumed] at attempted
    have behind := ih others _ attempted
    rwa [List.append_assoc past] at behind
  | fails rest resumed =>
    have attempted := keeps.afterAttempt before
    rw [resumed] at attempted
    exact keeps.afterLosses attempted

theorem sampleTasks (turn : Turn ω τ) (w : ω) (live : List τ) :
    (turn.sample w live).map Prod.fst = live := by
  simp only [sample, List.map_map, Function.comp_def, List.map_id']

theorem liveSound {swept : Swept ω τ} (sound : swept.fault? = none) :
    swept.live = swept.skipped ++ swept.registered := by
  simp only [Swept.live, sound]

theorem liveFailed {swept : Swept ω τ} {fault : TurnFault} (failed : swept.fault? = some fault) :
    swept.live = swept.registered := by
  simp only [Swept.live, failed]

theorem Keeps.take (keeps : turn.Keeps holds) (w : ω) (live : List τ) (past : List (ω × τ))
    (before : holds w live past) :
    holds (turn.take w live).world (turn.take w live).live
      (past ++ turn.attempts w (turn.sample w live)) := by
  have behind := keeps.sweep (turn.sweepGoes w (turn.sample w live)) [] past
    (by rwa [sampleTasks, List.append_nil])
  simp only [List.append_nil] at behind
  unfold Swept.live
  split
  · exact behind
  · exact keeps.afterLosses behind

end Turn

end FileServer
