import FileServer.Proofs.Conversation.Replies
import FileServer.Proofs.Host.Listening
import FileServer.Proofs.Message.Wire
import FileServer.Proofs.Stream.Calls

/-! One pending operation for each connection. A client is taken in once, and the task that is then
registered is followed by one task at most, each of them with something left to do; so a connection
without a task is never come back to. Listeners stay as they were registered for as long as the
turns succeed. -/
namespace FileServer

variable {σ : Type} {t : Transport σ}

inductive Pending.Outstanding (context : Context) (buffer : Bytes) (sent : Nat) : Pending → Prop where
  | reading (stage : Stage)
      (quiet : stage.message context.limits.frame context.remote buffer = .incomplete) :
      Outstanding context buffer sent (.read (.serving stage))
  | answering (payload : Bytes) (more : sent < payload.length) :
      Outstanding context buffer sent (.write payload .serving)
  | parting (payload : Bytes) (more : sent < payload.length) :
      Outstanding context buffer sent (.write payload .last)

def Task.Outstanding (task : Task) : Prop :=
  task.pending.Outstanding task.context task.buffer task.sent

inductive Task.Lone (taken : Prop) : List Task → Prop where
  | idle : Lone taken []
  | busy {task : Task} (there : taken) (outstanding : task.Outstanding) : Lone taken [task]

namespace Task

variable {context : Context} {task : Task}

theorem serveOutstanding (stage : Stage) (buffer : Bytes) (now : Nat) {successor : Task}
    (started : start? context now (Conversation.serve context stage buffer) = some successor) :
    successor.Outstanding := by
  have tells := Stage.scanTells context.limits.frame context.remote stage buffer
  unfold Conversation.serve at started
  revert started
  generalize stage.scan context.limits.frame context.remote buffer = scanned at tells
  intro started
  cases tells with
  | awaited quiet told =>
    cases started
    exact .reading _ quiet
  | refused told =>
    cases started
    exact .parting _ (Response.wireSome _)
  | @complete request rest told =>
    by_cases addressed : request.isAddressed
    · simp only [if_pos addressed, Conversation.answer] at started
      cases answered : (context.service request).value with
      | error fault =>
        simp only [answered] at started
        cases started
      | ok response =>
        simp only [answered] at started
        cases started
        by_cases alive : request.keepsAlive
        · simp only [Task.Outstanding, if_pos alive]
          exact .answering _ (Response.wireSome _)
        · simp only [Task.Outstanding, if_neg alive]
          exact .parting _ (Response.wireSome _)
    · simp only [if_neg addressed] at started
      cases started
      exact .parting _ (Response.wireSome _)

theorem completedBy (now : Nat) (outcome : Outcome) :
    (task.complete now outcome).tasks = (start? task.context now outcome).toList := by
  unfold complete
  split
  · next aborted => simp only [Resumed.tasks, start?, aborted, Option.toList_none]
  · rfl

theorem Lone.fewer {taken : Prop} {tasks tasks' : List Task} (lone : Lone taken tasks)
    (fewer : tasks'.Subperm tasks) : Lone taken tasks' := by
  cases lone with
  | idle =>
    obtain rfl := List.subperm_nil.mp fewer
    exact .idle
  | busy there outstanding =>
    rcases List.subperm_singleton_iff.mp fewer with rfl | rfl
    · exact .idle
    · exact .busy there outstanding

theorem Lone.known {taken taken' : Prop} {tasks : List Task} (lone : Lone taken tasks)
    (later : taken → taken') : Lone taken' tasks := by
  cases lone with
  | idle => exact .idle
  | busy there outstanding => exact .busy (later there) outstanding

theorem Lone.short {taken : Prop} {tasks : List Task} (lone : Lone taken tasks) :
    tasks.length ≤ 1 := by
  cases lone with
  | idle => exact Nat.zero_le 1
  | busy there outstanding => exact Nat.le_refl 1

theorem Lone.each {taken : Prop} {tasks : List Task} (lone : Lone taken tasks) :
    ∀ task ∈ tasks, taken ∧ task.Outstanding := by
  intro task mem
  cases lone with
  | idle => cases mem
  | busy there outstanding =>
    obtain rfl := List.mem_singleton.mp mem
    exact ⟨there, outstanding⟩

theorem Lone.option {taken : Prop} (there : taken) {task? : Option Task}
    (outstanding : ∀ task, task? = some task → task.Outstanding) : Lone taken task?.toList := by
  cases task? with
  | none => exact .idle
  | some task => exact .busy there (outstanding task rfl)

theorem drainedOutstanding {payload : Bytes} {s : σ} {sent : Nat} (chunk : Nat)
    (more : task.sent < payload.length)
    (drained : (t.drain chunk (payload.drop task.sent) task.sent s).1 = .partly sent) :
    sent < payload.length := by
  have before := Transport.drainPartly drained
  rw [List.length_drop] at before
  omega

theorem resumeLone {taken : Prop} (there : taken) (outstanding : task.Outstanding) (now : Nat)
    (s : σ) : Lone taken (task.resume t now s).1.tasks := by
  have itself := outstanding
  unfold Outstanding at outstanding
  generalize pending : task.pending = what at outstanding
  unfold resume
  cases outstanding with
  | reading stage quiet =>
    simp only [pending, resumeRead]
    split
    · rw [completedBy]
      exact .option there fun successor => serveOutstanding stage _ now
    · exact .busy there itself
    · exact .idle
    · exact .idle
  | answering payload more =>
    simp only [pending, resumeWrite]
    split
    · rw [completedBy]
      exact .option there fun successor => serveOutstanding .head _ now
    · next drained =>
      exact .busy there (.answering payload (drainedOutstanding _ more (congrArg Prod.fst drained)))
    · exact .idle
    · exact .idle
  | parting payload more =>
    simp only [pending, resumeWrite]
    split
    · rw [completedBy]
      exact .idle
    · next drained =>
      exact .busy there (.parting payload (drainedOutstanding _ more (congrArg Prod.fst drained)))
    · exact .idle
    · exact .idle

end Task

def acceptances (past : List (Site σ × Live)) : List Nat :=
  past.filterMap fun (site, one) => (site.takes? one).map Prod.fst

theorem acceptancesAppend (past more : List (Site σ × Live)) :
    acceptances (past ++ more) = acceptances past ++ acceptances more := List.filterMap_append

theorem acceptancesOne (past : List (Site σ × Live)) (site : Site σ) (one : Live) :
    acceptances (past ++ [(site, one)]) =
      acceptances past ++ ((site.takes? one).map Prod.fst).toList := by
  rw [acceptancesAppend]
  simp only [acceptances, List.filterMap_cons, List.filterMap_nil]
  cases site.takes? one <;> rfl

theorem acceptancesTaken (past : List (Site σ × Live)) {site : Site σ} {one : Live} {c : Nat}
    {context? : Option Context} (takes : site.takes? one = some (c, context?)) :
    c ∈ acceptances (past ++ [(site, one)]) := by
  rw [acceptancesOne, takes]
  exact List.mem_append_right _ List.mem_cons_self

namespace Ledger

structure Distinct (l : Ledger σ) : Prop where
  once : (acceptances l.past ++ l.waiting).Nodup
  known : ∀ c ∈ acceptances l.past ++ l.waiting, c < l.opened

structure Single (l : Ledger σ) : Prop where
  distinct : l.Distinct
  lone : ∀ c, Task.Lone (c ∈ acceptances l.past) (Host.tasksOf c l.tasks)

theorem Distinct.fresh {l : Ledger σ} {c : Nat} (distinct : l.Distinct) (waits : c ∈ l.waiting) :
    c ∉ acceptances l.past :=
  fun taken => (List.nodup_append.mp distinct.once).2.2 c taken c waits rfl

theorem Single.fresh {l : Ledger σ} {c : Nat} (single : l.Single) (waits : c ∈ l.waiting) :
    c ∉ acceptances l.past ∧ Host.tasksOf c l.tasks = [] := by
  have fresh := single.distinct.fresh waits
  have lone := single.lone c
  generalize Host.tasksOf c l.tasks = tasks at lone
  cases lone with
  | idle => exact ⟨fresh, rfl⟩
  | busy taken outstanding => exact absurd taken fresh

end Ledger

namespace Change

variable {l l' : Ledger σ}

theorem distinct (change : Change t l l') (distinct : l.Distinct) : l'.Distinct := by
  obtain ⟨once, known⟩ := distinct
  cases change with
  | reordered _ clients live =>
    have whole := clients.append_left (acceptances l.past)
    exact ⟨whole.nodup_iff.mp once, fun c mem => known c (whole.mem_iff.mpr mem)⟩
  | lost _ task => exact ⟨once, known⟩
  | withdrawn _ c =>
    have fewer := (List.sublist_cons_self c l'.waiting).append_left (acceptances l'.past)
    exact ⟨once.sublist fewer, fun d mem => known d (fewer.subset mem)⟩
  | connected =>
    have moved : (acceptances l.past ++ l.opened :: l.waiting).Perm
        (l.opened :: (acceptances l.past ++ l.waiting)) := List.perm_middle
    refine ⟨moved.nodup_iff.mpr (List.nodup_cons.mpr ⟨?_, once⟩), fun c mem => ?_⟩
    · exact fun mem => Nat.lt_irrefl _ (known _ mem)
    · rcases List.mem_cons.mp (moved.mem_iff.mp mem) with rfl | mem
      · exact Nat.lt_succ_self _
      · exact Nat.lt_succ_of_lt (known c mem)
  | watched _ index => exact ⟨once, known⟩
  | attempted l site index task there attempt =>
    have same := (acceptancesOne l.past site (.link index task)).trans (List.append_nil _)
    exact ⟨same ▸ once, same ▸ known⟩
  | missed l site index task gone =>
    have same := (acceptancesOne l.past site (.link index task)).trans (List.append_nil _)
    exact ⟨same ▸ once, same ▸ known⟩
  | listened l site index nothing =>
    have same := acceptancesOne l.past site (.listener index)
    rw [nothing] at same
    have same := same.trans (List.append_nil _)
    exact ⟨same ▸ once, same ▸ known⟩
  | accepted l site index c takes =>
    have same := acceptancesOne l.past site (.listener index)
    rw [takes] at same
    have moved : acceptances (l.past ++ [(site, .listener index)]) ++ l.waiting =
        acceptances l.past ++ c :: l.waiting := by
      rw [same, List.append_assoc]
      rfl
    exact ⟨moved ▸ once, moved ▸ known⟩

theorem taken {c : Nat} (change : Change t l l') (taken : c ∈ acceptances l.past) :
    c ∈ acceptances l'.past := by
  have later {more : List (Site σ × Live)} (past : l'.past = l.past ++ more) :
      c ∈ acceptances l'.past := by
    rw [past, acceptancesAppend]
    exact List.mem_append_left _ taken
  cases change.touch c with
  | spared spares past fewer told => exact later past
  | attempted there attempt past before after told => exact later past
  | accepted takes waited past after told => exact later past

theorem single (change : Change t l l') (single : l.Single) : l'.Single := by
  refine ⟨change.distinct single.distinct, fun c => ?_⟩
  have mine := single.lone c
  cases change.touch c with
  | spared spares past fewer told => exact (mine.fewer fewer).known change.taken
  | @attempted site task others link resumed socket there attempt past before after told =>
    rw [before] at mine
    cases mine with
    | busy taken outstanding =>
      have left := Task.resumeLone (t := t) (change.taken taken) outstanding site.now link.socket
      rw [attempt] at left
      rw [after, List.append_nil]
      exact left
  | @accepted site index context? takes waited past after told =>
    have idle := (single.fresh waited).2
    have taken : c ∈ acceptances l'.past := past ▸ acceptancesTaken l.past takes
    rw [after, idle, List.append_nil]
    refine .option taken fun task served => ?_
    obtain ⟨context, _, served⟩ := Option.bind_eq_some_iff.mp served
    exact Task.serveOutstanding .head [] site.now served

theorem quiet {c : Nat} (change : Change t l l') (distinct : l.Distinct)
    (taken : c ∈ acceptances l.past) (idle : Host.tasksOf c l.tasks = []) :
    Host.tasksOf c l'.tasks = [] ∧ Host.eventsOf c l'.events = Host.eventsOf c l.events := by
  cases change.touch c with
  | spared spares past fewer told => exact ⟨List.subperm_nil.mp (idle ▸ fewer), told⟩
  | attempted there attempt past before after told =>
    rw [idle] at before
    cases before
  | accepted takes waited past after told =>
    exact absurd taken (distinct.fresh waited)

end Change

namespace Changes

variable {l l' : Ledger σ}

theorem single (changes : Changes t l l') (single : l.Single) : l'.Single := by
  induction changes with
  | refl => exact single
  | tail earlier change ih => exact change.single ih

theorem quiet {c : Nat} (changes : Changes t l l') (single : l.Single)
    (taken : c ∈ acceptances l.past) (idle : Host.tasksOf c l.tasks = []) :
    Host.tasksOf c l'.tasks = [] ∧ Host.eventsOf c l'.events = Host.eventsOf c l.events := by
  have throughout : c ∈ acceptances l'.past ∧ Host.tasksOf c l'.tasks = [] ∧
      Host.eventsOf c l'.events = Host.eventsOf c l.events := by
    induction changes with
    | refl => exact ⟨taken, idle, rfl⟩
    | tail earlier change ih =>
      obtain ⟨taken, idle, told⟩ := ih
      have distinct := (Changes.single earlier single).distinct
      obtain ⟨still, silent⟩ := change.quiet distinct taken idle
      exact ⟨change.taken taken, still, silent.trans told⟩
  exact throughout.2

end Changes

namespace Host

theorem emptySingle : (({} : Host σ).ledger []).Single :=
  ⟨⟨List.nodup_nil, nofun⟩, fun _ => .idle⟩

/-- In every state that turns which succeed have led to, the live tasks are those that watch the
listeners, each as often as it was registered, and for each client that has been taken in one task
at most, which has something left to do. No client is taken in twice, and of a connection without a
task nothing is live or told of again, whatever happens. -/
theorem onePending (t : Transport σ) (happenings : List (Happening σ))
    (sound : Succeeds t {} happenings) :
    let history := ({} : Host σ).history t happenings
    let host := history.2
    (listenersOf host.live).Perm (registrations 0 happenings) ∧
      (∀ c, (tasksOf c host.live).length ≤ 1) ∧
      (∀ c task, .link c task ∈ host.live → c ∈ acceptances history.1 ∧ task.Outstanding) ∧
      (acceptances history.1).Nodup ∧
      ∀ c ∈ acceptances history.1, tasksOf c host.live = [] → ∀ later,
        let next := (host.history t later).2
        tasksOf c next.live = [] ∧ eventsOf c next.site.events = eventsOf c host.site.events := by
  have single := Changes.single (historyChanges t {} happenings []) emptySingle
  refine ⟨listenersKept t {} happenings nofun sound, fun c => ?_, fun c task mem => ?_, ?_, ?_⟩
  · exact (single.lone c).short
  · have own : task ∈ tasksOf c (history t {} happenings).2.live :=
      List.mem_filterMap.mpr ⟨.link c task, mem, if_pos rfl⟩
    exact (single.lone c).each task own
  · exact (List.nodup_append.mp single.distinct.once).1
  · intro c taken idle later
    exact Changes.quiet (historyChanges t _ later _) single taken idle

theorem onePendingOnSharedListener :
    let happenings : List (Happening Duplex) :=
      [.listen .echo 2, .connect 0 {} (.ofOctets 10 0 0 1) {}, .turn,
        .peer 0 fun d => d.peerSends [71, 69, 84], .turn, .peer 0 Duplex.peerLeaves, .turn]
    let history := ({} : Host Duplex).history Duplex.transport happenings
    Succeeds Duplex.transport {} happenings ∧ acceptances history.1 = [0] ∧
      (listenersOf history.2.live).Perm [0, 0] ∧ tasksOf 0 history.2.live = [] ∧
      ∀ later, tasksOf 0 (history.2.history Duplex.transport later).2.live = [] := by
  intro happenings history
  have sound : Succeeds Duplex.transport {} happenings :=
    ⟨rfl, rfl, rfl, rfl, rfl, rfl, rfl, trivial⟩
  have taken : acceptances history.1 = [0] := rfl
  have mem : 0 ∈ acceptances history.1 := taken ▸ List.mem_cons_self
  have idle : tasksOf 0 history.2.live = [] := rfl
  obtain ⟨watched, _, _, _, never⟩ := onePending Duplex.transport happenings sound
  exact ⟨sound, taken, watched, idle, fun later => (never 0 mem idle later).1⟩

end Host

end FileServer
