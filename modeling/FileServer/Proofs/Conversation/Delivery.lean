import Mathlib.Data.List.Perm.Subperm
import FileServer.Proofs.Conversation.Journal

/-! Replies reach the client whole and in their order, however little a call on the socket accepts and
however often it has to be made again. What a drain offers, and what a conversation calls and tells
of where it goes on, keeps the journal orderly. -/
namespace FileServer

variable {σ : Type} {t : Transport σ}

namespace Transport

def Honest (t : Transport σ) : Prop :=
  ∀ s piece n, (t.send s piece).1 = .ok n → n ≤ piece.length

theorem acceptedReady {piece : Bytes} {result : Except Failure Nat} {n : Nat} (some' : piece ≠ [])
    (ready : accepted piece result = .ready n) : result = .ok n ∧ 0 < n := by
  match result with
  | .ok 0 =>
    rw [accepted, if_neg some'] at ready
    cases ready
  | .ok (m + 1) =>
    cases ready
    exact ⟨rfl, Nat.succ_pos m⟩
  | .error cause =>
    simp only [accepted, Attempt.ofResult] at ready
    split at ready <;> cases ready

theorem acceptedWaits {piece : Bytes} {result : Except Failure Nat} (some' : piece ≠ [])
    (waits : accepted piece result = .wouldBlock) : ∃ cause, result = .error cause ∧ cause.Passes := by
  match result with
  | .ok 0 =>
    rw [accepted, if_neg some'] at waits
    cases waits
  | .ok (m + 1) => cases waits
  | .error cause =>
    simp only [accepted, Attempt.ofResult] at waits
    split at waits
    · next passes => exact ⟨cause, rfl, passes⟩
    · cases waits

theorem receivedReady {result : Except Failure Bytes} {bytes : Bytes}
    (ready : received result = .ready bytes) : result = .ok bytes ∧ bytes ≠ [] := by
  match result with
  | .ok [] => cases ready
  | .ok (b :: rest) =>
    cases ready
    exact ⟨rfl, List.cons_ne_nil b rest⟩
  | .error cause =>
    simp only [received, Attempt.ofResult] at ready
    split at ready <;> cases ready

theorem receivedWaits {result : Except Failure Bytes} (waits : received result = .wouldBlock) :
    ∃ cause, result = .error cause ∧ cause.Passes := by
  match result with
  | .ok [] => cases waits
  | .ok (b :: rest) => cases waits
  | .error cause =>
    simp only [received, Attempt.ofResult] at waits
    split at waits
    · next passes => exact ⟨cause, rfl, passes⟩
    · cases waits

end Transport

namespace Task

theorem recordedResume (task : Task) (now : Nat) (r : Recorded σ) :
    task.resume t now r.socket =
      ((task.resume t.recorded now r).1, (task.resume t.recorded now r).2.socket) := by
  unfold resume
  split
  · have plain (most : Nat) : t.tryReceive most r.socket =
        ((t.recorded.tryReceive most r).1, (t.recorded.tryReceive most r).2.socket) := rfl
    simp only [resumeRead, plain]
    generalize t.recorded.tryReceive task.context.limits.readChunk r = tried
    obtain ⟨attempt, r'⟩ := tried
    cases attempt <;> rfl
  · simp only [resumeWrite, Transport.recordedDrain]
    generalize t.recorded.drain _ _ task.sent r = drained
    obtain ⟨outcome, r'⟩ := drained
    cases outcome <;> rfl

end Task

namespace Journal

variable {context : Context} {journal : Journal} {due earlier : List Reply} {reply : Reply}
  {sent : Nat}

structure Leaves (context : Context) (journal : Journal) (earlier : List Reply) (reply : Reply)
    (drained : Drained) (next : Journal) : Prop where
  received : next.received = journal.received
  orderly : Orderly context next
  whole : drained = .whole → Answered context next (earlier ++ [reply])
  partly : ∀ sent, drained = .partly sent → Sending context next earlier reply sent

theorem offerLeaves (honest : t.Honest) {r r' : Recorded σ} {attempt : Attempt Nat}
    (sending : Sending context (journal ++ r.calls.map .made) earlier reply sent)
    (more : reply.payload.drop sent ≠ [])
    (tried : t.recorded.trySend ((reply.payload.drop sent).take (max context.limits.writeChunk 1)) r =
      (attempt, r')) :
    let next := journal ++ r'.calls.map .made
    next.received = (journal ++ r.calls.map Entry.made).received ∧ Orderly context next ∧
      (∀ n, attempt = .ready n → Sending context next earlier reply (sent + n)) ∧
      (attempt = .wouldBlock → Sending context next earlier reply sent) := by
  generalize taken : (reply.payload.drop sent).take (max context.limits.writeChunk 1) = piece at tried
  have front : piece <+: reply.payload.drop sent := taken ▸ List.take_prefix ..
  have short : piece.length ≤ max context.limits.writeChunk 1 := taken ▸ List.length_take_le ..
  have some' : piece ≠ [] := by
    rw [← taken]
    intro nothing
    rcases List.take_eq_nil_iff.mp nothing with none' | nothing
    · omega
    · exact more nothing
  obtain ⟨orderly, onward, waits⟩ := sending.offered front some' short
    (honest r.socket piece)
  cases tried
  simp only [List.map_append, List.map_cons, List.map_nil]
  rw [← List.append_assoc]
  refine ⟨(receivedAppend ..).trans (List.append_nil _), orderly, fun n ready => ?_, fun wait => ?_⟩
  · obtain ⟨accepted, some''⟩ := Transport.acceptedReady some' ready
    exact onward n accepted some''
  · obtain ⟨cause, failed, passes⟩ := Transport.acceptedWaits some' wait
    exact waits cause failed passes

theorem drainLeaves (honest : t.Honest) (sending : Sending context journal earlier reply sent)
    (s : σ) :
    let drained := t.recorded.drain context.limits.writeChunk (reply.payload.drop sent) sent ⟨s, []⟩
    Leaves context journal earlier reply drained.1 (journal ++ drained.2.calls.map .made) := by
  have drains : t.recorded.Drains context.limits.writeChunk
      (fun rest offset r => rest = reply.payload.drop offset ∧
        (journal ++ r.calls.map Entry.made).received = journal.received ∧
          Sending context (journal ++ r.calls.map .made) earlier reply offset)
      (fun drained r => Leaves context journal earlier reply drained
        (journal ++ r.calls.map .made)) := by
    refine ⟨?_, ?_, ?_, ?_, ?_, ?_, ?_⟩
    · rintro offset r ⟨empty, received, sending⟩
      have whole := List.drop_eq_nil_iff.mp empty.symm
      exact ⟨received, sending.orderly, fun _ => sending.answered whole, nofun⟩
    · rintro rest offset r more ⟨rfl, received, sending⟩ past
      exact ⟨received, sending.orderly, nofun, nofun⟩
    · rintro rest offset r n r' more ⟨rfl, received, sending⟩ tried whole
      obtain ⟨same, orderly, onward, _⟩ := offerLeaves honest sending more tried
      exact ⟨List.drop_drop .., same.trans received, onward n rfl⟩
    · rintro rest offset r n r' more ⟨rfl, received, sending⟩ tried short
      obtain ⟨same, orderly, onward, _⟩ := offerLeaves honest sending more tried
      refine ⟨same.trans received, orderly, nofun, ?_⟩
      rintro _ ⟨⟩
      exact onward n rfl
    · rintro rest offset r r' more ⟨rfl, received, sending⟩ tried
      obtain ⟨same, orderly, _, waits⟩ := offerLeaves honest sending more tried
      refine ⟨same.trans received, orderly, nofun, ?_⟩
      rintro _ ⟨⟩
      exact waits rfl
    · rintro rest offset r r' more ⟨rfl, received, sending⟩ tried
      obtain ⟨same, orderly, _⟩ := offerLeaves honest sending more tried
      exact ⟨same.trans received, orderly, nofun, nofun⟩
    · rintro rest offset r cause r' more ⟨rfl, received, sending⟩ tried
      obtain ⟨same, orderly, _⟩ := offerLeaves honest sending more tried
      exact ⟨same.trans received, orderly, nofun, nofun⟩
  refine drains.drain _ sent ⟨s, []⟩ ⟨rfl, ?_, ?_⟩
  · rw [List.map_nil, List.append_nil]
  · rwa [List.map_nil, List.append_nil]

def Foretells (context : Context) (journal : Journal) (due : List Reply) (stage : Stage)
    (buffer : Bytes) : Prop :=
  ∀ more, replies context (journal.received ++ more) = due ++
    (stage.message context.limits.frame context.remote (buffer ++ more)).replies context
      (replies context)

inductive Stands (context : Context) (journal : Journal) : List Task → Prop where
  | left (orderly : Orderly context journal) : Stands context journal []
  | reading {task : Task} {due : List Reply} (stage : Stage) (own : task.context = context)
      (pending : task.pending = .read (.serving stage)) (answered : Answered context journal due)
      (quiet : stage.message context.limits.frame context.remote task.buffer = .incomplete)
      (foretells : Foretells context journal due stage task.buffer) :
      Stands context journal [task]
  | answering {task : Task} {earlier : List Reply} {reply : Reply} (own : task.context = context)
      (pending : task.pending = .write reply.payload .serving)
      (sending : Sending context journal earlier reply task.sent)
      (foretells : Foretells context journal (earlier ++ [reply]) .head task.buffer) :
      Stands context journal [task]
  | parting {task : Task} {earlier : List Reply} {reply : Reply} (own : task.context = context)
      (pending : task.pending = .write reply.payload .last)
      (sending : Sending context journal earlier reply task.sent) :
      Stands context journal [task]

theorem Stands.orderly {tasks : List Task} (stands : Stands context journal tasks) :
    Orderly context journal := by
  cases stands with
  | left orderly => exact orderly
  | reading stage own pending answered quiet foretells => exact answered.orderly
  | answering own pending sending foretells => exact sending.orderly
  | parting own pending sending => exact sending.orderly

theorem Stands.ended {tasks : List Task} (stands : Stands context journal tasks)
    {entry : Entry} (mem : entry ∈ journal) (ends : entry.Ends) : tasks = [] := by
  cases stands with
  | left orderly => rfl
  | reading stage own pending answered quiet foretells => exact absurd ends (answered.lasts entry mem)
  | answering own pending sending foretells => exact absurd ends (sending.lasts entry mem)
  | parting own pending sending => exact absurd ends (sending.lasts entry mem)

theorem Stands.fewer {tasks tasks' : List Task} (stands : Stands context journal tasks)
    (fewer : tasks'.Subperm tasks) : Stands context journal tasks' := by
  have short : tasks' = [] ∨ tasks' = tasks := by
    cases stands with
    | left orderly => exact .inl (List.subperm_nil.mp fewer)
    | _ => exact List.subperm_singleton_iff.mp fewer
  rcases short with rfl | rfl
  · exact .left stands.orderly
  · exact stands

theorem receivedTold (events : List Event) : received (events.map .told) = [] := by
  induction events with
  | nil => rfl
  | cons event events ih => exact ih

theorem answerStands {request : Request} {rest : Bytes} (answered : Answered context journal due)
    (addressed : request.isAddressed)
    (foretells : ∀ more, replies context (journal.received ++ more) =
      due ++ context.replies request (replies context (rest ++ more))) (now : Nat) :
    let answer := Conversation.answer context request
    Stands context (journal ++ answer.1.map .told)
      (Task.start? context now ⟨answer.1, rest, answer.2⟩).toList := by
  have here := foretells []
  simp only [List.append_nil, Context.replies, if_pos addressed] at here foretells
  simp only [Conversation.answer, List.map_cons, List.map_map]
  rw [List.append_cons]
  cases answer : (context.service request).value with
  | error fault =>
    simp only [answer] at here
    have decoded : due ++ [⟨some request, []⟩] <+: replies context journal.received := by rw [here]
    exact .left ((answered.call decoded rfl).asked _).orderly
  | ok response =>
    simp only [answer] at here foretells
    have decoded : due ++ [⟨some request, response.wire⟩] <+: replies context journal.received := by
      rw [here, List.prefix_append_right_inj]
      exact List.prefix_append [_] _
    have sending := (answered.call decoded rfl).asked (context.service request).trace
    by_cases alive : request.keepsAlive
    · simp only [if_pos alive] at foretells ⊢
      show Stands context _ [⟨context, rest, .write response.wire .serving, 0, now⟩]
      refine .answering rfl rfl sending fun more => ?_
      have silent := receivedTold (.called request :: (context.service request).trace.map .asked)
      rw [List.map_cons, List.map_map] at silent
      rw [← List.append_cons, receivedAppend, silent, List.append_nil, foretells, repliesMessage,
        List.append_assoc]
      rfl
    · simp only [if_neg alive]
      show Stands context _ [⟨context, rest, .write response.wire .last, 0, now⟩]
      exact .parting rfl rfl sending

theorem serveStands {stage : Stage} {buffer : Bytes} (answered : Answered context journal due)
    (foretells : Foretells context journal due stage buffer) (now : Nat) :
    let outcome := Conversation.serve context stage buffer
    Stands context (journal ++ outcome.events.map .told)
      (Task.start? context now outcome).toList := by
  have tells := Stage.scanTells context.limits.frame context.remote stage buffer
  have here := foretells []
  rw [List.append_nil] at here
  have refused (rest : Bytes) (here : replies context journal.received = due ++ [.refusal]) :
      Stands context (journal ++ List.map .told [])
        (Task.start? context now ⟨[], rest, .waits Conversation.refusal⟩).toList := by
    have sending : Sending context journal due .refusal 0 :=
      answered.next (here ▸ List.prefix_refl _) rfl
    rw [List.map_nil, List.append_nil]
    show Stands context journal [⟨context, rest, Conversation.refusal, 0, now⟩]
    exact .parting rfl rfl sending
  unfold Conversation.serve
  generalize stage.scan context.limits.frame context.remote buffer = scanned at tells
  cases tells with
  | @awaited stage' buffer' quiet told =>
    simp only [List.map_nil, List.append_nil]
    show Stands context journal [⟨context, buffer', .read (.serving stage'), 0, now⟩]
    refine .reading stage' rfl rfl answered quiet fun more => ?_
    rw [foretells, told]
  | refused told =>
    rw [told] at here
    exact refused _ here
  | @complete request rest told =>
    by_cases addressed : request.isAddressed
    · simp only [if_pos addressed]
      refine answerStands answered addressed (fun more => ?_) now
      rw [foretells, told]
      rfl
    · simp only [if_neg addressed]
      refine refused rest ?_
      rw [here, told, Message.replies, Context.replies, if_neg addressed]

theorem beginStands (context : Context) (now : Nat) :
    Stands context [] (Task.serve? context now).toList := by
  have answered : Answered context [] [] :=
    ⟨orderlyNothing context, nofun, ⟨List.nil_prefix, rfl, List.nil_prefix⟩, rfl⟩
  have foretells : Foretells context [] [] .head [] := fun more => repliesMessage context more
  exact serveStands answered foretells now

end Journal

end FileServer
