import FileServer.Conversation.Task
import FileServer.Proofs.Stream.Calls

/-! The payloads a task may come to write: what its script has yet to say, what its service answers,
and the refusal of a request. A task whose service always answers is aborted by one thing only, a
slice of such a payload whose end is beyond a word. -/
namespace FileServer

variable {σ : Type}

structure Service.Writes (writes : Bytes → Prop) (service : Service) : Prop where
  answers : ∀ request, ∃ response, (service request).value = .ok response ∧ writes response.wire
  refuses : writes (Response.bare .badRequest).wire

def Operation.Writes (writes : Bytes → Prop) : Operation → Prop
  | .receive => True
  | .send payload => writes payload

def Reading.Writes (writes : Bytes → Prop) (service : Service) : Reading → Prop
  | .frame _ => True
  | .request _ => True
  | .serving _ => service.Writes writes
  | .script rest => ∀ operation ∈ rest, operation.Writes writes

def Writing.Writes (writes : Bytes → Prop) (service : Service) : Writing → Prop
  | .last => True
  | .serving => service.Writes writes
  | .script rest => ∀ operation ∈ rest, operation.Writes writes

def Pending.Writes (writes : Bytes → Prop) (service : Service) : Pending → Prop
  | .read reading => reading.Writes writes service
  | .write payload writing => writes payload ∧ writing.Writes writes service

def Next.Writes (writes : Bytes → Prop) (service : Service) : Next → Prop
  | .ended => True
  | .waits pending => pending.Writes writes service
  | .aborted _ => False

structure Task.Writes (writes : Bytes → Prop) (limits : Limits) (task : Task) : Prop where
  limits : task.context.limits = limits
  pending : task.pending.Writes writes task.context.service

variable {writes : Bytes → Prop}

namespace Conversation

variable {context : Context}

theorem serveWrites (known : context.service.Writes writes) (stage : Stage) (buffer : Bytes) :
    (serve context stage buffer).next.Writes writes context.service := by
  unfold serve
  split
  · exact known
  · exact ⟨known.refuses, trivial⟩
  · next request rest _ =>
    split
    · obtain ⟨response, answered, said⟩ := known.answers request
      simp only [answer, answered]
      split
      · exact ⟨said, known⟩
      · exact ⟨said, trivial⟩
    · exact ⟨known.refuses, trivial⟩

theorem scriptWrites (service : Service) {rest : List Operation}
    (known : ∀ operation ∈ rest, operation.Writes writes) : (script rest).Writes writes service := by
  cases rest with
  | nil => trivial
  | cons operation rest =>
    have later : ∀ operation ∈ rest, operation.Writes writes := fun other mem =>
      known other (List.mem_cons_of_mem _ mem)
    cases operation with
    | receive => exact later
    | send payload => exact ⟨known _ List.mem_cons_self, later⟩

theorem receivedWrites (buffer bytes : Bytes) {reading : Reading}
    (known : reading.Writes writes context.service) :
    (received context buffer bytes reading).next.Writes writes context.service := by
  cases reading with
  | frame want =>
    simp only [received, frame]
    split <;> trivial
  | request stage =>
    simp only [received, request]
    split <;> trivial
  | serving stage => exact serveWrites known stage _
  | script rest => exact scriptWrites _ known

theorem sentWrites (buffer : Bytes) {writing : Writing}
    (known : writing.Writes writes context.service) :
    (sent context buffer writing).next.Writes writes context.service := by
  cases writing with
  | last => trivial
  | serving => exact serveWrites known .head buffer
  | script rest => exact scriptWrites _ known

end Conversation

inductive Resumed.Writes (writes : Bytes → Prop) (limits : Limits) : Resumed → Prop where
  | kept {task : Task} (known : task.Writes writes limits) : Writes writes limits (.kept task)
  | completed {events : List Event} {successor : Option Task}
      (known : ∀ task, successor = some task → task.Writes writes limits) :
      Writes writes limits (.completed events successor)
  | abandoned {cause : Abandonment} : Writes writes limits (.abandoned cause)
  | aborted {payload : Bytes} (said : writes payload)
      (past : Text.maxWord < payload.length - 1 + max limits.writeChunk 1) :
      Writes writes limits (.aborted [] .offsetOverflow)

namespace Task

variable {task : Task} {context : Context}

theorem startWrites (now : Nat) {outcome : Outcome}
    (known : outcome.next.Writes writes context.service) :
    ∀ task, start? context now outcome = some task → task.Writes writes context.limits := by
  intro task started
  unfold start? at started
  split at started
  · next pending waits =>
    cases started
    rw [waits] at known
    exact ⟨rfl, known⟩
  · cases started
  · cases started

theorem completeWrites (now : Nat) {outcome : Outcome}
    (known : outcome.next.Writes writes task.context.service) :
    (task.complete now outcome).Writes writes task.context.limits := by
  have successor := startWrites now known
  unfold complete
  split
  · next aborted =>
    rw [aborted] at known
    exact known.elim
  · exact .completed successor

theorem resumeWrites {limits : Limits} (t : Transport σ) (known : task.Writes writes limits) (now : Nat)
    (s : σ) : (task.resume t now s).1.Writes writes limits := by
  obtain ⟨rfl, pending⟩ := id known
  unfold resume
  split
  · next reading reads =>
    rw [reads] at pending
    unfold resumeRead
    split
    · exact completeWrites now (Conversation.receivedWrites _ _ pending)
    · exact .kept known
    · exact .abandoned
    · exact .abandoned
  · next payload writing writes =>
    rw [writes] at pending
    obtain ⟨said, later⟩ := pending
    unfold resumeWrite
    split
    · exact completeWrites now (Conversation.sentWrites _ later)
    · exact .kept ⟨rfl, writes ▸ ⟨said, later⟩⟩
    · exact .abandoned
    · next drained =>
      obtain ⟨more, past⟩ := Transport.drainOverflow (congrArg Prod.fst drained)
      rw [List.length_drop] at more past
      exact .aborted said (by omega)

theorem serveWrites (known : context.service.Writes writes) (now : Nat) :
    ∀ task, serve? context now = some task → task.Writes writes context.limits :=
  startWrites now (Conversation.serveWrites known .head [])

theorem scriptWrites (now : Nat) {operations : List Operation}
    (known : ∀ operation ∈ operations, operation.Writes writes) :
    ∀ task, script? context now operations = some task → task.Writes writes context.limits :=
  startWrites now (Conversation.scriptWrites _ known)

end Task

end FileServer
