import FileServer.Stream.Transport
import FileServer.Conversation.Pending

/-! Turns over a list of live tasks. Which tasks are ready is settled before any is resumed. The
tasks that were not ready keep their order and come first, so that none is starved; behind them
comes, for each resumed one in order, itself if it is unfinished and then its successor. -/
namespace FileServer

inductive TurnFault
  | listener (cause : Failure)
  | aborted (fault : Abort)
  deriving DecidableEq, Repr

def TurnFault.message : TurnFault → String
  | .listener cause =>
    "accepting connections failed: " ++ (Abandonment.listener cause).message ++ ": " ++ cause.text
  | .aborted fault => fault.message

inductive Resumption (τ : Type)
  | goesOn (itself successor : Option τ)
  | givenUp
  | fails (fault : TurnFault)

structure Turn (ω τ : Type) where
  ready : ω → τ → Bool
  expired : τ → Bool
  resume : ω → τ → Resumption τ × ω

namespace Turn

variable {ω τ : Type}

structure Swept (ω τ : Type) where
  world : ω
  skipped : List τ
  registered : List τ
  fault? : Option TurnFault

def sweep (turn : Turn ω τ) (w : ω) : List (τ × Bool) → Swept ω τ
  | [] => ⟨w, [], [], none⟩
  | (task, false) :: rest =>
    let swept := sweep turn w rest
    if turn.expired task then swept else { swept with skipped := task :: swept.skipped }
  | (task, true) :: rest =>
    match turn.resume w task with
    | (.goesOn itself successor, w) =>
      let swept := sweep turn w rest
      { swept with registered := itself.toList ++ successor.toList ++ swept.registered }
    | (.givenUp, w) => sweep turn w rest
    | (.fails fault, w) => ⟨w, [], [], some fault⟩

/-- After a failure only what the turn itself registered is live. -/
def Swept.live (swept : Swept ω τ) : List τ :=
  match swept.fault? with
  | none => swept.skipped ++ swept.registered
  | some _ => swept.registered

def sample (turn : Turn ω τ) (w : ω) (live : List τ) : List (τ × Bool) :=
  live.map fun task => (task, turn.ready w task)

def take (turn : Turn ω τ) (w : ω) (live : List τ) : Swept ω τ := turn.sweep w (turn.sample w live)

def idle (turn : Turn ω τ) (w : ω) (live : List τ) : Bool :=
  live.all fun task => !turn.ready w task && !turn.expired task

end Turn

end FileServer
