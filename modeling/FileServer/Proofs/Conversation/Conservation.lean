import FileServer.Proofs.Conversation.Schedule
import FileServer.Proofs.Stream.Frame

/-! No byte is lost, doubled or moved on its way through the buffer. A connection is used for frames
and writes, one operation at a time; whatever is done with it, what its successful reads have taken,
the buffer and what is unread make up all that has arrived. -/
namespace FileServer

def Event.taken : Event → Bytes
  | .framed (.upTo separator) (.ok frame) => frame ++ separator
  | .framed (.exactly _) (.ok bytes) => bytes
  | _ => []

theorem Want.scanTakes {limit : Nat} {want : Want} {buffer frame rest : Bytes}
    (found : want.scan limit buffer = .found frame rest) :
    (Event.framed want (.ok frame)).taken ++ rest = buffer := by
  have tells := scanFound found []
  generalize whole : Except.ok frame = result at tells
  cases tells with
  | parted first =>
    cases whole
    rw [List.append_nil, List.append_nil] at first
    exact first.joined.symm
  | overlong | refused => cases whole
  | @counted length fits there =>
    cases whole
    rw [List.append_nil]
    exact List.take_append_drop length buffer

namespace Session

variable {s : Session}

inductive Use
  | read (want : Want)
  | write (payload : Bytes)
  | giveUp
  | move (it : Move)
  deriving DecidableEq, Repr

def Use.act : Use → Act
  | .read want => .start (.frame want)
  | .write payload => .start (.write payload)
  | .giveUp => .start .nothing
  | .move it => .move it

def taken (events : List Event) : Bytes := events.flatMap Event.taken

inductive Plain : Next → Prop where
  | idle : Plain .ended
  | reading (want : Want) : Plain (.waits (.read (.frame want)))
  | writing (payload : Bytes) : Plain (.waits (.write payload .last))

structure Keeps (s : Session) (received : Bytes) (next : List Event × Session) : Prop where
  plain : Plain next.2.next
  kept : taken next.1 ++ next.2.buffer = s.buffer ++ received

theorem frameKeeps (context : Context) (want : Want) (received : Bytes) (pipe : Pipe) :
    s.Keeps received (s.goOn pipe (Conversation.frame context want (s.buffer ++ received))) := by
  unfold Conversation.frame
  split
  · next found =>
    refine ⟨.idle, ?_⟩
    have joined := Want.scanTakes found
    simpa only [taken, goOn, List.flatMap_cons, List.flatMap_nil, List.append_nil] using joined
  · refine ⟨.idle, ?_⟩
    cases want <;> rfl
  · exact ⟨.reading want, rfl⟩

theorem stillKeeps {s' : Session} (plain : Plain s'.next) (buffer : s'.buffer = s.buffer) :
    s.Keeps [] ([], s') := by
  refine ⟨plain, ?_⟩
  rw [List.append_nil]
  exact buffer

theorem advanceKeeps {context : Context} (plain : Plain s.next) {events : List Event} {s' : Session}
    (advanced : s.advance? context = some (events, s')) :
    ∃ received, s.Keeps received (events, s') ∧ received ++ s'.pipe.unread = s.pipe.unread := by
  generalize pending : s.next = after at plain
  cases plain with
  | idle =>
    rw [advanceIdle context pending] at advanced
    cases advanced
  | reading want =>
    obtain ⟨_, _, rfl, rfl⟩ | ⟨bytes, pipe, split, _, _, _, went⟩ := advanceRead pending advanced
    · exact ⟨[], stillKeeps .idle rfl, rfl⟩
    · cases went
      exact ⟨bytes, frameKeeps context want bytes pipe, split.symm⟩
  | writing payload =>
    unfold advance? at advanced
    simp only [pending] at advanced
    split at advanced
    · cases advanced
      exact ⟨[], stillKeeps .idle rfl, rfl⟩
    · next pipe wrote =>
      cases advanced
      exact ⟨[], stillKeeps .idle rfl, Pipe.writeUnread wrote⟩

theorem useKeeps (context : Context) (plain : Plain s.next) (use : Use) :
    let next := s.act context use.act
    ∃ received, s.Keeps received next ∧
      received ++ next.2.pipe.unread = s.pipe.unread ++ use.act.arrives := by
  have silent : s.pipe.unread = s.pipe.unread ++ [] := (List.append_nil _).symm
  match use with
  | .read want =>
    have kept : s.Keeps [] (s.goOn s.pipe (Conversation.frame context want (s.buffer ++ []))) :=
      frameKeeps context want [] s.pipe
    rw [List.append_nil] at kept
    exact ⟨[], kept, silent⟩
  | .write payload => exact ⟨[], stillKeeps (.writing payload) rfl, silent⟩
  | .giveUp => exact ⟨[], stillKeeps .idle rfl, silent⟩
  | .move (.arrive bytes) => exact ⟨[], stillKeeps plain rfl, rfl⟩
  | .move (.chunk size) => exact ⟨[], stillKeeps plain rfl, silent⟩
  | .move .close => exact ⟨[], stillKeeps plain rfl, silent⟩
  | .move .resume =>
    simp only [Use.act, act, move]
    cases advanced : s.advance? context with
    | none => exact ⟨[], stillKeeps plain rfl, silent⟩
    | some next =>
      obtain ⟨received, kept, unread⟩ := advanceKeeps plain advanced
      exact ⟨received, kept, unread.trans silent⟩

theorem followKeeps (context : Context) (plain : Plain s.next) (uses : List Use) :
    let used := s.follow context (uses.map Use.act)
    Plain used.2.next ∧
      taken used.1 ++ used.2.buffer ++ used.2.pipe.unread =
        s.buffer ++ s.pipe.unread ++ arrivals (uses.map Use.act) := by
  induction uses generalizing s with
  | nil => exact ⟨plain, (List.append_nil _).symm⟩
  | cons use rest ih =>
    obtain ⟨received, ⟨next, kept⟩, unread⟩ := useKeeps context plain use
    obtain ⟨last, later⟩ := ih next
    refine ⟨last, ?_⟩
    simp only [List.map_cons, follow]
    generalize s.act context use.act = first at *
    generalize first.2.follow context (rest.map Use.act) = used at *
    calc taken (first.1 ++ used.1) ++ used.2.buffer ++ used.2.pipe.unread
        = taken first.1 ++ (taken used.1 ++ used.2.buffer ++ used.2.pipe.unread) := by
          simp only [taken, List.flatMap_append, List.append_assoc]
      _ = taken first.1 ++ first.2.buffer ++ first.2.pipe.unread ++
            arrivals (rest.map Use.act) := by
          rw [later]
          simp only [List.append_assoc]
      _ = s.buffer ++ s.pipe.unread ++ (use.act.arrives ++ arrivals (rest.map Use.act)) := by
          rw [kept, List.append_assoc s.buffer, unread]
          simp only [List.append_assoc]

theorem takenNothing {events : List Event}
    (fruitless : ∀ want frame, .framed want (.ok frame) ∉ events) : taken events = [] := by
  refine List.flatMap_eq_nil_iff.mpr fun event mem => ?_
  match event with
  | .framed want (.ok frame) => exact absurd mem (fruitless want frame)
  | .framed (.upTo _) (.error _) | .framed (.exactly _) (.error _) => rfl
  | .requested _ | .called _ | .asked _ | .received _ | .sent => rfl

/-- What the successful reads have taken, in their order, then the buffer, then what is unread, is all
that has arrived. A step in which no read succeeds, be it that a frame does not fit, that a read is
given up, or that the peer has closed, takes nothing: all that was received is still in the buffer. -/
theorem bytesConserved (context : Context) (pipe : Pipe) (uses : List Use) :
    let used := follow context { pipe } (uses.map Use.act)
    taken used.1 ++ used.2.buffer ++ used.2.pipe.unread =
        pipe.unread ++ arrivals (uses.map Use.act) ∧
      ∀ use : Use, let next := used.2.act context use.act
        (∀ want frame, .framed want (.ok frame) ∉ next.1) →
          ∃ received, next.2.buffer = used.2.buffer ++ received ∧
            received ++ next.2.pipe.unread = used.2.pipe.unread ++ use.act.arrives := by
  obtain ⟨plain, conserved⟩ := followKeeps context (s := { pipe }) .idle uses
  refine ⟨conserved, fun use fruitless => ?_⟩
  obtain ⟨received, ⟨_, kept⟩, unread⟩ := useKeeps context plain use
  rw [takenNothing fruitless] at kept
  exact ⟨received, kept, unread⟩

theorem bytesConservedPastOversize :
    let context : Context := ⟨{ frame := 3 }, .ofOctets 127 0 0 1, .echo⟩
    let pipe : Pipe := { chunk := 5 }
    let uses := [.read (.upTo [10]), .move (.arrive [97, 10, 98, 99, 100, 101]), .move .resume,
      .read (.upTo [10])]
    let used := follow context { pipe } (uses.map Use.act)
    let next := used.2.act context (.move .resume)
    used.1 = [.framed (.upTo [10]) (.ok [97])] ∧ used.2.buffer = [98, 99, 100] ∧
      next.1 = [.framed (.upTo [10]) (.error ⟨4, 3⟩)] ∧
      taken used.1 ++ used.2.buffer ++ used.2.pipe.unread = [97, 10, 98, 99, 100, 101] ∧
      ∃ received, next.2.buffer = [98, 99, 100] ++ received ∧
        received ++ next.2.pipe.unread = [101] := by
  intro context pipe uses used next
  have told : next.1 = [.framed (.upTo [10]) (.error ⟨4, 3⟩)] := rfl
  obtain ⟨conserved, spared⟩ := bytesConserved context pipe uses
  have fruitless : ∀ want frame, .framed want (.ok frame) ∉ next.1 := by
    intro want frame mem
    rw [told, List.mem_singleton] at mem
    cases mem
  exact ⟨rfl, rfl, told, conserved, spared (.move .resume) fruitless⟩

end Session

end FileServer
