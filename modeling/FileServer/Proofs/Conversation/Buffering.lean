import FileServer.Proofs.Conversation.Framing
import FileServer.Proofs.Conversation.Breaks

/-! How much a buffer can hold. Nothing tests its size but a scan, and only what a scan has left open
is read for; so what one read may add is all that is ever held beyond the limit, whatever is asked of
the connection and in which order. -/
namespace FileServer

theorem Pipe.writeChunk {p q : Pipe} {payload : Bytes} (h : p.write? payload = some q) :
    q.chunk = p.chunk := by
  unfold write? at h
  split at h
  · cases h
  · cases h
    rfl

def Want.reach (limit : Nat) : Want → Nat
  | .upTo _ => limit + 1
  | .exactly length => length

theorem Want.undecidedReach {limit : Nat} {want : Want} {held : Bytes}
    (open' : ¬ want.Decided limit held) : held.length < want.reach limit := by
  cases want with
  | upTo separator => exact Nat.lt_succ_of_le (undecidedShort open')
  | exactly length => exact Nat.lt_of_not_le fun there => open' (.inr there)

def Stage.want : Stage → Want
  | .head => .upTo Bytes.blankLine
  | .body _ length => .exactly length

theorem Stage.Awaits.undecided {limit : Nat} {stage : Stage} {buffer : Bytes}
    (awaits : stage.Awaits limit buffer) : ¬ stage.want.Decided limit buffer := by
  cases stage with
  | head =>
    obtain ⟨absent, short⟩ := awaits
    rintro (there | long)
    · exact Sequence.cutAbsent.mp absent there
    · exact Nat.not_lt_of_le short long
  | body request length =>
    obtain ⟨short, fits⟩ := awaits
    rintro (large | there)
    · exact Nat.not_lt_of_le fits large
    · exact Nat.not_le_of_lt short there

def Reading.want? : Reading → Option Want
  | .frame want => some want
  | .request stage | .serving stage => some stage.want
  | .script _ => none

inductive Next.Open (limit : Nat) (buffer : Bytes) : Next → Prop where
  | idle : Open limit buffer .ended
  | broken (fault : Abort) : Open limit buffer (.aborted fault)
  | last (payload : Bytes) : Open limit buffer (.waits (.write payload .last))
  | answer (payload : Bytes) : Open limit buffer (.waits (.write payload .serving))
  | reading {reading : Reading} {want : Want} (awaited : reading.want? = some want)
      (open' : ¬ want.Decided limit buffer) : Open limit buffer (.waits (.read reading))

structure Outcome.Settles (limit : Nat) (held : Bytes) (outcome : Outcome) : Prop where
  shorter : outcome.buffer.length ≤ held.length
  next : outcome.next.Open limit outcome.buffer

namespace Conversation

theorem frameSettles (context : Context) (want : Want) (buffer : Bytes) :
    (frame context want buffer).Settles context.limits.frame buffer := by
  refine ⟨(Session.frameLight context want buffer).1, ?_⟩
  unfold frame
  split
  · exact .idle
  · exact .idle
  · next missing => exact .reading rfl (Want.scanMissing.mp missing)

theorem requestSettles (context : Context) (stage : Stage) (buffer : Bytes) :
    (request context stage buffer).Settles context.limits.frame buffer := by
  refine ⟨(Session.requestLight context stage buffer).1, ?_⟩
  unfold request
  split
  · exact .idle
  · next scanned => exact .reading rfl (Stage.scanAwaits scanned).undecided

theorem answerOpen (context : Context) (request : Request) (buffer : Bytes) :
    (answer context request).2.Open context.limits.frame buffer := by
  unfold answer
  simp only
  split
  · exact .broken _
  · split
    · exact .answer _
    · exact .last _

theorem serveSettles (context : Context) (stage : Stage) (buffer : Bytes) :
    (serve context stage buffer).Settles context.limits.frame buffer := by
  refine ⟨(Session.serveLight context stage buffer).1, ?_⟩
  unfold serve
  split
  · next scanned => exact .reading rfl (Stage.scanAwaits scanned).undecided
  · exact .last _
  · next request rest _ =>
    split
    · exact answerOpen context request rest
    · exact .last _

end Conversation

namespace Session

structure Bounded (limit most : Nat) (s : Session) : Prop where
  chunk : s.pipe.chunk ≤ most
  held : s.buffer.length ≤ limit + most
  next : s.next.Open limit s.buffer

variable {context : Context} {most : Nat} {s : Session} {pipe : Pipe}

theorem goOnBounded (s : Session) {limit : Nat} {held : Bytes} {outcome : Outcome}
    (settles : outcome.Settles limit held) (chunk : pipe.chunk ≤ most)
    (short : held.length ≤ limit + most) : (s.goOn pipe outcome).2.Bounded limit most :=
  ⟨chunk, Nat.le_trans settles.shorter short, settles.next⟩

theorem startBounded (bounded : s.Bounded context.limits.frame most) (what : Start) :
    (s.act context (.start what)).2.Bounded context.limits.frame most := by
  obtain ⟨chunk, held, _⟩ := bounded
  cases what with
  | frame want => exact goOnBounded s (Conversation.frameSettles ..) chunk held
  | request => exact goOnBounded s (Conversation.requestSettles ..) chunk held
  | serve => exact goOnBounded s (Conversation.serveSettles ..) chunk held
  | write payload => exact ⟨chunk, held, .last payload⟩
  | nothing => exact ⟨chunk, held, .idle⟩

-- A read finds at most `limit` bytes in the buffer, for it has been left open.
theorem receivedBounded (bounded : s.Bounded context.limits.frame most) {reading : Reading}
    (pending : s.next = .waits (.read reading)) {bytes : Bytes} (short : bytes.length ≤ most)
    (chunk : pipe.chunk ≤ most) :
    (s.goOn pipe (Conversation.received context s.buffer bytes reading)).2.Bounded
      context.limits.frame most := by
  have left := bounded.next
  rw [pending] at left
  cases left with
  | reading awaited open' =>
    have before := Want.undecidedShort open'
    have after : (s.buffer ++ bytes).length ≤ context.limits.frame + most := by
      rw [List.length_append]
      omega
    cases reading with
    | frame want => exact goOnBounded s (Conversation.frameSettles ..) chunk after
    | request stage => exact goOnBounded s (Conversation.requestSettles ..) chunk after
    | serving stage => exact goOnBounded s (Conversation.serveSettles ..) chunk after
    | script rest => cases awaited

theorem sentBounded (bounded : s.Bounded context.limits.frame most) {payload : Bytes}
    {writing : Writing} (pending : s.next = .waits (.write payload writing))
    (chunk : pipe.chunk ≤ most) :
    (s.goOn pipe (Conversation.sent context s.buffer writing)).2.Bounded
      context.limits.frame most := by
  obtain ⟨_, held, left⟩ := bounded
  rw [pending] at left
  cases left with
  | last => exact ⟨chunk, held, .idle⟩
  | answer => exact goOnBounded s (Conversation.serveSettles ..) chunk held

theorem advanceBounded (some' : 0 < most) (bounded : s.Bounded context.limits.frame most)
    {events : List Event} {s' : Session} (advanced : s.advance? context = some (events, s')) :
    s'.Bounded context.limits.frame most := by
  have ended : Bounded context.limits.frame most { s with next := .ended } :=
    ⟨bounded.chunk, bounded.held, .idle⟩
  unfold advance? at advanced
  split at advanced
  · cases advanced
  · cases advanced
  · next reading pending =>
    split at advanced
    · cases advanced
    · cases advanced
      exact ended
    · next bytes pipe took =>
      cases advanced
      obtain ⟨_, short, same⟩ := Pipe.readCounts took
      have chunk := bounded.chunk
      exact receivedBounded bounded pending (by omega) (same ▸ chunk)
  · next payload writing pending =>
    split at advanced
    · cases advanced
      exact ended
    · next pipe wrote =>
      cases advanced
      exact sentBounded bounded pending (Pipe.writeChunk wrote ▸ bounded.chunk)

theorem actBounded (some' : 0 < most) (bounded : s.Bounded context.limits.frame most) (act : Act)
    (size : ∀ size, act = .move (.chunk size) → size ≤ most) :
    (s.act context act).2.Bounded context.limits.frame most := by
  obtain ⟨chunk, held, next⟩ := bounded
  match act with
  | .start what => exact startBounded ⟨chunk, held, next⟩ what
  | .move (.arrive bytes) => exact ⟨chunk, held, next⟩
  | .move (.chunk n) => exact ⟨size n rfl, held, next⟩
  | .move .close => exact ⟨chunk, held, next⟩
  | .move .resume =>
    simp only [Session.act, move]
    cases advanced : s.advance? context with
    | none => exact ⟨chunk, held, next⟩
    | some later => exact advanceBounded some' ⟨chunk, held, next⟩ advanced

theorem followBounded (some' : 0 < most) (bounded : s.Bounded context.limits.frame most)
    (acts : List Act) (sizes : ∀ size, .move (.chunk size) ∈ acts → size ≤ most) :
    (s.follow context acts).2.Bounded context.limits.frame most := by
  induction acts generalizing s with
  | nil => exact bounded
  | cons act rest ih =>
    have here := actBounded some' bounded act fun size same =>
      sizes size (same ▸ List.mem_cons_self)
    exact ih here fun size mem => sizes size (List.mem_cons_of_mem _ mem)

end Session

namespace Want

variable {limit n : Nat} {want : Want} {held rest : Bytes} {chunks : List Bytes}
  {events : List Event}

-- While it is open what it holds has not come to the reach, and each chunk brings it nearer.
theorem Runs.soon (runs : want.Runs limit held chunks n events rest)
    (some' : ∀ chunk ∈ chunks, chunk ≠ []) :
    n ≤ want.reach limit - held.length ∧
      (n = want.reach limit - held.length → ∃ result, events = [.framed want result]) := by
  induction runs with
  | decided => exact ⟨Nat.zero_le _, fun _ => ⟨_, rfl⟩⟩
  | waits open' =>
    have short := undecidedReach open'
    exact ⟨Nat.zero_le _, fun same => by omega⟩
  | @more held chunk rest chunks n events open' later ih =>
    have short := undecidedReach open'
    have here := List.length_pos_iff.mpr (some' chunk List.mem_cons_self)
    obtain ⟨few, told⟩ := ih fun c mem => some' c (List.mem_cons_of_mem _ mem)
    rw [List.length_append] at few told
    exact ⟨by omega, fun same => told (by omega)⟩

end Want

namespace Session

/-- Whatever is done with a connection, one thing at a time, its buffer never holds more than the limit
and one read, and no more than the limit while a read is pending. So a read of a frame makes no more
reads than there are bytes missing to the number that decides it, and the last of them ends it. -/
theorem buffersBounded (context : Context) (pipe : Pipe) {most : Nat} (acts : List Act)
    (some' : 0 < most) (chunk : pipe.chunk ≤ most)
    (sizes : ∀ size, .move (.chunk size) ∈ acts → size ≤ most) :
    let limit := context.limits.frame
    let s := (follow context { pipe } acts).2
    s.buffer.length ≤ limit + most ∧
      (∀ reading, s.next = .waits (.read reading) → ∃ want, reading.want? = some want ∧
        s.buffer.length ≤ limit ∧ s.buffer.length < want.reach limit) ∧
      ∀ (want : Want) (moves : List Move),
        let read := s.follow context (.start (.frame want) :: moves.map .move)
        let room := want.reach limit - s.buffer.length
        read.2.pipe.reads ≤ s.pipe.reads + room ∧
          (read.2.pipe.reads = s.pipe.reads + room →
            ∃ result, read.1 = [.framed want result] ∧ read.2.next = .ended) := by
  intro limit s
  have fresh : Bounded limit most { pipe } := ⟨chunk, Nat.zero_le _, .idle⟩
  obtain ⟨_, held, next⟩ : s.Bounded limit most := followBounded some' fresh acts sizes
  refine ⟨held, fun reading pending => ?_, fun want moves => ?_⟩
  · rw [pending] at next
    cases next with
    | reading awaited open' =>
      exact ⟨_, awaited, Want.undecidedShort open', Want.undecidedReach open'⟩
  · intro read room
    obtain ⟨n, frames⟩ : ∃ n, Frames limit want s.pipe.reads s.buffer (supply s.pipe moves) n read :=
      framingFrames context want s.pipe s.buffer moves
    obtain ⟨few, told⟩ := frames.runs.soon (supplySome s.pipe moves)
    rw [frames.reads]
    refine ⟨Nat.add_le_add_left few _, fun all => ?_⟩
    obtain ⟨result, told⟩ := told (Nat.add_left_cancel all)
    refine ⟨result, told, frames.told ?_⟩
    rw [told]
    exact List.cons_ne_nil _ _

theorem buffersBoundedPastOversize :
    let context : Context := ⟨{ frame := 4 }, .ofOctets 127 0 0 1, .echo⟩
    let pipe : Pipe := { chunk := 3 }
    let line : Want := .upTo [10]
    let acts := [.start (.frame line), .move (.arrive [97, 98, 99, 100, 101, 102]), .move .resume]
    let s := (follow context { pipe } acts).2
    let last := (follow context { pipe } (acts ++ [.move .resume])).2
    s.next = .waits (.read (.frame line)) ∧ s.buffer = [97, 98, 99] ∧ s.buffer.length ≤ 4 ∧
      last.buffer.length = 6 ∧ last.buffer.length ≤ 4 + 3 ∧
      let moves := [.chunk 1, .resume, .resume]
      ∃ result, (s.follow context (.start (.frame line) :: moves.map .move)).1 =
        [.framed line result] := by
  intro context pipe line acts s last
  have few (more : List Act) (none' : ∀ size, .move (.chunk size) ∉ more) :=
    buffersBounded context pipe more (show 0 < 3 by decide) (Nat.le_refl 3)
      fun size mem => absurd mem (none' size)
  obtain ⟨_, pending, told⟩ := few acts (by simp [acts])
  obtain ⟨held, _⟩ := few (acts ++ [.move .resume]) (by simp [acts])
  obtain ⟨_, _, short, _⟩ := pending (.frame line) rfl
  obtain ⟨_, soon⟩ := told line [.chunk 1, .resume, .resume]
  obtain ⟨result, told, _⟩ := soon rfl
  exact ⟨rfl, rfl, short, rfl, held, result, told⟩

end Session

end FileServer
