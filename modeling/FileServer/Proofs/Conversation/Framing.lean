import FileServer.Proofs.Conversation.Schedule
import FileServer.Proofs.Stream.Frame

/-! Frames, told by one look at the whole stream. A read of a frame takes one chunk after the other
until what it holds decides it, and says of what it holds then what the stream says, so where the
stream is cut matters no more than for how many reads it takes. -/
namespace FileServer

theorem Pipe.readCounts {p q : Pipe} {bytes : Bytes} (h : p.read = .chunk bytes q) :
    q.reads = p.reads + 1 ∧ bytes.length ≤ max p.chunk 1 ∧ q.chunk = p.chunk := by
  unfold read at h
  split at h
  · split at h <;> cases h
  · cases h
    exact ⟨rfl, List.length_take_le _ _, rfl⟩

namespace Want

variable {limit n : Nat} {want : Want} {held rest : Bytes} {chunks : List Bytes}
  {events : List Event}

/-- A read that is given chunk after chunk: how many it takes, what it tells, and what it leaves. -/
inductive Runs (limit : Nat) (want : Want) :
    Bytes → List Bytes → Nat → List Event → Bytes → Prop where
  | decided {held rest : Bytes} {chunks : List Bytes} {result : Except Oversize Bytes}
      (decided : want.Decided limit held)
      (tells : ∀ ahead, want.Tells limit held ahead result rest) :
      Runs limit want held chunks 0 [.framed want result] rest
  | waits {held : Bytes} (open' : ¬ want.Decided limit held) : Runs limit want held [] 0 [] held
  | more {held chunk rest : Bytes} {chunks : List Bytes} {n : Nat} {events : List Event}
      (open' : ¬ want.Decided limit held)
      (later : Runs limit want (held ++ chunk) chunks n events rest) :
      Runs limit want held (chunk :: chunks) (n + 1) events rest

theorem Runs.least (runs : want.Runs limit held chunks n events rest) :
    (∀ i < n, ¬ want.Decided limit (held ++ (chunks.take i).flatten)) ∧
      ((want.Decided limit (held ++ (chunks.take n).flatten) ∧ ∃ result,
          events = [.framed want result] ∧
            ∀ ahead, want.Tells limit (held ++ (chunks.take n).flatten) ahead result rest) ∨
        n = chunks.length ∧ ¬ want.Decided limit (held ++ chunks.flatten) ∧ events = [] ∧
          rest = held ++ chunks.flatten) := by
  induction runs with
  | decided decided tells =>
    refine ⟨nofun, .inl ?_⟩
    simp only [List.take_zero, List.flatten_nil, List.append_nil]
    exact ⟨decided, _, rfl, tells⟩
  | waits open' =>
    refine ⟨nofun, .inr ⟨rfl, ?_, rfl, (List.append_nil _).symm⟩⟩
    rwa [List.flatten_nil, List.append_nil]
  | @more held chunk rest chunks n events open' later ih =>
    obtain ⟨before, after⟩ := ih
    simp only [List.take_succ_cons, List.flatten_cons, List.length_cons, Nat.succ.injEq,
      ← List.append_assoc]
    refine ⟨fun i bound => ?_, after⟩
    cases i with
    | zero => simpa only [List.take_zero, List.flatten_nil, List.append_nil] using open'
    | succ i =>
      rw [List.take_succ_cons, List.flatten_cons, ← List.append_assoc]
      exact before i (Nat.lt_of_succ_lt_succ bound)

end Want

namespace Conversation

variable {context : Context} {want : Want} {held : Bytes}

theorem frameWaits (open' : ¬ want.Decided context.limits.frame held) :
    frame context want held = ⟨[], held, .waits (.read (.frame want))⟩ := by
  unfold frame
  rw [Want.scanMissing.mpr open']

theorem frameTells (decided : want.Decided context.limits.frame held) : ∃ result rest,
    frame context want held = ⟨[.framed want result], rest, .ended⟩ ∧
      ∀ ahead, want.Tells context.limits.frame held ahead result rest := by
  unfold frame
  split
  · next found => exact ⟨_, _, rfl, Want.scanFound found⟩
  · next large => exact ⟨_, _, rfl, Want.scanOversize large⟩
  · next missing => exact absurd decided (Want.scanMissing.mp missing)

end Conversation

namespace Session

def supply (p : Pipe) : List Move → List Bytes
  | [] => []
  | .arrive bytes :: rest => supply (p.feed bytes) rest
  | .chunk size :: rest => supply { p with chunk := size } rest
  | .close :: rest => supply { p with closed := true } rest
  | .resume :: rest =>
    match p.read with
    | .chunk bytes p => bytes :: supply p rest
    | .waits => supply p rest
    | .ended => []

theorem supplySome (p : Pipe) (moves : List Move) : ∀ chunk ∈ supply p moves, chunk ≠ [] := by
  induction moves generalizing p with
  | nil => exact fun _ mem => nomatch mem
  | cons it rest ih =>
    cases it with
    | arrive bytes => exact ih _
    | chunk size => exact ih _
    | close => exact ih _
    | resume =>
      simp only [supply]
      split
      · next bytes q took =>
        intro chunk mem
        rcases List.mem_cons.mp mem with rfl | later
        · exact List.length_pos_iff.mp (Pipe.readLength took).1
        · exact ih q chunk later
      · exact ih p
      · exact fun _ mem => nomatch mem

def deliver (chunks : List Bytes) : List Move :=
  chunks.flatMap fun chunk => [.chunk chunk.length, .arrive chunk, .resume]

theorem supplyDelivered {p : Pipe} (empty : p.unread = []) {chunks : List Bytes}
    (some' : ∀ chunk ∈ chunks, chunk ≠ []) : supply p (deliver chunks) = chunks := by
  induction chunks generalizing p with
  | nil => rfl
  | cons chunk rest ih =>
    have here := some' chunk List.mem_cons_self
    have length := List.length_pos_iff.mpr here
    have whole : max chunk.length 1 = chunk.length := Nat.max_eq_left length
    have later := fun c mem => some' c (List.mem_cons_of_mem _ mem)
    have fed : (Pipe.feed { p with chunk := chunk.length } chunk).read =
        .chunk chunk { p with chunk := chunk.length, reads := p.reads + 1 } := by
      simp only [Pipe.read, Pipe.feed, empty, List.nil_append, if_neg here, whole,
        List.take_length, List.drop_length]
    simp only [deliver, List.flatMap_cons, List.cons_append, List.nil_append, supply, fed]
    congr 1
    exact ih (p := { p with chunk := chunk.length, reads := p.reads + 1 }) empty later

variable {context : Context} {want : Want} {s : Session}

theorem idleFollow (context : Context) (idle : s.next = .ended) (moves : List Move) :
    let run := s.follow context (moves.map .move)
    run.1 = [] ∧ run.2.next = .ended ∧ run.2.buffer = s.buffer ∧
      run.2.pipe.reads = s.pipe.reads ∧ (s.pipe.closed → run.2.pipe.closed) := by
  induction moves generalizing s with
  | nil => exact ⟨rfl, idle, rfl, rfl, id⟩
  | cons it rest ih =>
    simp only [List.map_cons, follow]
    cases it with
    | arrive bytes => exact ih (s := { s with pipe := s.pipe.feed bytes }) idle
    | chunk size => exact ih (s := { s with pipe := { s.pipe with chunk := size } }) idle
    | close =>
      obtain ⟨silent, still, buffer, reads, closed⟩ :=
        ih (s := { s with pipe := { s.pipe with closed := true } }) idle
      exact ⟨silent, still, buffer, reads, fun _ => closed rfl⟩
    | resume =>
      simp only [act, move, advanceIdle context idle, Option.getD_none]
      exact ih idle

structure Frames (limit : Nat) (want : Want) (before : Nat) (held : Bytes) (chunks : List Bytes)
    (n : Nat) (run : List Event × Session) : Prop where
  runs : want.Runs limit held chunks n run.1 run.2.buffer
  reads : run.2.pipe.reads = before + n
  told : run.1 ≠ [] → run.2.next = .ended
  silent : run.1 = [] → run.2.next = .waits (.read (.frame want)) ∨ run.2.pipe.closed

def framing (context : Context) (want : Want) (p : Pipe) (held : Bytes) (moves : List Move) :
    List Event × Session :=
  let outcome := Conversation.frame context want held
  let run := follow context ⟨p, outcome.buffer, outcome.next⟩ (moves.map .move)
  (outcome.events ++ run.1, run.2)

theorem framingDecided (p : Pipe) {held : Bytes} (moves : List Move)
    (decided : want.Decided context.limits.frame held) (chunks : List Bytes) :
    Frames context.limits.frame want p.reads held chunks 0 (framing context want p held moves) := by
  obtain ⟨result, rest, told, tells⟩ := Conversation.frameTells decided
  obtain ⟨silent, still, buffer, reads, _⟩ :=
    idleFollow context (s := ⟨p, rest, .ended⟩) rfl moves
  simp only [framing, told]
  refine ⟨?_, reads, fun _ => still, fun none' => ?_⟩
  · simp only [silent, buffer]
    exact .decided decided tells
  · simp at none'

theorem framingFrames (context : Context) (want : Want) (p : Pipe) (held : Bytes)
    (moves : List Move) : ∃ n, Frames context.limits.frame want p.reads held (supply p moves) n
      (framing context want p held moves) := by
  -- While the read is open a move changes the pipe alone, save for a resumption that finds bytes.
  induction moves generalizing p held with
  | nil =>
    by_cases decided : want.Decided context.limits.frame held
    · exact ⟨0, framingDecided p [] decided _⟩
    · refine ⟨0, ?_⟩
      simp only [framing, Conversation.frameWaits decided]
      exact ⟨.waits decided, rfl, fun some' => absurd rfl some', fun _ => .inl rfl⟩
  | cons it rest ih =>
    by_cases decided : want.Decided context.limits.frame held
    · exact ⟨0, framingDecided p (it :: rest) decided _⟩
    · have waits := Conversation.frameWaits decided
      have still (q : Pipe) := ih q held
      simp only [framing, waits] at still ⊢
      cases it with
      | arrive bytes => exact still (p.feed bytes)
      | chunk size => exact still { p with chunk := size }
      | close => exact still { p with closed := true }
      | resume =>
        simp only [List.map_cons, follow, act, move, advance?, supply]
        cases took : p.read with
        | waits => exact still p
        | ended =>
          obtain ⟨silent, _, buffer, reads, closed⟩ :=
            idleFollow context (s := ⟨p, held, .ended⟩) rfl rest
          refine ⟨0, ?_, reads, fun some' => absurd silent some', fun _ => .inr ?_⟩
          · simp only [Option.getD_some, List.nil_append, silent, buffer]
            exact .waits decided
          · exact closed (Pipe.readEnded took).2
        | chunk bytes q =>
          obtain ⟨n, runs, reads, told, silent⟩ := ih q (held ++ bytes)
          rw [(Pipe.readCounts took).1, Nat.add_right_comm] at reads
          exact ⟨n + 1, .more decided runs, reads, told, silent⟩

variable {limit before n : Nat} {held : Bytes} {chunks : List Bytes} {run : List Event × Session}

theorem Frames.resolved (frames : Frames limit want before held chunks n run) {j : Nat}
    (bound : j ≤ chunks.length) (decided : want.Decided limit (held ++ (chunks.take j).flatten))
    (least : ∀ i < j, ¬ want.Decided limit (held ++ (chunks.take i).flatten)) :
    run.2.pipe.reads = before + j ∧ run.2.next = .ended ∧ ∃ result,
      run.1 = [.framed want result] ∧ want.Tells limit (held ++ (chunks.take j).flatten)
        (chunks.drop j).flatten result run.2.buffer := by
  obtain ⟨earlier, ⟨here, result, told, tells⟩ | ⟨rfl, open', _⟩⟩ := frames.runs.least
  · have same : n = j := by
      rcases Nat.lt_trichotomy n j with less | same | more
      · exact absurd here (least n less)
      · exact same
      · exact absurd decided (earlier j more)
    subst same
    refine ⟨frames.reads, frames.told ?_, result, told, tells _⟩
    rw [told]
    exact List.cons_ne_nil _ _
  · rcases Nat.lt_or_eq_of_le bound with less | rfl
    · exact absurd decided (earlier j less)
    · rw [List.take_length] at decided
      exact absurd decided open'

theorem Frames.unresolved (frames : Frames limit want before held chunks n run)
    (open' : ∀ j ≤ chunks.length, ¬ want.Decided limit (held ++ (chunks.take j).flatten)) :
    run.1 = [] ∧ run.2.buffer = held ++ chunks.flatten ∧
      run.2.pipe.reads = before + chunks.length ∧
      (run.2.next = .waits (.read (.frame want)) ∨ run.2.pipe.closed) := by
  obtain ⟨earlier, ⟨decided, _⟩ | ⟨rfl, _, told, buffer⟩⟩ := frames.runs.least
  · refine absurd decided ?_
    rcases Nat.le_total n chunks.length with within | beyond
    · exact open' n within
    · rw [List.take_of_length_le beyond, ← List.take_length (l := chunks)]
      exact open' _ (Nat.le_refl _)
  · exact ⟨told, buffer, frames.reads, frames.silent told⟩

-- What is held when the read ends is a beginning of the stream, so the stream is cut where it is.
theorem Frames.parted {separator frame rest : Bytes}
    (frames : Frames limit (.upTo separator) before held chunks n run)
    (cut : Sequence.Cut separator (held ++ chunks.flatten) frame rest)
    (inTime : frame.length + separator.length ≤ limit + 1) :
    run.1 = [.framed (.upTo separator) (.ok frame)] := by
  have whole : held ++ (chunks.take n).flatten ++ (chunks.drop n).flatten =
      held ++ chunks.flatten := by
    rw [List.append_assoc, ← List.flatten_append, List.take_append_drop]
  obtain ⟨_, ⟨_, result, told, tells⟩ | ⟨_, open', _⟩⟩ := frames.runs.least
  · rw [told]
    have tells := tells (chunks.drop n).flatten
    generalize run.2.buffer = left at tells
    cases tells with
    | parted first =>
      rw [whole] at first
      cases (Sequence.cutComplete cut).symm.trans (Sequence.cutComplete first)
      rfl
    | overlong absent long =>
      rw [← whole] at cut
      have beyond := Sequence.cutBeyond (Sequence.cutAbsent.mpr absent) (Sequence.cutComplete cut)
      omega
  · refine absurd (.inl ?_) open'
    rw [cut.joined]
    exact ⟨frame, rest, rfl⟩

theorem Frames.refused {length : Nat}
    (frames : Frames limit (.exactly length) before held chunks n run) :
    limit < length ↔ ∃ fault, run.1 = [.framed (.exactly length) (.error fault)] := by
  obtain ⟨_, ⟨_, result, told, tells⟩ | ⟨_, open', told, _⟩⟩ := frames.runs.least
  · rw [told]
    have tells := tells []
    generalize run.2.buffer = left at tells
    cases tells with
    | counted fits there => exact ⟨fun large => absurd fits (Nat.not_le_of_lt large), nofun⟩
    | refused large => exact ⟨fun _ => ⟨_, rfl⟩, fun _ => large⟩
  · rw [told]
    exact ⟨fun large => absurd (.inl large) open', nofun⟩

/-- A read of a frame ends with the least number of chunks that decide it, and tells of them what the
whole stream says; if no chunks do it tells nothing and has used nothing up. So a separator that is
complete by one byte past the limit is found at its first place however the stream is cut, and a
length is refused exactly where it is past the limit. -/
theorem framedAtLeast (context : Context) (s : Session) :
    let limit := context.limits.frame
    let read (want : Want) (moves : List Move) :=
      s.follow context (.start (.frame want) :: moves.map .move)
    (∀ chunks : List Bytes, (∀ chunk ∈ chunks, chunk ≠ []) → s.pipe.unread = [] →
      ∃ moves, supply s.pipe moves = chunks) ∧
    ∀ moves, let chunks := supply s.pipe moves
      let held (j : Nat) := s.buffer ++ (chunks.take j).flatten
      let stream := s.buffer ++ chunks.flatten
      (∀ chunk ∈ chunks, chunk ≠ []) ∧
      (∀ want, ∀ j ≤ chunks.length, want.Decided limit (held j) →
        (∀ i < j, ¬ want.Decided limit (held i)) →
          (read want moves).2.pipe.reads = s.pipe.reads + j ∧
          (read want moves).2.next = .ended ∧
          ∃ result, (read want moves).1 = [.framed want result] ∧
            want.Tells limit (held j) (chunks.drop j).flatten result (read want moves).2.buffer) ∧
      (∀ want, (∀ j ≤ chunks.length, ¬ want.Decided limit (held j)) →
        (read want moves).1 = [] ∧ (read want moves).2.buffer = stream ∧
        (read want moves).2.pipe.reads = s.pipe.reads + chunks.length ∧
        ((read want moves).2.next = .waits (.read (.frame want)) ∨
          (read want moves).2.pipe.closed)) ∧
      (∀ separator frame rest, Sequence.Cut separator stream frame rest →
        frame.length + separator.length ≤ limit + 1 →
          (read (.upTo separator) moves).1 = [.framed (.upTo separator) (.ok frame)]) ∧
      ∀ length, limit < length ↔
        ∃ fault, (read (.exactly length) moves).1 = [.framed (.exactly length) (.error fault)] := by
  intro limit read
  refine ⟨fun chunks some' empty => ⟨deliver chunks, supplyDelivered empty some'⟩, ?_⟩
  intro moves chunks held stream
  have frames (want : Want) : ∃ n, Frames limit want s.pipe.reads s.buffer chunks n
      (read want moves) := framingFrames context want s.pipe s.buffer moves
  refine ⟨supplySome s.pipe moves, fun want j bound decided least => ?_, fun want open' => ?_,
    fun separator frame rest cut inTime => ?_, fun length => ?_⟩
  · obtain ⟨n, frames⟩ := frames want
    exact frames.resolved bound decided least
  · obtain ⟨n, frames⟩ := frames want
    exact frames.unresolved open'
  · obtain ⟨n, frames⟩ := frames (.upTo separator)
    exact frames.parted cut inTime
  · obtain ⟨n, frames⟩ := frames (.exactly length)
    exact frames.refused

theorem framedAtLeastAcrossChunks :
    let context : Context := ⟨{ frame := 4 }, .ofOctets 127 0 0 1, .echo⟩
    let s : Session := { pipe := {}, buffer := [97] }
    let moves := deliver [[13], [10, 98]]
    let read (want : Want) := s.follow context (.start (.frame want) :: moves.map .move)
    supply s.pipe moves = [[13], [10, 98]] ∧
      (read (.upTo [13, 10])).2.pipe.reads = 2 ∧
      (∃ result, (read (.upTo [13, 10])).1 = [.framed (.upTo [13, 10]) result] ∧
        Want.Tells 4 [97, 13, 10, 98] [] (.upTo [13, 10]) result
          (read (.upTo [13, 10])).2.buffer) ∧
      (read (.upTo [13, 10])).1 = [.framed (.upTo [13, 10]) (.ok [97])] ∧
      (read (.upTo [98, 98])).1 = [] ∧
      ∃ fault, (read (.exactly 5)).1 = [.framed (.exactly 5) (.error fault)] := by
  intro context s moves read
  have supplied : supply s.pipe moves = [[13], [10, 98]] := by decide
  obtain ⟨_, resolved, open', parted, refused⟩ := (framedAtLeast context s).2 moves
  rw [supplied] at resolved open' parted
  obtain ⟨reads, _, told⟩ := resolved (.upTo [13, 10]) 2 (by decide) (by decide) (by decide)
  obtain ⟨silent, _⟩ := open' (.upTo [98, 98]) (by decide)
  have first : Sequence.Cut ([13, 10] : Bytes) [97, 13, 10, 98] [97] [98] :=
    Sequence.cutSound (by decide)
  exact ⟨supplied, reads, told, parted [13, 10] [97] [98] first (by decide), silent,
    (refused 5).mp (by decide)⟩

end Session

end FileServer
