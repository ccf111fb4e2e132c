import FileServer.Proofs.Conversation.Delivery
import FileServer.Proofs.Conversation.Severed
import FileServer.Stream.Channel

/-! Where the offset of a payload that is being written comes to. Each slice that is offered begins
where the accepted bytes end, and lies within the payload. The end of a slice is computed before it is
cut down to that of the payload, and this sum may go beyond a word: not at the beginning, but behind a
slice that was taken in part. -/
namespace FileServer

variable {σ : Type} {t : Transport σ} {holds : σ → Prop}

structure Transport.Takes (t : Transport σ) (holds : σ → Prop) : Prop where
  stays : ∀ s piece, holds s → holds (t.send s piece).2
  takes : ∀ s piece, holds s → piece ≠ [] →
    (∃ n, (t.send s piece).1 = .ok n ∧ 0 < n ∧ n ≤ piece.length) ∨
      ∃ cause, (t.send s piece).1 = .error cause ∧ cause.Passes

/-! One attempt. A slice is offered where the sum that says where it ends is a word. Behind the calls
that were taken there may be one that has to wait, and the attempt lands at the offset of what was
taken in all. -/

structure Slice (payload : Bytes) (chunk offset : Nat) (piece : Bytes) : Prop where
  sum : offset + max chunk 1 ≤ Text.maxWord
  nonempty : offset < min payload.length (offset + max chunk 1)
  bytes : piece = (payload.take (min payload.length (offset + max chunk 1))).drop offset

inductive Placed (payload : Bytes) (chunk sent : Nat) : List Call → Nat → Prop where
  | nothing : Placed payload chunk sent [] sent
  | further {calls : List Call} {offset n : Nat} {piece : Bytes}
      (sooner : Placed payload chunk sent calls offset) (slice : Slice payload chunk offset piece)
      (some' : 0 < n) (within : n ≤ piece.length) :
      Placed payload chunk sent (calls ++ [.offered piece (.ok n)]) (offset + n)

inductive Attempted (payload : Bytes) (chunk sent : Nat) : List Call → Nat → Prop where
  | taken {calls : List Call} {last : Nat} (placed : Placed payload chunk sent calls last) :
      Attempted payload chunk sent calls last
  | waits {calls : List Call} {last : Nat} {piece : Bytes} {cause : Failure}
      (placed : Placed payload chunk sent calls last) (slice : Slice payload chunk last piece)
      (passes : cause.Passes) :
      Attempted payload chunk sent (calls ++ [.offered piece (.error cause)]) last

inductive Lands (payload : Bytes) (chunk : Nat) : Drained → Nat → Prop where
  | whole : Lands payload chunk .whole payload.length
  | partly {last : Nat} (short : last < payload.length) : Lands payload chunk (.partly last) last
  | overflow {last : Nat} (short : last < payload.length)
      (past : Text.maxWord < last + max chunk 1) : Lands payload chunk .overflow last

section Drain

variable {payload piece : Bytes} {chunk sent offset last n : Nat} {calls : List Call} {s s' : σ}

theorem unsent {rest : Bytes} (left : payload.drop offset = rest) (more : rest ≠ []) :
    offset < payload.length := by
  have := List.length_pos_iff.mpr more
  rw [← left, List.length_drop] at this
  omega

theorem unsentSlice {rest : Bytes} (left : payload.drop offset = rest) (more : rest ≠ [])
    (sum : offset + max chunk 1 ≤ Text.maxWord) :
    Slice payload chunk offset (rest.take (max chunk 1)) := by
  have short := unsent left more
  refine ⟨sum, ?_, ?_⟩
  · omega
  · rw [← left, List.drop_take, List.take_eq_take_iff, List.length_drop]
    omega

theorem Slice.length (slice : Slice payload chunk offset piece) :
    offset + piece.length ≤ payload.length ∧ piece ≠ [] := by
  have nonempty := slice.nonempty
  have long : piece.length = min payload.length (offset + max chunk 1) - offset := by
    rw [slice.bytes, List.length_drop, List.length_take]
    omega
  refine ⟨by omega, fun empty => ?_⟩
  rw [empty, List.length_nil] at long
  omega

theorem Placed.bounds (placed : Placed payload chunk sent calls last)
    (within : sent ≤ payload.length) :
    sent + calls.length ≤ last ∧ last ≤ payload.length := by
  induction placed with
  | nothing => exact ⟨Nat.le_refl _, within⟩
  | further sooner slice some' short ih =>
    have long := slice.length.1
    rw [List.length_append, List.length_singleton]
    omega

theorem Attempted.bounds (attempted : Attempted payload chunk sent calls last)
    (within : sent ≤ payload.length) : sent + calls.length ≤ payload.length ∧ sent ≤ last := by
  cases attempted with
  | taken placed =>
    have bounds := placed.bounds within
    omega
  | waits placed slice passes =>
    have bounds := placed.bounds within
    have nonempty := slice.nonempty
    rw [List.length_append, List.length_singleton]
    omega

theorem triedTakes {attempt : Attempt Nat} (takes : t.Takes holds) (here : holds s)
    (some' : piece ≠ []) (tried : t.trySend piece s = (attempt, s')) :
    holds s' ∧
      ((∃ n, attempt = .ready n ∧ (t.send s piece).1 = .ok n ∧ 0 < n ∧ n ≤ piece.length) ∨
        ∃ cause, attempt = .wouldBlock ∧ (t.send s piece).1 = .error cause ∧ cause.Passes) := by
  have stays := takes.stays s piece here
  cases tried
  refine ⟨stays, ?_⟩
  rcases takes.takes s piece here some' with ⟨n, sent, some'', within⟩ | ⟨cause, failed, passes⟩
  · refine .inl ⟨n, ?_, sent, some'', within⟩
    obtain ⟨m, rfl⟩ := Nat.exists_eq_add_one.mpr some''
    rw [sent]
    rfl
  · refine .inr ⟨cause, ?_, failed, passes⟩
    rw [failed]
    exact if_pos passes

theorem offeredTakes {attempt : Attempt Nat} {r r' : Recorded σ} (takes : t.Takes holds)
    (placed : Placed payload chunk sent r.calls offset) (here : holds r.socket)
    (slice : Slice payload chunk offset piece)
    (tried : t.recorded.trySend piece r = (attempt, r')) :
    holds r'.socket ∧
      ((∃ n, attempt = .ready n ∧ n ≤ piece.length ∧
          Placed payload chunk sent r'.calls (offset + n)) ∨
        attempt = .wouldBlock ∧ Attempted payload chunk sent r'.calls offset) := by
  obtain ⟨stays, result⟩ := triedTakes takes here slice.length.2 (Transport.recordedTried tried)
  refine ⟨stays, ?_⟩
  have calls : r'.calls = r.calls ++ [.offered piece (t.send r.socket piece).1] := by
    cases tried
    rfl
  rw [calls]
  rcases result with ⟨n, ready, accepted, some', within⟩ | ⟨cause, waits, failed, passes⟩
  · rw [accepted]
    exact .inl ⟨n, ready, within, .further placed slice some' within⟩
  · rw [failed]
    exact .inr ⟨waits, .waits placed slice passes⟩

-- The general principle of drains does not tell of the sums that have been tested, so the induction
-- is made anew.
theorem drainLands {r : Recorded σ} (takes : t.Takes holds)
    (within : offset ≤ payload.length) (here : holds r.socket)
    (placed : Placed payload chunk sent r.calls offset) :
    let drained := t.recorded.drain chunk (payload.drop offset) offset r
    ∃ last, Attempted payload chunk sent drained.2.calls last ∧
      Lands payload chunk drained.1 last := by
  generalize left : payload.drop offset = rest
  induction rest, offset, r using Transport.drain.induct t.recorded chunk with
  | case1 offset r =>
    have whole := List.drop_eq_nil_iff.mp left
    obtain rfl : offset = payload.length := Nat.le_antisymm within whole
    rw [Transport.drain, if_pos rfl]
    exact ⟨_, .taken placed, .whole⟩
  | case2 rest offset r more past =>
    rw [Transport.drain, if_neg more, if_pos past]
    exact ⟨offset, .taken placed, .overflow (unsent left more) past⟩
  | case3 rest offset r more fits piece n r' tried short =>
    have slice := unsentSlice left more (Nat.le_of_not_lt fits)
    obtain ⟨_, ⟨m, ready, _, placed⟩ | ⟨waits, _⟩⟩ := offeredTakes takes placed here slice tried
    · cases ready
      have ends := slice.length.1
      rw [Transport.drain, if_neg more, if_neg fits]
      simp only [piece] at tried short
      simp only [tried, if_pos short]
      exact ⟨_, .taken placed, .partly (by omega)⟩
    · cases waits
  | case4 rest offset r more fits piece n r' tried whole ih =>
    have slice := unsentSlice left more (Nat.le_of_not_lt fits)
    obtain ⟨stays, ⟨m, ready, taken, placed⟩ | ⟨waits, _⟩⟩ := offeredTakes takes placed here slice tried
    · cases ready
      have ends := slice.length.1
      have later := ih (by omega) stays placed (by rw [← left, List.drop_drop])
      rw [Transport.drain, if_neg more, if_neg fits]
      simp only [piece] at tried whole
      simp only [tried, if_neg whole]
      exact later
    · cases waits
  | case5 rest offset r more fits piece r' tried =>
    have slice := unsentSlice left more (Nat.le_of_not_lt fits)
    obtain ⟨_, ⟨m, ready, _⟩ | ⟨_, attempted⟩⟩ := offeredTakes takes placed here slice tried
    · cases ready
    · rw [Transport.drain, if_neg more, if_neg fits]
      simp only [piece] at tried
      simp only [tried]
      exact ⟨offset, attempted, .partly (unsent left more)⟩
  | case6 rest offset r more fits piece r' tried =>
    have slice := unsentSlice left more (Nat.le_of_not_lt fits)
    obtain ⟨_, ⟨m, ready, _⟩ | ⟨waits, _⟩⟩ := offeredTakes takes placed here slice tried
    · cases ready
    · cases waits
  | case7 rest offset r more fits piece cause r' tried =>
    have slice := unsentSlice left more (Nat.le_of_not_lt fits)
    obtain ⟨_, ⟨m, ready, _⟩ | ⟨waits, _⟩⟩ := offeredTakes takes placed here slice tried
    · cases ready
    · cases waits

end Drain

namespace Channel

theorem fillWithin (used left : Nat) : (fill used left).1 ≤ left := by
  induction used, left using fill.induct with
  | case1 used left full =>
    rw [fill, if_pos full]
    exact Nat.zero_le _
  | case2 used left room piece ih =>
    have short : piece ≤ left := Nat.min_le_left ..
    rw [fill, if_neg room]
    show piece + (fill (used + pieceSize piece) (left - piece)).1 ≤ left
    omega

theorem channelTakes : Channel.transport.Takes (·.ends.peer ≠ .gone) := by
  refine ⟨fun c payload stays => ?_, fun c payload stays some' => ?_⟩
  · simp only [transport, send, if_neg stays]
    split
    · exact stays
    · exact stays
  · have within := fillWithin c.used payload.length
    simp only [transport, send, if_neg stays]
    split
    · exact .inr ⟨.notReady, rfl, .inl rfl⟩
    · next kept =>
      refine .inl ⟨_, rfl, ?_, within⟩
      exact Nat.pos_of_ne_zero fun none' => kept ⟨some', none'⟩

end Channel

namespace Task

/-! All attempts. Between two of them anything may happen to the socket. -/

inductive Kept (t : Transport σ) (holds : σ → Prop) (first : Task) : Task → Prop where
  | still : Kept t holds first first
  | again {task next : Task} {now : Nat} {s : σ} (sooner : Kept t holds first task) (here : holds s)
      (resumed : (task.resume t now s).1 = .kept next) : Kept t holds first next

inductive Comes (payload : Bytes) (task : Task) (whole : Resumed) : Resumed → Nat → Prop where
  | kept {last : Nat} (short : last < payload.length) :
      Comes payload task whole (.kept { task with sent := last }) last
  | through : Comes payload task whole whole payload.length
  | overflow {last : Nat} (short : last < payload.length)
      (past : Text.maxWord < last + max task.context.limits.writeChunk 1) :
      Comes payload task whole (.aborted [] .offsetOverflow) last

variable {payload : Bytes} {writing : Writing} {first task next : Task} {s : σ}

theorem resumeComes (takes : t.Takes holds) (pending : task.pending = .write payload writing)
    (within : task.sent ≤ payload.length) (here : holds s) (now : Nat) :
    let attempt := task.resume t.recorded now ⟨s, []⟩
    ∃ last, Attempted payload task.context.limits.writeChunk task.sent attempt.2.calls last ∧
      Comes payload task
        (task.complete now (Conversation.sent task.context task.buffer writing)) attempt.1 last := by
  have lands : ∃ last, _ ∧ Lands payload task.context.limits.writeChunk _ last :=
    drainLands takes within (r := ⟨s, []⟩) here .nothing
  have write : task.resume t.recorded now ⟨s, []⟩ =
      task.resumeWrite t.recorded payload writing now ⟨s, []⟩ := by simp only [resume, pending]
  rw [write, resumeWrite]
  generalize t.recorded.drain _ _ task.sent ⟨s, []⟩ = drained at lands ⊢
  obtain ⟨drained, r⟩ := drained
  obtain ⟨last, attempted, lands⟩ := lands
  refine ⟨last, ?_⟩
  cases lands with
  | whole => exact ⟨attempted, .through⟩
  | partly short => exact ⟨attempted, .kept short⟩
  | overflow short past => exact ⟨attempted, .overflow short past⟩

theorem completeNotKept (now : Nat) (outcome : Outcome) :
    task.complete now outcome ≠ .kept next := by
  unfold complete
  split <;> nofun

theorem keptOnward (takes : t.Takes holds) (pending : first.pending = .write payload writing)
    (within : first.sent ≤ payload.length) (kept : Kept t holds first task) :
    task = { first with sent := task.sent } ∧ task.sent ≤ payload.length := by
  induction kept with
  | still => exact ⟨rfl, within⟩
  | @again task next now s sooner here resumed ih =>
    obtain ⟨same, within⟩ := ih
    have waits : task.pending = .write payload writing := same ▸ pending
    obtain ⟨last, _, comes⟩ := resumeComes takes waits within here now
    rw [recordedResume task now ⟨s, []⟩] at resumed
    simp only at resumed
    rw [resumed] at comes
    generalize whole : task.complete now _ = other at comes
    cases comes with
    | kept short => exact ⟨by rw [same], Nat.le_of_lt short⟩
    | through => exact absurd whole (completeNotKept now _)

theorem completeNoOverflow (context : Context) (buffer : Bytes) (now : Nat) {events : List Event} :
    task.complete now (Conversation.sent context buffer writing) ≠
      .aborted events .offsetOverflow := by
  have dated : (Conversation.sent context buffer writing).next ≠ .aborted .offsetOverflow := by
    intro aborted
    cases writing with
    | last => cases aborted
    | script rest => rcases rest with _ | ⟨_ | _, _⟩ <;> cases aborted
    | serving =>
      have outgoing := Conversation.serveOutgoing context [] .head buffer
      simp only [Conversation.sent] at aborted
      simp only [aborted] at outgoing
      cases outgoing
  unfold complete
  split
  · next fault aborted =>
    intro same
    cases same
    exact dated aborted
  · intro same
    cases same

def sparing : Transport Unit where
  receive _ _ := (.error .notReady, ())
  send _ piece := (.ok (min 1 piece.length), ())
  readable _ := false
  writable _ := true
  close := id

theorem sparingTakes : sparing.Takes fun _ => True := by
  refine ⟨fun _ _ _ => trivial, fun _ piece _ some' => .inl ⟨_, rfl, ?_, Nat.min_le_right ..⟩⟩
  have := List.length_pos_iff.mpr some'
  omega

theorem sparingDrains {payload : Bytes} {chunk sent : Nat} (more : sent + 1 < payload.length)
    (wide : 1 < chunk) (sum : sent + chunk ≤ Text.maxWord) :
    sparing.drain chunk (payload.drop sent) sent () = (.partly (sent + 1), ()) := by
  have left : payload.drop sent ≠ [] := by
    rw [Ne, List.drop_eq_nil_iff]
    omega
  have long : 1 < ((payload.drop sent).take (max chunk 1)).length := by
    rw [List.length_take, List.length_drop]
    omega
  have one : min 1 ((payload.drop sent).take (max chunk 1)).length = 1 := by omega
  have tried : sparing.trySend ((payload.drop sent).take (max chunk 1)) () = (.ready 1, ()) := by
    simp only [Transport.trySend, sparing, one]
    rfl
  rw [Transport.drain, if_neg left, if_neg (by omega)]
  simp only [tried, if_pos long]

theorem sparingKept {payload : Bytes} {writing : Writing}
    (pending : first.pending = .write payload writing)
    (wide : 1 < first.context.limits.writeChunk) (begins : first.sent = 0) (n : Nat)
    (more : n < payload.length)
    (sum : n + first.context.limits.writeChunk ≤ Text.maxWord + 1) :
    Kept sparing (fun _ => True) first { first with sent := n } := by
  induction n with
  | zero => exact begins ▸ .still
  | succ n ih =>
    have sooner := ih (by omega) (by omega)
    have drained := sparingDrains more wide (Nat.le_of_lt_succ (by omega))
    have resumed : ({ first with sent := n }.resume sparing 0 ()).1 =
        .kept { first with sent := n + 1 } := by
      simp only [resume, pending, resumeWrite, drained]
    exact .again sooner trivial resumed

/-- The offset of a payload that is written on sockets that take some of each slice or have to be
waited for. In every attempt, slice after slice is offered from where the accepted bytes end, no more
of them than there are bytes to be sent, and each one lies within the payload. Such an attempt is kept
for the rest, or through; unless a sum goes beyond a word. None does if the last byte begins a slice
whose sum is a word. And if not, sockets that take a byte at a time make the write abort. -/
theorem offsetsUntilOverflow (context : Context) (buffer payload : Bytes) (writing : Writing)
    (since : Nat) :
    let chunk := context.limits.writeChunk
    let first : Task := ⟨context, buffer, .write payload writing, 0, since⟩
    (∀ (σ : Type) (t : Transport σ) (holds : σ → Prop), t.Takes holds →
      ∀ task, Kept t holds first task → ∀ now s, holds s →
        let attempt := task.resume t.recorded now ⟨s, []⟩
        (task.resume t now s).1 = attempt.1 ∧ task = { first with sent := task.sent } ∧
          task.sent + attempt.2.calls.length ≤ payload.length ∧
          (∃ last, task.sent ≤ last ∧ Attempted payload chunk task.sent attempt.2.calls last ∧
            Comes payload task (task.complete now (Conversation.sent context buffer writing))
              attempt.1 last) ∧
          (payload.length - 1 + max chunk 1 ≤ Text.maxWord →
            attempt.1 ≠ .aborted [] .offsetOverflow)) ∧
      (chunk ≤ Text.maxWord → payload.length ≤ Text.maxWord →
        Text.maxWord < payload.length - 1 + max chunk 1 →
          sparing.Takes (fun _ => True) ∧
            ∃ task, Kept sparing (fun _ => True) first task ∧
              ∀ now, (task.resume sparing now ()).1 = .aborted [] .offsetOverflow) := by
  intro chunk first
  refine ⟨fun σ t holds takes task kept now s here => ?_, fun word sized past => ?_⟩
  · obtain ⟨same, within⟩ := keptOnward takes rfl (Nat.zero_le _) kept
    obtain ⟨sent, rfl⟩ : ∃ sent, task = { first with sent } := ⟨task.sent, same⟩
    obtain ⟨last, attempted, comes⟩ := resumeComes takes rfl within here now
    obtain ⟨calls, forward⟩ := attempted.bounds within
    refine ⟨congrArg Prod.fst (recordedResume _ now ⟨s, []⟩), rfl, calls,
      ⟨last, forward, attempted, comes⟩, fun words aborted => ?_⟩
    rw [aborted] at comes
    generalize whole : complete _ now _ = other at comes
    cases comes with
    | through => exact completeNoOverflow context buffer now whole
    | overflow short past =>
      simp only [first, chunk] at past words
      omega
  · have some' : 0 < Text.maxWord := by decide
    have wide : 1 < chunk := by omega
    have more : Text.maxWord + 1 - chunk < payload.length := by omega
    have sum : Text.maxWord + 1 - chunk + chunk ≤ Text.maxWord + 1 := by omega
    have kept : Kept sparing (fun _ => True) first { first with sent := Text.maxWord + 1 - chunk } :=
      sparingKept rfl wide rfl _ more sum
    refine ⟨sparingTakes, _, kept, fun now => ?_⟩
    have left : payload.drop (Text.maxWord + 1 - chunk) ≠ [] := by
      rw [Ne, List.drop_eq_nil_iff]
      omega
    have beyond : Text.maxWord < Text.maxWord + 1 - chunk + max chunk 1 := by omega
    have drained : sparing.drain chunk (payload.drop (Text.maxWord + 1 - chunk))
        (Text.maxWord + 1 - chunk) () = (.overflow, ()) := by
      rw [Transport.drain, if_neg left, if_pos beyond]
    simp only [resume, resumeWrite, first]
    rw [drained]

theorem stalledDrain {payload : Bytes} (long : payload.length = 400000) :
    Channel.transport.drain Text.maxWord payload 0 {} =
        (.partly 219264, ⟨{ outbound := payload.take 219264 }, 222720⟩) := by
  have fills : Channel.fill 0 400000 = (219264, 222720) := by decide +kernel
  have some' : payload ≠ [] := by
    rw [← List.length_pos_iff, long]
    decide
  have whole : payload.take (max Text.maxWord 1) = payload :=
    List.take_of_length_le (by rw [long]; decide)
  have kept : ¬ (payload ≠ [] ∧ 219264 = 0) := fun nothing => absurd nothing.2 (by decide)
  have sends : Channel.transport.trySend payload {} = (.ready 219264,
      ⟨{ outbound := payload.take 219264 }, 222720⟩) := by
    simp only [Transport.trySend, Channel.transport, Channel.send, long, fills, if_neg kept]
    rfl
  rw [Transport.drain, if_neg some', if_neg (by decide), whole]
  simp only [sends, long]
  rfl

theorem stalledOverflows {payload : Bytes} (long : payload.length = 400000) (c : Channel) :
    Channel.transport.drain Text.maxWord (payload.drop 219264) 219264 c = (.overflow, c) := by
  have left : payload.drop 219264 ≠ [] := by
    rw [Ne, List.drop_eq_nil_iff, long]
    decide
  rw [Transport.drain, if_neg left, if_pos (by decide)]

theorem stalledWrite {payload : Bytes} {writing : Writing} {first : Task}
    (long : payload.length = 400000) (pending : first.pending = .write payload writing)
    (begins : first.sent = 0) (wide : first.context.limits.writeChunk = Text.maxWord) :
    first.resume Channel.transport 0 {} = (.kept { first with sent := 219264 },
        ⟨{ outbound := payload.take 219264 }, 222720⟩) ∧
      ∀ c, { first with sent := 219264 }.resume Channel.transport 0 c =
        (.aborted [] .offsetOverflow, c) := by
  have write (task : Task) (c : Channel) (pending : task.pending = .write payload writing) :
      task.resume Channel.transport 0 c =
        task.resumeWrite Channel.transport payload writing 0 c := by
    simp only [resume, pending]
  refine ⟨?_, fun c => ?_⟩
  · rw [write first _ pending, resumeWrite, wide, begins, List.drop_zero, stalledDrain long]
  · have again := write { first with sent := 219264 } c pending
    rw [again, resumeWrite]
    simp only [wide, stalledOverflows long]

theorem offsetOverflowsBehindShortWrite :
    let context : Context := ⟨{ writeChunk := Text.maxWord }, .ofOctets 10 0 0 7, .echo⟩
    let first : Task := ⟨context, [], .write (List.replicate 400000 97) .last, 0, 0⟩
    Channel.transport.Takes (·.ends.peer ≠ .gone) ∧
      (first.resume Channel.transport 0 {}).1 = .kept { first with sent := 219264 } ∧
      ∀ c, ({ first with sent := 219264 }.resume Channel.transport 0 c).1 =
        .aborted [] .offsetOverflow := by
  intro context first
  have long : (List.replicate 400000 (97 : UInt8)).length = 400000 := List.length_replicate
  have pending : first.pending = .write (List.replicate 400000 97) .last := rfl
  obtain ⟨kept, overflows⟩ := stalledWrite long pending rfl rfl
  exact ⟨Channel.channelTakes, congrArg Prod.fst kept, fun c => congrArg Prod.fst (overflows c)⟩

end Task

end FileServer
