import FileServer.Conversation.Session

/-! Schedules of one connection, one thing at a time. Bytes arrive, reads are cut to another size,
the peer closes, the pending operation is attempted once, or another one is started in its place;
in any order. A step of a session is a schedule that is then run to its end. -/
namespace FileServer

theorem Pipe.readTakes {p q : Pipe} {bytes : Bytes} (h : p.read = .chunk bytes q) :
    p.unread = bytes ++ q.unread ∧ q.closed = p.closed ∧ q.written = p.written ∧
      q.writesLeft = p.writesLeft := by
  unfold read at h
  split at h
  · split at h <;> cases h
  · cases h
    exact ⟨(List.take_append_drop _ _).symm, rfl, rfl, rfl⟩

theorem Pipe.readEnded {p : Pipe} (h : p.read = .ended) : p.unread = [] ∧ p.closed := by
  unfold read at h
  split at h
  · next empty =>
    split at h
    · next closed => exact ⟨empty, closed⟩
    · cases h
  · cases h

theorem Pipe.readWaits {p : Pipe} (h : p.read = .waits) : p.unread = [] ∧ p.closed = false := by
  unfold read at h
  split at h
  · next empty =>
    split at h
    · cases h
    · next still => exact ⟨empty, Bool.eq_false_iff.mpr still⟩
  · cases h

theorem Pipe.writeSpares {p q : Pipe} {payload : Bytes} (h : p.write? payload = some q) :
    q.unread = p.unread ∧ q.closed = p.closed := by
  refine ⟨writeUnread h, ?_⟩
  unfold write? at h
  split at h
  · cases h
  · cases h
    rfl

namespace Session

inductive Move
  | arrive (bytes : Bytes)
  | chunk (size : Nat)
  | close
  | resume
  deriving DecidableEq, Repr

inductive Act
  | start (what : Start)
  | move (it : Move)
  deriving DecidableEq, Repr

def move (context : Context) (s : Session) : Move → List Event × Session
  | .arrive bytes => ([], { s with pipe := s.pipe.feed bytes })
  | .chunk size => ([], { s with pipe := { s.pipe with chunk := size } })
  | .close => ([], { s with pipe := { s.pipe with closed := true } })
  | .resume => (s.advance? context).getD ([], s)

def act (context : Context) (s : Session) : Act → List Event × Session
  | .start what => s.goOn s.pipe (starting context s.buffer what)
  | .move it => s.move context it

def follow (context : Context) (s : Session) : List Act → List Event × Session
  | [] => ([], s)
  | next :: rest =>
    let (events, s) := s.act context next
    let (more, last) := follow context s rest
    (events ++ more, last)

def finish (context : Context) (s : Session) (acts : List Act) : List Event × Session :=
  let (events, s) := follow context s acts
  let (more, last) := run context s
  (events ++ more, last)

def Move.arrives : Move → Bytes
  | .arrive bytes => bytes
  | _ => []

def Act.arrives : Act → Bytes
  | .start _ => []
  | .move it => it.arrives

def arrivals (acts : List Act) : Bytes := acts.flatMap Act.arrives

def closes (acts : List Act) : Bool := acts.contains (.move .close)

def ClosesLast : List Act → Prop
  | [] => True
  | .move .close :: rest => arrivals rest = []
  | _ :: rest => ClosesLast rest

theorem advanceIdle (context : Context) {s : Session} (idle : s.next = .ended) :
    s.advance? context = none := by
  unfold advance?
  rw [idle]

theorem advanceAborted (context : Context) {s : Session} {fault : Abort}
    (aborted : s.next = .aborted fault) : s.advance? context = none := by
  unfold advance?
  rw [aborted]

theorem advanceWrite (context : Context) {s : Session} {payload : Bytes} {writing : Writing}
    (pending : s.next = .waits (.write payload writing)) (unbounded : s.pipe.writesLeft = none) :
    ∃ pipe, s.advance? context = some (s.goOn pipe (Conversation.sent context s.buffer writing)) ∧
      pipe.unread = s.pipe.unread ∧ pipe.closed = s.pipe.closed ∧ pipe.writesLeft = none ∧
      pipe.written = s.pipe.written ++ payload := by
  unfold advance? Pipe.write?
  simp only [pending, unbounded]
  exact ⟨_, rfl, rfl, rfl, rfl, rfl⟩

-- A read is given up where the peer has closed behind its last byte, and goes on otherwise.
theorem advanceRead {context : Context} {s s' : Session} {reading : Reading} {events : List Event}
    (pending : s.next = .waits (.read reading))
    (advanced : s.advance? context = some (events, s')) :
    (s.pipe.unread = [] ∧ s.pipe.closed ∧ events = [] ∧ s' = { s with next := .ended }) ∨
      ∃ bytes pipe, s.pipe.unread = bytes ++ pipe.unread ∧ pipe.closed = s.pipe.closed ∧
        pipe.writesLeft = s.pipe.writesLeft ∧ pipe.written = s.pipe.written ∧
        s.goOn pipe (Conversation.received context s.buffer bytes reading) = (events, s') := by
  unfold advance? at advanced
  simp only [pending] at advanced
  split at advanced
  · cases advanced
  · next ended =>
    cases advanced
    obtain ⟨empty, closed⟩ := Pipe.readEnded ended
    exact .inl ⟨empty, closed, rfl, rfl⟩
  · next bytes pipe took =>
    cases advanced
    obtain ⟨taken, closed, written, left⟩ := Pipe.readTakes took
    exact .inr ⟨bytes, pipe, taken, closed, left, written, rfl⟩

theorem quietRead {context : Context} {s : Session} {reading : Reading}
    (pending : s.next = .waits (.read reading)) (quiet : s.advance? context = none) :
    s.pipe.unread = [] ∧ s.pipe.closed = false := by
  unfold advance? at quiet
  simp only [pending] at quiet
  split at quiet
  · next waits => exact Pipe.readWaits waits
  · cases quiet
  · cases quiet

theorem followAppend (context : Context) (s : Session) (acts more : List Act) :
    follow context s (acts ++ more) =
      ((follow context s acts).1 ++ (follow context (follow context s acts).2 more).1,
        (follow context (follow context s acts).2 more).2) := by
  induction acts generalizing s with
  | nil => rfl
  | cons next rest ih => simp only [List.cons_append, follow, ih, List.append_assoc]

theorem runQuiet {context : Context} {s : Session} (quiet : s.advance? context = none) :
    s.run context = ([], s) := by
  rw [run]
  split
  · rfl
  · next advanced =>
    rw [quiet] at advanced
    cases advanced

theorem runAdvanced {context : Context} {s next : Session} {events : List Event}
    (advanced : s.advance? context = some (events, next)) :
    s.run context = (events ++ (next.run context).1, (next.run context).2) := by
  rw [run]
  split
  · next quiet =>
    rw [quiet] at advanced
    cases advanced
  · next same =>
    rw [same] at advanced
    cases advanced
    rfl

theorem followQuiet {context : Context} {s : Session} (quiet : s.advance? context = none) (n : Nat) :
    follow context s (List.replicate n (.move .resume)) = ([], s) := by
  induction n with
  | zero => rfl
  | succ n ih =>
    simp only [List.replicate_succ, follow, act, move, quiet, Option.getD_none, ih, List.append_nil]

theorem runThrough (context : Context) {s : Session} {n : Nat} (enough : s.weight ≤ n) :
    run context s = follow context s (List.replicate n (.move .resume)) ∧
      advance? context (run context s).2 = none := by
  induction s using run.induct context generalizing n with
  | case1 s quiet =>
    rw [runQuiet quiet, followQuiet quiet]
    exact ⟨rfl, quiet⟩
  | case2 s events next advanced lighter more last found ih =>
    obtain ⟨m, rfl⟩ : ∃ m, n = m + 1 := Nat.exists_eq_add_one.mpr (by omega)
    obtain ⟨followed, quiet⟩ := ih (n := m) (by omega)
    rw [runAdvanced advanced]
    refine ⟨?_, quiet⟩
    rw [List.replicate_succ]
    simp only [follow, act, move, advanced, Option.getD_some, followed]

theorem runFollows (context : Context) (s : Session) :
    ∃ n, run context s = follow context s (List.replicate n (.move .resume)) ∧
      advance? context (run context s).2 = none :=
  ⟨s.weight, runThrough context (Nat.le_refl _)⟩

theorem finishFollows (context : Context) (s : Session) (acts : List Act) :
    ∃ n, finish context s acts =
        follow context s (acts ++ List.replicate n (.move .resume)) ∧
      advance? context (finish context s acts).2 = none := by
  obtain ⟨n, followed, quiet⟩ := runFollows context (follow context s acts).2
  refine ⟨n, ?_, quiet⟩
  rw [followAppend, ← followed]
  rfl

theorem arrivalsAppend (acts more : List Act) :
    arrivals (acts ++ more) = arrivals acts ++ arrivals more := List.flatMap_append

theorem arrivalsResumed (acts : List Act) (n : Nat) :
    arrivals (acts ++ List.replicate n (.move .resume)) = arrivals acts := by
  have silent : arrivals (List.replicate n (.move .resume)) = [] := by
    simp [arrivals, List.flatMap_eq_nil_iff, Act.arrives, Move.arrives]
  rw [arrivalsAppend, silent, List.append_nil]

theorem closesLastOfSilent {acts : List Act} (silent : arrivals acts = []) : ClosesLast acts := by
  induction acts with
  | nil => trivial
  | cons next rest ih =>
    have later : arrivals rest = [] := (List.append_eq_nil_iff.mp silent).2
    match next with
    | .move .close => exact later
    | .start _ | .move (.arrive _) | .move (.chunk _) | .move .resume => exact ih later

theorem closesLastTail {next : Act} {rest : List Act} (orderly : ClosesLast (next :: rest)) :
    ClosesLast rest := by
  match next with
  | .move .close => exact closesLastOfSilent orderly
  | .start _ | .move (.arrive _) | .move (.chunk _) | .move .resume => exact orderly

theorem closesLastResumed {acts : List Act} (orderly : ClosesLast acts) (n : Nat) :
    ClosesLast (acts ++ List.replicate n (.move .resume)) := by
  induction acts with
  | nil =>
    induction n with
    | zero => trivial
    | succ n ih => exact ih
  | cons next rest ih =>
    match next with
    | .move .close => exact (arrivalsResumed rest n).trans orderly
    | .start _ | .move (.arrive _) | .move (.chunk _) | .move .resume => exact ih orderly

theorem closesCons (next : Act) (rest : List Act) :
    closes (next :: rest) = (closes [next] || closes rest) := by
  simp only [closes, List.contains_cons, List.contains_nil, Bool.or_false]

theorem closesResumed (acts : List Act) (n : Nat) :
    closes (acts ++ List.replicate n (.move .resume)) = closes acts := by
  simp [closes]

def due (s : Session) (acts : List Act) : Bytes := s.pipe.unread ++ arrivals acts

/-- How much is still to be read after each act. Only reads change it, so these are the places where
reads end, and the one where the stream begins. -/
def remains (context : Context) (s : Session) : List Act → List Nat
  | [] => []
  | next :: rest =>
    let s := (s.act context next).2
    (s.due rest).length :: remains context s rest

theorem advancePipe {context : Context} {s s' : Session} {events : List Event}
    (advanced : s.advance? context = some (events, s')) :
    (∃ taken, s.pipe.unread = taken ++ s'.pipe.unread) ∧ s'.pipe.closed = s.pipe.closed := by
  unfold advance? at advanced
  split at advanced
  · cases advanced
  · cases advanced
  · split at advanced
    · cases advanced
    · cases advanced
      exact ⟨⟨[], rfl⟩, rfl⟩
    · next read =>
      cases advanced
      obtain ⟨taken, closed, _⟩ := Pipe.readTakes read
      exact ⟨⟨_, taken⟩, closed⟩
  · split at advanced
    · cases advanced
      exact ⟨⟨[], rfl⟩, rfl⟩
    · next wrote =>
      cases advanced
      obtain ⟨unread, closed⟩ := Pipe.writeSpares wrote
      exact ⟨⟨[], unread.symm⟩, closed⟩

theorem actTakes (context : Context) (s : Session) (next : Act) (rest : List Act) :
    ((s.act context next).2.due rest).length ≤ (s.due (next :: rest)).length := by
  have unread : (s.act context next).2.pipe.unread.length ≤
      s.pipe.unread.length + next.arrives.length := by
    match next with
    | .start _ | .move (.chunk _) | .move .close => exact Nat.le_refl _
    | .move (.arrive bytes) => exact Nat.le_of_eq List.length_append
    | .move .resume =>
      simp only [act, move]
      cases advanced : s.advance? context with
      | none => exact Nat.le_refl _
      | some next =>
        obtain ⟨⟨taken, split⟩, _⟩ := advancePipe advanced
        rw [split, List.length_append]
        exact Nat.le_add_left ..
  simp only [due, arrivals, List.flatMap_cons, List.length_append] at *
  omega

theorem remainsWithin {context : Context} {s : Session} {acts : List Act} :
    ∀ left ∈ remains context s acts, left ≤ (s.due acts).length := by
  induction acts generalizing s with
  | nil => exact fun left mem => nomatch mem
  | cons next rest ih =>
    intro left mem
    have taken := actTakes context s next rest
    rcases List.mem_cons.mp mem with rfl | later
    · exact taken
    · exact Nat.le_trans (ih left later) taken

theorem followCloses (context : Context) (s : Session) (acts : List Act) :
    (s.follow context acts).2.pipe.closed = (s.pipe.closed || closes acts) := by
  induction acts generalizing s with
  | nil => exact (Bool.or_false _).symm
  | cons next rest ih =>
    have one : (s.act context next).2.pipe.closed = (s.pipe.closed || closes [next]) := by
      match next with
      | .start _ | .move (.chunk _) | .move (.arrive _) => exact (Bool.or_false _).symm
      | .move .close => exact (Bool.or_true _).symm
      | .move .resume =>
        simp only [act, move]
        cases advanced : s.advance? context with
        | none => exact (Bool.or_false _).symm
        | some stepped => exact (advancePipe advanced).2.trans (Bool.or_false _).symm
    simp only [follow, ih, one, closesCons next rest, Bool.or_assoc]

def through (context : Context) (s : Session) (acts : List Act) : List Act :=
  acts ++ List.replicate (follow context s acts).2.weight (.move .resume)

theorem finishThrough (context : Context) (s : Session) (acts : List Act) :
    finish context s acts = follow context s (through context s acts) ∧
      advance? context (finish context s acts).2 = none := by
  obtain ⟨followed, quiet⟩ := runThrough context (Nat.le_refl (follow context s acts).2.weight)
  refine ⟨?_, quiet⟩
  rw [through, followAppend, ← followed]
  rfl

def Step.acts (s : Session) (step : Step) : List Act :=
  .move (.chunk (step.chunk?.getD s.pipe.chunk)) :: .move (.arrive step.feed) ::
    ((if step.close then [.move .close] else []) ++ (step.start?.map Act.start).toList)

theorem performFinishes (context : Context) (s : Session) (step : Step) :
    s.perform context step = s.finish context (Step.acts s step) := by
  have begun : s.begin context step = follow context s (Step.acts s step) := by
    cases close : step.close <;> cases start : step.start? <;>
      simp [begin, Step.acts, follow, act, move, goOn, Pipe.feed, close, start]
  simp only [perform, finish, begun]

end Session

end FileServer
