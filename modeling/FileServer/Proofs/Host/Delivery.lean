import FileServer.Proofs.Conversation.Delivery
import FileServer.Proofs.Host.Single

/-! Replies reach every client of a host that listens whole and in their order, whatever turns it takes
and whatever the calls on the socket come to. What is done for a connection is read off the attempts
at its tasks, each made once more on a socket that records its calls. -/
namespace FileServer

variable {σ : Type} {t : Transport σ}

def Journal.told (journal : Journal) : List Event :=
  journal.filterMap fun
    | .told event => some event
    | .made _ => none

namespace Task

def entries (t : Transport σ) (task : Task) (now : Nat) (s : σ) : Journal :=
  let attempt := task.resume t.recorded now ⟨s, []⟩
  attempt.2.calls.map .made ++ attempt.1.events.map .told

theorem entriesTold (task : Task) (now : Nat) (s : σ) :
    (task.entries t now s).told = (task.resume t.recorded now ⟨s, []⟩).1.events := by
  simp [entries, Journal.told, List.filterMap_map]

theorem completedEvents (task : Task) (now : Nat) (outcome : Outcome) :
    (task.complete now outcome).events = outcome.events := by
  unfold complete
  split <;> rfl

open Journal

variable {context : Context} {journal : Journal} {task : Task}

theorem readStands {due : List Reply} {stage : Stage} (own : task.context = context)
    (pending : task.pending = .read (.serving stage)) (answered : Answered context journal due)
    (quiet : stage.message context.limits.frame context.remote task.buffer = .incomplete)
    (foretells : Foretells context journal due stage task.buffer) (now : Nat) (s : σ) :
    Stands context (journal ++ task.entries t now s)
      (task.resume t.recorded now ⟨s, []⟩).1.tasks := by
  have all : due = replies context journal.received := by
    have here := foretells []
    rw [List.append_nil, List.append_nil, quiet] at here
    exact (here.trans (List.append_nil _)).symm
  have beyond (more : Bytes) : due <+: replies context (journal.received ++ more) := by
    rw [foretells more]
    exact List.prefix_append ..
  generalize called : t.receive s (max task.context.limits.readChunk 1) = call
  obtain ⟨result, s'⟩ := call
  obtain ⟨orderly, goesOn⟩ := answered.read all beyond result
  have tried : t.recorded.tryReceive task.context.limits.readChunk ⟨s, []⟩ =
      (Transport.received result, ⟨s', [.received result]⟩) := by
    simp only [Transport.tryReceive, Transport.recorded, called, List.nil_append]
  simp only [entries, resume, pending, resumeRead, tried]
  cases attempt : Transport.received result with
  | ready bytes =>
    obtain ⟨rfl, some'⟩ := Transport.receivedReady attempt
    have answered := goesOn some'
    have foretells : Foretells context (journal ++ [.made (.received (.ok bytes))]) due stage
        (task.buffer ++ bytes) := fun more => by
      have one : received [.made (.received (.ok bytes))] = bytes := List.append_nil bytes
      rw [receivedAppend, one, List.append_assoc, List.append_assoc]
      exact foretells (bytes ++ more)
    simp only [completedBy, completedEvents, Conversation.received, own]
    rw [← List.append_assoc]
    exact serveStands answered foretells now
  | wouldBlock =>
    obtain ⟨cause, rfl, passes⟩ := Transport.receivedWaits attempt
    have answered := goesOn fun ends => ends passes
    have foretells : Foretells context (journal ++ [.made (.received (.error cause))]) due stage
        task.buffer := fun more => by
      rw [receivedAppend, List.append_assoc]
      exact foretells more
    exact .reading stage own pending answered quiet foretells
  | closed => exact .left orderly
  | failed cause => exact .left orderly

theorem writeStands {earlier : List Reply} {reply : Reply} {writing : Writing} (honest : t.Honest)
    (own : task.context = context) (pending : task.pending = .write reply.payload writing)
    (sending : Sending context journal earlier reply task.sent) (now : Nat) (s : σ)
    (kept : ∀ next sent, next.received = journal.received →
      Sending context next earlier reply sent → Stands context next [{ task with sent }])
    (whole : ∀ next, next.received = journal.received →
      Answered context next (earlier ++ [reply]) →
      let outcome := Conversation.sent context task.buffer writing
      Stands context (next ++ outcome.events.map .told) (start? context now outcome).toList) :
    Stands context (journal ++ task.entries t now s)
      (task.resume t.recorded now ⟨s, []⟩).1.tasks := by
  have leaves := drainLeaves honest sending s
  simp only [entries, resume, pending, resumeWrite, own]
  generalize t.recorded.drain context.limits.writeChunk _ task.sent ⟨s, []⟩ = drained at leaves ⊢
  obtain ⟨outcome, r⟩ := drained
  cases outcome with
  | whole =>
    simp only [completedBy, completedEvents, own]
    rw [← List.append_assoc]
    exact whole _ leaves.received (leaves.whole rfl)
  | partly sent =>
    simp only [Resumed.events, Resumed.tasks, List.map_nil, List.append_nil]
    have left := kept _ sent leaves.received (leaves.partly sent rfl)
    simp only [pending, own] at left
    exact left
  | abandoned cause =>
    simp only [Resumed.events, Resumed.tasks, List.map_nil, List.append_nil]
    exact .left leaves.orderly
  | overflow =>
    simp only [Resumed.events, Resumed.tasks, List.map_nil, List.append_nil]
    exact .left leaves.orderly

theorem resumeStands (honest : t.Honest) (stands : Stands context journal [task]) (now : Nat)
    (s : σ) :
    Stands context (journal ++ task.entries t now s)
      (task.resume t.recorded now ⟨s, []⟩).1.tasks := by
  cases stands with
  | reading stage own pending answered quiet foretells =>
    exact readStands own pending answered quiet foretells now s
  | @answering _ earlier reply own pending sending foretells =>
    have still {next : Journal} (received : next.received = journal.received) :
        Foretells context next (earlier ++ [reply]) .head task.buffer := fun more => by
      rw [received]
      exact foretells more
    refine writeStands honest own pending sending now s ?_ ?_
    · intro next sent received sending
      exact .answering own pending sending (still received)
    · intro next received answered
      exact serveStands answered (still received) now
  | parting own pending sending =>
    refine writeStands honest own pending sending now s ?_ ?_
    · intro next sent _ sending
      exact .parting own pending sending
    · intro next _ answered
      show Stands context (next ++ []) []
      rw [List.append_nil]
      exact .left answered.orderly

end Task

namespace Site

def entries (t : Transport σ) (c : Nat) (site : Site σ) : Live → Journal
  | .listener _ => []
  | .link index task =>
    if index = c then
      match site.links[c]? with
      | some link => task.entries t site.now link.socket
      | none => []
    else []

def admits? (c : Nat) (site : Site σ) (one : Live) : Option Context :=
  match site.takes? one with
  | some (taken, context?) => if taken = c then context? else none
  | none => none

end Site

def journal (t : Transport σ) (c : Nat) (past : List (Site σ × Live)) : Journal :=
  past.flatMap fun (site, one) => site.entries t c one

def admissions (c : Nat) (past : List (Site σ × Live)) : List Context :=
  past.filterMap fun (site, one) => site.admits? c one

section Past

variable {c : Nat}

theorem journalAppend (past more : List (Site σ × Live)) :
    journal t c (past ++ more) = journal t c past ++ journal t c more := List.flatMap_append

theorem admissionsAppend (past more : List (Site σ × Live)) :
    admissions c (past ++ more) = admissions c past ++ admissions c more := List.filterMap_append

theorem journalSpared {more : List (Site σ × Live)} (spares : ∀ one ∈ more, Spares c one) :
    journal t c more = [] := by
  refine List.flatMap_eq_nil_iff.mpr fun (site, one) mem => ?_
  have spared := spares _ mem
  cases one with
  | listener index => rfl
  | link index task =>
    simp only [Site.entries]
    split
    · next own => rw [spared own]
    · rfl

theorem admissionsSpared {more : List (Site σ × Live)} (spares : ∀ one ∈ more, Spares c one) :
    admissions c more = [] := by
  refine List.filterMap_eq_nil_iff.mpr fun (site, one) mem => ?_
  have spared := spares _ mem
  cases one with
  | link index task => rfl
  | listener index =>
    simp only [Site.admits?]
    split
    · next taken context? takes =>
      refine if_neg fun own => ?_
      exact spared context? (own ▸ takes)
    · rfl

theorem journalAttempted {site : Site σ} {task : Task} {link : Link σ}
    (there : site.links[c]? = some link) :
    journal t c [(site, .link c task)] = task.entries t site.now link.socket := by
  simp only [journal, Site.entries, there, if_true, List.flatMap_cons, List.flatMap_nil,
    List.append_nil]

theorem admissionsAccepted {site : Site σ} {index : Nat} {context? : Option Context}
    (takes : site.takes? (.listener index) = some (c, context?)) :
    admissions c [(site, .listener index)] = context?.toList := by
  simp only [admissions, Site.admits?, takes, if_true, List.filterMap_cons, List.filterMap_nil]
  cases context? <;> rfl

end Past

structure Ledger.Delivers (t : Transport σ) (c : Nat) (l : Ledger σ) : Prop where
  single : l.Single
  untouched : c ∉ acceptances l.past → journal t c l.past = [] ∧ admissions c l.past = []
  stands : ∀ context ∈ admissions c l.past,
    Journal.Stands context (journal t c l.past) (Host.tasksOf c l.tasks)
  told : (journal t c l.past).told = Host.eventsOf c l.events

theorem Change.delivers {c : Nat} {l l' : Ledger σ} (honest : t.Honest) (change : Change t l l')
    (delivers : l.Delivers t c) : l'.Delivers t c := by
  obtain ⟨single, untouched, stands, told⟩ := delivers
  have single' := change.single single
  cases change.touch c with
  | spared spares past fewer silent =>
    have same : journal t c l'.past = journal t c l.past := by
      rw [past, journalAppend, journalSpared spares, List.append_nil]
    have same' : admissions c l'.past = admissions c l.past := by
      rw [past, admissionsAppend, admissionsSpared spares, List.append_nil]
    refine ⟨single', fun fresh => ?_, fun context mem => ?_, ?_⟩
    · rw [same, same']
      exact untouched (mt change.taken fresh)
    · rw [same]
      exact (stands context (same' ▸ mem)).fewer fewer
    · rw [same, silent]
      exact told
  | @attempted site task others link resumed socket there attempt past before after told' =>
    have lone := single.lone c
    rw [before] at lone stands
    cases lone with
    | busy taken outstanding =>
      have recorded : _ = (resumed, socket) :=
        (Task.recordedResume task site.now ⟨link.socket, []⟩).symm.trans attempt
      have first : (task.resume t.recorded site.now ⟨link.socket, []⟩).1 = resumed :=
        congrArg Prod.fst recorded
      have same : journal t c l'.past = journal t c l.past ++ task.entries t site.now link.socket := by
        rw [past, journalAppend, journalAttempted there]
      have same' : admissions c l'.past = admissions c l.past := by
        rw [past, admissionsAppend]
        exact List.append_nil _
      refine ⟨single', fun fresh => absurd (change.taken taken) fresh, fun context mem => ?_, ?_⟩
      · rw [same, after, List.append_nil, ← first]
        exact Task.resumeStands honest (stands context (same' ▸ mem)) site.now link.socket
      · rw [same, told', ← told, ← first, ← Task.entriesTold]
        exact List.filterMap_append
  | @accepted site index context? takes waited past after told' =>
    obtain ⟨fresh, idle⟩ := single.fresh waited
    obtain ⟨silent, none'⟩ := untouched fresh
    have taken : c ∈ acceptances l'.past := past ▸ acceptancesTaken l.past takes
    have same : journal t c l'.past = [] := by
      rw [past, journalAppend, silent]
      rfl
    have admitted : admissions c l'.past = context?.toList := by
      rw [past, admissionsAppend, none', admissionsAccepted takes, List.nil_append]
    refine ⟨single', fun fresh => absurd taken fresh, fun context mem => ?_, ?_⟩
    · rw [admitted, Option.mem_toList] at mem
      obtain rfl := mem
      rw [same, after, idle, List.append_nil]
      exact Journal.beginStands context site.now
    · rw [same, told', ← told, silent]

theorem Changes.delivers {c : Nat} {l l' : Ledger σ} (honest : t.Honest) (changes : Changes t l l')
    (delivers : l.Delivers t c) : l'.Delivers t c := by
  induction changes with
  | refl => exact delivers
  | tail earlier change ih => exact change.delivers honest ih

namespace Host

theorem emptyDelivers (t : Transport σ) (c : Nat) : (({} : Host σ).ledger []).Delivers t c :=
  ⟨emptySingle, fun _ => ⟨rfl, rfl⟩, nofun, rfl⟩

/-- What is done for a client that has been taken in is orderly at every moment: what the socket has
accepted is a beginning of the replies that are due, in the order of their requests; each piece is
offered where the accepted bytes end; and neither is the next request handed over nor anything
received until the last reply has been accepted as a whole. Behind a call that ends the connection
there is nothing more, nor is a task left. -/
theorem repliesInOrder (t : Transport σ) (honest : t.Honest) (happenings : List (Happening σ))
    (c : Nat) :
    let history := ({} : Host σ).history t happenings
    let journal := journal t c history.1
    journal.told = eventsOf c history.2.site.events ∧
      ∀ context ∈ admissions c history.1, Journal.Orderly context journal ∧
        ∀ entry ∈ journal, entry.Ends → tasksOf c history.2.live = [] := by
  have delivers := Changes.delivers honest (historyChanges t {} happenings []) (emptyDelivers t c)
  refine ⟨delivers.told, fun context mem => ?_⟩
  have stands := delivers.stands context mem
  exact ⟨stands.orderly, fun entry mem ends => stands.ended mem ends⟩

def grudging : Transport (List Bytes × List Nat) where
  receive
    | ([], grants), _ => (.error .notReady, [], grants)
    | (bytes :: reads, grants), _ => (.ok bytes, reads, grants)
  send
    | (reads, []), _ => (.error .notReady, reads, [])
    | (reads, n :: grants), piece => (.ok (min n piece.length), reads, grants)
  readable _ := true
  writable _ := true
  close := id

theorem grudgingHonest : grudging.Honest := by
  rintro ⟨reads, grants⟩ piece n sent
  cases grants with
  | nil => cases sent
  | cons grant grants =>
    cases sent
    exact Nat.min_le_right ..

theorem repliesInOrderBytewise :
    let service : Service := fun _ => ⟨[], .ok (.bare .ok)⟩
    let get := Bytes.ofText "GET / HTTP/1.0\r\n\r\n"
    let happenings := [.listen service 1,
      .connect 0 ([get], [3, 4, 0]) (.ofOctets 10 0 0 1) { writeChunk := 4 }, .turn, .turn, .turn,
      .turn]
    let history := ({} : Host _).history grudging happenings
    let journal := journal grudging 0 history.1
    grudging.Honest ∧ journal.accepted = (Response.bare .ok).wire.take 7 ∧
      (∃ context ∈ admissions 0 history.1, context.limits.writeChunk = 4 ∧
        Journal.Orderly context journal) ∧
      tasksOf 0 history.2.live = [] := by
  intro service get happenings history journal
  have admitted : (admissions 0 history.1).map (·.limits.writeChunk) = [4] := by decide +kernel
  have accepted : journal.accepted = (Response.bare .ok).wire.take 7 := by decide +kernel
  have refused : ∃ entry ∈ journal, entry.Ends := by decide +kernel
  obtain ⟨entry, mem, ends⟩ := refused
  obtain ⟨context, taken, chunk⟩ := List.mem_map.mp (admitted ▸ List.mem_singleton_self 4)
  have ordered := (repliesInOrder grudging grudgingHonest happenings 0).2
  obtain ⟨orderly, ended⟩ := ordered context taken
  exact ⟨grudgingHonest, accepted, ⟨context, taken, chunk, orderly⟩, ended entry mem ends⟩

end Host

end FileServer
