import FileServer.Conversation.Task
import FileServer.Proofs.Conversation.Replies
import FileServer.Proofs.Stream.Calls

/-! Journals of one connection: the calls on its socket and what its conversation tells of, in order.
In an orderly one every entry is permitted by the replies that are due when it is made, and there is
no entry behind a call that ends the connection. -/
namespace FileServer

def Failure.Passes (cause : Failure) : Prop := cause.kind = .wouldBlock ∨ cause.kind = .interrupted

instance (cause : Failure) : Decidable cause.Passes :=
  inferInstanceAs (Decidable (cause.kind = .wouldBlock ∨ cause.kind = .interrupted))

def Call.Ends : Call → Prop
  | .received (.ok bytes) => bytes = []
  | .received (.error cause) => ¬ cause.Passes
  | .offered _ (.ok n) => n = 0
  | .offered _ (.error cause) => ¬ cause.Passes

instance : (call : Call) → Decidable call.Ends
  | .received (.ok bytes) => inferInstanceAs (Decidable (bytes = []))
  | .received (.error cause) => inferInstanceAs (Decidable (¬ cause.Passes))
  | .offered _ (.ok n) => inferInstanceAs (Decidable (n = 0))
  | .offered _ (.error cause) => inferInstanceAs (Decidable (¬ cause.Passes))

inductive Journal.Entry
  | made (call : Call)
  | told (event : Event)

abbrev Journal := List Journal.Entry

namespace Journal

def Entry.Ends : Entry → Prop
  | .made call => call.Ends
  | .told _ => False

instance : (entry : Entry) → Decidable entry.Ends
  | .made call => inferInstanceAs (Decidable call.Ends)
  | .told _ => inferInstanceAs (Decidable False)

def received (journal : Journal) : Bytes :=
  journal.flatMap fun
    | .made (.received (.ok bytes)) => bytes
    | _ => []

def accepted (journal : Journal) : Bytes :=
  journal.flatMap fun
    | .made (.offered piece (.ok n)) => piece.take n
    | _ => []

def called (journal : Journal) : List Request :=
  journal.filterMap fun
    | .told (.called request) => some request
    | _ => none

def Lasts (journal : Journal) : Prop := ∀ entry ∈ journal, ¬ entry.Ends

structure Account (context : Context) (journal : Journal) (due : List Reply) : Prop where
  decoded : due <+: replies context journal.received
  called : journal.called = due.filterMap Reply.request?
  accepted : journal.accepted <+: due.flatMap Reply.payload

def Permits (context : Context) (journal : Journal) (due : List Reply) : Entry → Prop
  | .made (.offered piece _) =>
    piece ≠ [] ∧ piece.length ≤ max context.limits.writeChunk 1 ∧
      journal.accepted ++ piece <+: due.flatMap Reply.payload
  | .made (.received _) =>
    due = replies context journal.received ∧ journal.accepted = due.flatMap Reply.payload
  | .told (.called _) => journal.accepted = due.flatMap Reply.payload
  | .told _ => True

structure Orderly (context : Context) (journal : Journal) : Prop where
  accounted : ∀ past, past <+: journal → ∃ due, Account context past due
  permitted : ∀ past entry, past ++ [entry] <+: journal →
    Lasts past ∧ ∃ due, Account context past due ∧ Permits context past due entry

section Appending

variable (journal more : Journal)

@[simp] theorem receivedAppend : received (journal ++ more) = journal.received ++ received more :=
  List.flatMap_append

@[simp] theorem acceptedAppend : accepted (journal ++ more) = journal.accepted ++ accepted more :=
  List.flatMap_append

@[simp] theorem calledAppend : called (journal ++ more) = journal.called ++ called more :=
  List.filterMap_append

end Appending

variable {context : Context} {journal : Journal} {due earlier : List Reply} {reply : Reply}
  {sent : Nat}

theorem orderlyNothing (context : Context) : Orderly context [] := by
  refine ⟨fun past front => ?_, fun past entry front => ?_⟩
  · obtain rfl := List.prefix_nil.mp front
    exact ⟨[], List.nil_prefix, rfl, List.nil_prefix⟩
  · exact absurd (List.prefix_nil.mp front) (List.append_ne_nil_of_right_ne_nil _ (by simp))

theorem Orderly.further {entry : Entry} (orderly : Orderly context journal) (lasts : Lasts journal)
    (account : Account context journal due) (permits : Permits context journal due entry)
    {due' : List Reply} (later : Account context (journal ++ [entry]) due') :
    Orderly context (journal ++ [entry]) := by
  refine ⟨fun past front => ?_, fun past next front => ?_⟩
  · rcases List.prefix_concat_iff.mp front with rfl | front
    · exact ⟨due', later⟩
    · exact orderly.accounted past front
  · rcases List.prefix_concat_iff.mp front with same | front
    · obtain ⟨rfl, last⟩ := List.append_inj' same rfl
      cases last
      exact ⟨lasts, due, account, permits⟩
    · exact orderly.permitted past next front

theorem Lasts.further {entry : Entry} (lasts : Lasts journal) (goesOn : ¬ entry.Ends) :
    Lasts (journal ++ [entry]) := by
  intro other mem
  rcases List.mem_append.mp mem with mem | mem
  · exact lasts other mem
  · obtain rfl := List.mem_singleton.mp mem
    exact goesOn

structure Sending (context : Context) (journal : Journal) (earlier : List Reply) (reply : Reply)
    (sent : Nat) : Prop where
  orderly : Orderly context journal
  lasts : Lasts journal
  account : Account context journal (earlier ++ [reply])
  place : journal.accepted = earlier.flatMap Reply.payload ++ reply.payload.take sent
  within : sent ≤ reply.payload.length

structure Answered (context : Context) (journal : Journal) (due : List Reply) : Prop where
  orderly : Orderly context journal
  lasts : Lasts journal
  account : Account context journal due
  whole : journal.accepted = due.flatMap Reply.payload

theorem payloads (earlier : List Reply) (reply : Reply) :
    (earlier ++ [reply]).flatMap Reply.payload =
      earlier.flatMap Reply.payload ++ reply.payload := by
  simp only [List.flatMap_append, List.flatMap_cons, List.flatMap_nil, List.append_nil]

theorem Sending.answered (sending : Sending context journal earlier reply sent)
    (whole : reply.payload.length ≤ sent) : Answered context journal (earlier ++ [reply]) := by
  refine ⟨sending.orderly, sending.lasts, sending.account, ?_⟩
  rw [sending.place, List.take_of_length_le whole, payloads]

theorem Account.beginning (account : Account context journal due) {next : Journal}
    (received : next.received = journal.received) (called : next.called = journal.called)
    (accepted : next.accepted <+: due.flatMap Reply.payload) : Account context next due :=
  ⟨received ▸ account.decoded, called.trans account.called, accepted⟩

theorem Account.still {entry : Entry} (account : Account context journal due)
    (nothing : Journal.received [entry] = [] ∧ Journal.called [entry] = [] ∧
      Journal.accepted [entry] = []) :
    Account context (journal ++ [entry]) due := by
  obtain ⟨received, called, accepted⟩ := nothing
  refine account.beginning ?_ ?_ ?_
  · rw [receivedAppend, received, List.append_nil]
  · rw [calledAppend, called, List.append_nil]
  · rw [acceptedAppend, accepted, List.append_nil]
    exact account.accepted

section Offering

variable {piece : Bytes}

theorem Sending.permits (sending : Sending context journal earlier reply sent)
    (front : piece <+: reply.payload.drop sent) (some' : piece ≠ [])
    (short : piece.length ≤ max context.limits.writeChunk 1) (result : Except Failure Nat) :
    Permits context journal (earlier ++ [reply]) (.made (.offered piece result)) := by
  refine ⟨some', short, ?_⟩
  rw [sending.place, payloads, List.append_assoc, List.prefix_append_right_inj]
  obtain ⟨behind, split⟩ := front
  exact ⟨behind, by rw [List.append_assoc, split, List.take_append_drop]⟩

theorem Sending.taken (sending : Sending context journal earlier reply sent)
    (front : piece <+: reply.payload.drop sent) {n : Nat} (bound : n ≤ piece.length)
    (permits : Permits context journal (earlier ++ [reply]) (.made (.offered piece (.ok n)))) :
    let next := journal ++ [.made (.offered piece (.ok n))]
    Orderly context next ∧ (0 < n → Sending context next earlier reply (sent + n)) := by
  obtain ⟨orderly, lasts, account, place, within⟩ := sending
  intro next
  have length := front.length_le
  rw [List.length_drop] at length
  have here : next.accepted =
      earlier.flatMap Reply.payload ++ reply.payload.take (sent + n) := by
    obtain ⟨behind, split⟩ := front
    rw [acceptedAppend, place, List.take_add, ← split, List.take_append_of_le_length bound,
      List.append_assoc]
    exact congrArg _ (congrArg _ (List.append_nil _))
  have later : Account context next (earlier ++ [reply]) := by
    refine account.beginning ?_ ?_ ?_
    · exact (receivedAppend ..).trans (List.append_nil _)
    · exact (calledAppend ..).trans (List.append_nil _)
    · rw [here, payloads, List.prefix_append_right_inj]
      exact List.take_prefix ..
  have further := orderly.further lasts account permits later
  refine ⟨further, fun some' => ⟨further, lasts.further (Nat.ne_of_gt some'), later, here, ?_⟩⟩
  omega

theorem Sending.untaken (sending : Sending context journal earlier reply sent) {cause : Failure}
    (permits : Permits context journal (earlier ++ [reply]) (.made (.offered piece (.error cause)))) :
    let next := journal ++ [.made (.offered piece (.error cause))]
    Orderly context next ∧ (cause.Passes → Sending context next earlier reply sent) := by
  obtain ⟨orderly, lasts, account, place, within⟩ := sending
  intro next
  have here : next.accepted = journal.accepted := (acceptedAppend ..).trans (List.append_nil _)
  have later : Account context next (earlier ++ [reply]) := account.still ⟨rfl, rfl, rfl⟩
  have further := orderly.further lasts account permits later
  exact ⟨further, fun passes =>
    ⟨further, lasts.further fun ends => ends passes, later, here.trans place, within⟩⟩

theorem Sending.offered (sending : Sending context journal earlier reply sent)
    (front : piece <+: reply.payload.drop sent) (some' : piece ≠ [])
    (short : piece.length ≤ max context.limits.writeChunk 1) {result : Except Failure Nat}
    (honest : ∀ n, result = .ok n → n ≤ piece.length) :
    let next := journal ++ [.made (.offered piece result)]
    Orderly context next ∧
      (∀ n, result = .ok n → 0 < n → Sending context next earlier reply (sent + n)) ∧
      ∀ cause, result = .error cause → cause.Passes → Sending context next earlier reply sent := by
  have permits := sending.permits front some' short result
  cases result with
  | ok n =>
    obtain ⟨orderly, onward⟩ := sending.taken front (honest n rfl) permits
    refine ⟨orderly, ?_, nofun⟩
    rintro _ ⟨⟩
    exact onward
  | error cause =>
    obtain ⟨orderly, waits⟩ := sending.untaken permits
    refine ⟨orderly, nofun, ?_⟩
    rintro _ ⟨⟩
    exact waits

end Offering

theorem Answered.read (answered : Answered context journal due)
    (all : due = replies context journal.received)
    (beyond : ∀ more, due <+: replies context (journal.received ++ more))
    (result : Except Failure Bytes) :
    let next := journal ++ [.made (.received result)]
    Orderly context next ∧ (¬ (Call.received result).Ends → Answered context next due) := by
  obtain ⟨orderly, lasts, account, whole⟩ := answered
  intro next
  have here : next.accepted = journal.accepted := (acceptedAppend ..).trans (List.append_nil _)
  have later : Account context next due := by
    refine ⟨?_, (calledAppend ..).trans ((List.append_nil _).trans account.called),
      here ▸ account.accepted⟩
    rw [receivedAppend]
    exact beyond _
  have permits : Permits context journal due (.made (.received result)) := ⟨all, whole⟩
  have further := orderly.further lasts account permits later
  exact ⟨further, fun goesOn => ⟨further, lasts.further goesOn, later, here.trans whole⟩⟩

theorem Answered.next (answered : Answered context journal due)
    (decoded : due ++ [reply] <+: replies context journal.received)
    (silent : reply.request? = none) : Sending context journal due reply 0 := by
  obtain ⟨orderly, lasts, account, whole⟩ := answered
  refine ⟨orderly, lasts, ⟨decoded, ?_, ?_⟩, ?_, Nat.zero_le _⟩
  · rw [account.called, List.filterMap_append, List.filterMap_cons, silent]
    exact (List.append_nil _).symm
  · rw [whole, payloads]
    exact List.prefix_append ..
  · rw [whole, List.take_zero, List.append_nil]

theorem Answered.call (answered : Answered context journal due) {request : Request}
    (decoded : due ++ [reply] <+: replies context journal.received)
    (shown : reply.request? = some request) :
    Sending context (journal ++ [.told (.called request)]) due reply 0 := by
  obtain ⟨orderly, lasts, account, whole⟩ := answered
  have here : accepted (journal ++ [.told (.called request)]) = due.flatMap Reply.payload :=
    ((acceptedAppend ..).trans (List.append_nil _)).trans whole
  have later : Account context (journal ++ [.told (.called request)]) (due ++ [reply]) := by
    refine ⟨?_, ?_, ?_⟩
    · rw [receivedAppend]
      exact (List.append_nil journal.received).symm ▸ decoded
    · rw [calledAppend, account.called, List.filterMap_append, List.filterMap_cons, shown]
      rfl
    · rw [here, payloads]
      exact List.prefix_append ..
  have permits : Permits context journal due (.told (.called request)) := whole
  refine ⟨orderly.further lasts account permits later, lasts.further id, later, ?_, Nat.zero_le _⟩
  rw [here, List.take_zero, List.append_nil]

theorem Sending.asked (sending : Sending context journal earlier reply sent)
    (effects : List Effect) :
    Sending context (journal ++ effects.map fun effect => .told (.asked effect)) earlier reply
      sent := by
  induction effects generalizing journal with
  | nil =>
    rw [List.map_nil, List.append_nil]
    exact sending
  | cons effect effects ih =>
    obtain ⟨orderly, lasts, account, place, within⟩ := sending
    have silent : accepted (journal ++ [.told (.asked effect)]) = journal.accepted :=
      (acceptedAppend ..).trans (List.append_nil _)
    have later : Account context (journal ++ [.told (.asked effect)]) (earlier ++ [reply]) :=
      account.still ⟨rfl, rfl, rfl⟩
    have permits : Permits context journal (earlier ++ [reply]) (.told (.asked effect)) := trivial
    have further := orderly.further lasts account permits later
    have rest := ih ⟨further, lasts.further id, later, silent.trans place, within⟩
    rwa [List.append_assoc] at rest

end Journal

end FileServer
