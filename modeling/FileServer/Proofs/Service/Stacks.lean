import FileServer.Proofs.Service.Answers

/-! Gates nested around a responder. It is given a request together with the callback that takes the
response; it may wait before it comes to that, and a service is one that does not. However deep the
gates are nested, the outermost one that does not admit a request decides on it, and what is inside
of that gate never learns of the request. -/
namespace FileServer

inductive Course (φ ε : Type)
  | ended
  | aborted (fault : DateFault)
  | acts (deed : ε) (later : Course φ ε)
  | waits (resumed : φ → Course φ ε)

def Course.record {φ ε : Type} : Course φ ε → (Nat → φ) → List ε
  | .ended, _ => []
  | .aborted _, _ => []
  | .acts deed later, found => deed :: later.record found
  | .waits resumed, found => (resumed (found 0)).record fun n => found (n + 1)

def Traced.into {φ ε α : Type} (x : Traced ε α) (callback : α → Course φ ε) : Course φ ε :=
  x.trace.foldr .acts (callback x.value)

abbrev Responder (φ ε : Type) := Request → (Response → Course φ ε) → Course φ ε

def Service.responder {φ : Type} (service : Service) : Responder φ Effect :=
  fun request callback =>
    (service request).into fun
      | .ok response => callback response
      | .error fault => .aborted fault

namespace Responder

variable {φ ε : Type}

def behind (gate : Request → Traced ε Verdict) (inner : Responder φ ε) : Responder φ ε :=
  fun request callback =>
    (gate request).into fun
      | .ok true => inner request callback
      | .ok false => callback (.bare .forbidden)
      | .error _ => callback (.bare .internalError)

def within (gates : List (Request → Traced ε Verdict)) (base : Responder φ ε) : Responder φ ε :=
  gates.foldr behind base

end Responder

section Callbacks

variable {φ ε α : Type}

theorem intoRecord (x : Traced ε α) (callback : α → Course φ ε) (found : Nat → φ) :
    (x.into callback).record found = x.trace ++ (callback x.value).record found := by
  unfold Traced.into
  induction x.trace with
  | nil => rfl
  | cons deed later ih => exact congrArg (deed :: ·) ih

theorem intoBind {β : Type} (x : Traced ε α) (f : α → Traced ε β) (callback : β → Course φ ε) :
    (x.bind f).into callback = x.into fun a => (f a).into callback :=
  List.foldr_append

theorem behindResponder (gate : Gate) (inner : Service) :
    (inner.behind gate).responder = (Responder.behind gate inner.responder : Responder φ Effect) := by
  funext request callback
  simp only [Service.responder, Service.behind, intoBind, Responder.behind]
  congr 1
  funext verdict
  rcases verdict with fault | admits
  · rfl
  · cases admits <;> rfl

theorem withinResponder (gates : List Gate) (base : Service) :
    (Service.within gates base).responder =
      (Responder.within gates base.responder : Responder φ Effect) := by
  induction gates with
  | nil => rfl
  | cons gate inner ih =>
    rw [Service.within, List.foldr_cons, behindResponder]
    exact congrArg (Responder.behind gate) ih

end Callbacks

inductive Note
  | weighed (gate : Gate) (request : Request)
  | handed (request : Request)
  | asked (effect : Effect)
  | answered (response : Response)

def Note.answer? : Note → Option Response
  | .answered response => some response
  | _ => none

def Gate.weighing (gate : Gate) (request : Request) : List Note :=
  .weighed gate request :: (gate request).trace.map .asked

def Gate.noted (gate : Gate) : Request → Traced Note Verdict := fun request =>
  ⟨gate.weighing request, (gate request).value⟩

inductive Gate.Refuses (gate : Gate) (request : Request) : Status → Prop where
  | denies (verdict : (gate request).value = .ok false) : Refuses gate request .forbidden
  | fails {fault : GateFault} (verdict : (gate request).value = .error fault) :
      Refuses gate request .internalError

theorem Gate.firstRefusal (gates : List Gate) (request : Request) :
    (∀ gate ∈ gates, (gate request).value = .ok true) ∨
      ∃ outer gate inner status, gates = outer ++ gate :: inner ∧
        (∀ other ∈ outer, (other request).value = .ok true) ∧ gate.Refuses request status := by
  induction gates with
  | nil => exact .inl nofun
  | cons gate rest ih =>
    cases verdict : (gate request).value with
    | error fault => exact .inr ⟨[], gate, rest, _, rfl, nofun, .fails verdict⟩
    | ok admits =>
      cases admits with
      | false => exact .inr ⟨[], gate, rest, _, rfl, nofun, .denies verdict⟩
      | true =>
        rcases ih with admitted | ⟨outer, last, inner, status, nested, admitted, refuses⟩
        · exact .inl (List.forall_mem_cons.mpr ⟨verdict, admitted⟩)
        · exact .inr ⟨gate :: outer, last, inner, status, congrArg (gate :: ·) nested,
            List.forall_mem_cons.mpr ⟨verdict, admitted⟩, refuses⟩

namespace Responder

variable {φ : Type}

def noted (responder : Responder φ Note) : Responder φ Note := fun request callback =>
  .acts (.handed request) (responder request callback)

def stack (gates : List Gate) (base : Responder φ Note) : Responder φ Note :=
  within (gates.map Gate.noted) base.noted

def answering (response : Response) : Course φ Note := .acts (.answered response) .ended

/-- Whatever it finds while it waits, the responder runs its callback, and never a second time. -/
def AnswersOnce (responder : Responder φ Note) (request : Request) : Prop :=
  ∀ found, ∃ response,
    ((responder request answering).record found).filterMap Note.answer? = [response]

/-- All that is done about a request: the gates that are called, from the outermost one in, and then
what the responder does that is given the request, or what is done with the refusal. -/
inductive Decided (gates : List Gate) (request : Request) (handled : List Note)
    (called : Response → List Note) : List Note → Prop where
  | handed (admitted : ∀ gate ∈ gates, (gate request).value = .ok true) :
      Decided gates request handled called
        (gates.flatMap (·.weighing request) ++ .handed request :: handled)
  | refused {outer inner : List Gate} {gate : Gate} {status : Status}
      (nested : gates = outer ++ gate :: inner)
      (admitted : ∀ other ∈ outer, (other request).value = .ok true)
      (refuses : gate.Refuses request status) :
      Decided gates request handled called
        ((outer ++ [gate]).flatMap (·.weighing request) ++ called (.bare status))

variable {gates outer : List Gate} {gate : Gate} {request : Request} {status : Status}
  {base : Responder φ Note} {callback : Response → Course φ Note} {found : Nat → φ}

theorem stackRecord (gate : Gate) (inner : List Gate) (base : Responder φ Note) (request : Request)
    (callback : Response → Course φ Note) (found : Nat → φ) :
    (stack (gate :: inner) base request callback).record found =
      gate.weighing request ++ match (gate request).value with
        | .ok true => (stack inner base request callback).record found
        | .ok false => (callback (.bare .forbidden)).record found
        | .error _ => (callback (.bare .internalError)).record found := by
  rw [stack, List.map_cons, within, List.foldr_cons, behind, intoRecord]
  simp only [Gate.noted]
  rcases (gate request).value with fault | admits
  · rfl
  · cases admits <;> rfl

theorem stackAdmitted (inner : List Gate)
    (admitted : ∀ gate ∈ outer, (gate request).value = .ok true) :
    (stack (outer ++ inner) base request callback).record found =
      outer.flatMap (·.weighing request) ++ (stack inner base request callback).record found := by
  induction outer with
  | nil => rfl
  | cons gate outer ih =>
    obtain ⟨verdict, later⟩ := List.forall_mem_cons.mp admitted
    rw [List.cons_append, stackRecord, verdict, List.flatMap_cons, List.append_assoc]
    exact congrArg (gate.weighing request ++ ·) (ih later)

theorem stackRefused (inner : List Gate) (refuses : gate.Refuses request status) :
    (stack (gate :: inner) base request callback).record found =
      gate.weighing request ++ (callback (.bare status)).record found := by
  rw [stackRecord]
  cases refuses with
  | denies verdict => rw [verdict]
  | fails verdict => rw [verdict]

theorem decidedRecord {record : List Note}
    (decided : Decided gates request ((base request callback).record found)
      (fun response => (callback response).record found) record) :
    (stack gates base request callback).record found = record := by
  cases decided with
  | handed admitted =>
    have all : (stack (gates ++ []) base request callback).record found = _ :=
      stackAdmitted [] admitted
    rwa [List.append_nil] at all
  | refused nested admitted refuses =>
    rw [nested, stackAdmitted _ admitted, stackRefused _ refuses, List.flatMap_append,
      List.flatMap_singleton, List.append_assoc]

theorem decidedTotal (gates : List Gate) (request : Request) (handled : List Note)
    (called : Response → List Note) : ∃ record, Decided gates request handled called record := by
  rcases Gate.firstRefusal gates request with admitted | ⟨_, _, _, _, nested, admitted, refuses⟩
  · exact ⟨_, .handed admitted⟩
  · exact ⟨_, .refused nested admitted refuses⟩

theorem weighingsUnanswered (gates : List Gate) (request : Request) :
    (gates.flatMap (·.weighing request)).filterMap Note.answer? = [] := by
  simp only [List.filterMap_eq_nil_iff, List.mem_flatMap, Gate.weighing]
  rintro note ⟨gate, _, mem⟩
  rcases List.mem_cons.mp mem with rfl | mem
  · rfl
  · obtain ⟨effect, _, rfl⟩ := List.mem_map.mp mem
    rfl

theorem stackAnswersOnce (gates : List Gate) (once : base.AnswersOnce request) :
    (stack gates base).AnswersOnce request := by
  intro found
  obtain ⟨record, decided⟩ := decidedTotal gates request ((base request answering).record found)
    fun response => (answering response : Course φ Note).record found
  rw [decidedRecord decided]
  cases decided with
  | handed admitted =>
    obtain ⟨response, answered⟩ := once found
    refine ⟨response, ?_⟩
    rw [List.filterMap_append, weighingsUnanswered, List.nil_append]
    exact answered
  | @refused _ _ _ status _ _ _ =>
    refine ⟨.bare status, ?_⟩
    rw [List.filterMap_append, weighingsUnanswered, List.nil_append]
    rfl

/-- If all gates admit the request, the responder within them is called, once and with the request as
it came, and has the last word. Otherwise the outermost gate that does not admit it answers 403 or
500, and neither a gate inside of that one nor the responder is called. Either way the callback is
run once. Services behind gates are nested in just this way. -/
theorem decidedOutermost (gates : List Gate) (base : Responder φ Note) (request : Request)
    (once : base.AnswersOnce request) :
    (∀ callback found record, (stack gates base request callback).record found = record ↔
      Decided gates request ((base request callback).record found)
        (fun response => (callback response).record found) record) ∧
    (stack gates base).AnswersOnce request ∧
    (∀ service : Service, (Service.within gates service).responder =
      (within gates service.responder : Responder φ Effect)) ∧
    Status.code .forbidden = 403 ∧ Status.code .internalError = 500 ∧
      ∀ status, (Response.bare status).status = status ∧ (Response.bare status).body = [] := by
  refine ⟨fun callback found record => ⟨?_, decidedRecord⟩, stackAnswersOnce gates once,
    withinResponder gates, rfl, rfl, fun status => ⟨rfl, rfl⟩⟩
  rintro rfl
  obtain ⟨record, decided⟩ := decidedTotal gates request ((base request callback).record found)
    fun response => (callback response).record found
  rwa [decidedRecord decided]

theorem decidedOutermostBehindList :
    let list : File := ⟨false, .ok (Bytes.ofText "allow from 10.0.0.1"), .ok 0⟩
    let listed : Gate := .accessList (.ofFiles [("/.htaccess", list)]) .silent
    let admitting : Gate := .fixed (.ok true)
    let denying : Gate := .fixed (.ok false)
    let failing : Gate := .fixed (.error (.unreadable .notFound))
    let base : Responder Bytes Note := fun request callback =>
      .waits fun bytes => callback (.build .ok [] (request.body ++ bytes))
    let request : Request := ⟨.get, "/a", "HTTP/1.0", [], [1], .ofOctets 10 0 0 1⟩
    base.AnswersOnce request ∧
      (stack [listed, admitting] base request answering).record (fun _ => [2]) =
        [.weighed listed request, .asked (.lookup "/.htaccess"), .weighed admitting request,
          .handed request, .answered (.build .ok [] [1, 2])] ∧
      (stack [listed, denying, failing] base request answering).record (fun _ => [2]) =
        [.weighed listed request, .asked (.lookup "/.htaccess"), .weighed denying request,
          .answered (.bare .forbidden)] := by
  intro list listed admitting denying failing base request
  have once : base.AnswersOnce request := fun _ => ⟨_, rfl⟩
  have looked : (listed request).trace = [.lookup "/.htaccess"] := by decide +kernel
  have admits : (listed request).value = .ok true := by decide +kernel
  have weighing : listed.weighing request =
      [.weighed listed request, .asked (.lookup "/.htaccess")] := by
    rw [Gate.weighing, looked]
    rfl
  refine ⟨once, ?_, ?_⟩
  · obtain ⟨exact', _⟩ := decidedOutermost [listed, admitting] base request once
    have all : ∀ gate ∈ [listed, admitting], (gate request).value = .ok true :=
      List.forall_mem_cons.mpr ⟨admits, List.forall_mem_singleton.mpr rfl⟩
    rw [(exact' answering (fun _ => [2]) _).mpr (.handed all), List.flatMap_cons, weighing]
    rfl
  · obtain ⟨exact', _⟩ := decidedOutermost [listed, denying, failing] base request once
    have outer : ∀ gate ∈ [listed], (gate request).value = .ok true :=
      List.forall_mem_singleton.mpr admits
    rw [(exact' answering (fun _ => [2]) _).mpr (.refused rfl outer (.denies rfl)),
      List.flatMap_append, List.flatMap_singleton, weighing]
    rfl

end Responder

end FileServer
