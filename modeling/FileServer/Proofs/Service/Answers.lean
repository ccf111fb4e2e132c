import FileServer.Proofs.Conversation.Oversize
import FileServer.Proofs.Conversation.Severed
import FileServer.Proofs.Service.Policy

/-! Which requests for documents are answered. Every failure on the way to a document has an answer
of its own, but for one: a time of the last change that has no written form. Then nothing is answered,
and the connection ends there. -/
namespace FileServer

/-- A document that everyone may read, and whose time cannot be written, for this reason. -/
inductive Repository.Undatable (repository : Repository) (path : String) : DateFault → Prop where
  | early {file : File} {contents : Bytes} {moment : Int} (present : repository path = some file)
      (open' : file.worldReadable = true) (readable : file.contents = .ok contents)
      (modified : file.modified = .ok moment) (before : moment < 0) :
      Undatable repository path (.beforeEpoch (-moment).toNat)
  | late {file : File} {contents : Bytes} {moment : Int} (present : repository path = some file)
      (open' : file.worldReadable = true) (readable : file.contents = .ok contents)
      (modified : file.modified = .ok moment) (after : Date.limit ≤ moment) :
      Undatable repository path .pastLastYear

namespace Service

def within (gates : List Gate) (service : Service) : Service := gates.foldr behind service

structure Abandons (repository : Repository) (gates : List Gate) (request : Request)
    (fault : DateFault) : Prop where
  admitted : ∀ gate ∈ gates, (gate request).value = .ok true
  somewhere : documentPath request.uri ≠ ""
  undatable : repository.Undatable (documentPath request.uri) fault

variable {repository : Repository} {gates : List Gate} {request : Request} {path : String}

theorem withinCons (gate : Gate) (rest : List Gate) (service : Service) :
    (within (gate :: rest) service request).value =
      match (gate request).value with
      | .ok true => (within rest service request).value
      | .ok false => .ok (.bare .forbidden)
      | .error _ => .ok (.bare .internalError) := by
  simp only [within, List.foldr_cons, behind, Traced.bind]
  rcases (gate request).value with _ | (_ | _) <;> rfl

theorem withinAdmitted (service : Service)
    (admitted : ∀ gate ∈ gates, (gate request).value = .ok true) :
    (within gates service request).value = (service request).value := by
  induction gates with
  | nil => rfl
  | cons gate rest ih =>
    have first := admitted gate List.mem_cons_self
    have later := ih fun gate mem => admitted gate (List.mem_cons_of_mem _ mem)
    rw [withinCons, first]
    exact later

theorem withinRefused (service : Service)
    (refused : ¬ ∀ gate ∈ gates, (gate request).value = .ok true) :
    (within gates service request).value = .ok (.bare .forbidden) ∨
      (within gates service request).value = .ok (.bare .internalError) := by
  induction gates with
  | nil => exact absurd nofun refused
  | cons gate rest ih =>
    rw [withinCons]
    cases verdict : (gate request).value with
    | error fault => exact .inr rfl
    | ok admits =>
      cases admits with
      | false => exact .inl rfl
      | true =>
        refine ih fun admitted => refused fun other mem => ?_
        rcases List.mem_cons.mp mem with rfl | mem
        · exact verdict
        · exact admitted other mem

theorem undatableFails {fault : DateFault} (somewhere : documentPath request.uri ≠ "")
    (undatable : repository.Undatable (documentPath request.uri) fault) :
    (files repository request).value = .error fault := by
  simp only [files, if_neg somewhere]
  cases undatable with
  | early present open' readable modified before =>
    simp only [present, fileAnswer, open', readable, modified, if_true, Response.document, Date.write,
      if_pos before]
    rfl
  | late present open' readable modified after =>
    have since : ¬ _ < (0 : Int) := Int.not_lt.mpr (Int.le_trans (by decide) after)
    simp only [present, fileAnswer, open', readable, modified, if_true, Response.document, Date.write,
      if_neg since, if_pos after]
    rfl

theorem documentServed (repository : Repository) (somewhere : documentPath request.uri ≠ "") :
    (∃ response, Served repository (documentPath request.uri) response ∧
        (files repository request).value = .ok response) ∨
      ∃ fault, repository.Undatable (documentPath request.uri) fault := by
  simp only [files, if_neg somewhere]
  cases present : repository (documentPath request.uri) with
  | none => exact .inl ⟨_, .absent present, rfl⟩
  | some file =>
    simp only [fileAnswer]
    cases open' : file.worldReadable with
    | false => exact .inl ⟨_, .closed present open', rfl⟩
    | true =>
      cases readable : file.contents with
      | error failure => exact .inl ⟨_, .unreadable present open' readable, rfl⟩
      | ok contents =>
        cases modified : file.modified with
        | error failure => exact .inl ⟨_, .undated present open' readable modified, rfl⟩
        | ok moment =>
          by_cases before : moment < 0
          · exact .inr ⟨_, .early present open' readable modified before⟩
          · by_cases after : Date.limit ≤ moment
            · exact .inr ⟨_, .late present open' readable modified after⟩
            · refine .inl ⟨_, .document present open' readable modified, ?_⟩
              simp only [if_true, Response.document, Date.write, if_neg before, if_neg after]
              rfl

theorem servedStatus {response : Response} (served : Served repository path response) :
    response.status.code ∈ [200, 403, 404, 500] := by
  cases served with
  | absent _ => decide
  | closed _ _ => decide
  | unreadable _ _ _ => decide
  | undated _ _ _ _ => decide
  | document _ _ _ _ => exact List.mem_cons_self

theorem abandonsFails {fault : DateFault} (abandons : Abandons repository gates request fault) :
    (within gates (files repository) request).value = .error fault :=
  (withinAdmitted (files repository) abandons.admitted).trans
    (undatableFails abandons.somewhere abandons.undatable)

theorem answersUnlessAbandons (repository : Repository) (gates : List Gate) (request : Request) :
    (∃ response, (within gates (files repository) request).value = .ok response ∧
        response.status.code ∈ [200, 403, 404, 500]) ∨
      ∃ fault, Abandons repository gates request fault := by
  by_cases admitted : ∀ gate ∈ gates, (gate request).value = .ok true
  · rw [withinAdmitted (files repository) admitted]
    by_cases nowhere : documentPath request.uri = ""
    · refine .inl ⟨.bare .notFound, ?_, by decide⟩
      simp only [files, if_pos nowhere]
    · rcases documentServed repository nowhere with
        ⟨response, served, answered⟩ | ⟨fault, undatable⟩
      · exact .inl ⟨response, answered, servedStatus served⟩
      · exact .inr ⟨fault, admitted, nowhere, undatable⟩
  · rcases withinRefused (files repository) admitted with forbidden | failed
    · exact .inl ⟨_, forbidden, by decide⟩
    · exact .inl ⟨_, failed, by decide⟩

theorem failsAbandons {fault : DateFault}
    (failed : (within gates (files repository) request).value = .error fault) :
    Abandons repository gates request fault := by
  rcases answersUnlessAbandons repository gates request with ⟨response, answered, _⟩ | ⟨other, abandons⟩
  · cases failed.symm.trans answered
  · cases failed.symm.trans (abandonsFails abandons)
    exact abandons

end Service

section Reach

variable {context : Context} {breaks : List Nat} {stream written rest after : Bytes}
  {events : List Event} {request : Request}

theorem reachedFurther {response : Response}
    (reached : Reached context breaks stream events written rest)
    (complete : Message.readAt context.limits.frame context.remote breaks rest =
      .complete request after)
    (addressed : request.isAddressed) (alive : request.keepsAlive)
    (answered : (context.service request).value = .ok response) :
    Reached context breaks stream
      (events ++ .called request :: (context.service request).trace.map .asked)
      (written ++ response.wire) after := by
  induction reached with
  | here stream =>
    have there := Reached.beyond complete addressed alive answered (.here after)
    rwa [List.append_nil, List.append_nil] at there
  | beyond complete' addressed' alive' answered' later ih =>
    rw [List.append_assoc, List.append_assoc]
    exact .beyond complete' addressed' alive' answered' (ih complete)

theorem abandonedTells {fault : DateFault}
    (complete : Message.readAt context.limits.frame context.remote breaks rest =
      .complete request after)
    (addressed : request.isAddressed) (failed : (context.service request).value = .error fault) :
    decodeAt context breaks rest =
      ⟨.called request :: (context.service request).trace.map .asked, [], .aborted (.date fault)⟩ := by
  rw [decodeAtTranscript, complete, Message.transcript]
  simp only [exchange, if_pos addressed, failed]

theorem partingTells {response : Response}
    (complete : Message.readAt context.limits.frame context.remote breaks rest =
      .complete request after)
    (addressed : request.isAddressed) (parts : ¬ request.keepsAlive)
    (answered : (context.service request).value = .ok response) :
    decodeAt context breaks rest =
      ⟨.called request :: (context.service request).trace.map .asked, response.wire, .stopped⟩ := by
  rw [decodeAtTranscript, complete, Message.transcript]
  simp only [exchange, if_pos addressed, answered, if_neg parts]

end Reach

namespace Session

theorem abortedFails (context : Context) (moves : List Move) {cause : Abort}
    (aborted : (finish context { pipe := {} } (serving moves)).2.next = .aborted cause) :
    ∃ request fault, .called request ∈ (finish context { pipe := {} } (serving moves)).1 ∧
      (context.service request).value = .error fault ∧ cause = .date fault := by
  obtain ⟨n, followed, _⟩ := finishFollows context { pipe := {} } (serving moves)
  have joined : serving moves ++ List.replicate n (.move .resume) =
      serving (moves ++ List.replicate n .resume) := by
    simp only [serving, List.map_append, List.map_replicate, List.cons_append]
  rw [followed, joined] at aborted ⊢
  obtain ⟨replies, accounts⟩ := servedAccounts context (moves ++ List.replicate n .resume)
  have outgoing := accounts.outgoing
  rw [aborted] at outgoing
  generalize (follow context _ _).1 = events at outgoing ⊢
  cases outgoing with
  | @aborted request fault failed =>
    refine ⟨request, fault, ?_, failed, rfl⟩
    rw [shownMore]
    exact List.mem_append_right _ List.mem_cons_self

theorem abortedEnding {next : Next} {cause : Abort} (ending : next.ending = .aborted cause) :
    next = .aborted cause := by
  cases next with
  | ended => cases ending
  | waits pending => cases ending
  | aborted other =>
    cases ending
    rfl

/-- Every request that is called is answered with 200, 403, 404 or 500, and the connection goes on
behind the answer, unless it is to be closed. But a document whose time has no written form, once it
is come to, is not answered: nothing is written for its request and the connection is aborted. There
is no other reason to abort one. -/
theorem answeredUnlessUndatable (limits : Limits) (remote : Address) (repository : Repository)
    (gates : List Gate) (moves : List Move) (orderly : ClosesLast (serving moves)) :
    let context : Context := ⟨limits, remote, .within gates (.files repository)⟩
    let stream := arrivals (serving moves)
    let breaks := servedBreaks context moves
    let served := finish context { pipe := {} } (serving moves)
    (∀ events written rest request after, Reached context breaks stream events written rest →
      Message.readAt limits.frame remote breaks rest = .complete request after →
      request.isAddressed →
        let shown := events ++ .called request :: (context.service request).trace.map .asked
        (∀ fault, Service.Abandons repository gates request fault → served.1 = shown ∧
          served.2.pipe.written = written ∧ served.2.next = .aborted (.date fault)) ∧
        ((¬ ∃ fault, Service.Abandons repository gates request fault) → ∃ response,
          (context.service request).value = .ok response ∧
            response.status.code ∈ [200, 403, 404, 500] ∧
            shown <+: served.1 ∧ written ++ response.wire <+: served.2.pipe.written ∧
            (request.keepsAlive →
              Reached context breaks stream shown (written ++ response.wire) after) ∧
            (¬ request.keepsAlive → served.1 = shown ∧
              served.2.pipe.written = written ++ response.wire ∧
              served.2.next.ending = .stopped))) ∧
      ∀ cause, served.2.next = .aborted cause → ∃ request fault, .called request ∈ served.1 ∧
        Service.Abandons repository gates request fault ∧ cause = .date fault := by
  intro context stream breaks served
  refine ⟨fun events written rest request after reached complete addressed => ?_,
    fun cause aborted => ?_⟩
  · refine ⟨fun fault abandons => ?_, fun answers => ?_⟩
    · have failed := Service.abandonsFails abandons
      obtain ⟨shown, output, ending⟩ :=
        servedThere context moves orderly reached (abandonedTells complete addressed failed)
      exact ⟨shown, output.trans (List.append_nil _), abortedEnding (ending.resolve_left nofun)⟩
    · rcases Service.answersUnlessAbandons repository gates request with
        ⟨response, answered, status⟩ | abandons
      · refine ⟨response, answered, status, ?_⟩
        by_cases alive : request.keepsAlive
        · have further : Reached context breaks stream _ _ after :=
            reachedFurther reached complete addressed alive answered
          obtain ⟨shown, output, _⟩ := servedThere context moves orderly further rfl
          exact ⟨⟨_, shown.symm⟩, ⟨_, output.symm⟩, fun _ => further, fun parts => absurd alive parts⟩
        · obtain ⟨shown, output, ending⟩ :=
            servedThere context moves orderly reached (partingTells complete addressed alive answered)
          refine ⟨⟨[], (List.append_nil _).trans shown.symm⟩,
            ⟨[], (List.append_nil _).trans output.symm⟩, fun parts => absurd parts alive, fun _ => ?_⟩
          exact ⟨shown, output, ending.resolve_left nofun⟩
      · exact absurd abandons answers
  · obtain ⟨request, fault, called, failed, same⟩ := abortedFails context moves aborted
    exact ⟨request, fault, called, Service.failsAbandons failed, same⟩

theorem answeredUnlessUndatableBehindUnreadable :
    let unreadable : File := ⟨true, .error .isADirectory, .ok 0⟩
    let late : File := ⟨true, .ok [], .ok Date.limit⟩
    let repository : Repository := .ofFiles [("/a", unreadable), ("/b", late)]
    let gates : List Gate := [.fixed (.ok true)]
    let context : Context := ⟨{}, .ofOctets 127 0 0 1, .within gates (.files repository)⟩
    let moves := [.arrive (Bytes.ofText "GET /a HTTP/1.0\r\n\r\nGET /b HTTP/1.0\r\n\r\n")]
    let first : Request := ⟨.get, "/a", "HTTP/1.0", [], [], context.remote⟩
    let second : Request := ⟨.get, "/b", "HTTP/1.0", [], [], context.remote⟩
    let served := finish context { pipe := {} } (serving moves)
    ClosesLast (serving moves) ∧ Service.Abandons repository gates second .pastLastYear ∧
      served.1 = [.called first, .asked (.lookup "/a"), .called second, .asked (.lookup "/b")] ∧
      served.2.pipe.written = (Response.bare .internalError).wire ∧
      served.2.next = .aborted (.date .pastLastYear) := by
  intro unreadable late repository gates context moves first second served
  have opened : ∀ gate ∈ gates, (gate second).value = .ok true := by
    intro gate mem
    obtain rfl := List.mem_singleton.mp mem
    rfl
  have path : Service.documentPath second.uri = "/b" := by decide +kernel
  have abandons : Service.Abandons repository gates second .pastLastYear := by
    refine ⟨opened, path ▸ by decide, path ▸ ?_⟩
    have present : repository "/b" = some late := rfl
    exact .late present rfl rfl rfl (Int.le_refl _)
  have answered : context.service first = ⟨[.lookup "/a"], .ok (.bare .internalError)⟩ := by
    decide +kernel
  have failed : context.service second = ⟨[.lookup "/b"], .error .pastLastYear⟩ := by
    decide +kernel
  have complete : Message.readAt context.limits.frame context.remote (servedBreaks context moves)
      (arrivals (serving moves)) =
        .complete first (Bytes.ofText "GET /b HTTP/1.0\r\n\r\n") := by decide +kernel
  have complete' : Message.readAt context.limits.frame context.remote (servedBreaks context moves)
      (Bytes.ofText "GET /b HTTP/1.0\r\n\r\n") = .complete second [] := by decide +kernel
  have reached := reachedFurther (.here _) complete rfl rfl (congrArg Traced.value answered)
  obtain ⟨goes, _⟩ := answeredUnlessUndatable {} context.remote repository gates moves trivial
  obtain ⟨unanswered, _⟩ := goes _ _ _ second [] reached complete' rfl
  obtain ⟨events, written, next⟩ := unanswered _ abandons
  rw [answered, failed] at events
  exact ⟨trivial, abandons, events, written, next⟩

theorem unansweredBeforeEpoch :
    let document : File := ⟨true, .ok [120], .ok (-1)⟩
    let repository : Repository := .ofFiles [("/a", document)]
    let context : Context := ⟨{}, .ofOctets 127 0 0 1, .files repository⟩
    let request : Request := ⟨.get, "/a", "HTTP/1.1", [⟨"Host", "x"⟩], [], context.remote⟩
    let moves := [.arrive (Bytes.ofText "GET /a HTTP/1.1\r\nHost: x\r\n\r\n")]
    let served := finish context { pipe := {} } (serving moves)
    served.1 = [.called request, .asked (.lookup "/a")] ∧ served.2.pipe.written = [] ∧
      (∀ response, (context.service request).value ≠ .ok response) ∧
      served.2.next = .aborted (.date (.beforeEpoch 1)) := by
  intro document repository context request moves served
  have answer : context.service request = ⟨[.lookup "/a"], .error (.beforeEpoch 1)⟩ := by
    decide +kernel
  have complete : Message.readAt context.limits.frame context.remote (servedBreaks context moves)
      (arrivals (serving moves)) = .complete request [] := by decide +kernel
  have failed : decodeAt context (servedBreaks context moves) (arrivals (serving moves)) = _ :=
    abandonedTells complete rfl (congrArg Traced.value answer)
  obtain ⟨shown, output, ending⟩ := servedThere context moves trivial (.here _) failed
  rw [answer] at shown
  refine ⟨shown, output, fun response answered => ?_, abortedEnding (ending.resolve_left nofun)⟩
  rw [answer] at answered
  cases answered

end Session

end FileServer
