import FileServer.Proofs.Conversation.Oversize
import FileServer.Proofs.Message.Grammar

/-! What the first line of a request has to be. Of three parts the last one is all that is behind the
second space, and a host has to be named only where that is `HTTP/1.1` and nothing more. -/
namespace FileServer

namespace Head

structure Begins (head : Bytes) (method uri version : String) (others : List String) : Prop where
  lines : Lines head (method ++ " " ++ uri ++ " " ++ version) others
  token : Method.isToken method = true
  rooted : uri.toList.head? = some '/'
  spaceless : ' ' ∉ uri.toList

def namesHost (h : Header) : Prop := Text.sameIgnoringCase h.name "Host" = true

variable {head : Bytes} {method uri version : String} {others : List String}

theorem readBegins {r : Request} (read : Head.read head = .ok r) :
    Begins head r.method.text r.uri r.version (r.headers.map Header.line) := by
  obtain ⟨plain, _, _, same⟩ := readOk read
  exact ⟨⟨same, fun line mem => (Request.linesOne plain line mem).1⟩,
    Method.readToken.mpr ⟨_, plain.method⟩, plain.rooted, plain.spaceless⟩

theorem beginsRead {r : Request} (begins : Begins head method uri version others)
    (read : Head.read head = .ok r) : r.version = version ∧ others = r.headers.map Header.line := by
  obtain ⟨m, named⟩ := Method.readToken.mp begins.token
  have alone := (Method.readPlain (Method.readText named ▸ named)).1
  rw [Method.readText named] at alone
  rw [linesRead begins.lines, readLines, initialLineRead alone begins.spaceless, named] at read
  simp only [if_pos begins.rooted] at read
  rcases headersRead others with ⟨headers, rfl, _, later⟩ | ⟨_, later⟩
  · rw [later] at read
    cases read
    exact ⟨rfl, rfl⟩
  · rw [later] at read
    cases read

end Head

theorem Request.addressed (r : Request) :
    r.isAddressed ↔ (r.version = "HTTP/1.1" → ∃ h ∈ r.headers, Head.namesHost h) := by
  have found : (r.header? "Host").isSome ↔ ∃ h ∈ r.headers, Head.namesHost h := by
    rw [header?, Header.find?, Option.isSome_map, List.find?_isSome]
    rfl
  rw [isAddressed, Bool.or_eq_true, found, bne_iff_ne, imp_iff_not_or]

namespace Message

variable {limit : Nat} {remote : Address} {stream after : Bytes} {request : Request}

theorem readHead (complete : read limit remote stream = .complete request after) :
    ∃ head more parsed body, Sequence.cut? Bytes.blankLine stream = some (head, more) ∧
      Head.read head = .ok parsed ∧ request = (parsed.sentBy remote).withBody body := by
  unfold read at complete
  split at complete
  · split at complete <;> cases complete
  · next head more found =>
    split at complete
    · cases complete
    · next parsed here =>
      refine ⟨head, more, parsed, ?_⟩
      unfold announced at complete
      split at complete
      · cases complete
        exact ⟨_, found, here, rfl⟩
      · cases complete
      · unfold body at complete
        split at complete
        · cases complete
        · split at complete
          · cases complete
          · cases complete
            exact ⟨_, found, here, rfl⟩

end Message

section Lines

variable {context : Context} {breaks : List Nat} {rest head more : Bytes}
  {method uri : String} {others : List String}

theorem awaitsTells (awaits :
    Message.readAt context.limits.frame context.remote breaks rest = .incomplete) :
    decodeAt context breaks rest = .waiting := by
  rw [decodeAtTranscript, awaits]
  rfl

theorem foreignRefused (found : Sequence.cut? Bytes.blankLine rest = some (head, more))
    (foreign : ¬ ∃ method uri version others, Head.Begins head method uri version others) :
    decodeAt context breaks rest = .refusal := by
  rw [decodeAtTranscript, Message.readAt]
  split
  · rfl
  · simp only [Message.read, found]
    cases read : Head.read head with
    | error fault => rfl
    | ok request => exact absurd ⟨_, _, _, _, Head.readBegins read⟩ foreign

theorem hostlessRefused (found : Sequence.cut? Bytes.blankLine rest = some (head, more))
    (begins : Head.Begins head method uri "HTTP/1.1" others)
    (hostless : ∀ h : Header, h.line ∈ others → ¬ Head.namesHost h) :
    decodeAt context breaks rest =
      if Message.readAt context.limits.frame context.remote breaks rest = .incomplete then .waiting
      else .refusal := by
  rw [decodeAtTranscript]
  cases complete : Message.readAt context.limits.frame context.remote breaks rest with
  | incomplete => rfl
  | refused fault => rfl
  | complete request after =>
    obtain ⟨_, complete⟩ := Message.readAtComplete complete
    obtain ⟨_, _, parsed, body, found', read, rfl⟩ := Message.readHead complete
    cases found.symm.trans found'
    obtain ⟨version, rfl⟩ := Head.beginsRead begins read
    have unaddressed : ¬ ((parsed.sentBy context.remote).withBody body).isAddressed := by
      rw [Request.addressed]
      intro addressed
      obtain ⟨h, mem, named⟩ := addressed version
      exact hostless h (List.mem_map_of_mem mem) named
    simp only [Message.transcript, exchange, if_neg unaddressed, reduceCtorEq, if_false]

end Lines

namespace Session

/-- A request that is called begins with a method, a target without a space and a version, which is
whatever comes behind; and if that is exactly `HTTP/1.1`, a header names a host. A head that is reached
and begins otherwise is answered with a refusal that ends the connection. So is one that begins like
this with exactly `HTTP/1.1` and names no host, but not before the body has come that it announces. -/
theorem calledByInitialLine (context : Context) (moves : List Move)
    (orderly : ClosesLast (serving moves)) :
    let limit := context.limits.frame
    let stream := arrivals (serving moves)
    let breaks := servedBreaks context moves
    let served := finish context { pipe := {} } (serving moves)
    (∀ request, .called request ∈ served.1 →
      (∃ events written rest head more, Reached context breaks stream events written rest ∧
        Sequence.cut? Bytes.blankLine rest = some (head, more) ∧
        Head.Begins head request.method.text request.uri request.version
          (request.headers.map Header.line)) ∧
        (request.version = "HTTP/1.1" → ∃ h ∈ request.headers, Head.namesHost h)) ∧
      ∀ events written rest head more, Reached context breaks stream events written rest →
        Sequence.cut? Bytes.blankLine rest = some (head, more) →
        let refused := served.1 = events ∧
          served.2.pipe.written = written ++ (Response.bare .badRequest).wire ∧
          served.2.next.ending = .stopped
        ((¬ ∃ method uri version others, Head.Begins head method uri version others) → refused) ∧
          ∀ method uri others, Head.Begins head method uri "HTTP/1.1" others →
            (∀ h : Header, h.line ∈ others → ¬ Head.namesHost h) →
              (Message.readAt limit context.remote breaks rest = .incomplete →
                served.1 = events ∧ served.2.pipe.written = written) ∧
                (Message.readAt limit context.remote breaks rest ≠ .incomplete → refused) := by
  intro limit stream breaks served
  refine ⟨fun request called => ?_, fun events written rest head more reached found => ?_⟩
  · rw [(servedThere context moves orderly (.here _) rfl).1, List.nil_append] at called
    obtain ⟨addressed, events, written, rest, after, reached, complete⟩ := calledAddressed called
    obtain ⟨_, complete⟩ := Message.readAtComplete complete
    obtain ⟨head, more, parsed, body, found, read, rfl⟩ := Message.readHead complete
    have begins := Head.readBegins read
    exact ⟨⟨events, written, rest, head, more, reached, found, begins⟩,
      (Request.addressed _).mp addressed⟩
  · have ended (refused : decodeAt context breaks rest = .refusal) : served.1 = events ∧
        served.2.pipe.written = written ++ (Response.bare .badRequest).wire ∧
        served.2.next.ending = .stopped := by
      obtain ⟨shown, output, ending⟩ := servedThere context moves orderly reached refused
      exact ⟨shown.trans (List.append_nil _), output, ending.resolve_left nofun⟩
    refine ⟨fun foreign => ended (foreignRefused found foreign),
      fun method uri others begins hostless => ?_⟩
    have refused : decodeAt context breaks rest = _ := hostlessRefused found begins hostless
    refine ⟨fun awaits => ?_, fun arrived => ended (refused.trans (if_neg arrived))⟩
    obtain ⟨shown, output, _⟩ := servedThere context moves orderly reached (refused.trans (if_pos awaits))
    exact ⟨shown.trans (List.append_nil _), output.trans (List.append_nil _)⟩

theorem calledByInitialLineBeforeHostless :
    let context : Context := ⟨{}, .ofOctets 127 0 0 1, .fixed (.bare .ok)⟩
    let hostless := Bytes.ofText "GET /b HTTP/1.1\r\n\r\n"
    let moves := [.arrive (Bytes.ofText "GET /a HTTP/1.1\r\nHost: x\r\n\r\n" ++ hostless)]
    let first : Request := ⟨.get, "/a", "HTTP/1.1", [⟨"Host", "x"⟩], [], context.remote⟩
    let served := finish context { pipe := {} } (serving moves)
    ClosesLast (serving moves) ∧ served.1 = [.called first] ∧
      served.2.pipe.written = (Response.bare .ok).wire ++ (Response.bare .badRequest).wire ∧
      served.2.next.ending = .stopped := by
  intro context hostless moves first served
  have complete : Message.readAt context.limits.frame context.remote (servedBreaks context moves)
      (arrivals (serving moves)) = .complete first hostless := by decide +kernel
  have reached : Reached context (servedBreaks context moves) (arrivals (serving moves))
      [.called first] ((Response.bare .ok).wire ++ []) hostless :=
    .beyond complete rfl rfl rfl (.here hostless)
  have found : Sequence.cut? Bytes.blankLine hostless = some (Bytes.ofText "GET /b HTTP/1.1", []) := by
    decide +kernel
  have read : Head.read (Bytes.ofText "GET /b HTTP/1.1") =
      .ok ⟨.get, "/b", "HTTP/1.1", [], [], .unspecified⟩ := by decide +kernel
  have arrived : Message.readAt context.limits.frame context.remote (servedBreaks context moves)
      hostless ≠ .incomplete := by decide +kernel
  have begins : Head.Begins (Bytes.ofText "GET /b HTTP/1.1") "GET" "/b" "HTTP/1.1" [] :=
    Head.readBegins read
  obtain ⟨_, refused⟩ := calledByInitialLine context moves trivial
  obtain ⟨_, unnamed⟩ := refused _ _ hostless _ _ reached found
  obtain ⟨_, here⟩ := unnamed "GET" "/b" [] begins nofun
  have there := here arrived
  rw [List.append_nil] at there
  exact ⟨trivial, there⟩

theorem trailingWordCalled :
    let context : Context := ⟨{}, .ofOctets 127 0 0 1, .fixed (.bare .ok)⟩
    let request : Request := ⟨.get, "/a", "HTTP/1.1 trailing", [], [], context.remote⟩
    let moves := [.arrive (Bytes.ofText "GET /a HTTP/1.1 trailing\r\n\r\n")]
    let others := [.arrive (Bytes.ofText "POST /a HTTP/1.1\r\nContent-Length: 5\r\n\r\n")]
    let served := finish context { pipe := {} } (serving moves)
    let other := finish context { pipe := {} } (serving others)
    (Sequence.pieces [' '] request.initialLine.toList).map String.ofList =
        ["GET", "/a", "HTTP/1.1", "trailing"] ∧ request.header? "Host" = none ∧
      served.1 = [.called request] ∧ served.2.pipe.written = (Response.bare .ok).wire ∧
      other.1 = [] ∧ other.2.pipe.written = [] := by
  intro context request moves others served other
  have words : (Sequence.pieces [' '] request.initialLine.toList).map String.ofList =
      ["GET", "/a", "HTTP/1.1", "trailing"] := by decide +kernel
  have complete : Message.readAt context.limits.frame context.remote (servedBreaks context moves)
      (arrivals (serving moves)) = .complete request [] := by decide +kernel
  have nothing : Message.readAt context.limits.frame context.remote (servedBreaks context moves) [] =
      .incomplete := by decide +kernel
  have awaits : Message.readAt context.limits.frame context.remote (servedBreaks context others)
      (arrivals (serving others)) = .incomplete := by decide +kernel
  have reached : Reached context (servedBreaks context moves) (arrivals (serving moves))
      [.called request] ((Response.bare .ok).wire ++ []) [] :=
    .beyond complete rfl rfl rfl (.here [])
  obtain ⟨called, written, _⟩ := servedThere context moves trivial reached (awaitsTells nothing)
  obtain ⟨uncalled, unwritten, _⟩ := servedThere context others trivial (.here _) (awaitsTells awaits)
  rw [List.append_nil] at written
  exact ⟨words, rfl, called, written.trans (List.append_nil _), uncalled, unwritten⟩

end Session

end FileServer
