import FileServer.Proofs.Message.Wire

/-! Where a response ends. The lines of a response that was built end at its first blank line, and the
length they announce is the length of the body behind it; so a stream of responses comes apart in one
way, whatever the bodies hold. -/
namespace FileServer

/-- Responses built from headers that can be told apart, and that leave the length to be said. -/
inductive Response.Built : Response → Prop where
  | of (status : Status) (headers : List Header) (body : Bytes)
      (plain : ∀ h ∈ headers, h.Plain)
      (silent : ∀ h ∈ headers, Text.sameIgnoringCase h.name "Content-Length" = false) :
      Built (build status headers body)

def Response.statusLine (r : Response) : String :=
  r.version ++ " " ++ toString r.status.code ++ " " ++ r.status.reason

def Response.lines (r : Response) : List String := r.statusLine :: r.headers.map Header.line

def Response.head (r : Response) : Bytes := Bytes.crlf.intercalate (r.lines.map Bytes.ofText)

def Returnless (s : String) : Prop := '\r' ∉ s.toList

instance (s : String) : Decidable (Returnless s) := inferInstanceAs (Decidable (¬ _))

theorem Returnless.one {s : String} (returnless : Returnless s) : OneLine s := fun inside =>
  returnless (inside.subset List.mem_cons_self)

theorem returnlessAppend {s t : String} : Returnless (s ++ t) ↔ Returnless s ∧ Returnless t := by
  rw [Returnless, String.toList_append, List.mem_append, not_or]
  exact Iff.rfl

theorem digitsReturnless (n : Nat) : Returnless (toString n) := by
  rw [Returnless, Nat.toString_eq_repr, Nat.toList_repr]
  exact fun mem => absurd (Nat.isDigit_of_mem_toDigits (by decide) (by decide) mem) (by decide)

namespace Date

theorem paddedReturnless (width n : Nat) : Returnless (padded width n) := by
  have zeros : Returnless
      (String.ofList (List.replicate (width - (toString n).length) '0')) := by
    rw [Returnless, String.toList_ofList]
    exact fun mem => absurd (List.eq_of_mem_replicate mem) (by decide)
  exact returnlessAppend.mpr ⟨zeros, digitsReturnless n⟩

theorem nameReturnless {names : List String} (all : ∀ name ∈ names, Returnless name) (n : Nat) :
    Returnless (names.getD n "") := by
  rw [List.getD_eq_getElem?_getD]
  cases found : names[n]? with
  | none => decide
  | some name => exact all name (List.mem_of_getElem? found)

theorem ofSecondsReturnless (seconds : Nat) : Returnless (ofSeconds seconds) := by
  have mark : Returnless ":" ∧ Returnless " " ∧ Returnless ", " ∧ Returnless " GMT" := by decide
  have same (s : String) : toString s = s := rfl
  have time (seconds : Nat) : Returnless (dayTime seconds) := by
    simp only [dayTime, same, returnlessAppend, paddedReturnless, mark, and_self]
  have weekday : ∀ n, Returnless (weekdays.getD n "") := nameReturnless (by decide)
  have month : ∀ n, Returnless (months.getD n "") := nameReturnless (by decide)
  simp only [ofSeconds, same, returnlessAppend, paddedReturnless, time, weekday, month, mark,
    and_self]

theorem writeReturnless {moment : Int} {date : String} (written : write moment = .ok date) :
    Returnless date := by
  unfold write at written
  split at written
  · cases written
  · split at written
    · cases written
    · cases written
      exact ofSecondsReturnless _

end Date

namespace Header

theorem findNone {headers : List Header} {name : String} :
    find? headers name = none ↔ ∀ h ∈ headers, Text.sameIgnoringCase h.name name = false := by
  simp only [find?, Option.map_eq_none_iff, List.find?_eq_none, Bool.not_eq_true]

theorem findSome {headers : List Header} {name : String} :
    (find? headers name).isSome ↔ ∃ h ∈ headers, Text.sameIgnoringCase h.name name = true := by
  simp only [find?, Option.isSome_map, List.find?_isSome]

theorem plainNamed {name value : String} (name' : OneLine name ∧ ¬ [':', ' '] <:+: name.toList)
    (one : OneLine value) : Plain ⟨name, value⟩ :=
  ⟨name'.1, name'.2, one⟩

theorem linesInjective {headers others : List Header} (plain : ∀ h ∈ headers, h.Plain)
    (plain' : ∀ h ∈ others, h.Plain) (same : headers.map line = others.map line) :
    headers = others := by
  have read := Head.readHeadersWritten plain
  have read' := Head.readHeadersWritten plain'
  have chars (hs : List Header) : hs.map (·.line.toList) = (hs.map line).map String.toList := by
    rw [List.map_map]
    rfl
  rw [chars] at read read'
  rw [← same] at read'
  exact Except.ok.inj (read.symm.trans read')

end Header

theorem Bytes.linesInjective {lines others : List String} (one : ∀ line ∈ lines, OneLine line)
    (one' : ∀ line ∈ others, OneLine line) (some' : lines ≠ []) (some'' : others ≠ [])
    (same : Bytes.crlf.intercalate (lines.map Bytes.ofText) =
      Bytes.crlf.intercalate (others.map Bytes.ofText)) : lines = others := by
  have pieces {lines : List String} (one : ∀ line ∈ lines, OneLine line) (some' : lines ≠ []) :
      Sequence.pieces ['\r', '\n'] (['\r', '\n'].intercalate (lines.map String.toList)) =
        lines.map String.toList := by
    refine Sequence.piecesJoined (mt List.map_eq_nil_iff.mp some') fun line mem => ?_
    obtain ⟨s, there, rfl⟩ := List.mem_map.mp mem
    exact Sequence.pairBeforeFirst (by decide) (one s there)
  have text := congrArg Bytes.text? same
  rw [Bytes.ofTextJoined, Bytes.ofTextJoined, Bytes.textOfText, Bytes.textOfText] at text
  have joined := String.ofList_inj.mp (Option.some.inj text)
  have chars := pieces one some'
  rw [joined, pieces one' some''] at chars
  exact (List.map_injective_iff.mpr fun _ _ => String.toList_inj.mp) chars.symm

namespace Response

variable {r s : Response} {status : Status} {headers : List Header} {body : Bytes}

theorem withServerSublist (headers : List Header) : headers.Sublist (withServer headers) := by
  unfold withServer
  split
  · exact List.Sublist.refl _
  · exact List.sublist_cons_self _ _

theorem withLengthSublist (length : Nat) (headers : List Header) :
    headers.Sublist (withLength length headers) := by
  unfold withLength
  split
  · exact List.Sublist.refl _
  · have later := List.Sublist.append_left
      (List.sublist_cons_self ⟨"Content-Length", toString length⟩ (headers.drop 1)) (headers.take 1)
    rwa [List.take_append_drop] at later

theorem withServerMem {h : Header} (mem : h ∈ withServer headers) :
    h ∈ headers ∨ h = ⟨"Server", serverName⟩ := by
  unfold withServer at mem
  split at mem
  · exact .inl mem
  · exact (List.mem_cons.mp mem).symm

theorem withLengthMem {length : Nat} {h : Header} (mem : h ∈ withLength length headers) :
    h ∈ headers ∨ h = ⟨"Content-Length", toString length⟩ := by
  unfold withLength at mem
  split at mem
  · exact .inl mem
  · rcases List.mem_append.mp mem with front | later
    · exact .inl (List.mem_of_mem_take front)
    · rcases List.mem_cons.mp later with same | back
      · exact .inr same
      · exact .inl (List.mem_of_mem_drop back)

theorem withServerServes (headers : List Header) :
    (Header.find? (withServer headers) "Server").isSome := by
  unfold withServer
  split
  · next found => exact Option.isSome_of_eq_some found
  · exact Header.findSome.mpr ⟨_, List.mem_cons_self, by decide +kernel⟩

theorem withLengthSays (length : Nat) (headers : List Header) :
    (Header.find? (withLength length headers) "Content-Length").isSome := by
  unfold withLength
  split
  · next found => exact Option.isSome_of_eq_some found
  · have itself : Text.sameIgnoringCase "Content-Length" "Content-Length" = true := by decide +kernel
    exact Header.findSome.mpr ⟨_, List.mem_append_right _ List.mem_cons_self, itself⟩

theorem sublistFinds {some' more : List Header} {name : String} (sublist : some'.Sublist more)
    (found : (Header.find? some' name).isSome) : (Header.find? more name).isSome := by
  obtain ⟨h, mem, same⟩ := Header.findSome.mp found
  exact Header.findSome.mpr ⟨h, sublist.mem mem, same⟩

theorem buildKeeps (status : Status) (headers : List Header) (body : Bytes) :
    (build status headers body).status = status ∧ (build status headers body).body = body :=
  ⟨rfl, rfl⟩

theorem buildFiltered (status : Status) (headers : List Header) (body : Bytes)
    (foreign : Header → Bool) (server : foreign ⟨"Server", serverName⟩ = false)
    (length : foreign ⟨"Content-Length", toString body.length⟩ = false) :
    (build status headers body).headers.filter foreign = headers.filter foreign := by
  have served : (withServer headers).filter foreign = headers.filter foreign := by
    unfold withServer
    split
    · rfl
    · rw [List.filter_cons, server, if_neg Bool.false_ne_true]
  rw [← served]
  simp only [build]
  unfold withLength
  split
  · rfl
  · rw [List.filter_append, List.filter_cons, length, if_neg Bool.false_ne_true,
      ← List.filter_append, List.take_append_drop]

theorem buildSublist (status : Status) (headers : List Header) (body : Bytes) :
    headers.Sublist (build status headers body).headers :=
  (withServerSublist headers).trans (withLengthSublist _ _)

theorem buildServes (status : Status) (headers : List Header) (body : Bytes) :
    ((build status headers body).header? "Server").isSome :=
  sublistFinds (withLengthSublist _ _) (withServerServes headers)

theorem buildSays (status : Status) (headers : List Header) (body : Bytes) :
    ((build status headers body).header? "Content-Length").isSome :=
  withLengthSays _ _

theorem buildAgain (status : Status) (headers : List Header) (body : Bytes) :
    build status (build status headers body).headers body = build status headers body := by
  have serves := buildServes status headers body
  have announces := buildSays status headers body
  have server : withServer (build status headers body).headers =
      (build status headers body).headers := by
    obtain ⟨value, found⟩ := Option.isSome_iff_exists.mp serves
    rw [header?] at found
    simp only [withServer, found]
  have length : withLength body.length (build status headers body).headers =
      (build status headers body).headers := by
    obtain ⟨value, found⟩ := Option.isSome_iff_exists.mp announces
    rw [header?] at found
    simp only [withLength, found]
  rw [build, server, length]
  rfl

theorem buildLength (status : Status) (body : Bytes)
    (silent : ∀ h ∈ headers, Text.sameIgnoringCase h.name "Content-Length" = false) :
    (build status headers body).header? "Content-Length" = some (toString body.length) := by
  have still : ∀ h ∈ withServer headers, Text.sameIgnoringCase h.name "Content-Length" = false := by
    intro h mem
    rcases withServerMem mem with mem | rfl
    · exact silent h mem
    · decide +kernel
  have before : ((withServer headers).take 1).find?
      (fun h => Text.sameIgnoringCase h.name "Content-Length") = none := by
    refine List.find?_eq_none.mpr fun h mem => ?_
    rw [still h (List.mem_of_mem_take mem)]
    exact Bool.false_ne_true
  have itself : Text.sameIgnoringCase "Content-Length" "Content-Length" = true := by decide +kernel
  simp only [header?, build, withLength, Header.findNone.mpr still]
  simp only [Header.find?, List.find?_append, before, Option.none_or, List.find?_cons, itself,
    Option.map_some]

theorem builtPlain (built : r.Built) : ∀ h ∈ r.headers, h.Plain := by
  cases built with
  | of status headers body plain silent =>
    intro h mem
    rcases withLengthMem mem with mem | rfl
    · rcases withServerMem mem with mem | rfl
      · exact plain h mem
      · exact Header.plainNamed (by decide +kernel) (by decide +kernel)
    · exact Header.plainNamed (by decide +kernel) (digitsReturnless _).one

theorem builtLength (built : r.Built) :
    r.header? "Content-Length" = some (toString r.body.length) := by
  cases built with
  | of status headers body plain silent => exact buildLength status body silent

theorem builtVersion (built : r.Built) : r.version = "HTTP/1.1" := by
  cases built
  rfl

theorem wireHead (r : Response) : r.wire = r.head ++ Bytes.blankLine ++ r.body := by
  rw [head, lines, ← Header.headed]
  rfl

theorem statusLineReturnless (version : Returnless r.version) : Returnless r.statusLine := by
  have reason : ∀ status : Status, Returnless status.reason := by
    intro status
    cases status <;> decide
  have space : Returnless " " := by decide
  simp only [statusLine, returnlessAppend, version, digitsReturnless, reason, space, and_self]

theorem linesOne (built : r.Built) : ∀ line ∈ r.lines, OneLine line ∧ line ≠ "" := by
  intro line mem
  rcases List.mem_cons.mp mem with rfl | mem
  · refine ⟨(statusLineReturnless ?_).one, fun empty => ?_⟩
    · rw [builtVersion built]
      decide
    · have chars := congrArg String.toList empty
      simp [statusLine] at chars
  · obtain ⟨h, there, rfl⟩ := List.mem_map.mp mem
    refine ⟨Header.lineOne (builtPlain built h there), fun empty => ?_⟩
    have chars := congrArg String.toList empty
    simp [Header.lineChars] at chars

theorem cutBuilt (built : r.Built) (more : Bytes) :
    Sequence.cut? Bytes.blankLine (r.wire ++ more) = some (r.head, r.body ++ more) := by
  have free := Bytes.linesFree (List.cons_ne_nil _ _) (linesOne built)
  have cut := Sequence.cutOfAbsent (r.body ++ more) free
  rw [wireHead, List.append_assoc]
  exact Sequence.cutComplete cut

theorem statusLineInjective (built : r.Built) (built' : s.Built)
    (same : r.statusLine = s.statusLine) : r.status = s.status := by
  have apart : ∀ one other : Status, "HTTP/1.1" ++ " " ++ toString one.code ++ " " ++ one.reason =
      "HTTP/1.1" ++ " " ++ toString other.code ++ " " ++ other.reason → one = other := by
    intro one other
    cases one <;> cases other <;> decide +kernel
  rw [statusLine, statusLine, builtVersion built, builtVersion built'] at same
  exact apart _ _ same

theorem headInjective (built : r.Built) (built' : s.Built) (same : r.head = s.head) :
    r.status = s.status ∧ r.headers = s.headers := by
  have lines := Bytes.linesInjective (fun line mem => (linesOne built line mem).1)
    (fun line mem => (linesOne built' line mem).1) (List.cons_ne_nil _ _) (List.cons_ne_nil _ _) same
  obtain ⟨first, rest⟩ := List.cons.inj lines
  exact ⟨statusLineInjective built built' first,
    Header.linesInjective (builtPlain built) (builtPlain built') rest⟩

theorem wireSplits (built : r.Built) (built' : s.Built) {more more' : Bytes}
    (same : r.wire ++ more = s.wire ++ more') : r = s ∧ more = more' := by
  have cut := cutBuilt built more
  rw [same, cutBuilt built' more'] at cut
  obtain ⟨heads, tails⟩ := Prod.mk.inj (Option.some.inj cut)
  obtain ⟨status, headers⟩ := headInjective built built' heads.symm
  -- Equal headers announce equal lengths, and that is where either body ends.
  have announced := builtLength built
  rw [header?, headers, ← header?, builtLength built'] at announced
  have length : s.body.length = r.body.length := by
    have digits := congrArg (fun text => Nat.ofDigitChars 10 text.toList 0) (Option.some.inj announced)
    simpa only [Nat.toString_eq_repr, Nat.toList_repr, Nat.ofDigitChars_ten_toDigits] using digits
  obtain ⟨bodies, rest⟩ := List.append_inj tails length
  have version := (builtVersion built).trans (builtVersion built').symm
  refine ⟨?_, rest.symm⟩
  obtain ⟨v, st, hs, b⟩ := r
  obtain ⟨v', st', hs', b'⟩ := s
  simp only at version status headers bodies
  rw [version, status, headers, bodies]

theorem streamSplits {these those : List Response} (built : ∀ r ∈ these, r.Built)
    (built' : ∀ r ∈ those, r.Built) (same : these.flatMap wire = those.flatMap wire) :
    these = those := by
  induction these generalizing those with
  | nil =>
    cases those with
    | nil => rfl
    | cons s those =>
      have some' := wireSome s
      rw [List.flatMap_nil, List.flatMap_cons] at same
      rw [(List.append_eq_nil_iff.mp same.symm).1] at some'
      exact absurd some' (Nat.lt_irrefl 0)
  | cons r these ih =>
    cases those with
    | nil =>
      have some' := wireSome r
      rw [List.flatMap_nil, List.flatMap_cons] at same
      rw [(List.append_eq_nil_iff.mp same).1] at some'
      exact absurd some' (Nat.lt_irrefl 0)
    | cons s those =>
      rw [List.flatMap_cons, List.flatMap_cons] at same
      obtain ⟨rfl, rest⟩ :=
        wireSplits (built r List.mem_cons_self) (built' s List.mem_cons_self) same
      rw [ih (fun r mem => built r (List.mem_cons_of_mem _ mem))
        (fun r mem => built' r (List.mem_cons_of_mem _ mem)) rest]

theorem bareBuilt (status : Status) : (bare status).Built := .of status [] [] nofun nofun

theorem documentBuilt {contentType : String} {modified : Int} (one : OneLine contentType)
    (answered : document body contentType modified = .ok r) : r.Built := by
  unfold document at answered
  cases written : Date.write modified with
  | error fault =>
    rw [written] at answered
    cases answered
  | ok date =>
    rw [written] at answered
    cases answered
    refine .of .ok _ body (fun h mem => ?_) fun h mem => ?_
    · simp only [List.mem_cons, List.not_mem_nil, or_false] at mem
      rcases mem with rfl | rfl
      · exact Header.plainNamed (by decide +kernel) one
      · exact Header.plainNamed (by decide +kernel) (Date.writeReturnless written).one
    · have type : Text.sameIgnoringCase "Content-Type" "Content-Length" = false := by decide +kernel
      have date : Text.sameIgnoringCase "Last-Modified" "Content-Length" = false := by decide +kernel
      simp only [List.mem_cons, List.not_mem_nil, or_false] at mem
      rcases mem with rfl | rfl
      · exact type
      · exact date

/-- The builder passes on what it is given: a stream of built responses tells the statuses, the bodies
and all headers but the two that may have been added. -/
theorem streamTellsGiven {these those : List (Status × List Header × Bytes)}
    (plain : ∀ given ∈ these ++ those, ∀ h ∈ given.2.1,
      h.Plain ∧ Text.sameIgnoringCase h.name "Content-Length" = false)
    (same : (these.flatMap fun (status, headers, body) => (build status headers body).wire) =
      those.flatMap fun (status, headers, body) => (build status headers body).wire) :
    let told := fun (status, headers, body) =>
      ((status, headers.filter fun h : Header =>
        !Text.sameIgnoringCase h.name "Server" && !Text.sameIgnoringCase h.name "Content-Length",
        body) : Status × List Header × Bytes)
    these.map told = those.map told := by
  intro told
  let built := fun (given : Status × List Header × Bytes) => build given.1 given.2.1 given.2.2
  have each : ∀ given ∈ these ++ those, (built given).Built := fun given mem =>
    .of _ _ _ (fun h there => (plain given mem h there).1) fun h there => (plain given mem h there).2
  have responses : these.map built = those.map built := by
    refine streamSplits ?_ ?_ ?_
    · simp only [List.mem_map, forall_exists_index, and_imp, forall_apply_eq_imp_iff₂]
      exact fun given mem => each given (List.mem_append_left _ mem)
    · simp only [List.mem_map, forall_exists_index, and_imp, forall_apply_eq_imp_iff₂]
      exact fun given mem => each given (List.mem_append_right _ mem)
    · rw [List.flatMap_map, List.flatMap_map]
      exact same
  have server : Text.sameIgnoringCase "Server" "Server" = true := by decide +kernel
  have length : Text.sameIgnoringCase "Content-Length" "Content-Length" = true := by decide +kernel
  have read (given : Status × List Header × Bytes) :
      told given = told ((built given).status, (built given).headers, (built given).body) := by
    obtain ⟨status, headers, body⟩ := given
    obtain ⟨status', body'⟩ := buildKeeps status headers body
    simp only [told, built, status', body']
    rw [buildFiltered status headers body _ (by simp [server]) (by simp [length])]
  have same' := congrArg (List.map fun r : Response => told (r.status, r.headers, r.body)) responses
  rw [List.map_map, List.map_map] at same'
  simp only [List.map_congr_left fun given _ => read given]
  exact same'

/-- A stream of built responses is the stream of no other built responses. A response that is built
has a server and says how long its body is, keeps the headers it was built from in their order, and
is not changed by being built again; and what the service answers with are such responses. -/
theorem streamTellsResponses :
    (∀ these those : List Response, (∀ r ∈ these, r.Built) → (∀ r ∈ those, r.Built) →
      these.flatMap wire = those.flatMap wire → these = those) ∧
    (∀ status headers body, let r := build status headers body
      (r.header? "Server").isSome ∧
      ((∀ h ∈ headers, Text.sameIgnoringCase h.name "Content-Length" = false) →
        r.header? "Content-Length" = some (toString r.body.length)) ∧
      headers.Sublist r.headers ∧
      build r.status r.headers r.body = r) ∧
    (∀ status, (bare status).Built) ∧
    (∀ body contentType modified r, OneLine contentType →
      document body contentType modified = .ok r → r.Built) := by
  refine ⟨fun _ _ => streamSplits, fun status headers body => ?_, bareBuilt,
    fun _ _ _ _ => documentBuilt⟩
  exact ⟨buildServes status headers body, buildLength status body, buildSublist status headers body,
    buildAgain status headers body⟩

theorem streamTellsResponsesInBodies :
    let inner := bare .notFound
    let one := [build .ok [⟨"server", "x"⟩] inner.wire]
    let other := [build .ok [⟨"server", "x"⟩] [], inner]
    (∀ r ∈ one ++ other, r.Built) ∧ one.flatMap wire ≠ other.flatMap wire := by
  intro inner one other
  have plain : ∀ h ∈ [(⟨"server", "x"⟩ : Header)], h.Plain ∧
      Text.sameIgnoringCase h.name "Content-Length" = false := by
    intro h mem
    obtain rfl := List.mem_singleton.mp mem
    exact ⟨Header.plainNamed (by decide +kernel) (by decide +kernel), by decide +kernel⟩
  have built (body : Bytes) : (build .ok [⟨"server", "x"⟩] body).Built :=
    .of .ok _ body (fun h mem => (plain h mem).1) fun h mem => (plain h mem).2
  have first : ∀ r ∈ one, r.Built := by
    intro r mem
    obtain rfl := List.mem_singleton.mp mem
    exact built _
  have second : ∀ r ∈ other, r.Built := by
    intro r mem
    simp only [other, List.mem_cons, List.not_mem_nil, or_false] at mem
    rcases mem with rfl | rfl
    · exact built _
    · exact bareBuilt .notFound
  refine ⟨fun r mem => (List.mem_append.mp mem).elim (first r) (second r), fun same => ?_⟩
  have length := congrArg List.length (streamTellsResponses.1 one other first second same)
  exact absurd length (by decide)

end Response

end FileServer
