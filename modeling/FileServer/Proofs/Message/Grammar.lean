import FileServer.Proofs.Message.Wire

/-! The grammar of heads. A head is read where it is what some parts are written as, and then those
parts are the only ones; of any other frame the first fault is told, in the order in which faults are
named. Lines are cut at their first separators, and the parts of a regular head hold none of them. -/
namespace FileServer

namespace Head

structure Parts where
  method : String
  uri : String
  version : String
  headers : List Header
  deriving DecidableEq, Repr

def Parts.text (p : Parts) : String :=
  p.method ++ " " ++ p.uri ++ " " ++ p.version ++
    String.join (p.headers.map fun h => "\r\n" ++ h.name ++ ": " ++ h.value)

structure Parts.Regular (p : Parts) : Prop where
  token : Method.isToken p.method = true
  rooted : p.uri.toList.head? = some '/'
  spaceless : ' ' ∉ p.uri.toList
  uri : OneLine p.uri
  version : OneLine p.version
  headers : ∀ h ∈ p.headers, h.Plain

structure Parts.Of (p : Parts) (r : Request) : Prop where
  method : Method.read? p.method = some r.method
  token : r.method.text = p.method
  uri : r.uri = p.uri
  version : r.version = p.version
  headers : r.headers = p.headers
  bodiless : r.body = []
  nobody : r.remote = .unspecified

structure Lines (frame : Bytes) (first : String) (rest : List String) : Prop where
  written : frame = Bytes.crlf.intercalate ((first :: rest).map Bytes.ofText)
  single : ∀ line ∈ first :: rest, OneLine line

/-- The first fault of a frame. Each one is told only where those named before it do not apply. -/
inductive Faulty (frame : Bytes) : RequestFault → Prop where
  | notText (unreadable : Bytes.text? frame = none) : Faulty frame .invalidRequest
  | fewParts {first : String} {rest : List String} (lines : Lines frame first rest)
      (few : first.toList.count ' ' < 2) : Faulty frame .invalidRequest
  | method {method uri version : String} {rest : List String}
      (lines : Lines frame (method ++ " " ++ uri ++ " " ++ version) rest)
      (alone : ' ' ∉ method.toList) (spaceless : ' ' ∉ uri.toList)
      (foreign : Method.isToken method = false) : Faulty frame .invalidMethod
  | uri {method uri version : String} {rest : List String}
      (lines : Lines frame (method ++ " " ++ uri ++ " " ++ version) rest)
      (spaceless : ' ' ∉ uri.toList) (token : Method.isToken method = true)
      (unrooted : uri.toList.head? ≠ some '/') : Faulty frame .invalidUri
  | header {method uri version line : String} {rest : List String}
      (lines : Lines frame (method ++ " " ++ uri ++ " " ++ version) rest)
      (spaceless : ' ' ∉ uri.toList) (token : Method.isToken method = true)
      (rooted : uri.toList.head? = some '/') (mem : line ∈ rest)
      (bare : ¬ [':', ' '] <:+: line.toList) : Faulty frame .invalidHeader

end Head

namespace Method

theorem namedFound {s : String} {method : Method}
    (found : named.find? (·.text == s) = some method) : method ∈ named ∧ method.text = s := by
  have same := List.find?_some found
  rw [beq_iff_eq] at same
  exact ⟨List.mem_of_find?_eq_some found, same⟩

theorem readText {s : String} {method : Method} (h : read? s = some method) : method.text = s := by
  unfold read? at h
  split at h
  · next found =>
    cases h
    exact (namedFound found).2
  · split at h
    · cases h
      rfl
    · cases h

theorem readToken {s : String} : isToken s = true ↔ ∃ method, read? s = some method := by
  constructor
  · intro token
    unfold read?
    split
    · next method _ => exact ⟨method, rfl⟩
    · exact ⟨.extension s, if_pos token⟩
  · rintro ⟨method, read⟩
    unfold read? at read
    split at read
    · next found =>
      obtain ⟨mem, same⟩ := namedFound found
      have all : ∀ m ∈ Method.named, isToken m.text = true := by decide +kernel
      exact same ▸ all _ mem
    · split at read
      · next token => exact token
      · cases read

theorem readForeign {s : String} : isToken s = false ↔ read? s = none := by
  rw [← Bool.not_eq_true, readToken, Option.eq_none_iff_forall_not_mem]
  simp

end Method

namespace Head

variable {frame : Bytes} {r : Request} {first : String} {rest : List String}

def partsOf (r : Request) : Parts := ⟨r.method.text, r.uri, r.version, r.headers⟩

theorem joinedLines (first : List Char) (headers : List Header) :
    ['\r', '\n'].intercalate (first :: headers.map (·.line.toList)) =
      first ++ headers.flatMap fun h => '\r' :: '\n' :: h.line.toList := by
  induction headers generalizing first with
  | nil => simp [List.intercalate]
  | cons h rest ih =>
    rw [List.map_cons, List.intercalate_cons_cons, ih, List.flatMap_cons]
    simp

theorem partsText (r : Request) : r.head = Bytes.ofText (partsOf r).text := by
  have lines : r.lines.map String.toList =
      r.initialLine.toList :: r.headers.map (·.line.toList) := by
    simp only [Request.lines, List.map_cons, List.map_map, Function.comp_def]
  rw [Request.head, Bytes.ofTextJoined, lines, joinedLines]
  refine congrArg Bytes.ofText ?_
  rw [← String.toList_inj, String.toList_ofList]
  simp only [Parts.text, partsOf, String.toList_append, String.toList_join, List.flatMap_map,
    Request.initialLine, Header.line, List.append_assoc]
  rfl

theorem partsRegular (plain : r.Plain) : (partsOf r).Regular := by
  refine ⟨?_, plain.rooted, plain.spaceless, plain.uri, plain.version, plain.headers⟩
  exact Method.readToken.mpr ⟨_, plain.method⟩

theorem partsRead {p : Parts} (regular : p.Regular) :
    ∃ r : Request, r.Plain ∧ p.Of r ∧ partsOf r = p := by
  obtain ⟨method, read⟩ := Method.readToken.mp regular.token
  have token := Method.readText read
  refine ⟨⟨method, p.uri, p.version, p.headers, [], .unspecified⟩, ?_, ?_, ?_⟩
  · exact ⟨token.symm ▸ read, regular.rooted, regular.spaceless, regular.uri, regular.version,
      regular.headers⟩
  · exact ⟨read, token, rfl, rfl, rfl, rfl, rfl⟩
  · simp only [partsOf, token]

theorem linesRead (lines : Lines frame first rest) :
    Head.read frame = readLines (first.toList :: rest.map String.toList) := by
  obtain ⟨rfl, single⟩ := lines
  have free : ∀ line ∈ (first :: rest).map String.toList,
      ¬ ['\r', '\n'] <:+: line ++ ['\r', '\n'].dropLast := by
    intro line mem
    obtain ⟨s, there, rfl⟩ := List.mem_map.mp mem
    exact Sequence.pairBeforeFirst (by decide) (single s there)
  have pieces := Sequence.piecesJoined (by simp) free
  rw [read, Bytes.ofTextJoined, Bytes.textOfText]
  simp only [String.toList_ofList, pieces]
  rfl

theorem linesThere {text : String} (read : Bytes.text? frame = some text) :
    ∃ first rest, Lines frame first rest := by
  obtain ⟨some', joined⟩ := Sequence.piecesWhole ['\r', '\n'] text.toList
  have free := Sequence.piecesFree (List.cons_ne_nil '\r' ['\n']) text.toList
  obtain ⟨first, rest, same⟩ := List.exists_cons_of_ne_nil some'
  have undone (lines : List (List Char)) : (lines.map String.ofList).map String.toList = lines := by
    simp [Function.comp_def]
  refine ⟨String.ofList first, rest.map String.ofList, ?_, ?_⟩
  · rw [← List.map_cons, ← same, Bytes.ofTextJoined, undone, joined, String.ofList_toList]
    exact Bytes.textExact.mp read
  · intro line mem
    rw [← List.map_cons, ← same] at mem
    obtain ⟨piece, there, rfl⟩ := List.mem_map.mp mem
    rw [OneLine, String.toList_ofList]
    exact free piece there

theorem fewSpaces {line : List Char} (few : line.count ' ' < 2) :
    readInitialLine line = .error .invalidRequest := by
  unfold readInitialLine
  split
  · rfl
  · next found =>
    split
    · rfl
    · next again =>
      have whole := (Sequence.cutSound found).joined
      rw [(Sequence.cutSound again).joined] at whole
      simp only [whole, List.count_append, List.count_singleton_self] at few
      omega

theorem initialLineParts {line : String} (many : ¬ line.toList.count ' ' < 2) :
    ∃ method uri version : String, line = method ++ " " ++ uri ++ " " ++ version ∧
      ' ' ∉ method.toList ∧ ' ' ∉ uri.toList := by
  cases found : Sequence.cut? [' '] line.toList with
  | none =>
    have absent := Sequence.cutAbsent.mp found
    rw [List.singleton_infix_iff] at absent
    rw [List.count_eq_zero.mpr absent] at many
    omega
  | some pieces =>
    obtain ⟨method, later⟩ := pieces
    have cut := Sequence.cutSound found
    cases again : Sequence.cut? [' '] later with
    | none =>
      have absent := Sequence.cutAbsent.mp again
      rw [List.singleton_infix_iff] at absent
      rw [cut.joined, List.count_append, List.count_append, List.count_eq_zero.mpr absent,
        List.count_eq_zero.mpr cut.fresh, List.count_singleton_self] at many
      omega
    | some pieces =>
      obtain ⟨uri, version⟩ := pieces
      have cut' := Sequence.cutSound again
      refine ⟨.ofList method, .ofList uri, .ofList version, ?_, ?_, ?_⟩
      · rw [← String.toList_inj, cut.joined, cut'.joined]
        simp only [String.toList_append, String.toList_ofList, List.append_assoc]
        rfl
      · rw [String.toList_ofList]
        exact cut.fresh
      · rw [String.toList_ofList]
        exact cut'.fresh

theorem initialLineRead {method uri version : String} (alone : ' ' ∉ method.toList)
    (spaceless : ' ' ∉ uri.toList) :
    readInitialLine (method ++ " " ++ uri ++ " " ++ version).toList =
      match Method.read? method with
      | none => .error .invalidMethod
      | some m => if uri.toList.head? = some '/' then .ok (m, uri, version) else .error .invalidUri := by
  have chars : (method ++ " " ++ uri ++ " " ++ version).toList =
      method.toList ++ ' ' :: (uri.toList ++ ' ' :: version.toList) := by
    simp only [String.toList_append, List.append_assoc]
    rfl
  have first := Sequence.cutAtItem (uri.toList ++ ' ' :: version.toList) alone
  have second := Sequence.cutAtItem version.toList spaceless
  cases token : Method.read? method <;>
    simp only [readInitialLine, chars, first, second, String.ofList_toList, token]

theorem headerRead (line : String) :
    (∃ h : Header, line = h.line ∧ ¬ [':', ' '] <:+: h.name.toList ∧
        readHeader line.toList = .ok h) ∨
      ¬ [':', ' '] <:+: line.toList ∧ readHeader line.toList = .error .invalidHeader := by
  unfold readHeader
  cases found : Sequence.cut? [':', ' '] line.toList with
  | none => exact .inr ⟨Sequence.cutAbsent.mp found, rfl⟩
  | some pieces =>
    obtain ⟨name, value⟩ := pieces
    have cut := Sequence.cutSound found
    refine .inl ⟨⟨.ofList name, .ofList value⟩, ?_, ?_, rfl⟩
    · rw [← String.toList_inj, cut.joined, Header.lineChars]
      simp only [String.toList_ofList, List.append_assoc]
      rfl
    · rw [String.toList_ofList]
      exact cut.free (List.cons_ne_nil _ _)

theorem headersRead (lines : List String) :
    (∃ headers : List Header, lines = headers.map Header.line ∧
        (∀ h ∈ headers, ¬ [':', ' '] <:+: h.name.toList) ∧
        (lines.map String.toList).mapM readHeader = .ok headers) ∨
      (∃ line ∈ lines, ¬ [':', ' '] <:+: line.toList) ∧
        (lines.map String.toList).mapM readHeader = .error .invalidHeader := by
  induction lines with
  | nil => exact .inl ⟨[], rfl, nofun, rfl⟩
  | cons line rest ih =>
    simp only [List.map_cons, List.mapM_cons]
    rcases headerRead line with ⟨h, rfl, colon, here⟩ | ⟨bare, here⟩
    · rcases ih with ⟨headers, rfl, colons, later⟩ | ⟨⟨line, mem, bare⟩, later⟩
      · refine .inl ⟨h :: headers, rfl, ?_, by rw [here, later]; rfl⟩
        intro other mem
        rcases List.mem_cons.mp mem with rfl | mem
        · exact colon
        · exact colons other mem
      · exact .inr ⟨⟨line, List.mem_cons_of_mem _ mem, bare⟩, by rw [here, later]; rfl⟩
    · exact .inr ⟨⟨line, List.mem_cons_self, bare⟩, by rw [here]; rfl⟩

theorem partOne {line part : String} (one : OneLine line) (inside : part.toList <:+: line.toList) :
    OneLine part := fun pair => one (pair.trans inside)

theorem uriInside (method uri version : String) :
    uri.toList <:+: (method ++ " " ++ uri ++ " " ++ version).toList := by
  simp only [String.toList_append]
  exact ⟨method.toList ++ " ".toList, " ".toList ++ version.toList, by simp only [List.append_assoc]⟩

theorem versionInside (method uri version : String) :
    version.toList <:+: (method ++ " " ++ uri ++ " " ++ version).toList := by
  simp only [String.toList_append]
  exact (List.suffix_append _ _).isInfix

theorem headerPlain {h : Header} (one : OneLine h.line) (colon : ¬ [':', ' '] <:+: h.name.toList) :
    h.Plain := by
  have chars := h.lineChars
  have name : h.name.toList <+: h.line.toList := chars ▸ List.prefix_append _ _
  have value : h.value.toList <:+ h.line.toList :=
    chars ▸ ⟨h.name.toList ++ [':', ' '], by simp⟩
  exact ⟨partOne one name.isInfix, colon, partOne one value.isInfix⟩

theorem faultyRead {fault : RequestFault} (faulty : Faulty frame fault) :
    Head.read frame = .error fault := by
  cases faulty with
  | notText unreadable => simp only [read, unreadable]
  | fewParts lines few =>
    rw [linesRead lines, readLines, fewSpaces few]
    rfl
  | method lines alone spaceless foreign =>
    rw [linesRead lines, readLines, initialLineRead alone spaceless, Method.readForeign.mp foreign]
    rfl
  | uri lines spaceless token unrooted =>
    obtain ⟨m, read⟩ := Method.readToken.mp token
    have alone := (Method.readPlain (Method.readText read ▸ read)).1
    rw [Method.readText read] at alone
    rw [linesRead lines, readLines, initialLineRead alone spaceless, read]
    simp only [if_neg unrooted]
    rfl
  | @header method uri version line rest lines spaceless token rooted mem bare =>
    obtain ⟨m, read⟩ := Method.readToken.mp token
    have alone := (Method.readPlain (Method.readText read ▸ read)).1
    rw [Method.readText read] at alone
    rw [linesRead lines, readLines, initialLineRead alone spaceless, read]
    simp only [if_pos rooted]
    rcases headersRead rest with ⟨headers, rfl, _, _⟩ | ⟨_, later⟩
    · obtain ⟨h, _, rfl⟩ := List.mem_map.mp mem
      refine absurd ?_ bare
      rw [h.lineChars]
      exact ⟨h.name.toList, h.value.toList, by simp⟩
    · simp only [later]
      rfl

theorem readCases (frame : Bytes) :
    (∃ r, Head.read frame = .ok r ∧ r.Plain ∧ r.body = [] ∧ r.remote = .unspecified ∧
        frame = r.head) ∨
      ∃ fault, Head.read frame = .error fault ∧ Faulty frame fault := by
  have refused {fault : RequestFault} (faulty : Faulty frame fault) :
      ∃ fault, Head.read frame = .error fault ∧ Faulty frame fault :=
    ⟨fault, faultyRead faulty, faulty⟩
  cases text : Bytes.text? frame with
  | none => exact .inr (refused (.notText text))
  | some text =>
    obtain ⟨first, rest, lines⟩ := linesThere ‹_›
    by_cases few : first.toList.count ' ' < 2
    · exact .inr (refused (.fewParts lines few))
    · obtain ⟨method, uri, version, rfl, alone, spaceless⟩ := initialLineParts few
      by_cases token : Method.isToken method
      · by_cases rooted : uri.toList.head? = some '/'
        · rcases headersRead rest with ⟨headers, rfl, colons, later⟩ | ⟨⟨line, mem, bare⟩, _⟩
          · obtain ⟨m, read⟩ := Method.readToken.mp token
            have same := Method.readText read
            have one := lines.single _ List.mem_cons_self
            refine .inl ⟨⟨m, uri, version, headers, [], .unspecified⟩, ?_, ?_, rfl, rfl, ?_⟩
            · rw [linesRead lines, readLines, initialLineRead alone spaceless, read]
              simp only [if_pos rooted, later]
              rfl
            · refine ⟨same.symm ▸ read, rooted, spaceless,
                partOne one (uriInside method uri version),
                partOne one (versionInside method uri version), fun h mem => ?_⟩
              have line := lines.single _ (List.mem_cons_of_mem _ (List.mem_map_of_mem mem))
              exact headerPlain line (colons h mem)
            · rw [lines.written, ← same]
              rfl
          · exact .inr (refused (.header lines spaceless token rooted mem bare))
        · exact .inr (refused (.uri lines spaceless token rooted))
      · have foreign := Bool.eq_false_iff.mpr token
        exact .inr (refused (.method lines alone spaceless foreign))

theorem readOk (read : Head.read frame = .ok r) :
    r.Plain ∧ r.body = [] ∧ r.remote = .unspecified ∧ frame = r.head := by
  rcases readCases frame with ⟨r', other, facts⟩ | ⟨fault, other, _⟩
  · cases read.symm.trans other
    exact facts
  · cases read.symm.trans other

theorem headRead (plain : r.Plain) (bodiless : r.body = []) (nobody : r.remote = .unspecified) :
    Head.read r.head = .ok r := by
  have same : (r.withBody []).sentBy .unspecified = r := by
    rw [← bodiless, ← nobody]
    rfl
  rw [readWritten plain, same]

theorem regularRead {p : Parts} (regular : p.Regular) :
    ∃ r, Head.read (Bytes.ofText p.text) = .ok r ∧ p.Of r := by
  obtain ⟨r, plain, parts, rfl⟩ := partsRead regular
  refine ⟨r, ?_, parts⟩
  rw [← partsText]
  exact headRead plain parts.bodiless parts.nobody

theorem Parts.Of.unique {p q : Parts} (one : p.Of r) (other : q.Of r) : p = q := by
  have same {p : Parts} (of : p.Of r) : p = partsOf r := by
    simp only [partsOf, of.token, of.uri, of.version, of.headers]
  rw [same one, same other]

theorem headNeverEnds (plain : r.Plain) :
    ¬ Bytes.blankLine <:+: r.head ∧ ¬ Bytes.crlf <:+ r.head := by
  have free := Request.headFree plain
  refine ⟨fun inside => free (inside.trans (List.prefix_append _ _).isInfix), ?_⟩
  rintro ⟨front, ends⟩
  refine free ⟨front, [13], ?_⟩
  rw [← ends, List.append_assoc, List.append_assoc]
  rfl

/-- A frame is read just where it is what some regular parts are written as. Those are its only
parts, the request holds them, and what the request is written as is the frame and a blank line, so
no other frame is read as that request. Every other frame gets the first fault that applies, and one
that holds a blank line or ends in a line break is never read. -/
theorem readByGrammar (frame : Bytes) :
    ((∃ r, Head.read frame = .ok r) ↔
      ∃ p : Parts, p.Regular ∧ Bytes.text? frame = some p.text) ∧
    (∀ r, Head.read frame = .ok r →
      (∃ p : Parts, p.Regular ∧ Bytes.text? frame = some p.text ∧ p.Of r ∧
        ∀ q : Parts, q.Regular → Bytes.text? frame = some q.text → q = p) ∧
      r.wire = frame ++ Bytes.blankLine ∧
      ∀ other, Head.read other = .ok r → other = frame) ∧
    (∀ fault, Head.read frame = .error fault ↔ Faulty frame fault) ∧
    (Bytes.blankLine <:+: frame ∨ Bytes.crlf <:+ frame → ∀ r, Head.read frame ≠ .ok r) := by
  refine ⟨⟨?_, ?_⟩, ?_, fun fault => ⟨?_, faultyRead⟩, ?_⟩
  · rintro ⟨r, read⟩
    obtain ⟨plain, _, _, same⟩ := readOk read
    exact ⟨partsOf r, partsRegular plain, Bytes.textExact.mpr (same.trans (partsText r))⟩
  · rintro ⟨p, regular, written⟩
    obtain ⟨r, read, _⟩ := regularRead regular
    rw [Bytes.textExact.mp written]
    exact ⟨r, read⟩
  · intro r read
    obtain ⟨plain, bodiless, nobody, same⟩ := readOk read
    have ofParts {q : Parts} (regular : q.Regular) (written : Bytes.text? frame = some q.text) :
        q.Of r := by
      obtain ⟨r', read', parts⟩ := regularRead regular
      rw [← Bytes.textExact.mp written, read] at read'
      cases read'
      exact parts
    have written := Bytes.textExact.mpr (same.trans (partsText r))
    have regular := partsRegular plain
    have parts := ofParts regular written
    refine ⟨⟨partsOf r, regular, written, parts, fun q regular written => ?_⟩, ?_, ?_⟩
    · exact (ofParts regular written).unique parts
    · rw [Request.wireHead, bodiless, List.append_nil, same]
    · intro other read'
      rw [same, (readOk read').2.2.2]
  · intro read
    rcases readCases frame with ⟨r, other, _⟩ | ⟨fault', other, faulty⟩
    · cases read.symm.trans other
    · cases read.symm.trans other
      exact faulty
  · intro broken r read
    obtain ⟨plain, _, _, rfl⟩ := readOk read
    obtain ⟨noBlank, noBreak⟩ := headNeverEnds plain
    rcases broken with inside | ends
    · exact noBlank inside
    · exact noBreak ends

theorem readByGrammarBesideStrays :
    let parts : Parts := ⟨"get", "/a\r", "HTTP/1.1 x", [⟨"k:", "v\r"⟩]⟩
    let frame := Bytes.ofText "get /a\r HTTP/1.1 x\r\nk:: v\r"
    parts.Regular ∧ (∃ r, Head.read frame = .ok r ∧ parts.Of r ∧ r.wire = frame ++ Bytes.blankLine) ∧
      Head.read (Bytes.ofText "g(t a HTTP/1.1\r\nbare") = .error .invalidMethod := by
  intro parts frame
  have plain : ∀ h ∈ parts.headers, h.Plain := by
    intro h mem
    obtain rfl := List.mem_singleton.mp mem
    exact ⟨by decide +kernel, by decide +kernel, by decide +kernel⟩
  have regular : parts.Regular :=
    ⟨by decide +kernel, by decide +kernel, by decide +kernel, by decide +kernel, by decide +kernel,
      plain⟩
  have text : parts.text = "get /a\r HTTP/1.1 x\r\nk:: v\r" := by decide +kernel
  have written : Bytes.text? frame = some parts.text := Bytes.textExact.mpr (by rw [text])
  obtain ⟨accepted, exact', _, _⟩ := readByGrammar frame
  obtain ⟨r, read⟩ := accepted.mpr ⟨parts, regular, written⟩
  obtain ⟨⟨p, _, _, of, only⟩, wire, _⟩ := exact' r read
  obtain rfl := only parts regular written
  have lines : Lines (Bytes.ofText "g(t a HTTP/1.1\r\nbare") ("g(t" ++ " " ++ "a" ++ " " ++ "HTTP/1.1")
      ["bare"] := by
    refine ⟨by decide +kernel, ?_⟩
    intro line mem
    simp only [List.mem_cons, List.not_mem_nil, or_false] at mem
    rcases mem with rfl | rfl
    · decide +kernel
    · decide +kernel
  have faulty := Faulty.method lines (by decide +kernel) (by decide +kernel) (by decide +kernel)
  exact ⟨regular, ⟨r, read, of, wire⟩, ((readByGrammar _).2.2.1 _).mpr faulty⟩

end Head

end FileServer
