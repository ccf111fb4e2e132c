import FileServer.Message.Head
import FileServer.Message.Response
import FileServer.Proofs.Bytes
import FileServer.Proofs.Sequence

/-! Requests as lines. What a request is written as is its lines, a blank line and its body. No line
is cut short by what it holds, so the first blank line is the one behind the last header, and the
lines before it are read as what they were written for. -/
namespace FileServer

def OneLine (s : String) : Prop := ¬ ['\r', '\n'] <:+: s.toList

instance (s : String) : Decidable (OneLine s) := inferInstanceAs (Decidable (¬ _))

def Request.initialLine (r : Request) : String :=
  r.method.text ++ " " ++ r.uri ++ " " ++ r.version

def Header.line (h : Header) : String := h.name ++ ": " ++ h.value

def Request.lines (r : Request) : List String := r.initialLine :: r.headers.map Header.line

def Request.head (r : Request) : Bytes := Bytes.crlf.intercalate (r.lines.map Bytes.ofText)

structure Header.Plain (h : Header) : Prop where
  name : OneLine h.name
  colon : ¬ [':', ' '] <:+: h.name.toList
  value : OneLine h.value

structure Request.Plain (r : Request) : Prop where
  method : Method.read? r.method.text = some r.method
  rooted : r.uri.toList.head? = some '/'
  spaceless : ' ' ∉ r.uri.toList
  uri : OneLine r.uri
  version : OneLine r.version
  headers : ∀ h ∈ r.headers, h.Plain

/-- A request that a connection with this limit can take in, and whose length says where it ends. -/
structure Request.WellFormed (limit : Nat) (r : Request) : Prop extends r.Plain where
  announced : r.contentLength? = some (.ok r.body.length) ∨ r.contentLength? = none ∧ r.body = []
  bodyFits : r.body.length ≤ limit
  headFits : (r.withBody []).wire.length ≤ limit + 1

namespace Method

theorem readPlain {s : String} {method : Method} (h : read? s = some method) :
    ' ' ∉ s.toList ∧ '\r' ∉ s.toList := by
  unfold read? at h
  split at h
  · next found =>
    have named := List.mem_of_find?_eq_some found
    have same := List.find?_some found
    rw [beq_iff_eq] at same
    have all : ∀ m ∈ Method.named, ' ' ∉ m.text.toList ∧ '\r' ∉ m.text.toList := by decide
    exact same ▸ all _ named
  · split at h
    · next token =>
      simp only [isToken, Bool.and_eq_true, List.all_eq_true] at token
      refine ⟨fun mem => ?_, fun mem => ?_⟩
      · exact absurd (token.2 _ mem) (by decide)
      · exact absurd (token.2 _ mem) (by decide)
    · cases h

end Method

theorem Header.lineChars (h : Header) :
    h.line.toList = h.name.toList ++ ':' :: ' ' :: h.value.toList := by
  simp only [line, String.toList_append, List.append_assoc]
  rfl

theorem Request.initialLineChars (r : Request) : r.initialLine.toList =
    r.method.text.toList ++ ' ' :: (r.uri.toList ++ ' ' :: r.version.toList) := by
  simp only [initialLine, String.toList_append, List.append_assoc]
  rfl

theorem Header.lineOne {h : Header} (plain : h.Plain) : OneLine h.line := by
  have value : ¬ ['\r', '\n'] <:+: [] ++ ' ' :: h.value.toList :=
    Sequence.pairAcross (by decide) (by decide) (by simp) plain.value
  rw [OneLine, lineChars]
  exact Sequence.pairAcross (by decide) (by decide) plain.name value

theorem Request.initialLineOne {r : Request} (plain : r.Plain) : OneLine r.initialLine := by
  obtain ⟨_, free⟩ := Method.readPlain plain.method
  have method : ¬ ['\r', '\n'] <:+: r.method.text.toList := fun inside =>
    free (inside.subset List.mem_cons_self)
  have rest := Sequence.pairAcross (x := ' ') (by decide) (by decide) plain.uri plain.version
  rw [OneLine, initialLineChars]
  exact Sequence.pairAcross (by decide) (by decide) method rest

theorem Request.linesOne {r : Request} (plain : r.Plain) :
    ∀ line ∈ r.lines, OneLine line ∧ line ≠ "" := by
  intro line mem
  rcases List.mem_cons.mp mem with rfl | mem
  · refine ⟨initialLineOne plain, fun empty => ?_⟩
    have := congrArg String.toList empty
    simp [initialLineChars] at this
  · obtain ⟨h, there, rfl⟩ := List.mem_map.mp mem
    refine ⟨Header.lineOne (plain.headers h there), fun empty => ?_⟩
    have := congrArg String.toList empty
    simp [Header.lineChars] at this

theorem Bytes.ofTextOneLine {s : String} (one : OneLine s) : ¬ Bytes.crlf <:+: Bytes.ofText s := by
  intro inside
  have ascii : ∀ c ∈ "\r\n".toList, c.toNat < 128 := by
    intro c mem
    rcases List.mem_cons.mp mem with rfl | mem
    · decide
    · obtain rfl := List.mem_singleton.mp mem
      decide
  exact one (Bytes.textInside ascii inside)

theorem Bytes.linesFree {lines : List String} (some' : lines ≠ [])
    (one : ∀ line ∈ lines, OneLine line ∧ line ≠ "") :
    ¬ Bytes.blankLine <:+: Bytes.crlf.intercalate (lines.map Bytes.ofText) ++
      Bytes.blankLine.dropLast := by
  have encoded : ∀ line ∈ lines.map Bytes.ofText, line ≠ [] ∧ ¬ [13, 10] <:+: line := by
    intro line mem
    obtain ⟨s, there, rfl⟩ := List.mem_map.mp mem
    obtain ⟨one, nonempty⟩ := one s there
    refine ⟨fun empty => nonempty ?_, Bytes.ofTextOneLine one⟩
    have := Bytes.textOfText s
    rw [empty] at this
    exact (Option.some.inj this).symm
  exact Sequence.doubleAbsent (by decide) (mt List.map_eq_nil_iff.mp some')
    (fun l mem => (encoded l mem).1) fun l mem => (encoded l mem).2

theorem Request.headFree {r : Request} (plain : r.Plain) :
    ¬ Bytes.blankLine <:+: r.head ++ Bytes.blankLine.dropLast :=
  Bytes.linesFree (List.cons_ne_nil _ _) (linesOne plain)

theorem Header.joined (front : Bytes) (headers : List Header) :
    Bytes.crlf.intercalate (front :: headers.map (Bytes.ofText ·.line)) ++ Bytes.crlf =
      front ++ Bytes.crlf ++ headers.flatMap Header.wire := by
  induction headers generalizing front with
  | nil => simp [List.intercalate]
  | cons h rest ih =>
    have first : Bytes.crlf.intercalate (front :: (h :: rest).map (Bytes.ofText ·.line)) =
        front ++ Bytes.crlf ++
          Bytes.crlf.intercalate (Bytes.ofText h.line :: rest.map (Bytes.ofText ·.line)) := by
      simp [List.intercalate]
    rw [first, List.append_assoc, ih, List.flatMap_cons]
    simp only [wire, Header.line, List.append_assoc]

theorem Header.headed (first : String) (headers : List Header) :
    Bytes.ofText first ++ Bytes.crlf ++ headers.flatMap Header.wire ++ Bytes.crlf =
      Bytes.crlf.intercalate ((first :: headers.map Header.line).map Bytes.ofText) ++
        Bytes.blankLine := by
  have joined := Header.joined (Bytes.ofText first) headers
  have twice : Bytes.blankLine = Bytes.crlf ++ Bytes.crlf := rfl
  have lines : (first :: headers.map Header.line).map Bytes.ofText =
      Bytes.ofText first :: headers.map (Bytes.ofText ·.line) := by
    simp only [List.map_cons, List.map_map, Function.comp_def]
  rw [lines, twice, ← List.append_assoc, joined]

theorem Request.wireHead (r : Request) : r.wire = r.head ++ Bytes.blankLine ++ r.body := by
  rw [head, lines, ← Header.headed]
  rfl

theorem Response.wireSome (response : Response) : 0 < response.wire.length := by
  simp only [wire, List.length_append, Bytes.crlf, List.length_cons]
  omega

theorem Bytes.ofTextJoined (lines : List String) :
    Bytes.crlf.intercalate (lines.map Bytes.ofText) =
      Bytes.ofText (String.ofList (['\r', '\n'].intercalate (lines.map String.toList))) := by
  rw [ofTextEncodes, String.toList_ofList]
  induction lines with
  | nil => rfl
  | cons line rest ih =>
    cases rest with
    | nil => simp [List.intercalate, ofTextEncodes]
    | cons next rest =>
      have bytes : Bytes.crlf.intercalate ((line :: next :: rest).map Bytes.ofText) =
          Bytes.ofText line ++ Bytes.crlf ++
            Bytes.crlf.intercalate ((next :: rest).map Bytes.ofText) := by
        simp [List.intercalate]
      have chars : ['\r', '\n'].intercalate ((line :: next :: rest).map String.toList) =
          line.toList ++ ['\r', '\n'] ++
            ['\r', '\n'].intercalate ((next :: rest).map String.toList) := by
        simp [List.intercalate]
      rw [bytes, chars, ih, List.flatMap_append, List.flatMap_append, ofTextEncodes]
      rfl

namespace Head

theorem readInitialLineWritten {r : Request} (plain : r.Plain) :
    readInitialLine r.initialLine.toList = .ok (r.method, r.uri, r.version) := by
  obtain ⟨free, _⟩ := Method.readPlain plain.method
  have first := Sequence.cutAtItem (r.uri.toList ++ ' ' :: r.version.toList) free
  have second := Sequence.cutAtItem r.version.toList plain.spaceless
  simp only [readInitialLine, Request.initialLineChars, first, second, String.ofList_toList,
    plain.method, plain.rooted, if_true]

theorem readHeaderWritten {h : Header} (plain : h.Plain) : readHeader h.line.toList = .ok h := by
  have absent := Sequence.pairBeforeFirst (by decide) plain.colon
  have cut := Sequence.cutComplete (Sequence.cutOfAbsent h.value.toList absent)
  rw [List.append_assoc] at cut
  simp only [List.cons_append, List.nil_append] at cut
  simp only [readHeader, Header.lineChars, cut, String.ofList_toList]

theorem readHeadersWritten {headers : List Header} (plain : ∀ h ∈ headers, h.Plain) :
    (headers.map (·.line.toList)).mapM readHeader = .ok headers := by
  induction headers with
  | nil => rfl
  | cons h rest ih =>
    have here := readHeaderWritten (plain h List.mem_cons_self)
    have later := ih fun h mem => plain h (List.mem_cons_of_mem _ mem)
    simp only [List.map_cons, List.mapM_cons, here, later]
    rfl

theorem readWritten {r : Request} (plain : r.Plain) :
    read r.head = .ok ((r.withBody []).sentBy .unspecified) := by
  have free : ∀ line ∈ r.lines.map String.toList,
      ¬ ['\r', '\n'] <:+: line ++ ['\r', '\n'].dropLast := by
    intro line mem
    obtain ⟨s, there, rfl⟩ := List.mem_map.mp mem
    exact Sequence.pairBeforeFirst (by decide) (Request.linesOne plain s there).1
  have pieces := Sequence.piecesJoined (by simp [Request.lines]) free
  have lines : r.lines.map String.toList =
      r.initialLine.toList :: r.headers.map (·.line.toList) := by
    simp only [Request.lines, List.map_cons, List.map_map, Function.comp_def]
  rw [read, Request.head, Bytes.ofTextJoined, Bytes.textOfText]
  simp only [String.toList_ofList, pieces]
  rw [lines]
  simp only [readLines, readInitialLineWritten plain, readHeadersWritten plain.headers]
  rfl

end Head

end FileServer
