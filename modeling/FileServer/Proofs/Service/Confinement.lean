import FileServer.Proofs.Conversation.Sender
import FileServer.Proofs.Document.Path
import FileServer.Service.Files

/-! Protected documents do not leak. Whatever a target is spelled like, the access list that is asked
for is the one beside the document that is served, and nothing of a document is looked at before it
is known to be for everyone; so what stands at a protected path cannot be told from outside. -/
namespace FileServer

def AccessList.verdict (resolver : Resolver) (remote : Address) (list : File) : Verdict :=
  match list.contents with
  | .error failure => .error (.unreadable failure)
  | .ok contents => (Gate.judge resolver remote contents).value

/-- A path is protected from an address where the access list beside it does not admit the address,
and where both repositories have a document that is not for everyone. -/
inductive Protected (one other : Repository) (resolver : Resolver) (remote : Address)
    (path : String) : Prop where
  | guarded (list : File) (present : one (Document.accessListPath path) = some list)
      (refused : AccessList.verdict resolver remote list ≠ .ok true)
  | closed (here there : File) (inOne : one path = some here) (inOther : other path = some there)
      (notHere : here.worldReadable = false) (notThere : there.worldReadable = false)

namespace Service

variable {one other : Repository} {resolver : Resolver} {remote : Address} {path : String}

theorem documentPathRooted {uri : String} (nonempty : documentPath uri ≠ "") :
    '/' ∈ (documentPath uri).toList := by
  by_cases root : Document.canonical uri = "/"
  · simp only [documentPath, if_pos root]
    decide
  · simp only [documentPath, if_neg root] at nonempty ⊢
    obtain ⟨rest, rooted⟩ := (Document.canonicalRooted uri).resolve_left nonempty
    rw [rooted]
    exact List.mem_cons_self

theorem accessListOfDocument (uri : String) :
    Document.accessListPath (documentPath uri) =
      Document.accessListPath (Document.canonical uri) := by
  by_cases root : Document.canonical uri = "/"
  · simp only [documentPath, root, if_true]
    decide +kernel
  · simp only [documentPath, if_neg root]

theorem gateAlike (resolver : Resolver) (agree : ∀ q, q ≠ path → one q = other q)
    (named : Document.lastSegment path ≠ ".htaccess") (request : Request) :
    Gate.accessList one resolver request = Gate.accessList other resolver request := by
  have place := Document.accessListPathOther (Document.canonical request.uri)
  by_cases nowhere : Document.accessListPath (Document.canonical request.uri) = ""
  · simp only [Gate.accessList, if_pos nowhere]
  · have elsewhere : Document.accessListPath (Document.canonical request.uri) ≠ path := by
      rintro rfl
      exact named (place.resolve_left nowhere)
    simp only [Gate.accessList, if_neg nowhere, agree _ elsewhere]

theorem gateVerdict {list : File} {request : Request} (sent : request.remote = remote)
    (served : documentPath request.uri = path) (nonempty : path ≠ "")
    (present : one (Document.accessListPath path) = some list) :
    (Gate.accessList one resolver request).value = AccessList.verdict resolver remote list := by
  subst served sent
  have there := Document.accessListPathThere (documentPathRooted nonempty)
  rw [accessListOfDocument] at there present
  simp only [Gate.accessList, if_neg there, Traced.bind, present, AccessList.verdict]
  cases list.contents <;> rfl

theorem fileAnswerClosed (path : String) {file : File} (closed : file.worldReadable = false) :
    fileAnswer path file = .ok (.bare .forbidden) := by
  simp only [fileAnswer, closed]
  rfl

theorem guardedAlike (agree : ∀ q, q ≠ path → one q = other q)
    (named : Document.lastSegment path ≠ ".htaccess")
    (secret : Protected one other resolver remote path) (request : Request)
    (sent : request.remote = remote) :
    guardedFiles one resolver request = guardedFiles other resolver request := by
  have gates := gateAlike resolver agree named request
  simp only [guardedFiles, behind, ← gates, Traced.bind]
  cases verdict : (Gate.accessList one resolver request).value with
  | error fault => rfl
  | ok admitted =>
    cases admitted with
    | false => rfl
    | true =>
      have files : files one request = files other request := by
        by_cases nothing : documentPath request.uri = ""
        · simp only [files, if_pos nothing]
        · by_cases served : documentPath request.uri = path
          · cases secret with
            | guarded list present refused =>
              rw [gateVerdict sent served (served ▸ nothing) present] at verdict
              exact absurd verdict refused
            | closed here there inOne inOther notHere notThere =>
              simp only [files, served, inOne, inOther,
                fileAnswerClosed path notHere, fileAnswerClosed path notThere]
          · simp only [files, if_neg nothing, agree _ served]
      rw [files]

/-- Two repositories that differ in a protected document alone are told apart by nothing that a
connection from the address sends, in whatever pieces: everything that is written, called and asked
for is the same, and the conversation goes on the same. -/
theorem protectedUnseen (limits : Limits) (remote : Address) (resolver : Resolver)
    (one other : Repository) (path : String) (agree : ∀ q, q ≠ path → one q = other q)
    (named : Document.lastSegment path ≠ ".htaccess")
    (secret : Protected one other resolver remote path) (moves : List Session.Move) :
    Session.finish ⟨limits, remote, guardedFiles one resolver⟩ { pipe := {} }
        (.start .serve :: moves.map .move) =
      Session.finish ⟨limits, remote, guardedFiles other resolver⟩ { pipe := {} }
        (.start .serve :: moves.map .move) := by
  have alike : Context.Alike ⟨limits, remote, guardedFiles one resolver⟩
      ⟨limits, remote, guardedFiles other resolver⟩ :=
    ⟨rfl, rfl, guardedAlike agree named secret⟩
  exact Session.finishAlike alike _ _ trivial

theorem protectedUnseenBehindList :
    let list : File := ⟨true, .ok (Bytes.ofText "deny from 10.0.0.1"), .ok 0⟩
    let document : File := ⟨true, .ok (Bytes.ofText "hidden"), .ok 0⟩
    let one : Repository := .ofFiles [("/plans/.htaccess", list), ("/plans/a.txt", document)]
    let other : Repository := .ofFiles [("/plans/.htaccess", list)]
    let remote : Address := .ofOctets 10 0 0 1
    let acts := [.start .serve,
      .move (.arrive (Bytes.ofText "GET /x/../plans//a.txt?b HTTP/1.0\r\n\r\n"))]
    (∀ q, q ≠ "/plans/a.txt" → one q = other q) ∧
      Document.lastSegment "/plans/a.txt" ≠ ".htaccess" ∧
      Protected one other .silent remote "/plans/a.txt" ∧
      Session.finish ⟨{}, remote, guardedFiles one .silent⟩ { pipe := {} } acts =
        Session.finish ⟨{}, remote, guardedFiles other .silent⟩ { pipe := {} } acts := by
  intro list document one other remote acts
  have agree : ∀ q, q ≠ "/plans/a.txt" → one q = other q := by
    intro q different
    have unlike : ("/plans/a.txt" == q) = false := beq_eq_false_iff_ne.mpr different.symm
    simp only [one, other, Repository.ofFiles, List.find?_cons, unlike, List.find?_nil]
  have named : Document.lastSegment "/plans/a.txt" ≠ ".htaccess" := by decide +kernel
  have beside : Document.accessListPath "/plans/a.txt" = "/plans/.htaccess" := by decide +kernel
  have denied : AccessList.verdict .silent remote list = .ok false := by decide +kernel
  have secret : Protected one other .silent remote "/plans/a.txt" := by
    refine .guarded list ?_ ?_
    · rw [beside]
      rfl
    · rw [denied]
      exact nofun
  exact ⟨agree, named, secret, protectedUnseen {} remote .silent one other "/plans/a.txt" agree
    named secret [.arrive (Bytes.ofText "GET /x/../plans//a.txt?b HTTP/1.0\r\n\r\n")]⟩

end Service

end FileServer
