import FileServer.Proofs.Service.Confinement

/-! What guarded files are served by. The policy is a relation of its own: how an access list stands
to an address, what a document is answered with, and what is asked for on the way. The service does
what the policy says, and nothing else. -/
namespace FileServer

inductive AccessList.Decides (a : Address) : AccessList → Rule → Prop where
  | here (rule : Rule) (rest : AccessList) (holds : rule.block.contains a = true) :
      Decides a (rule :: rest) rule
  | later {rule decisive : Rule} {rest : AccessList} (misses : rule.block.contains a = false)
      (decides : Decides a rest decisive) : Decides a (rule :: rest) decisive

theorem AccessList.decidesFound {a : Address} {rules : AccessList} {rule : Rule} :
    Decides a rules rule ↔ rules.find? (·.block.contains a) = some rule := by
  constructor
  · intro decides
    induction decides with
    | here rule rest holds => rw [List.find?_cons, holds]
    | later misses decides ih => rw [List.find?_cons, misses, ih]
  · intro found
    induction rules with
    | nil => cases found
    | cons head rest ih =>
      rw [List.find?_cons] at found
      split at found
      · next holds =>
        cases found
        exact .here _ rest holds
      · next misses => exact .later misses (ih found)

def Repository.Dated (repository : Repository) : Prop :=
  ∀ path file moment, repository path = some file → file.modified = .ok moment →
    0 ≤ moment ∧ moment < Date.limit

namespace Service

inductive Standing
  | unusable
  | refusing
  | admitting
  deriving DecidableEq, Repr

def Standing.Of : Standing → Verdict → Prop
  | .unusable, verdict => ∃ fault, verdict = .error fault
  | .refusing, verdict => verdict = .ok false
  | .admitting, verdict => verdict = .ok true

section Policies

variable (repository : Repository) (resolver : Resolver) (remote : Address) (listPath path : String)

inductive Judged : List Effect → Standing → Prop where
  | absent (none' : repository listPath = none) : Judged [.lookup listPath] .admitting
  | unreadable {list : File} {failure : Failure} (present : repository listPath = some list)
      (fails : list.contents = .error failure) : Judged [.lookup listPath] .unusable
  | faulty {list : File} {contents : Bytes} {names : List String} {fault : RuleFault}
      (present : repository listPath = some list) (readable : list.contents = .ok contents)
      (read : AccessList.read resolver (Bytes.lossyText contents) = ⟨names, .error fault⟩) :
      Judged (.lookup listPath :: names.map .resolve) .unusable
  | refusing {list : File} {contents : Bytes} {names : List String} {rules : AccessList}
      {rule : Rule} (present : repository listPath = some list)
      (readable : list.contents = .ok contents)
      (read : AccessList.read resolver (Bytes.lossyText contents) = ⟨names, .ok rules⟩)
      (decides : AccessList.Decides remote rules rule) (denies : rule.allow = false) :
      Judged (.lookup listPath :: names.map .resolve) .refusing
  | admitting {list : File} {contents : Bytes} {names : List String} {rules : AccessList}
      (present : repository listPath = some list) (readable : list.contents = .ok contents)
      (read : AccessList.read resolver (Bytes.lossyText contents) = ⟨names, .ok rules⟩)
      (allowed : ∀ rule, AccessList.Decides remote rules rule → rule.allow = true) :
      Judged (.lookup listPath :: names.map .resolve) .admitting

inductive Served : Response → Prop where
  | absent (none' : repository path = none) : Served (.bare .notFound)
  | closed {file : File} (present : repository path = some file)
      (closed : file.worldReadable = false) : Served (.bare .forbidden)
  | unreadable {file : File} {failure : Failure} (present : repository path = some file)
      (open' : file.worldReadable = true) (fails : file.contents = .error failure) :
      Served (.bare .internalError)
  | undated {file : File} {contents : Bytes} {failure : Failure}
      (present : repository path = some file) (open' : file.worldReadable = true)
      (readable : file.contents = .ok contents) (fails : file.modified = .error failure) :
      Served (.bare .internalError)
  | document {file : File} {contents : Bytes} {moment : Int}
      (present : repository path = some file) (open' : file.worldReadable = true)
      (readable : file.contents = .ok contents) (dated : file.modified = .ok moment) :
      Served (.build .ok [⟨"Content-Type", Document.mediaType path⟩,
        ⟨"Last-Modified", Date.ofSeconds moment.toNat⟩] contents)

/-- What is asked for, in order, and what is answered. The document is looked up last, and only where
the access list admits the address. -/
inductive Policy : List Effect → Response → Prop where
  | unusable {asked : List Effect}
      (judged : Judged repository resolver remote listPath asked .unusable) :
      Policy asked (.bare .internalError)
  | refused {asked : List Effect}
      (judged : Judged repository resolver remote listPath asked .refusing) :
      Policy asked (.bare .forbidden)
  | served {asked : List Effect} {response : Response}
      (judged : Judged repository resolver remote listPath asked .admitting)
      (served : Served repository path response) : Policy (asked ++ [.lookup path]) response

end Policies

variable {repository : Repository} {resolver : Resolver} {remote : Address}
  {listPath path : String} {request : Request}

theorem judgedTotal (repository : Repository) (resolver : Resolver) (remote : Address)
    (listPath : String) :
    ∃ asked standing, Judged repository resolver remote listPath asked standing := by
  cases present : repository listPath with
  | none => exact ⟨_, _, .absent present⟩
  | some list =>
    cases readable : list.contents with
    | error failure => exact ⟨_, _, .unreadable present readable⟩
    | ok contents =>
      rcases read : AccessList.read resolver (Bytes.lossyText contents) with ⟨names, fault | rules⟩
      · exact ⟨_, _, .faulty present readable read⟩
      · cases decisive : rules.find? (·.block.contains remote) with
        | none =>
          refine ⟨_, _, .admitting present readable read fun rule decides => ?_⟩
          rw [AccessList.decidesFound, decisive] at decides
          cases decides
        | some rule =>
          have decides := AccessList.decidesFound.mpr decisive
          cases allowed : rule.allow with
          | false => exact ⟨_, _, .refusing present readable read decides allowed⟩
          | true =>
            refine ⟨_, _, .admitting present readable read fun other decides => ?_⟩
            rw [AccessList.decidesFound, decisive] at decides
            cases decides
            exact allowed

theorem servedTotal (repository : Repository) (path : String) : ∃ response, Served repository path response := by
  cases present : repository path with
  | none => exact ⟨_, .absent present⟩
  | some file =>
    cases open' : file.worldReadable with
    | false => exact ⟨_, .closed present open'⟩
    | true =>
      cases readable : file.contents with
      | error failure => exact ⟨_, .unreadable present open' readable⟩
      | ok contents =>
        cases dated : file.modified with
        | error failure => exact ⟨_, .undated present open' readable dated⟩
        | ok moment => exact ⟨_, .document present open' readable dated⟩

theorem admitsDecided {rules : AccessList} :
    rules.admits remote = true ↔ ∀ rule, AccessList.Decides remote rules rule → rule.allow = true := by
  simp only [AccessList.admits, AccessList.decidesFound]
  cases rules.find? (·.block.contains remote) <;> simp

theorem judgeRead {contents : Bytes} {names : List String} {value : Except RuleFault AccessList}
    (read : AccessList.read resolver (Bytes.lossyText contents) = ⟨names, value⟩) :
    Gate.judge resolver remote contents = ⟨names.map .resolve, match value with
      | .ok rules => .ok (rules.admits remote)
      | .error fault => .error (.accessList fault)⟩ := by
  simp only [Gate.judge, read, Traced.relabel, Traced.map]
  cases value <;> rfl

theorem gateJudged {asked : List Effect} {standing : Standing}
    (place : Document.accessListPath (Document.canonical request.uri) = listPath)
    (somewhere : listPath ≠ "")
    (judged : Judged repository resolver request.remote listPath asked standing) :
    ∃ verdict, Gate.accessList repository resolver request = ⟨asked, verdict⟩ ∧
      standing.Of verdict := by
  simp only [Gate.accessList, place, if_neg somewhere, Traced.bind]
  cases judged with
  | absent none' => exact ⟨_, by rw [none']; rfl, rfl⟩
  | unreadable present fails => exact ⟨_, by simp only [present, fails]; rfl, _, rfl⟩
  | faulty present readable read =>
    exact ⟨_, by simp only [present, readable, judgeRead read]; rfl, _, rfl⟩
  | refusing present readable read decides denies =>
    refine ⟨_, by simp only [present, readable, judgeRead read]; rfl, ?_⟩
    refine congrArg Except.ok (Bool.eq_false_iff.mpr fun admits => ?_)
    rw [admitsDecided.mp admits _ decides] at denies
    cases denies
  | admitting present readable read allowed =>
    refine ⟨_, by simp only [present, readable, judgeRead read]; rfl, ?_⟩
    exact congrArg Except.ok (admitsDecided.mpr allowed)

theorem filesServed {response : Response} (dated : repository.Dated)
    (place : documentPath request.uri = path) (somewhere : path ≠ "")
    (served : Served repository path response) :
    files repository request = ⟨[.lookup path], .ok response⟩ := by
  simp only [files, place, if_neg somewhere]
  cases served with
  | absent none' => rw [none']
  | closed present closed => simp only [present, fileAnswerClosed path closed]
  | unreadable present open' fails => simp only [present, fileAnswer, open', fails, if_true]
  | undated present open' readable fails =>
    simp only [present, fileAnswer, open', readable, fails, if_true]
  | document present open' readable moment =>
    obtain ⟨after, before⟩ := dated _ _ _ present moment
    simp only [present, fileAnswer, open', readable, moment, if_true, Response.document, Date.write,
      if_neg (Int.not_lt.mpr after), if_neg (Int.not_le.mpr before)]
    rfl

theorem guardedPolicy {asked : List Effect} {response : Response} (dated : repository.Dated)
    (place : documentPath request.uri = path) (somewhere : path ≠ "")
    (beside : Document.accessListPath path = listPath)
    (policy : Policy repository resolver request.remote listPath path asked response) :
    guardedFiles repository resolver request = ⟨asked, .ok response⟩ := by
  have listed : Document.accessListPath (Document.canonical request.uri) = listPath := by
    rw [← accessListOfDocument, place, beside]
  have there : listPath ≠ "" := by
    subst place
    exact beside ▸ Document.accessListPathThere (documentPathRooted somewhere)
  simp only [guardedFiles, behind, Traced.bind]
  cases policy with
  | unusable judged =>
    obtain ⟨_, gate, fault, rfl⟩ := gateJudged listed there judged
    simp only [gate, List.append_nil]
  | refused judged =>
    obtain ⟨_, gate, rfl⟩ := gateJudged listed there judged
    simp only [gate, List.append_nil]
  | served judged served =>
    obtain ⟨_, gate, rfl⟩ := gateJudged listed there judged
    simp only [gate, filesServed dated place somewhere served]

theorem policyTotal (repository : Repository) (resolver : Resolver) (remote : Address)
    (listPath path : String) :
    ∃ asked response, Policy repository resolver remote listPath path asked response := by
  obtain ⟨asked, standing, judged⟩ := judgedTotal repository resolver remote listPath
  cases standing with
  | unusable => exact ⟨_, _, .unusable judged⟩
  | refusing => exact ⟨_, _, .refused judged⟩
  | admitting =>
    obtain ⟨response, served⟩ := servedTotal repository path
    exact ⟨_, _, .served judged served⟩

/-- A target that has no path is answered at once; every other one has just the answer, and just the
lookups before it, that the policy has for its document and the access list beside that. -/
theorem guardedFilesByPolicy (repository : Repository) (resolver : Resolver) (request : Request)
    (dated : repository.Dated) :
    let canonical := Document.canonical request.uri
    let path := if canonical = "/" then "/index.html" else canonical
    (canonical = "" →
      guardedFiles repository resolver request = ⟨[], .ok (.bare .notFound)⟩) ∧
    (canonical ≠ "" →
      ∃ listPath, Document.Beside path listPath ∧
        (∃ asked response, guardedFiles repository resolver request = ⟨asked, .ok response⟩) ∧
        ∀ asked response, guardedFiles repository resolver request = ⟨asked, .ok response⟩ ↔
          Policy repository resolver request.remote listPath path asked response) := by
  intro canonical path
  have place : documentPath request.uri = path := rfl
  refine ⟨fun nowhere => ?_, fun somewhere => ?_⟩
  · have unlisted : Document.accessListPath (Document.canonical request.uri) = "" := by
      rw [show Document.canonical request.uri = "" from nowhere]
      decide +kernel
    have pathless : documentPath request.uri = "" := by
      rw [documentPath, show Document.canonical request.uri = "" from nowhere]
      rfl
    simp only [guardedFiles, behind, Gate.accessList, if_pos unlisted, Traced.bind, files,
      if_pos pathless]
    rfl
  · have there : path ≠ "" := by
      simp only [path]
      split
      · decide
      · exact somewhere
    have slash : '/' ∈ path.toList := documentPathRooted (place ▸ there)
    obtain ⟨asked, response, policy⟩ := policyTotal repository resolver request.remote
      (Document.accessListPath path) path
    have answered := guardedPolicy dated place there rfl policy
    refine ⟨Document.accessListPath path, Document.accessListPathBeside slash,
      ⟨asked, response, answered⟩, fun asked' response' => ⟨fun same => ?_, fun other => ?_⟩⟩
    · cases answered.symm.trans same
      exact policy
    · exact guardedPolicy dated place there rfl other

theorem guardedFilesByPolicyAtRoot :
    let list : File := ⟨false, .ok (Bytes.ofText "deny from 10.0.0.2\nallow from gate"), .ok 0⟩
    let index : File := ⟨true, .ok [104, 105], .ok 784111777⟩
    let repository : Repository := .ofFiles [("/.htaccess", list), ("/index.html", index)]
    let resolver : Resolver := .ofNames [("gate", [.ofOctets 10 0 0 1])]
    let request : Request := ⟨.get, "/x/..?q", "HTTP/1.0", [], [], .ofOctets 10 0 0 1⟩
    repository.Dated ∧
      guardedFiles repository resolver request =
        ⟨[.lookup "/.htaccess", .resolve "gate", .lookup "/index.html"],
          .ok (.build .ok [⟨"Content-Type", "text/html"⟩,
            ⟨"Last-Modified", "Sun, 06 Nov 1994 08:49:37 GMT"⟩] [104, 105])⟩ := by
  intro list index repository resolver request
  have dated : repository.Dated := by
    intro path file moment present modified
    simp only [repository, Repository.ofFiles, List.find?_cons, List.find?_nil] at present
    have either : file = list ∨ file = index := by
      split at present
      · exact .inl (Option.some.inj present).symm
      · split at present
        · exact .inr (Option.some.inj present).symm
        · cases present
    rcases either with rfl | rfl
    · cases modified
      decide
    · cases modified
      decide
  refine ⟨dated, ?_⟩
  have canonical : Document.canonical request.uri = "/" := by decide +kernel
  obtain ⟨listPath, beside, _, exact'⟩ :=
    (guardedFilesByPolicy repository resolver request dated).2 (by rw [canonical]; decide)
  simp only [canonical, if_true] at beside exact'
  have root : listPath = "/.htaccess" :=
    (Document.besideAccessList beside).symm.trans (by decide +kernel)
  subst root
  let rules : AccessList := [⟨false, .host (.ofOctets 10 0 0 2)⟩, ⟨true, .host (.ofOctets 10 0 0 1)⟩]
  have read : AccessList.read resolver (Bytes.lossyText (Bytes.ofText
      "deny from 10.0.0.2\nallow from gate")) = ⟨["gate"], .ok rules⟩ := by decide +kernel
  have allowed : ∀ rule, AccessList.Decides request.remote rules rule → rule.allow = true := by
    intro rule decides
    have second : rules.find? (·.block.contains request.remote) =
        some ⟨true, .host (.ofOctets 10 0 0 1)⟩ := by decide +kernel
    rw [AccessList.decidesFound, second] at decides
    cases decides
    rfl
  have listed : repository "/.htaccess" = some list := rfl
  have indexed : repository "/index.html" = some index := rfl
  have policy := Policy.served (.admitting listed rfl read allowed) (.document indexed rfl rfl rfl)
  have html : Document.mediaType "/index.html" = "text/html" := by decide +kernel
  have date : Date.ofSeconds 784111777 = "Sun, 06 Nov 1994 08:49:37 GMT" := by decide +kernel
  rw [html] at policy
  exact date ▸ (exact' _ _).mpr policy

end Service

end FileServer
