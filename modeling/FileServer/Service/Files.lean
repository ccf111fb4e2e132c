import FileServer.AccessList.Reader
import FileServer.Document.Path
import FileServer.Message.Response

/-! Gates decide whether a request reaches a service: one that refuses answers 403, one that cannot
decide answers 500, and the service behind it is left alone. The service of files answers 404 where
there is no file, 403 where not everyone may read it, 500 where reading fails. The root stands for its
index. -/
namespace FileServer

inductive GateFault
  | unreadable (cause : Failure)
  | accessList (cause : RuleFault)
  deriving DecidableEq, Repr

namespace GateFault

def causeText : GateFault → String
  | .unreadable cause => cause.text
  | .accessList cause => cause.message

def message : GateFault → String
  | .unreadable cause => "reading access list failed: " ++ cause.text
  | .accessList cause => "invalid access list: " ++ cause.message

end GateFault

abbrev Verdict := Except GateFault Bool

abbrev Gate := Request → Traced Effect Verdict

namespace Gate

def fixed (verdict : Verdict) : Gate := fun _ => ⟨[], verdict⟩

def judge (resolver : Resolver) (remote : Address) (contents : Bytes) : Traced Effect Verdict :=
  ((AccessList.read resolver (Bytes.lossyText contents)).relabel Effect.resolve).map fun
    | .ok rules => .ok (rules.admits remote)
    | .error fault => .error (.accessList fault)

def accessList (repository : Repository) (resolver : Resolver) : Gate := fun r =>
  let path := Document.accessListPath (Document.canonical r.uri)
  if path = "" then ⟨[], .ok true⟩
  else
    Traced.bind ⟨[.lookup path], repository path⟩ fun
      | none => ⟨[], .ok true⟩
      | some file =>
        match file.contents with
        | .error failure => ⟨[], .error (.unreadable failure)⟩
        | .ok contents => judge resolver r.remote contents

end Gate

def Service.behind (gate : Gate) (inner : Service) : Service := fun r =>
  (gate r).bind fun
    | .ok true => inner r
    | .ok false => ⟨[], .ok (.bare .forbidden)⟩
    | .error _ => ⟨[], .ok (.bare .internalError)⟩

namespace Service

def fileAnswer (path : String) (file : File) : Except DateFault Response :=
  if file.worldReadable then
    match file.contents with
    | .error _ => .ok (.bare .internalError)
    | .ok contents =>
      match file.modified with
      | .error _ => .ok (.bare .internalError)
      | .ok moment => Response.document contents (Document.mediaType path) moment
  else .ok (.bare .forbidden)

def documentPath (uri : String) : String :=
  let path := Document.canonical uri
  if path = "/" then "/index.html" else path

def files (repository : Repository) : Service := fun r =>
  let path := documentPath r.uri
  if path = "" then ⟨[], .ok (.bare .notFound)⟩
  else
    ⟨[.lookup path],
      match repository path with
      | none => .ok (.bare .notFound)
      | some file => fileAnswer path file⟩

def guardedFiles (repository : Repository) (resolver : Resolver) : Service :=
  (files repository).behind (.accessList repository resolver)

end Service

end FileServer
