import FileServer.Conversation.Session
import FileServer.Document.Tree
import FileServer.Launch.Program

/-! The program. It takes in the files under the document root, and holds one conversation with the
peer at its standard input and output. -/
namespace FileServer.Program

def readFile (path : String) : IO (Except Failure Bytes) := do
  try
    let contents ← IO.FS.readBinFile path
    return .ok contents.data.toList
  catch _ => return .error .notFound

def take (tree : Tree) (place : List String) (modified : Int) (contents : Except Failure Bytes) :
    Tree :=
  match contents with
  | .ok contents => tree.insert place (.file 0o644 contents modified)
  | .error _ => tree

partial def takeIn (tree : Tree) (entries : Array IO.FS.DirEntry) (place : List String) :
    IO Tree := do
  let mut tree := tree
  for entry in entries do
    let inner := place ++ [entry.fileName]
    let data ← entry.path.metadata
    if data.type == .dir then tree ← takeIn tree (← entry.path.readDir) inner
    else tree := take tree inner data.modified.sec (← readFile entry.path.toString)
  return tree

def printNew (old new : Session) : IO Unit := do
  let output ← IO.getStdout
  output.write ⟨(new.pipe.written.drop old.pipe.written.length).toArray⟩
  output.flush

partial def converse (context : Context) (session : Session) (start : Option Start) :
    IO UInt32 := do
  let input ← IO.getStdin
  let bytes ← if start.isSome then pure .empty else input.read 8192
  let step : Step :=
    { feed := bytes.data.toList, close := start.isNone && bytes.isEmpty, start? := start }
  let (_, next) := session.perform context step
  printNew session next
  match next.next with
  | .ended => return 0
  | .aborted fault =>
    (← IO.getStderr).putStrLn fault.message
    return 101
  | .waits _ => converse context next none

def serve (plan : Plan) : IO UInt32 := do
  let root := (← IO.currentDir) / plan.root
  let entries ← try root.readDir catch _ => pure #[]
  let tree ← takeIn {} entries []
  let context : Context :=
    ⟨plan.settings.limits, .ofOctets 127 0 0 1, service (tree.repository [])⟩
  converse context { pipe := { chunk := plan.settings.readChunk } } (some .serve)

def run (arguments : List String) : IO UInt32 := do
  let errors ← IO.getStderr
  let config ← match Arguments.read arguments with
    | .ok { config := some file, .. } => readFile file
    | _ => pure (.ok [])
  match start arguments (← IO.getEnv "LISTEN") (fun _ => config) with
  | .notice text =>
    errors.putStr text
    return 1
  | .failed message =>
    errors.putStrLn (name ++ ": " ++ message)
    return 1
  | .serves plan => serve plan

end FileServer.Program

def main (arguments : List String) : IO UInt32 := FileServer.Program.run arguments
