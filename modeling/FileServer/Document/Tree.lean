import FileServer.Document.Path

/-! A tree of directories, files and symbolic links, and the repository that the part of it under a
root makes up. Links are followed, at most forty on one way; a link may lead out of the root. -/
namespace FileServer

inductive Entry
  | file (mode : Nat) (contents : Bytes) (modified : Int)
  | directory
  | link (target : String)
  deriving DecidableEq, Repr

structure Tree where
  entries : List (List String × Entry) := []
  deriving DecidableEq, Repr

namespace Tree

def names (path : String) : List String :=
  (Sequence.pieces ['/'] path.toList).map String.ofList

def entry? (t : Tree) (place : List String) : Option Entry :=
  if place = [] then some .directory else (t.entries.find? (·.1 == place)).map (·.2)

def longestName : Nat := 255

def longestPath : Nat := 4095

def mostLinks : Nat := 40

def walk (t : Tree) (links : Nat) (place : List String) (rest : List String) :
    Except Failure (List String) :=
  match rest with
  | [] => .ok place
  | name :: rest =>
    if t.entry? place ≠ some .directory then .error .notADirectory
    else if name = "" ∨ name = "." then walk t links place rest
    else if name = ".." then walk t links place.dropLast rest
    else if longestName < name.utf8ByteSize then .error .nameTooLong
    else
      match t.entry? (place ++ [name]), links with
      | none, _ => .error .notFound
      | some (.link _), 0 => .error .linkLoop
      | some (.link target), links + 1 =>
        let start := if target.startsWith "/" then [] else place
        walk t links start (names target ++ rest)
      | some _, links => walk t links (place ++ [name]) rest
termination_by (links, rest.length)

def find (t : Tree) (path : List String) : Except Failure Entry :=
  if path.any fun name => name.toList.contains (Char.ofNat 0) then .error .embeddedNul
  else if longestPath < ("/".intercalate path).utf8ByteSize then .error .nameTooLong
  else
    (t.walk mostLinks [] path).bind fun place =>
      match t.entry? place with
      | some entry => .ok entry
      | none => .error .notFound

def isWorldReadable (mode : Nat) : Bool := mode.testBit 2

def fileAt (t : Tree) (path : List String) : File :=
  match t.find path with
  | .ok (.file mode contents modified) => ⟨isWorldReadable mode, .ok contents, .ok modified⟩
  | .ok _ => ⟨true, .error .isADirectory, .ok 0⟩
  | .error cause => ⟨false, .error cause, .error cause⟩

def located (root : List String) (path : String) : List String :=
  root ++ names (String.ofList (path.toList.dropWhile (· == '/')))

def repository (t : Tree) (root : List String) : Repository := fun path =>
  match t.find (located root path) with
  | .ok (.file _ _ _) => some (t.fileAt (located root path))
  | _ => none

def above (place : List String) : List (List String) :=
  (List.range place.length).tail.map place.take

def remove (t : Tree) (place : List String) : Tree := ⟨t.entries.filter (·.1 != place)⟩

def insert (t : Tree) (place : List String) (entry : Entry) : Tree :=
  let missing := (above place).filter fun directory => (t.entry? directory).isNone
  ⟨(place, entry) :: missing.map (·, .directory) ++ (t.remove place).entries⟩

def makeWay? (t : Tree) (place : List String) : List String → Option (Tree × List String)
  | [] => some (t, place)
  | name :: rest =>
    match t.walk mostLinks place [name] with
    | .ok next => if t.entry? next = some .directory then makeWay? t next rest else none
    | .error cause =>
      let next := place ++ [name]
      if cause = .notFound ∧ t.entry? next = none then makeWay? (t.insert next .directory) next rest
      else none

def vacant? (t : Tree) (directory : List String) (name : String) : Option (List String) :=
  match t.walk 0 directory [name] with
  | .error cause => if cause = .notFound then some (directory ++ [name]) else none
  | .ok _ => none

def writable? (t : Tree) (links : Nat) (directory : List String) (name : String) :
    Option (List String) :=
  match t.walk links directory [name], links with
  | .ok place, _ =>
    match t.entry? place with
    | some (.file _ _ _) => some place
    | _ => none
  | .error _, links + 1 =>
    match t.entry? (directory ++ [name]) with
    | some (.link target) => do
      let start := if target.startsWith "/" then [] else directory
      let next ← (t.walk links start (names target).dropLast).toOption
      t.writable? links next (← (names target).getLast?)
    | _ => t.vacant? directory name
  | .error _, 0 => t.vacant? directory name

/-- Puts an entry where a path leads, through directories that are made if they are missing. Only a
file takes another's place, and only another file's, and a link has a target. -/
def put? (t : Tree) (path : List String) (entry : Entry) : Option Tree :=
  match entry with
  | .directory => (t.makeWay? [] path).map (·.1)
  | .file _ _ _ => do
    let (t, directory) ← t.makeWay? [] path.dropLast
    return t.insert (← t.writable? mostLinks directory (← path.getLast?)) entry
  | .link target => do
    guard (target ≠ "")
    let (t, directory) ← t.makeWay? [] path.dropLast
    return t.insert (← t.vacant? directory (← path.getLast?)) entry

def removable? (t : Tree) (path : List String) : Option (List String) :=
  match path.getLast?, t.walk mostLinks [] path.dropLast with
  | some name, .ok directory =>
    match t.entry? directory, t.entry? (directory ++ [name]) with
    | some .directory, some .directory => none
    | some .directory, some _ => some (directory ++ [name])
    | _, _ => none
  | _, _ => none

end Tree

end FileServer
