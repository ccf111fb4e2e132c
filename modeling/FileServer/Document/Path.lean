import FileServer.Bytes
import FileServer.Surroundings
import FileServer.Sequence

/-! Documents by path. The path part of a request target is brought to the segments that remain once
each `..` has taken back the segment before it; a target that climbs above the root has no path, which
is written as the empty string. What a document is, the ending of its path tells; reading its contents
and reading the time of its last change can fail apart from each other. -/
namespace FileServer

namespace Document

def push (stack : List (List Char)) (segment : List Char) : Option (List (List Char)) :=
  if segment = [] ∨ segment = ['.'] then some stack
  else if segment = ['.', '.'] then
    match stack with
    | [] => none
    | _ :: below => some below
  else some (segment :: stack)

def segments? (path : List Char) : Option (List (List Char)) :=
  ((Sequence.pieces ['/'] path).foldlM push []).map List.reverse

def pathPart (uri : List Char) : List Char :=
  match Sequence.cut? ['?'] uri with
  | none => uri
  | some (path, _) => path

def joined (segments : List (List Char)) : List Char := '/' :: ['/'].intercalate segments

def canonical (uri : String) : String :=
  let path := pathPart uri.toList
  if path = [] then ""
  else
    match segments? path with
    | none => ""
    | some segments => String.ofList (joined segments)

def accessListPath (path : String) : String :=
  match Sequence.cutLast? '/' path.toList with
  | none => ""
  | some (directory, _) => String.ofList directory ++ "/.htaccess"

end Document

namespace Document

def mediaType (path : String) : String :=
  match (Sequence.cutLast? '.' path.toList).map fun (_, ending) => String.ofList ending with
  | some "html" => "text/html"
  | some "jpg" => "image/jpeg"
  | some "png" => "image/png"
  | _ => "text/plain"

end Document

structure File where
  worldReadable : Bool
  contents : Except Failure Bytes
  modified : Except Failure Int

abbrev Repository := String → Option File

def Repository.ofFiles (files : List (String × File)) : Repository := fun path =>
  (files.find? (·.1 == path)).map (·.2)

end FileServer
