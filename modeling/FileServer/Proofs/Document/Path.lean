import FileServer.Document.Path
import FileServer.Proofs.Sequence

/-! Canonical paths and the access lists beside them. A target that has a path has one from the root
on, an access list is told by its last segment, and documents in one directory share theirs. -/
namespace FileServer.Document

def lastSegment (path : String) : String :=
  match Sequence.cutLast? '/' path.toList with
  | none => path
  | some (_, segment) => String.ofList segment

theorem canonicalRooted (uri : String) :
    canonical uri = "" ∨ ∃ rest, (canonical uri).toList = '/' :: rest := by
  by_cases empty : pathPart uri.toList = []
  · exact .inl (by simp only [canonical, if_pos empty])
  · simp only [canonical, if_neg empty]
    cases segments? (pathPart uri.toList) with
    | none => exact .inl rfl
    | some segments => exact .inr ⟨['/'].intercalate segments, String.toList_ofList⟩

theorem accessListPathOther (path : String) :
    accessListPath path = "" ∨ lastSegment (accessListPath path) = ".htaccess" := by
  unfold accessListPath
  cases cut : Sequence.cutLast? '/' path.toList with
  | none => exact .inl rfl
  | some pieces =>
    obtain ⟨directory, segment⟩ := pieces
    have whole : (String.ofList directory ++ "/.htaccess").toList =
        directory ++ '/' :: ".htaccess".toList := by
      rw [String.toList_append, String.toList_ofList]
      rfl
    have fresh : '/' ∉ ".htaccess".toList := by decide
    refine .inr ?_
    rw [lastSegment, whole, Sequence.cutLastAt fresh]
    exact String.ofList_toList

inductive Beside : String → String → Prop where
  | intro (directory segment : String) (last : '/' ∉ segment.toList) :
      Beside (directory ++ "/" ++ segment) (directory ++ "/.htaccess")

theorem accessListPathBeside {path : String} (slash : '/' ∈ path.toList) :
    Beside path (accessListPath path) := by
  obtain ⟨⟨directory, segment⟩, cut⟩ := Option.isSome_iff_exists.mp (Sequence.cutLastPresent slash)
  obtain ⟨joined, fresh⟩ := Sequence.cutLastSound cut
  have whole : path = String.ofList directory ++ "/" ++ String.ofList segment := by
    rw [← String.toList_inj, joined]
    simp only [String.toList_append, String.toList_ofList, List.append_assoc]
    rfl
  simp only [accessListPath, cut]
  rw [whole]
  refine .intro _ _ ?_
  rwa [String.toList_ofList]

theorem besideAccessList {path list : String} (beside : Beside path list) :
    accessListPath path = list := by
  cases beside with
  | intro directory segment last =>
    have whole : (directory ++ "/" ++ segment).toList =
        directory.toList ++ '/' :: segment.toList := by
      simp only [String.toList_append, List.append_assoc]
      rfl
    simp only [accessListPath, whole, Sequence.cutLastAt last, String.ofList_toList]

theorem accessListPathThere {path : String} (slash : '/' ∈ path.toList) :
    accessListPath path ≠ "" := by
  obtain ⟨⟨directory, segment⟩, cut⟩ := Option.isSome_iff_exists.mp (Sequence.cutLastPresent slash)
  simp only [accessListPath, cut]
  intro empty
  have same := congrArg String.toList empty
  rw [String.toList_append] at same
  exact absurd (List.append_eq_nil_iff.mp same).2 (by decide)

end FileServer.Document
