import FileServer.Proofs.Document.Segments

/-! Canonical paths, told without a stack. Steps up and the segments they take back match as brackets
do; a canonical path is made of the ordinary segments that no step up has matched. It is its own
canonical path, and stands for the path it came from in front of anything. -/
namespace FileServer.Document

inductive Balanced : List (List Char) → Prop where
  | nothing : Balanced []
  | idle {segment rest} (still : segment = [] ∨ segment = ['.']) (later : Balanced rest) :
      Balanced (segment :: rest)
  | pair {segment between rest} (ordinary : Ordinary segment) (inner : Balanced between)
      (later : Balanced rest) : Balanced (segment :: (between ++ ['.', '.'] :: rest))

-- Between two segments that are kept all is balanced, so a step up has always matched the nearest
-- ordinary segment before it that was still unmatched.
inductive Remains : List (List Char) → List (List Char) → Prop where
  | nothing {segments} (balanced : Balanced segments) : Remains segments []
  | kept {front kept segment back} (before : Remains front kept) (ordinary : Ordinary segment)
      (behind : Balanced back) : Remains (front ++ segment :: back) (kept ++ [segment])

variable {segments front back kept out : List (List Char)} {segment : List Char}

theorem Balanced.append (h : Balanced front) (behind : Balanced back) :
    Balanced (front ++ back) := by
  induction h with
  | nothing => exact behind
  | idle still later ih => exact .idle still ih
  | pair ordinary inner later _ ih =>
    rw [List.cons_append, List.append_assoc, List.cons_append]
    exact .pair ordinary inner ih

theorem Balanced.fold (h : Balanced segments) (stack : List (List Char)) :
    segments.foldlM push stack = some stack := by
  induction h generalizing stack with
  | nothing => rfl
  | idle still later ih =>
    have skipped : push stack _ = some stack := if_pos still
    rw [List.foldlM_cons, skipped, Option.bind_eq_bind, Option.bind_some, ih]
  | @pair segment between rest ordinary inner later ih ih' =>
    have taken : push (segment :: stack) ['.', '.'] = some stack := rfl
    rw [List.foldlM_cons, pushOrdinary ordinary, Option.bind_eq_bind, Option.bind_some,
      List.foldlM_append, ih, Option.bind_eq_bind, Option.bind_some, List.foldlM_cons, taken,
      Option.bind_eq_bind, Option.bind_some, ih']

theorem Remains.append (h : Remains segments kept) (behind : Balanced back) :
    Remains (segments ++ back) kept := by
  cases h with
  | nothing balanced => exact .nothing (balanced.append behind)
  | kept before ordinary between =>
    rw [List.append_assoc]
    exact .kept before ordinary (between.append behind)

theorem Remains.stepUp (h : Remains segments (kept ++ [segment])) :
    Remains (segments ++ [['.', '.']]) kept := by
  generalize whole : kept ++ [segment] = all at h
  cases h with
  | nothing balanced => simp at whole
  | @kept front kept' segment' back before ordinary behind =>
    obtain ⟨rfl, _⟩ := List.append_inj' whole rfl
    rw [List.append_assoc]
    exact before.append (.pair ordinary behind .nothing)

theorem Remains.fold (h : Remains segments kept) :
    segments.foldlM push [] = some kept.reverse := by
  induction h with
  | nothing balanced => exact balanced.fold []
  | kept before ordinary behind ih =>
    rw [List.foldlM_append, ih, Option.bind_eq_bind, Option.bind_some, List.foldlM_cons,
      pushOrdinary ordinary, Option.bind_eq_bind, Option.bind_some, behind.fold,
      List.reverse_concat]

-- On the last segment: what it does to the stack is what it does to what remained before it.
theorem foldRemains (folded : segments.foldlM push [] = some out) : Remains segments out.reverse := by
  induction segments using List.reverseRecOn generalizing out with
  | nil =>
    cases folded
    exact .nothing .nothing
  | append_singleton segments segment ih =>
    rw [List.foldlM_append, Option.bind_eq_bind, Option.bind_eq_some_iff] at folded
    obtain ⟨stack, before, pushed⟩ := folded
    rw [List.foldlM_cons, Option.bind_eq_bind, Option.bind_eq_some_iff] at pushed
    obtain ⟨_, pushed, ⟨⟩⟩ := pushed
    have remains := ih before
    obtain ⟨still, rfl⟩ | ⟨rfl, top, rfl⟩ | ⟨ordinary, rfl⟩ := pushCases pushed
    · exact remains.append (.idle still .nothing)
    · rw [List.reverse_cons] at remains
      exact remains.stepUp
    · rw [List.reverse_cons]
      exact .kept remains ordinary .nothing

theorem segmentsRemain {path : List Char} :
    segments? path = some kept ↔ Remains (path.splitOn '/') kept := by
  rw [segments?, Sequence.piecesSplitOn, Option.map_eq_some_iff]
  constructor
  · rintro ⟨out, folded, rfl⟩
    exact foldRemains folded
  · intro remains
    exact ⟨kept.reverse, remains.fold, List.reverse_reverse kept⟩

theorem canonicalTwice (uri : String) : canonical (canonical uri) = canonical uri := by
  by_cases nowhere : canonical uri = ""
  · rw [nowhere]
    decide +kernel
  · obtain ⟨segments, _, spelled, clean⟩ := canonicalClean nowhere
    rw [spelled, canonicalJoined clean]

theorem segmentsBehind {a a' : List Char} (same : segments? a = segments? a') (b : List Char) :
    segments? (a ++ '/' :: b) = segments? (a' ++ '/' :: b) := by
  have folded : (a.splitOn '/').foldlM push [] = (a'.splitOn '/').foldlM push [] := by
    rw [segments?, segments?, Sequence.piecesSplitOn, Sequence.piecesSplitOn] at same
    exact Option.map_injective List.reverse_injective same
  simp only [segments?, Sequence.piecesSplitOn, List.splitOn_append_cons_self, List.foldlM_append,
    folded]

theorem canonicalBehind {a a' b : String} (plain : '?' ∉ a.toList) (plain' : '?' ∉ a'.toList)
    (query : '?' ∉ b.toList) (same : segments? a.toList = segments? a'.toList) :
    canonical (a ++ "/" ++ b) = canonical (a' ++ "/" ++ b) := by
  have path {a : String} (plain : '?' ∉ a.toList) :
      pathPart (a ++ "/" ++ b).toList = a.toList ++ '/' :: b.toList := by
    have whole : (a ++ "/" ++ b).toList = a.toList ++ '/' :: b.toList := by
      simp only [String.toList_append, List.append_assoc]
      rfl
    rw [whole, pathPlain]
    simp [plain, query]
  have some' (a : String) : a.toList ++ '/' :: b.toList ≠ [] := by simp
  simp only [canonical, path plain, path plain', if_neg (some' _), segmentsBehind same]

/-- A canonical path is empty where the path of the target is, and where the path climbs above the
root at some point; else it has a slash before each segment that remains, or before nothing. It is
its own canonical path, and in front of another path it stands for the one that it came from. -/
theorem canonicalExact :
    (∀ uri : String, let path := uri.toList.takeWhile (· ≠ '?')
      (canonical uri = "" ↔ path = [] ∨ Climbs path) ∧
      (canonical uri ≠ "" → ∃ segments,
        (∀ kept, Remains (path.splitOn '/') kept ↔ kept = segments) ∧
          canonical uri = "/" ++ "/".intercalate (segments.map String.ofList)) ∧
      canonical (canonical uri) = canonical uri) ∧
    ∀ a b : String, '?' ∉ a.toList → '?' ∉ b.toList → canonical a ≠ "" →
      canonical (a ++ "/" ++ b) = canonical (canonical a ++ "/" ++ b) := by
  refine ⟨fun uri => ⟨canonicalNowhere, fun somewhere => ?_, canonicalTwice uri⟩, ?_⟩
  · obtain ⟨segments, found, spelled, _⟩ := canonicalClean somewhere
    rw [pathPartTaken] at found
    refine ⟨segments, fun kept => ?_, ?_⟩
    · rw [← segmentsRemain, found, Option.some.injEq]
      exact eq_comm
    · rw [spelled, ← String.toList_inj]
      simp [joined, Function.comp_def]
  · intro a b plain plain' somewhere
    obtain ⟨segments, found, spelled, clean⟩ := canonicalClean somewhere
    have same : (canonical a).toList = joined segments := by
      rw [spelled, String.toList_ofList]
    refine canonicalBehind plain (same ▸ joinedPlain clean) plain' ?_
    rw [same, segmentsJoined clean, ← found, pathPlain plain]

theorem canonicalExactAcrossSeam :
    let target := "a/b/../../c//./d/..?/../.."
    canonical target ≠ "" ∧
      (∃ segments, Remains ("a/b/../../c//./d/..".toList.splitOn '/') segments ∧
        canonical target = "/" ++ "/".intercalate (segments.map String.ofList)) ∧
      canonical "a/../b" ≠ "" ∧ canonical ("a/../b" ++ "/" ++ "../c") =
        canonical (canonical "a/../b" ++ "/" ++ "../c") := by
  intro target
  have somewhere : canonical target ≠ "" := by decide +kernel
  have front : canonical "a/../b" ≠ "" := by decide +kernel
  have path : target.toList.takeWhile (· ≠ '?') = "a/b/../../c//./d/..".toList := by decide +kernel
  obtain ⟨each, behind⟩ := canonicalExact
  obtain ⟨segments, remains, spelled⟩ := (each target).2.1 somewhere
  rw [path] at remains
  have joined := behind "a/../b" "../c" (by decide +kernel) (by decide +kernel) front
  exact ⟨somewhere, ⟨segments, (remains segments).mpr rfl, spelled⟩, front, joined⟩

end FileServer.Document
