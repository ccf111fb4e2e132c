import FileServer.Document.Tree
import FileServer.Proofs.Document.Path

/-! What the path of a target names. Its segments are those that are left of the target's own once
each `..` has taken one back, and a target that climbs above the root on the way has none. Such
segments stay apart when they are joined, so the path is found again from them, both as a path and as
a place below the root of a tree. -/
namespace FileServer

namespace Document

def Ordinary (segment : List Char) : Prop :=
  segment ≠ [] ∧ segment ≠ ['.'] ∧ segment ≠ ['.', '.']

instance (segment : List Char) : Decidable (Ordinary segment) := inferInstanceAs (Decidable (_ ∧ _))

/-- Somewhere on its way the path has more steps up than segments to take back. -/
def Climbs (path : List Char) : Prop :=
  ∃ front, front <+: path.splitOn '/' ∧ front.countP (Ordinary ·) < front.count ['.', '.']

def Nowhere (uri : String) : Prop :=
  let path := uri.toList.takeWhile (· ≠ '?')
  path = [] ∨ Climbs path

/-- A path from the root on, and the segments it is made of. -/
structure Within (path : String) (segments : List String) : Prop where
  some' : segments ≠ []
  clean : ∀ s ∈ segments, s ≠ "" ∧ s ≠ "." ∧ s ≠ ".." ∧ '/' ∉ s.toList ∧ '?' ∉ s.toList
  joined : path = "/" ++ "/".intercalate segments

theorem pathPartTaken (uri : List Char) : pathPart uri = uri.takeWhile (· ≠ '?') := by
  have before {path : List Char} (fresh : '?' ∉ path) (rest : List Char) :
      (path ++ rest).takeWhile (· ≠ '?') = path ++ rest.takeWhile (· ≠ '?') := by
    refine List.takeWhile_append_of_pos fun c mem => decide_eq_true ?_
    rintro rfl
    exact fresh mem
  unfold pathPart
  split
  · next absent =>
    have fresh := Sequence.cutAbsent.mp absent
    rw [List.singleton_infix_iff] at fresh
    simpa using (before fresh []).symm
  · next path query found =>
    have cut := Sequence.cutSound found
    rw [cut.joined, List.append_assoc, before cut.fresh]
    simp

theorem pathPlain {path : List Char} (plain : '?' ∉ path) : pathPart path = path := by
  rw [pathPart, Sequence.cutAbsent.mpr (mt (List.singleton_infix_iff _ _).mp plain)]

section Folding

variable {stack segments out : List (List Char)}

theorem pushOrdinary {segment : List Char} (ordinary : Ordinary segment)
    (stack : List (List Char)) : push stack segment = some (segment :: stack) := by
  obtain ⟨some', here, up⟩ := ordinary
  simp only [push, some', here, up, or_self, if_false]

theorem foldOrdinary (ordinary : ∀ s ∈ segments, Ordinary s) (stack : List (List Char)) :
    segments.foldlM push stack = some (segments.reverse ++ stack) := by
  induction segments generalizing stack with
  | nil => rfl
  | cons segment rest ih =>
    have here := pushOrdinary (ordinary segment List.mem_cons_self) stack
    have later := ih (fun s mem => ordinary s (List.mem_cons_of_mem _ mem)) (segment :: stack)
    rw [List.foldlM_cons, here, Option.bind_eq_bind, Option.bind_some, later]
    simp

theorem pushCases {segment : List Char} (pushed : push stack segment = some out) :
    (segment = [] ∨ segment = ['.']) ∧ out = stack ∨
      segment = ['.', '.'] ∧ (∃ top, stack = top :: out) ∨
      Ordinary segment ∧ out = segment :: stack := by
  unfold push at pushed
  split at pushed
  · next still =>
    cases pushed
    exact .inl ⟨still, rfl⟩
  · next named =>
    split at pushed
    · next up =>
      split at pushed
      · cases pushed
      · cases pushed
        exact .inr (.inl ⟨up, _, rfl⟩)
    · next forward =>
      cases pushed
      exact .inr (.inr ⟨⟨fun h => named (.inl h), fun h => named (.inr h), forward⟩, rfl⟩)

theorem foldMem (folded : segments.foldlM push stack = some out) :
    ∀ s ∈ out, s ∈ stack ∨ s ∈ segments ∧ Ordinary s := by
  induction segments generalizing stack with
  | nil =>
    cases folded
    exact fun s mem => .inl mem
  | cons segment rest ih =>
    rw [List.foldlM_cons, Option.bind_eq_bind, Option.bind_eq_some_iff] at folded
    obtain ⟨next, pushed, folded⟩ := folded
    intro s mem
    rcases ih folded s mem with below | ⟨later, ordinary⟩
    · obtain ⟨_, rfl⟩ | ⟨_, top, rfl⟩ | ⟨ordinary, rfl⟩ := pushCases pushed
      · exact .inl below
      · exact .inl (List.mem_cons_of_mem _ below)
      · rcases List.mem_cons.mp below with rfl | below
        · exact .inr ⟨List.mem_cons_self, ordinary⟩
        · exact .inl below
    · exact .inr ⟨List.mem_cons_of_mem _ later, ordinary⟩

-- What a prefix has pushed and taken back is all that tells whether the next step up still has a
-- segment below it, so the stack counts beside the prefix.
theorem foldClimbs (segments stack : List (List Char)) :
    segments.foldlM push stack = none ↔
      ∃ front, front <+: segments ∧
        stack.length + front.countP (Ordinary ·) < front.count ['.', '.'] := by
  induction segments generalizing stack with
  | nil => simp
  | cons segment rest ih =>
    have begun : (∃ front, front <+: segment :: rest ∧
        stack.length + front.countP (Ordinary ·) < front.count ['.', '.']) ↔
        ∃ front, front <+: rest ∧ stack.length + (segment :: front).countP (Ordinary ·) <
          (segment :: front).count ['.', '.'] := by
      simp [List.prefix_cons_iff]
    rw [begun, List.foldlM_cons, Option.bind_eq_bind]
    by_cases still : segment = [] ∨ segment = ['.']
    · have plain : ¬ Ordinary segment ∧ (segment == ['.', '.']) = false := by
        rcases still with rfl | rfl <;> decide
      have pushed : push stack segment = some stack := if_pos still
      rw [pushed, Option.bind_some, ih]
      simp only [List.countP_cons, List.count_cons, plain, decide_false, Bool.false_eq_true, if_false,
        Nat.add_zero]
    · by_cases up : segment = ['.', '.']
      · subst up
        cases stack with
        | nil =>
          have pushed : push [] ['.', '.'] = none := rfl
          rw [pushed, Option.bind_none]
          exact iff_of_true rfl ⟨[], List.nil_prefix, by decide⟩
        | cons top below =>
          have pushed : push (top :: below) ['.', '.'] = some below := rfl
          have plain : ¬ Ordinary ['.', '.'] := by decide
          rw [pushed, Option.bind_some, ih]
          refine exists_congr fun front => and_congr_right fun _ => ?_
          simp only [List.countP_cons, List.count_cons_self, List.length_cons, plain, decide_false,
            Bool.false_eq_true, if_false]
          omega
      · have ordinary : Ordinary segment :=
          ⟨fun h => still (.inl h), fun h => still (.inr h), up⟩
        have forward : (segment == ['.', '.']) = false := beq_eq_false_iff_ne.mpr up
        rw [pushOrdinary ordinary, Option.bind_some, ih]
        refine exists_congr fun front => and_congr_right fun _ => ?_
        simp only [List.countP_cons, List.count_cons, List.length_cons, ordinary, forward, decide_true,
          Bool.false_eq_true, if_true, if_false]
        omega

end Folding

variable {uri path : String} {segments : List (List Char)}

def Clean (segment : List Char) : Prop := Ordinary segment ∧ '/' ∉ segment ∧ '?' ∉ segment

instance (segment : List Char) : Decidable (Clean segment) := inferInstanceAs (Decidable (_ ∧ _))

theorem canonicalNowhere : canonical uri = "" ↔ Nowhere uri := by
  unfold canonical Nowhere
  rw [pathPartTaken]
  simp only
  by_cases empty : uri.toList.takeWhile (· ≠ '?') = []
  · simp only [empty, if_true, true_or]
  · have climbs : segments? (uri.toList.takeWhile (· ≠ '?')) = none ↔
        Climbs (uri.toList.takeWhile (· ≠ '?')) := by
      rw [segments?, Sequence.piecesSplitOn, Option.map_eq_none_iff, foldClimbs]
      simp only [List.length_nil, Nat.zero_add]
      rfl
    simp only [empty, false_or, ← climbs]
    cases segments? (uri.toList.takeWhile (· ≠ '?')) with
    | none => exact iff_of_true rfl rfl
    | some segments => simp [joined]

theorem canonicalClean (somewhere : canonical uri ≠ "") :
    ∃ segments, segments? (pathPart uri.toList) = some segments ∧
      canonical uri = String.ofList (joined segments) ∧ ∀ s ∈ segments, Clean s := by
  unfold canonical at somewhere ⊢
  simp only at somewhere ⊢
  split at somewhere
  · exact absurd rfl somewhere
  · next some' =>
    rw [if_neg some']
    split at somewhere
    · exact absurd rfl somewhere
    · next segments found =>
      refine ⟨segments, found, rfl, ?_⟩
      obtain ⟨out, folded, rfl⟩ := Option.map_eq_some_iff.mp found
      intro s mem
      rcases foldMem folded s (List.mem_reverse.mp mem) with below | ⟨piece, ordinary⟩
      · cases below
      · have free := Sequence.piecesFree (List.cons_ne_nil '/' []) _ s piece
        rw [List.singleton_infix_iff] at free
        have inside : s <:+: uri.toList.takeWhile (· ≠ '?') := by
          rw [← pathPartTaken, ← (Sequence.piecesWhole ['/'] (pathPart uri.toList)).2]
          exact Sequence.pieceInside piece
        refine ⟨ordinary, free, fun question => ?_⟩
        have before := List.all_eq_true.mp List.all_takeWhile _ (inside.subset question)
        exact absurd before (by decide)

theorem joinedSlashes (some' : segments ≠ []) : joined segments = segments.flatMap ('/' :: ·) := by
  induction segments with
  | nil => exact absurd rfl some'
  | cons segment rest ih =>
    cases rest with
    | nil => simp [joined, List.intercalate]
    | cons next rest =>
      have later := ih (List.cons_ne_nil _ _)
      rw [joined] at later
      rw [joined, List.intercalate_cons_cons, List.append_assoc, List.singleton_append, later]
      rfl

theorem withinJoined (some' : segments ≠ []) (clean : ∀ s ∈ segments, Clean s) :
    Within (String.ofList (joined segments)) (segments.map String.ofList) := by
  refine ⟨mt List.map_eq_nil_iff.mp some', fun s mem => ?_, ?_⟩
  · obtain ⟨piece, there, rfl⟩ := List.mem_map.mp mem
    obtain ⟨⟨nonempty, here, up⟩, slashless, plain⟩ := clean piece there
    have differs {other : String} (differs : piece ≠ other.toList) : String.ofList piece ≠ other := by
      rintro rfl
      exact differs String.toList_ofList.symm
    rw [String.toList_ofList]
    exact ⟨differs nonempty, differs here, differs up, slashless, plain⟩
  · rw [← String.toList_inj]
    simp [joined, Function.comp_def]

theorem withinChars {segments : List String} (within : Within path segments) :
    path.toList = joined (segments.map String.toList) ∧ segments.map String.toList ≠ [] ∧
      ∀ s ∈ segments.map String.toList, Clean s := by
  obtain ⟨some', clean, rfl⟩ := within
  refine ⟨by simp [joined], mt List.map_eq_nil_iff.mp some', fun s mem => ?_⟩
  obtain ⟨segment, there, rfl⟩ := List.mem_map.mp mem
  obtain ⟨nonempty, here, up, slashless, plain⟩ := clean segment there
  have differs {other : String} (differs : segment ≠ other) : segment.toList ≠ other.toList :=
    mt String.toList_inj.mp differs
  exact ⟨⟨differs nonempty, differs here, differs up⟩, slashless, plain⟩

theorem piecesWithin (some' : segments ≠ []) (clean : ∀ s ∈ segments, Clean s) :
    Sequence.pieces ['/'] (['/'].intercalate segments) = segments := by
  rw [Sequence.piecesSplitOn]
  exact List.splitOn_intercalate '/' (fun s mem => (clean s mem).2.1) some'

theorem joinedPlain (clean : ∀ s ∈ segments, Clean s) : '?' ∉ joined segments := by
  rcases eq_or_ne segments [] with rfl | some'
  · decide
  · rw [joinedSlashes some', List.mem_flatMap]
    rintro ⟨s, there, mem⟩
    rcases List.mem_cons.mp mem with slash | inside
    · exact absurd slash (by decide)
    · exact (clean s there).2.2 inside

theorem segmentsJoined (clean : ∀ s ∈ segments, Clean s) :
    segments? (joined segments) = some segments := by
  rcases eq_or_ne segments [] with rfl | some'
  · decide +kernel
  · have first : ∀ s ∈ [] :: segments, '/' ∉ s := by
      intro s mem
      rcases List.mem_cons.mp mem with rfl | mem
      · exact List.not_mem_nil
      · exact (clean s mem).2.1
    have pieces : Sequence.pieces ['/'] (joined segments) = [] :: segments := by
      obtain ⟨next, rest, rfl⟩ := List.exists_cons_of_ne_nil some'
      have apart := List.splitOn_intercalate '/' first (List.cons_ne_nil _ _)
      rwa [List.intercalate_cons_cons, ← Sequence.piecesSplitOn] at apart
    have folded := foldOrdinary (fun s mem => (clean s mem).1) []
    have skipped : push [] [] = some [] := rfl
    rw [segments?, pieces, List.foldlM_cons, skipped, Option.bind_eq_bind, Option.bind_some, folded]
    simp

theorem canonicalJoined (clean : ∀ s ∈ segments, Clean s) :
    canonical (String.ofList (joined segments)) = String.ofList (joined segments) := by
  have whole := pathPlain (joinedPlain clean)
  have rooted : joined segments ≠ [] := List.cons_ne_nil _ _
  simp only [canonical, String.toList_ofList, whole, if_neg rooted, segmentsJoined clean]

theorem canonicalWithin {segments : List String} (within : Within path segments) :
    canonical path = path := by
  obtain ⟨chars, _, clean⟩ := withinChars within
  have same := canonicalJoined clean
  rwa [← chars, String.ofList_toList] at same

theorem locatedWithin {segments : List String} (within : Within path segments)
    (root : List String) : Tree.located root path = root ++ segments := by
  obtain ⟨chars, some', clean⟩ := withinChars within
  have undone : (segments.map String.toList).map String.ofList = segments := by
    simp [Function.comp_def]
  generalize segments.map String.toList = pieces at chars clean some' undone
  have slashless : (joined pieces).dropWhile (· == '/') = ['/'].intercalate pieces := by
    obtain ⟨first, rest, rfl⟩ := List.exists_cons_of_ne_nil some'
    obtain ⟨⟨nonempty, _⟩, slash, _⟩ := clean first List.mem_cons_self
    obtain ⟨c, cs, rfl⟩ := List.exists_cons_of_ne_nil nonempty
    have other : (c == '/') = false := by
      refine beq_eq_false_iff_ne.mpr ?_
      rintro rfl
      exact slash List.mem_cons_self
    have shape : ∃ more, ['/'].intercalate ((c :: cs) :: rest) = c :: more := by
      cases rest with
      | nil => exact ⟨cs, by simp [List.intercalate]⟩
      | cons next rest => exact ⟨_, by rw [List.intercalate_cons_cons]; rfl⟩
    obtain ⟨more, shape⟩ := shape
    simp only [joined, shape, List.dropWhile_cons, beq_self_eq_true, if_true, other,
      Bool.false_eq_true, if_false]
  rw [Tree.located, chars, slashless, Tree.names, String.toList_ofList, piecesWithin some' clean, undone]

theorem accessListPathJoined {last : List Char} (slashless : '/' ∉ last)
    (front : List (List Char)) :
    accessListPath (String.ofList (front.flatMap ('/' :: ·) ++ '/' :: last)) =
      String.ofList (joined (front ++ [".htaccess".toList])) := by
  have some' : front ++ [".htaccess".toList] ≠ [] := by simp
  rw [accessListPath, String.toList_ofList, Sequence.cutLastAt slashless, joinedSlashes some']
  rw [← String.toList_inj]
  simp only [String.toList_append, String.toList_ofList, List.flatMap_append]
  rfl

end Document

end FileServer
