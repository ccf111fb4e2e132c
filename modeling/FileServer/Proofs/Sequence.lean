import Mathlib.Data.List.Infix
import FileServer.Sequence

/-! Cuts as a relation. A cut stands at the first place where the separator occurs, so what comes
behind it does not move it, and pieces that are free of the separator come apart as they were
joined. -/
namespace FileServer.Sequence

variable {α : Type} {sep xs before after : List α}

inductive Cut (sep : List α) : List α → List α → List α → Prop where
  | here (after : List α) : Cut sep (sep ++ after) [] after
  | later {x xs before after} (absent : ¬ sep <+: x :: xs) (next : Cut sep xs before after) :
      Cut sep (x :: xs) (x :: before) after

theorem Cut.joined (h : Cut sep xs before after) : xs = before ++ sep ++ after := by
  induction h with
  | here after => rfl
  | later absent next ih => simp [ih]

theorem cutOfAbsent (after : List α) (absent : ¬ sep <:+: before ++ sep.dropLast) :
    Cut sep (before ++ sep ++ after) before after := by
  induction before with
  | nil => exact .here after
  | cons x before ih =>
    have tail : ¬ sep <:+: before ++ sep.dropLast := fun inside =>
      absent (inside.trans (List.suffix_cons x _).isInfix)
    refine .later ?_ (ih tail)
    intro front
    have short : x :: before ++ sep.dropLast <+: x :: (before ++ sep ++ after) := by
      have := List.dropLast_prefix sep
      rw [List.append_assoc, ← List.cons_append, List.prefix_append_right_inj]
      exact this.trans (List.prefix_append sep after)
    have bound : sep.length ≤ (x :: before ++ sep.dropLast).length := by
      simp only [List.length_append, List.length_cons, List.length_dropLast]
      omega
    exact absent (List.prefix_of_prefix_length_le front short bound).isInfix

theorem cutOfFree {a b : α} {rest : List α} (after : List α) (different : a ≠ b)
    (free : b ∉ before) :
    Cut (a :: b :: rest) (before ++ (a :: b :: rest) ++ after) before after := by
  induction before with
  | nil => exact .here after
  | cons x before ih =>
    refine .later ?_ (ih fun mem => free (List.mem_cons_of_mem _ mem))
    intro front
    have second := (List.cons_prefix_cons.mp front).2
    cases before with
    | nil => exact different (List.cons_prefix_cons.mp second).1.symm
    | cons y before =>
      obtain ⟨rfl, _⟩ := List.cons_prefix_cons.mp second
      exact free (List.mem_cons_of_mem _ List.mem_cons_self)

theorem Cut.fresh {x : α} {xs before after : List α} (h : Cut [x] xs before after) :
    x ∉ before := by
  induction h with
  | here after => exact List.not_mem_nil
  | later absent next ih =>
    intro mem
    rcases List.mem_cons.mp mem with rfl | mem
    · exact absent (List.cons_prefix_cons.mpr ⟨rfl, List.nil_prefix⟩)
    · exact ih mem

theorem Cut.extend (h : Cut sep xs before after) (ys : List α) :
    Cut sep (xs ++ ys) before (after ++ ys) := by
  induction h with
  | here after =>
    rw [List.append_assoc]
    exact .here (after ++ ys)
  | @later x xs before after absent next ih =>
    refine .later ?_ ih
    intro front
    have bound : sep.length ≤ (x :: xs).length := by
      have := congrArg List.length next.joined
      simp only [List.length_append] at this
      simp only [List.length_cons]
      omega
    exact absent (List.prefix_of_prefix_length_le front (List.prefix_append _ ys) bound)

section Pairs

variable {a b x : α} {line left right rest : List α}

theorem pairAcross (fromFirst : x ≠ a) (fromSecond : x ≠ b) (inLeft : ¬ [a, b] <:+: left)
    (inRight : ¬ [a, b] <:+: right) : ¬ [a, b] <:+: left ++ x :: right := by
  induction left with
  | nil =>
    intro inside
    rcases List.infix_cons_iff.mp inside with front | later
    · exact fromFirst (List.cons_prefix_cons.mp front).1.symm
    · exact inRight later
  | cons y left ih =>
    intro inside
    rcases List.infix_cons_iff.mp inside with front | later
    · obtain ⟨rfl, second⟩ := List.cons_prefix_cons.mp front
      cases left with
      | nil => exact fromSecond (List.cons_prefix_cons.mp second).1.symm
      | cons z left =>
        obtain ⟨rfl, _⟩ := List.cons_prefix_cons.mp second
        exact inLeft (List.prefix_append [a, b] left).isInfix
    · exact ih (fun inside => inLeft (inside.trans (List.suffix_cons y left).isInfix)) later

theorem pairBeforeFirst (different : a ≠ b) (free : ¬ [a, b] <:+: line) :
    ¬ [a, b] <:+: line ++ [a, b].dropLast := by
  intro inside
  rcases List.infix_concat_iff.mp inside with ⟨front, joined⟩ | inside
  · have last : front ++ [a] ++ [b] = line ++ [a] := by simpa using joined
    have same : [b] = [a] := List.append_inj_right' last rfl
    exact different (List.cons.inj same).1.symm
  · exact free inside

theorem pairBeyond (different : a ≠ b) (nonempty : line ≠ []) (free : ¬ [a, b] <:+: line) :
    ¬ [a, b] <+: line ++ a :: rest := by
  intro front
  cases line with
  | nil => exact nonempty rfl
  | cons y line =>
    obtain ⟨rfl, second⟩ := List.cons_prefix_cons.mp front
    cases line with
    | nil => exact different (List.cons_prefix_cons.mp second).1.symm
    | cons z line =>
      obtain ⟨rfl, _⟩ := List.cons_prefix_cons.mp second
      exact free (List.prefix_append [a, b] line).isInfix

theorem doubleAcross (different : a ≠ b) (free : ¬ [a, b] <:+: line) (front : ¬ [a, b] <+: rest)
    (absent : ¬ [a, b, a, b] <:+: rest) : ¬ [a, b, a, b] <:+: line ++ a :: b :: rest := by
  induction line with
  | nil =>
    intro inside
    rcases List.infix_cons_iff.mp inside with here | inside
    · exact front (List.cons_prefix_cons.mp (List.cons_prefix_cons.mp here).2).2
    · rcases List.infix_cons_iff.mp inside with here | inside
      · exact different (List.cons_prefix_cons.mp here).1
      · exact absent inside
  | cons y line ih =>
    intro inside
    rcases List.infix_cons_iff.mp inside with here | inside
    · obtain ⟨rfl, second⟩ := List.cons_prefix_cons.mp here
      cases line with
      | nil => exact different (List.cons_prefix_cons.mp second).1.symm
      | cons z line =>
        obtain ⟨rfl, _⟩ := List.cons_prefix_cons.mp second
        exact free (List.prefix_append [a, b] line).isInfix
    · exact ih (fun inside => free (inside.trans (List.suffix_cons y line).isInfix)) inside

theorem doubleAbsent (different : a ≠ b) {lines : List (List α)} (some' : lines ≠ [])
    (nonempty : ∀ line ∈ lines, line ≠ []) (free : ∀ line ∈ lines, ¬ [a, b] <:+: line) :
    ¬ [a, b, a, b] <:+: [a, b].intercalate lines ++ [a, b, a, b].dropLast := by
  have whole : ¬ [a, b] <+: [a, b].intercalate lines ++ [a, b, a] ∧
      ¬ [a, b, a, b] <:+: [a, b].intercalate lines ++ [a, b, a] := by
    induction lines with
    | nil => exact absurd rfl some'
    | cons line rest ih =>
      have here := free line List.mem_cons_self
      have something := nonempty line List.mem_cons_self
      cases rest with
      | nil =>
        have joined : [a, b].intercalate [line] = line := by simp [List.intercalate]
        rw [joined]
        refine ⟨pairBeyond different something here, doubleAcross different here ?_ ?_⟩
        · exact fun front => absurd front.length_le (by simp)
        · exact fun inside => absurd inside.length_le (by simp)
      | cons next rest =>
        have joined : [a, b].intercalate (line :: next :: rest) ++ [a, b, a] =
            line ++ a :: b :: ([a, b].intercalate (next :: rest) ++ [a, b, a]) := by
          simp [List.intercalate]
        obtain ⟨front, absent⟩ := ih (List.cons_ne_nil _ _)
          (fun l mem => nonempty l (List.mem_cons_of_mem _ mem))
          (fun l mem => free l (List.mem_cons_of_mem _ mem))
        rw [joined]
        exact ⟨pairBeyond different something here, doubleAcross different here front absent⟩
  exact whole.2

end Pairs

theorem pieceInside {piece : List α} {lines : List (List α)} (mem : piece ∈ lines) :
    piece <:+: sep.intercalate lines := by
  induction lines with
  | nil => cases mem
  | cons line rest ih =>
    cases rest with
    | nil =>
      obtain rfl := List.mem_singleton.mp mem
      simp [List.intercalate]
    | cons next rest =>
      rw [List.intercalate_cons_cons, List.append_assoc]
      rcases List.mem_cons.mp mem with rfl | later
      · exact (List.prefix_append _ _).isInfix
      · exact (ih later).trans ((List.suffix_append _ _).trans (List.suffix_append _ _)).isInfix

theorem itemInside {x : α} {lines : List (List α)} (mem : x ∈ sep.intercalate lines) :
    x ∈ sep ∨ ∃ line ∈ lines, x ∈ line := by
  induction lines with
  | nil => cases mem
  | cons line rest ih =>
    cases rest with
    | nil => exact .inr ⟨line, List.mem_cons_self, by simpa [List.intercalate] using mem⟩
    | cons next rest =>
      rw [List.intercalate_cons_cons, List.append_assoc] at mem
      rcases List.mem_append.mp mem with here | mem
      · exact .inr ⟨line, List.mem_cons_self, here⟩
      · rcases List.mem_append.mp mem with between | mem
        · exact .inl between
        · exact (ih mem).imp_right fun ⟨l, later, inside⟩ =>
            ⟨l, List.mem_cons_of_mem _ later, inside⟩

variable [DecidableEq α]

theorem offsetFromSucc (sep xs : List α) (n : Nat) :
    offsetFrom sep (n + 1) xs = (offsetFrom sep n xs).map (· + 1) := by
  induction xs generalizing n with
  | nil => simp only [offsetFrom]; split <;> rfl
  | cons x xs ih =>
    unfold offsetFrom
    split
    · rfl
    · exact ih (n + 1)

theorem cutCons (sep xs : List α) (x : α) : cut? sep (x :: xs) =
    if sep.isPrefixOf (x :: xs) then some ([], (x :: xs).drop sep.length)
    else (cut? sep xs).map fun (before, after) => (x :: before, after) := by
  simp only [cut?, offset?, offsetFrom]
  split
  · simp
  · rw [offsetFromSucc]
    cases offsetFrom sep 0 xs with
    | none => rfl
    | some n => simp [Nat.add_right_comm n 1 sep.length]

theorem cutSound (h : cut? sep xs = some (before, after)) : Cut sep xs before after := by
  induction xs generalizing before with
  | nil =>
    simp only [cut?, offset?, offsetFrom] at h
    split at h
    · next empty =>
      obtain rfl := List.isEmpty_iff.mp empty
      cases h
      exact .here []
    · cases h
  | cons x xs ih =>
    rw [cutCons] at h
    split at h
    · next front =>
      obtain ⟨rest, joined⟩ := List.isPrefixOf_iff_prefix.mp front
      cases h
      rw [← joined, List.drop_left]
      exact .here rest
    · next absent =>
      obtain ⟨⟨front, back⟩, found, same⟩ := Option.map_eq_some_iff.mp h
      cases same
      exact .later (fun front => absent (List.isPrefixOf_iff_prefix.mpr front)) (ih found)

theorem cutComplete (h : Cut sep xs before after) : cut? sep xs = some (before, after) := by
  induction h with
  | here after =>
    cases whole : sep ++ after with
    | nil =>
      obtain ⟨rfl, rfl⟩ := List.append_eq_nil_iff.mp whole
      rfl
    | cons x xs =>
      have front : sep.isPrefixOf (x :: xs) :=
        List.isPrefixOf_iff_prefix.mpr (whole ▸ List.prefix_append sep after)
      rw [cutCons, if_pos front, ← whole, List.drop_left]
  | later absent next ih =>
    rw [cutCons, if_neg (fun front => absent (List.isPrefixOf_iff_prefix.mp front)), ih]
    rfl

theorem cutExact : cut? sep xs = some (before, after) ↔ Cut sep xs before after :=
  ⟨cutSound, cutComplete⟩

theorem cutAbsent : cut? sep xs = none ↔ ¬ sep <:+: xs := by
  induction xs with
  | nil =>
    simp only [cut?, offset?, offsetFrom, List.infix_nil]
    split <;> simp_all
  | cons x xs ih =>
    rw [cutCons, List.infix_cons_iff, ← List.isPrefixOf_iff_prefix]
    split <;> simp_all

theorem cutExtend (h : cut? sep xs = some (before, after)) (ys : List α) :
    cut? sep (xs ++ ys) = some (before, after ++ ys) :=
  cutComplete ((cutSound h).extend ys)

theorem cutBeyond {ys : List α} (absent : cut? sep xs = none)
    (h : cut? sep (xs ++ ys) = some (before, after)) : xs.length < before.length + sep.length := by
  refine Nat.lt_of_not_le fun bound => cutAbsent.mp absent ?_
  have joined := (cutSound h).joined
  have front : before ++ sep <+: xs := by
    refine List.prefix_of_prefix_length_le ⟨after, joined.symm⟩ (List.prefix_append xs ys) ?_
    simpa only [List.length_append] using bound
  exact (List.suffix_append before sep).isInfix.trans front.isInfix

theorem cutAtItem {x : α} {before : List α} (after : List α) (fresh : x ∉ before) :
    cut? [x] (before ++ x :: after) = some (before, after) := by
  have absent : ¬ [x] <:+: before ++ [x].dropLast := by
    simpa only [List.dropLast_singleton, List.append_nil, List.singleton_infix_iff] using fresh
  have cut := cutComplete (cutOfAbsent after absent)
  rwa [List.append_assoc] at cut

theorem cutLastAt {x : α} {before after : List α} (fresh : x ∉ after) :
    cutLast? x (before ++ x :: after) = some (before, after) := by
  have cut := cutAtItem before.reverse (mt List.mem_reverse.mp fresh)
  simp only [cutLast?, List.reverse_append, List.reverse_cons, List.append_assoc,
    List.singleton_append, cut, Option.map_some, List.reverse_reverse]

theorem cutLastSound {x : α} {xs before after : List α}
    (h : cutLast? x xs = some (before, after)) : xs = before ++ x :: after ∧ x ∉ after := by
  obtain ⟨⟨last, front⟩, cut, same⟩ := Option.map_eq_some_iff.mp h
  cases same
  have found := cutSound cut
  refine ⟨?_, mt List.mem_reverse.mp found.fresh⟩
  rw [← List.reverse_inj, found.joined]
  simp only [List.reverse_append, List.reverse_cons, List.reverse_reverse]

theorem cutLastPresent {x : α} {xs : List α} (mem : x ∈ xs) : (cutLast? x xs).isSome := by
  cases found : cut? [x] xs.reverse with
  | none =>
    refine absurd ?_ (cutAbsent.mp found)
    rwa [List.singleton_infix_iff, List.mem_reverse]
  | some pieces => simp only [cutLast?, found, Option.map_some, Option.isSome_some]

theorem piecesJoined {lines : List (List α)} (some' : lines ≠ [])
    (free : ∀ line ∈ lines, ¬ sep <:+: line ++ sep.dropLast) :
    pieces sep (sep.intercalate lines) = lines := by
  induction lines with
  | nil => exact absurd rfl some'
  | cons line rest ih =>
    have nonempty : sep ≠ [] := by
      rintro rfl
      exact free line List.mem_cons_self (List.nil_infix)
    have here := free line List.mem_cons_self
    cases rest with
    | nil =>
      have alone : cut? sep line = none := cutAbsent.mpr fun inside =>
        here (inside.trans (List.prefix_append line _).isInfix)
      have joined : sep.intercalate [line] = line := by simp [List.intercalate]
      rw [joined, pieces]
      split
      · rfl
      · next found => rw [alone] at found; cases found
    | cons next rest =>
      have joined : sep.intercalate (line :: next :: rest) =
          line ++ sep ++ sep.intercalate (next :: rest) := by simp [List.intercalate]
      have front := cutComplete (cutOfAbsent (sep.intercalate (next :: rest)) here)
      rw [pieces]
      split
      · next absent => rw [joined, front] at absent; cases absent
      · next before after found =>
        rw [joined, front] at found
        cases found
        rw [dif_neg nonempty, ih (List.cons_ne_nil _ _) fun l mem =>
          free l (List.mem_cons_of_mem _ mem)]

theorem Cut.free (h : Cut sep xs before after) (nonempty : sep ≠ []) : ¬ sep <:+: before := by
  intro inside
  obtain ⟨⟨front, back⟩, found⟩ := Option.isSome_iff_exists.mp
    (Option.isSome_iff_ne_none.mpr (mt cutAbsent.mp (not_not_intro inside)))
  have length := cutLength found
  have longer := cutExtend (cutExtend found sep) after
  rw [← h.joined, cutComplete h] at longer
  have same := congrArg (fun cut => cut.map fun pieces => pieces.1.length) longer
  simp only [Option.map_some, Option.some.injEq] at same
  have := List.length_pos_iff.mpr nonempty
  omega

theorem piecesWhole (sep xs : List α) :
    pieces sep xs ≠ [] ∧ sep.intercalate (pieces sep xs) = xs := by
  fun_induction pieces sep xs with
  | case1 xs absent => exact ⟨List.cons_ne_nil _ _, by simp [List.intercalate]⟩
  | case2 xs before after found => exact ⟨List.cons_ne_nil _ _, by simp [List.intercalate]⟩
  | case3 xs before after found nonempty shorter ih =>
    refine ⟨List.cons_ne_nil _ _, ?_⟩
    obtain ⟨some', joined⟩ := ih
    obtain ⟨next, rest, same⟩ := List.exists_cons_of_ne_nil some'
    rw [same] at joined ⊢
    rw [List.intercalate_cons_cons, joined]
    exact (cutSound found).joined.symm

theorem piecesFree (nonempty : sep ≠ []) (xs : List α) :
    ∀ piece ∈ pieces sep xs, ¬ sep <:+: piece := by
  fun_induction pieces sep xs with
  | case1 xs absent =>
    intro piece mem
    rw [List.mem_singleton.mp mem]
    exact cutAbsent.mp absent
  | case2 xs before after found empty => exact absurd empty nonempty
  | case3 xs before after found _ shorter ih =>
    intro piece mem
    rcases List.mem_cons.mp mem with rfl | mem
    · exact (cutSound found).free nonempty
    · exact ih piece mem

theorem piecesFresh (x : α) (xs : List α) : ∀ piece ∈ pieces [x] xs, x ∉ piece := by
  intro piece mem
  have free := piecesFree (List.cons_ne_nil x []) xs piece mem
  rwa [List.singleton_infix_iff] at free

theorem piecesSplitOn (x : α) (xs : List α) : pieces [x] xs = xs.splitOn x := by
  obtain ⟨some', joined⟩ := piecesWhole [x] xs
  conv_rhs => rw [← joined]
  exact (List.splitOn_intercalate x (piecesFresh x xs) some').symm

theorem piecesAlone {x : α} {xs : List α} (fresh : x ∉ xs) : pieces [x] xs = [xs] := by
  rw [pieces]
  split
  · rfl
  · next found =>
    have absent : ¬[x] <:+: xs := by rwa [List.singleton_infix_iff]
    rw [cutAbsent.mpr absent] at found
    cases found

theorem piecesCount (x : α) (xs : List α) : (pieces [x] xs).length = xs.count x + 1 := by
  rw [piecesSplitOn]
  induction xs with
  | nil => rfl
  | cons y xs ih =>
    rw [List.splitOn_cons_eq_if_modifyHead, List.count_cons]
    split
    · rw [List.length_cons, ih]
    · rw [List.length_modifyHead, ih, Nat.add_zero]

end FileServer.Sequence
