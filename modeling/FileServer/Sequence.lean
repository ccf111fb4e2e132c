/-! Cutting a sequence at a separator. `offset?` is the least place where the separator occurs;
the cuts are read off it, so nothing is searched twice and nothing is lost. -/
namespace FileServer.Sequence

variable {α : Type} [DecidableEq α]

def offsetFrom (sep : List α) (n : Nat) : List α → Option Nat
  | [] => if sep.isEmpty then some n else none
  | x :: xs => if sep.isPrefixOf (x :: xs) then some n else offsetFrom sep (n + 1) xs

def offset? (sep xs : List α) : Option Nat := offsetFrom sep 0 xs

def cut? (sep xs : List α) : Option (List α × List α) :=
  (offset? sep xs).map fun n => (xs.take n, xs.drop (n + sep.length))

def cutLast? (x : α) (xs : List α) : Option (List α × List α) :=
  (cut? [x] xs.reverse).map fun (after, before) => (before.reverse, after.reverse)

theorem offsetFromBound {sep xs : List α} {n m : Nat} (h : offsetFrom sep n xs = some m) :
    n ≤ m ∧ m - n + sep.length ≤ xs.length := by
  induction xs generalizing n with
  | nil =>
    simp only [offsetFrom] at h
    split at h
    · next he => simp_all
    · simp at h
  | cons x xs ih =>
    simp only [offsetFrom] at h
    split at h
    · next hp =>
      cases h
      have := (List.isPrefixOf_iff_prefix.mp hp).length_le
      simpa using this
    · have := ih h
      simp only [List.length_cons]
      omega

theorem cutLength {sep xs before after : List α} (h : cut? sep xs = some (before, after)) :
    before.length + sep.length + after.length = xs.length := by
  simp only [cut?, offset?, Option.map_eq_some_iff, Prod.mk.injEq] at h
  obtain ⟨n, hn, rfl, rfl⟩ := h
  have := offsetFromBound hn
  simp only [List.length_take, List.length_drop]
  omega

theorem cutShorter {sep xs before after : List α} (h : cut? sep xs = some (before, after))
    (hs : sep ≠ []) : after.length < xs.length := by
  have := cutLength h
  have : 0 < sep.length := List.length_pos_iff.mpr hs
  omega

def pieces (sep xs : List α) : List (List α) :=
  match h : cut? sep xs with
  | none => [xs]
  | some (before, after) =>
    if hs : sep = [] then [xs]
    else
      have := cutShorter h hs
      before :: pieces sep after
termination_by xs.length

end FileServer.Sequence
