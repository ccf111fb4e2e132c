import Mathlib.Data.List.DropRight
import FileServer.Text.Basic

/-! Texts inside white space, and decimal numbers. Trimming takes the white space off both ends and
nothing else; a number that is written without leading zeros is read back under any bound that it
keeps. -/
namespace FileServer.Text

section Trimming

variable {cs front back text : List Char} {c : Char}

theorem trimEnds (cs : List Char) : trim cs = (cs.dropWhile isBlank).rdropWhile isBlank := rfl

inductive Trimmed : List Char → List Char → Prop where
  | mk {front text back : List Char} (before : ∀ c ∈ front, isBlank c = true)
      (after : ∀ c ∈ back, isBlank c = true) (first : ∀ c ∈ text.head?, isBlank c = false)
      (last : ∀ c ∈ text.getLast?, isBlank c = false) : Trimmed (front ++ text ++ back) text

theorem trimmedVisible (before : ∀ c ∈ front, isBlank c = true)
    (after : ∀ c ∈ back, isBlank c = true) (visible : ∀ c ∈ text, isBlank c = false) :
    Trimmed (front ++ text ++ back) text :=
  .mk before after (fun c first => visible c (List.mem_of_mem_head? first))
    fun c last => visible c (List.mem_of_mem_getLast? last)

theorem trimTrimmed (cs : List Char) : Trimmed cs (trim cs) := by
  have joined : trim cs ++ (cs.dropWhile isBlank).rtakeWhile isBlank = cs.dropWhile isBlank :=
    List.rdropWhile_append_rtakeWhile
  have whole :
      cs.takeWhile isBlank ++ trim cs ++ (cs.dropWhile isBlank).rtakeWhile isBlank = cs := by
    rw [List.append_assoc, joined, List.takeWhile_append_dropWhile]
  have first : ∀ c ∈ (trim cs).head?, isBlank c = false := by
    intro c mem
    have start := List.head?_dropWhile_not isBlank cs
    have same : (cs.dropWhile isBlank).head? = some c := by
      rw [← joined, List.head?_append, mem]
      rfl
    rw [same] at start
    exact start
  have last : ∀ c ∈ (trim cs).getLast?, isBlank c = false := by
    intro c mem
    obtain ⟨some', rfl⟩ := List.mem_getLast?_eq_getLast mem
    exact Bool.eq_false_iff.mpr (List.rdropWhile_last_not isBlank (cs.dropWhile isBlank) some')
  have trimmed := @Trimmed.mk (cs.takeWhile isBlank) _ ((cs.dropWhile isBlank).rtakeWhile isBlank)
    (fun c => List.mem_takeWhile_imp) (fun c => List.mem_rtakeWhile_imp) first last
  rwa [whole] at trimmed

theorem trimComplete (trimmed : Trimmed cs text) : trim cs = text := by
  obtain @⟨front, _, back, before, after, first, last⟩ := trimmed
  rw [List.append_assoc, trimEnds, List.dropWhile_append_of_pos before]
  cases text with
  | nil =>
    rw [List.nil_append, List.dropWhile_eq_nil_iff.mpr after]
    rfl
  | cons c text =>
    have start : isBlank c = false := first c rfl
    have stop : isBlank ((c :: text).getLast (List.cons_ne_nil c text)) = false :=
      last _ (List.getLast?_eq_getLast_of_ne_nil _)
    rw [List.cons_append, List.dropWhile_cons_of_neg (by rw [start]; exact Bool.false_ne_true),
      ← List.cons_append, List.rdropWhile, List.reverse_append,
      List.dropWhile_append_of_pos fun c mem => after c (List.mem_reverse.mp mem)]
    refine List.rdropWhile_eq_self_iff.mpr fun _ => ?_
    rw [stop]
    exact Bool.false_ne_true

theorem trimExact : trim cs = text ↔ Trimmed cs text :=
  ⟨fun same => same ▸ trimTrimmed cs, trimComplete⟩

theorem trimNil : trim cs = [] ↔ ∀ c ∈ cs, isBlank c = true := by
  constructor
  · intro nothing
    obtain ⟨before, after, _, _⟩ := trimExact.mp nothing
    rw [List.append_nil]
    exact List.forall_mem_append.mpr ⟨before, after⟩
  · intro blank
    rw [trimEnds, List.dropWhile_eq_nil_iff.mpr blank]
    rfl

theorem trimHead (visible : isBlank c = false) : (trim cs).head? = some c ↔
    ∃ front rest, cs = front ++ c :: rest ∧ ∀ c ∈ front, isBlank c = true := by
  constructor
  · intro start
    obtain ⟨rest, text⟩ := List.head?_eq_some_iff.mp start
    obtain @⟨front, _, back, before, _, _, _⟩ := trimExact.mp text
    exact ⟨front, rest ++ back, by rw [List.append_assoc, List.cons_append], before⟩
  · rintro ⟨front, rest, rfl, blank⟩
    have some' : (c :: rest).rdropWhile isBlank ≠ [] := by
      intro nothing
      have here := List.rdropWhile_eq_nil_iff.mp nothing c List.mem_cons_self
      rw [visible] at here
      cases here
    rw [trimEnds, List.dropWhile_append_of_pos blank,
      List.dropWhile_cons_of_neg (by rw [visible]; exact Bool.false_ne_true)]
    obtain ⟨tail, body⟩ := List.rdropWhile_prefix isBlank (c :: rest)
    have start := congrArg List.head? body
    rwa [List.head?_append_of_ne_nil _ some'] at start

end Trimming

section Decimals

variable {n max value : Nat} {cs : List Char} {c : Char}

theorem decimalNonempty (n : Nat) : decimal n ≠ [] := Nat.toDigits_ne_nil

theorem decimalDigit (mem : c ∈ decimal n) : c.isDigit = true :=
  Nat.isDigit_of_mem_toDigits (by decide) (by decide) mem

theorem digitRange (digit : c.isDigit = true) : '0' ≤ c ∧ c ≤ '9' := by
  simpa only [Char.isDigit, Char.le_def, ge_iff_le, Bool.and_eq_true, decide_eq_true_eq] using digit

theorem digitVisible (digit : c.isDigit = true) : isBlank c = false := by
  have low : 48 ≤ c.toNat := (digitRange digit).1
  have high : c.toNat ≤ 57 := (digitRange digit).2
  simp only [isBlank, blankRanges, List.any_cons, List.any_nil, Bool.or_false, Bool.or_eq_false_iff,
    Bool.and_eq_false_iff, decide_eq_false_iff_not]
  omega

theorem decimalHead (positive : 0 < n) : (decimal n).head? ≠ some '0' := by
  induction n using Nat.strongRecOn with
  | ind n ih =>
    rw [decimal, Nat.toDigits_eq_if (by decide)]
    split
    · next small =>
      rw [List.head?_singleton, ne_eq, Option.some.injEq, Nat.digitChar_eq_zero]
      exact positive.ne'
    · next large =>
      have some' : Nat.toDigits 10 (n / 10) ≠ [] := Nat.toDigits_ne_nil
      rw [List.head?_append_of_ne_nil _ some']
      exact ih (n / 10) (by omega) (by omega)

theorem digitDecimal (digit : c.isDigit = true) : digit? 10 c = some (c.toNat - '0'.toNat) := by
  have bound : c.toNat ≤ 57 := (digitRange digit).2
  have zero : '0'.toNat = 48 := rfl
  rw [digit?, if_pos (digitRange digit)]
  exact if_pos (by omega)

theorem readDigitsWithin (digits : ∀ c ∈ cs, c.isDigit = true)
    (within : Nat.ofDigitChars 10 cs value ≤ max) :
    readDigits 10 max value cs = .ok (Nat.ofDigitChars 10 cs value) := by
  induction cs generalizing value with
  | nil => rfl
  | cons c cs ih =>
    rw [Nat.ofDigitChars_cons, Nat.mul_comm] at within ⊢
    have grown : value * 10 + (c.toNat - '0'.toNat) ≤ max := by
      refine le_trans ?_ within
      rw [Nat.ofDigitChars_eq_ofDigitChars_zero]
      exact Nat.le_add_right_of_le (Nat.le_mul_of_pos_left _ (Nat.pow_pos (by decide)))
    rw [readDigits, digitDecimal (digits c List.mem_cons_self)]
    simp only [if_pos grown]
    exact ih (fun d mem => digits d (List.mem_cons_of_mem _ mem)) within

theorem readDecimal (within : n ≤ max) : readDigits 10 max 0 (decimal n) = .ok n := by
  have value : Nat.ofDigitChars 10 (decimal n) 0 = n := Nat.ofDigitChars_ten_toDigits
  rw [readDigitsWithin (fun _ => decimalDigit) (value.trans_le within), value]

theorem readNumberDecimal (within : n ≤ max) : readNumber 10 max (decimal n) = .ok n := by
  have read := readDecimal within
  unfold readNumber
  split
  · next nothing => exact absurd nothing (decimalNonempty n)
  · next sign =>
    have digit := decimalDigit (n := n) (c := '+') (by rw [sign]; exact List.mem_cons_self)
    exact absurd digit (by decide)
  · next sign =>
    have digit := decimalDigit (n := n) (c := '+') (by rw [sign]; exact List.mem_cons_self)
    exact absurd digit (by decide)
  · exact read

end Decimals

end FileServer.Text
