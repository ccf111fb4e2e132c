import Mathlib.Data.Nat.Bitwise
import Mathlib.Tactic.Ring
import FileServer.Address.Block

/-! Blocks as intervals. The mask rounds an address down to a multiple of the block's size, so a
block holds just the addresses from its base up to the next multiple, and two blocks that share an
address are nested. -/
namespace FileServer

theorem maskBit (length i : Nat) :
    (mask length).toNat.testBit i = decide (32 - length ≤ i ∧ i < 32) := by
  unfold mask
  split
  · next none' =>
    subst none'
    rw [UInt32.toNat_zero, Nat.zero_testBit, eq_comm, decide_eq_false_iff_not]
    omega
  · split
    · next all =>
      rw [show (0xffffffff : UInt32).toNat = 2 ^ 32 - 1 from rfl, Nat.testBit_two_pow_sub_one]
      exact decide_eq_decide.mpr (by omega)
    · have shift : (32 - length).toUInt32.toNat % 32 = 32 - length := by
        rw [Nat.toUInt32_eq, UInt32.toNat_ofNat']
        omega
      rw [UInt32.toNat_shiftLeft, shift, show (0xffffffff : UInt32).toNat = 2 ^ 32 - 1 from rfl,
        Nat.testBit_mod_two_pow, Nat.testBit_shiftLeft, Nat.testBit_two_pow_sub_one]
      simp only [ge_iff_le, ← Bool.decide_and, decide_eq_decide]
      omega

theorem andMask (w : UInt32) (length : Nat) :
    (w &&& mask length).toNat = w.toNat / 2 ^ (32 - length) * 2 ^ (32 - length) := by
  apply Nat.eq_of_testBit_eq
  intro i
  rw [UInt32.toNat_and, Nat.testBit_and, maskBit, Nat.testBit_mul_two_pow, Nat.testBit_div_two_pow]
  by_cases top : 32 ≤ i
  · have small : w.toNat < 2 ^ i := w.toNat_lt.trans_le (Nat.pow_le_pow_right (by decide) top)
    by_cases low : 32 - length ≤ i
    · rw [Nat.sub_add_cancel low, Nat.testBit_lt_two_pow small, Bool.false_and, Bool.and_false]
    · simp only [low, false_and, decide_false, Bool.and_false, Bool.false_and]
  · by_cases low : 32 - length ≤ i
    · rw [Nat.sub_add_cancel low, Bool.and_comm]
      simp only [low, true_and, Nat.not_le.mp top]
    · simp only [low, false_and, decide_false, Bool.and_false, Bool.false_and]

theorem sharedLonger {u v m n : Nat} (shorter : m ≤ n)
    (same : u / 2 ^ (32 - n) = v / 2 ^ (32 - n)) : u / 2 ^ (32 - m) = v / 2 ^ (32 - m) := by
  have split : 2 ^ (32 - m) = 2 ^ (32 - n) * 2 ^ (32 - m - (32 - n)) := by
    rw [← Nat.pow_add, Nat.add_sub_cancel' (by omega)]
  rw [split, ← Nat.div_div_eq_div_mul, ← Nat.div_div_eq_div_mul, same]

namespace Block

def Within (x y : Block) : Prop := ∀ a, x.contains a = true → y.contains a = true

def Apart (x y : Block) : Prop := ∀ a, ¬(x.contains a = true ∧ y.contains a = true)

variable {b x y low high : Block} {a base : Address} {length : Nat}

theorem alignedMultiple :
    base.word &&& mask length = base.word ↔ 2 ^ (32 - length) ∣ base.word.toNat := by
  rw [← UInt32.toNat_inj, andMask, Nat.dvd_iff_div_mul_eq]

theorem makeOwn (b : Block) : make b.base b.length = .ok b := by
  rw [make, dif_pos b.length_le, dif_pos b.aligned]

theorem makeOk : make base length = .ok b ↔ base = b.base ∧ length = b.length := by
  constructor
  · intro made
    unfold make at made
    split at made
    · split at made
      · cases made
        exact ⟨rfl, rfl⟩
      · cases made
    · cases made
  · rintro ⟨rfl, rfl⟩
    exact makeOwn b

theorem makeSucceeds : (∃ block, make base length = .ok block) ↔
    length ≤ 32 ∧ 2 ^ (32 - length) ∣ base.word.toNat := by
  constructor
  · rintro ⟨block, made⟩
    obtain ⟨rfl, rfl⟩ := makeOk.mp made
    exact ⟨block.length_le, alignedMultiple.mp block.aligned⟩
  · rintro ⟨short, multiple⟩
    exact ⟨_, makeOwn ⟨base, length, short, alignedMultiple.mpr multiple⟩⟩

theorem makeLong : make base length = .error (.invalidLength length) ↔ 32 < length := by
  unfold make
  split
  · next short =>
    refine iff_of_false ?_ (Nat.not_lt.mpr short)
    split <;> nofun
  · next long => exact iff_of_true rfl (Nat.not_le.mp long)

theorem makeUnaligned : make base length = .error (.hostBitsSet base length) ↔
    length ≤ 32 ∧ ¬2 ^ (32 - length) ∣ base.word.toNat := by
  rw [← alignedMultiple]
  unfold make
  split
  · next short =>
    split
    · next aligned => exact iff_of_false nofun fun unaligned => unaligned.2 aligned
    · next unaligned => exact iff_of_true rfl ⟨short, unaligned⟩
  · next long => exact iff_of_false nofun fun short => long short.1

theorem containsQuotient : b.contains a = true ↔
    a.word.toNat / 2 ^ (32 - b.length) = b.base.word.toNat / 2 ^ (32 - b.length) := by
  have size : 0 < 2 ^ (32 - b.length) := Nat.two_pow_pos _
  have base := congrArg UInt32.toNat b.aligned
  rw [andMask] at base
  rw [contains, beq_iff_eq, ← UInt32.toNat_inj, andMask]
  nth_rewrite 1 [← base]
  exact Nat.mul_left_inj size.ne'

theorem containsInterval : b.contains a = true ↔ b.base.word.toNat ≤ a.word.toNat ∧
    a.word.toNat < b.base.word.toNat + 2 ^ (32 - b.length) := by
  have size : 0 < 2 ^ (32 - b.length) := Nat.two_pow_pos _
  have base := Nat.div_mul_cancel (alignedMultiple.mp b.aligned)
  rw [containsQuotient, Nat.div_eq_iff size, base]
  omega

theorem containsBits : b.contains a = true ↔
    ∀ i, 32 - b.length ≤ i → i < 32 → a.word.toNat.testBit i = b.base.word.toNat.testBit i := by
  rw [containsQuotient]
  constructor
  · intro same i low _
    have bit := congrArg (·.testBit (i - (32 - b.length))) same
    simpa only [Nat.testBit_div_two_pow, Nat.sub_add_cancel low] using bit
  · intro same
    apply Nat.eq_of_testBit_eq
    intro i
    rw [Nat.testBit_div_two_pow, Nat.testBit_div_two_pow]
    by_cases inside : i + (32 - b.length) < 32
    · exact same _ (Nat.le_add_left _ _) inside
    · have beyond (w : UInt32) : w.toNat.testBit (i + (32 - b.length)) = false :=
        Nat.testBit_lt_two_pow
          (w.toNat_lt.trans_le (Nat.pow_le_pow_right (by decide) (Nat.not_lt.mp inside)))
      rw [beyond, beyond]

theorem containsBase (b : Block) : b.contains b.base = true := containsQuotient.mpr rfl

theorem baseBound (b : Block) : b.base.word.toNat + 2 ^ (32 - b.length) ≤ 2 ^ 32 := by
  obtain ⟨q, base⟩ := alignedMultiple.mp b.aligned
  have whole : 2 ^ 32 = 2 ^ (32 - b.length) * 2 ^ b.length := by
    rw [← Nat.pow_add, Nat.sub_add_cancel b.length_le]
  have below := b.base.word.toNat_lt
  rw [base, whole] at below
  rw [base, whole, ← Nat.mul_succ]
  exact Nat.mul_le_mul_left _ (Nat.lt_of_mul_lt_mul_left below)

theorem withinOfBase (shorter : y.length ≤ x.length) (base : y.contains x.base = true) :
    x.Within y := by
  intro a inside
  rw [containsQuotient] at *
  exact (sharedLonger shorter inside).trans base

theorem withinShorter (within : x.Within y) : y.length ≤ x.length := by
  have bound := x.baseBound
  have size : 0 < 2 ^ (32 - x.length) := Nat.two_pow_pos _
  -- The last address of the inner block lies as far from its base as the outer block reaches.
  let last : Address := ⟨UInt32.ofNat (x.base.word.toNat + (2 ^ (32 - x.length) - 1))⟩
  have lastWord : last.word.toNat = x.base.word.toNat + (2 ^ (32 - x.length) - 1) :=
    UInt32.toNat_ofNat_of_lt' (by show _ < 2 ^ 32; omega)
  have first := containsInterval.mp (within _ x.containsBase)
  have end' := containsInterval.mp (within last (containsInterval.mpr (by omega)))
  have smaller : 2 ^ (32 - x.length) ≤ 2 ^ (32 - y.length) := by omega
  have := (Nat.pow_le_pow_iff_right (by decide)).mp smaller
  have := x.length_le
  have := y.length_le
  omega

theorem withinDecided : x.Within y ↔ y.length ≤ x.length ∧ y.contains x.base = true :=
  ⟨fun within => ⟨withinShorter within, within _ x.containsBase⟩,
    fun ⟨shorter, base⟩ => withinOfBase shorter base⟩

theorem apartOrWithin (shorter : y.length ≤ x.length) : x.Apart y ∨ x.Within y := by
  by_cases base : y.contains x.base = true
  · exact .inr (withinOfBase shorter base)
  · refine .inl fun a both => base ?_
    rw [containsQuotient, containsQuotient] at both
    exact containsQuotient.mpr ((sharedLonger shorter both.1).symm.trans both.2)

theorem apartOrNested (x y : Block) : x.Apart y ∨ x.Within y ∨ y.Within x := by
  rcases Nat.le_total y.length x.length with shorter | shorter
  · rcases apartOrWithin shorter with apart | within
    · exact .inl apart
    · exact .inr (.inl within)
  · rcases apartOrWithin shorter with apart | within
    · exact .inl fun a both => apart a both.symm
    · exact .inr (.inr within)

structure Halved (b low high : Block) : Prop where
  lowLength : low.length = b.length + 1
  highLength : high.length = b.length + 1
  lowBase : low.base = b.base
  highBase : high.base.word.toNat = b.base.word.toNat + 2 ^ (31 - b.length)

theorem doubled (short : b.length < 32) : 2 ^ (32 - b.length) = 2 * 2 ^ (31 - b.length) := by
  rw [show 32 - b.length = 31 - b.length + 1 by omega, Nat.pow_succ']

theorem halvesExist (short : b.length < 32) : ∃ low high, b.Halved low high := by
  have bound := b.baseBound
  have double := doubled short
  have multiple := alignedMultiple.mp b.aligned
  have half : 32 - (b.length + 1) = 31 - b.length := by omega
  have lowMultiple : 2 ^ (31 - b.length) ∣ b.base.word.toNat :=
    (Nat.pow_dvd_pow 2 (by omega)).trans multiple
  let middle : Address := ⟨UInt32.ofNat (b.base.word.toNat + 2 ^ (31 - b.length))⟩
  have size : 0 < 2 ^ (31 - b.length) := Nat.two_pow_pos _
  have middleWord : middle.word.toNat = b.base.word.toNat + 2 ^ (31 - b.length) :=
    UInt32.toNat_ofNat_of_lt' (by show _ < 2 ^ 32; omega)
  have highMultiple : 2 ^ (31 - b.length) ∣ middle.word.toNat :=
    middleWord ▸ Nat.dvd_add lowMultiple (Nat.dvd_refl _)
  rw [← half] at lowMultiple highMultiple
  exact ⟨⟨b.base, b.length + 1, short, alignedMultiple.mpr lowMultiple⟩,
    ⟨middle, b.length + 1, short, alignedMultiple.mpr highMultiple⟩, rfl, rfl, rfl, middleWord⟩

theorem Halved.contains (halved : b.Halved low high) (a : Address) :
    b.contains a = (low.contains a || high.contains a) := by
  have short : b.length + 1 ≤ 32 := halved.lowLength ▸ low.length_le
  have double := doubled short
  have half : 32 - (b.length + 1) = 31 - b.length := by omega
  rw [Bool.eq_iff_iff, Bool.or_eq_true, containsInterval, containsInterval, containsInterval,
    halved.lowLength, halved.highLength, halved.lowBase, halved.highBase, half, double]
  omega

/-- A block is made just of a base that is a multiple of its size, and a length past 32 is the fault
reported before any other. It holds the addresses from its base on, as many as its size: those with
the leading bits of the base. Two blocks that share an address are nested. -/
theorem madeAsIntervals :
    (∀ (base : Address) (length : Nat),
      ((∃ block, make base length = .ok block) ↔
        length ≤ 32 ∧ 2 ^ (32 - length) ∣ base.word.toNat) ∧
      (make base length = .error (.invalidLength length) ↔ 32 < length) ∧
      (make base length = .error (.hostBitsSet base length) ↔
        length ≤ 32 ∧ ¬2 ^ (32 - length) ∣ base.word.toNat) ∧
      ∀ block, make base length = .ok block → ∀ a : Address,
        (block.contains a = true ↔ base.word.toNat ≤ a.word.toNat ∧
          a.word.toNat < base.word.toNat + 2 ^ (32 - length)) ∧
        (block.contains a = true ↔ ∀ i, 32 - length ≤ i → i < 32 →
          a.word.toNat.testBit i = base.word.toNat.testBit i)) ∧
    ∀ base base' length length' x y, make base length = .ok x → make base' length' = .ok y →
      x.Apart y ∨ x.Within y ∨ y.Within x := by
  refine ⟨fun base length => ⟨makeSucceeds, makeLong, makeUnaligned, fun block made a => ?_⟩,
    fun _ _ _ _ x y _ _ => apartOrNested x y⟩
  obtain ⟨rfl, rfl⟩ := makeOk.mp made
  exact ⟨containsInterval, containsBits⟩

theorem madeAsIntervalsAtEnd :
    let base : Address := .ofOctets 255 255 255 240
    let block : Block := ⟨base, 28, by decide, by decide⟩
    let all : Block := ⟨.unspecified, 0, by decide, by decide⟩
    make base 28 = .ok block ∧ make .unspecified 0 = .ok all ∧
      (∀ a : Address, (block.contains a = true ↔
          4294967280 ≤ a.word.toNat ∧ a.word.toNat < 4294967296) ∧
        (block.contains a = true ↔
          ∀ i, 4 ≤ i → i < 32 → a.word.toNat.testBit i = base.word.toNat.testBit i)) ∧
      (block.Apart all ∨ block.Within all ∨ all.Within block) := by
  intro base block all
  have made : make base 28 = .ok block := by decide
  have madeAll : make .unspecified 0 = .ok all := by decide
  obtain ⟨intervals, nested⟩ := madeAsIntervals
  exact ⟨made, madeAll, (intervals base 28).2.2.2 block made, nested _ _ _ _ _ _ made madeAll⟩

end Block

end FileServer
