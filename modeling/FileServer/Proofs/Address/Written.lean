import FileServer.Proofs.Address.Block
import FileServer.Proofs.Sequence
import FileServer.Proofs.Text

/-! Addresses and blocks as they are written. The four octets of an address make it up again, and
what is written for an address or a block is read as just that. -/
namespace FileServer

namespace Address

variable {a : Address}

theorem octetWord (w shift : UInt32) :
    (w >>> shift &&& 0xff).toNat.toUInt8.toUInt32 = w >>> shift &&& 0xff := by
  have bound : (w >>> shift &&& 0xff).toNat < 2 ^ 8 := by
    rw [UInt32.toNat_and]
    exact Nat.and_lt_two_pow _ (by decide)
  rw [← UInt32.toNat_inj, UInt8.toNat_toUInt32, Nat.toUInt8_eq, UInt8.toNat_ofNat_of_lt' bound]

theorem octetBit {w shift : UInt32} (inside : shift.toNat ≤ 24) (i : Nat) :
    ((w >>> shift &&& 0xff) <<< shift).toNat.testBit i =
      (decide (shift.toNat ≤ i ∧ i < shift.toNat + 8) && w.toNat.testBit i) := by
  rw [UInt32.toNat_shiftLeft, UInt32.toNat_and, UInt32.toNat_shiftRight,
    show (0xff : UInt32).toNat = 2 ^ 8 - 1 from rfl, Nat.mod_eq_of_lt (by omega : shift.toNat < 32),
    Nat.testBit_mod_two_pow, Nat.testBit_shiftLeft, Nat.testBit_and, Nat.testBit_shiftRight,
    Nat.testBit_two_pow_sub_one]
  by_cases low : shift.toNat ≤ i
  · rw [Nat.add_sub_cancel' low, Bool.and_comm (w.toNat.testBit i), ← Bool.and_assoc,
      ← Bool.and_assoc]
    congr 1
    simp only [ge_iff_le, ← Bool.decide_and, decide_eq_decide]
    omega
  · simp only [ge_iff_le, low, false_and, decide_false, Bool.false_and, Bool.and_false]

theorem octetsJoined (w : UInt32) :
    ofOctets (w >>> 24 &&& 0xff).toNat.toUInt8 (w >>> 16 &&& 0xff).toNat.toUInt8
      (w >>> 8 &&& 0xff).toNat.toUInt8 (w >>> 0 &&& 0xff).toNat.toUInt8 = ⟨w⟩ := by
  simp only [ofOctets, octetWord]
  rw [← UInt32.shiftLeft_zero (a := w >>> 0 &&& 0xff)]
  congr 1
  apply UInt32.toNat_inj.mp
  apply Nat.eq_of_testBit_eq
  intro i
  simp only [UInt32.toNat_or, Nat.testBit_or]
  rw [octetBit (by decide), octetBit (by decide), octetBit (by decide), octetBit (by decide)]
  cases bit : w.toNat.testBit i with
  | false => simp only [Bool.and_false, Bool.or_false]
  | true =>
    have top : i < 32 := by
      refine Nat.lt_of_not_le fun beyond => ?_
      rw [Nat.testBit_lt_two_pow
        (w.toNat_lt.trans_le (Nat.pow_le_pow_right (by decide) beyond))] at bit
      cases bit
    simp only [Bool.and_true, ← Bool.decide_or, decide_eq_true_eq, UInt32.reduceToNat]
    omega

theorem octetSmall {n : Nat} (mem : n ∈ a.octets) : n ≤ 255 := by
  obtain ⟨shift, _, rfl⟩ := List.mem_map.mp mem
  rw [UInt32.toNat_and]
  exact Nat.and_le_right

theorem readOctetDecimal {n : Nat} (small : n ≤ 255) :
    readOctet? (Text.decimal n) = some n.toUInt8 := by
  have short : (Text.decimal n).length ≤ 3 :=
    (Nat.length_toDigits_le_iff (by decide) (by decide)).mpr (by omega)
  have digits : (Text.decimal n).all Char.isDigit = true :=
    List.all_eq_true.mpr fun _ => Text.decimalDigit
  have plain : ¬((Text.decimal n).head? = some '0' ∧ Text.decimal n ≠ ['0']) := by
    rintro ⟨zero, longer⟩
    rcases Nat.eq_zero_or_pos n with rfl | positive
    · exact longer rfl
    · exact Text.decimalHead positive zero
  rw [readOctet?, if_neg plain, if_pos ⟨short, Text.decimalNonempty n, digits⟩,
    Text.readDecimal small]

theorem textChars (a : Address) :
    a.text.toList = ['.'].intercalate (a.octets.map Text.decimal) := String.toList_ofList

theorem textPieces (a : Address) :
    Sequence.pieces ['.'] a.text.toList = a.octets.map Text.decimal := by
  rw [textChars]
  refine Sequence.piecesJoined (by simp [octets]) fun piece mem => ?_
  obtain ⟨n, _, rfl⟩ := List.mem_map.mp mem
  rw [List.dropLast_singleton, List.append_nil, List.singleton_infix_iff]
  exact fun dot => absurd (Text.decimalDigit dot) (by decide)

theorem textDigits {c : Char} (mem : c ∈ a.text.toList) : c.isDigit = true ∨ c = '.' := by
  rw [textChars] at mem
  rcases Sequence.itemInside mem with dot | ⟨piece, part, digit⟩
  · exact .inr (List.mem_singleton.mp dot)
  · obtain ⟨n, _, rfl⟩ := List.mem_map.mp part
    exact .inl (Text.decimalDigit digit)

theorem readText (a : Address) : read? a.text.toList = some a := by
  have each : ∀ n ∈ a.octets, readOctet? (Text.decimal n) = some n.toUInt8 :=
    fun n mem => readOctetDecimal (octetSmall mem)
  have parts : (Sequence.pieces ['.'] a.text.toList).map readOctet? =
      a.octets.map fun n => some n.toUInt8 := by
    rw [textPieces, List.map_map]
    exact List.map_congr_left each
  rw [read?, parts]
  exact congrArg some (octetsJoined a.word)

theorem textSome (a : Address) : a.text.toList ≠ [] := by
  rw [textChars, octets, List.map_cons, List.map_cons, List.map_cons, List.map_cons,
    List.intercalate_cons_cons]
  simp

end Address

namespace Block

variable {b : Block}

theorem textChars (b : Block) :
    b.text.toList = b.base.text.toList ++ '/' :: Text.decimal b.length := by
  rw [text, Nat.toString_eq_ofList_toDigits, String.toList_append, String.toList_append,
    List.append_assoc]
  simp only [String.toList_ofList, Text.decimal, show "/".toList = ['/'] from rfl,
    List.singleton_append]

theorem slashless (a : Address) : '/' ∉ a.text.toList := by
  intro mem
  rcases Address.textDigits mem with digit | dot
  · exact absurd digit (by decide)
  · exact absurd dot (by decide)

theorem readText (b : Block) : read b.text = .ok b := by
  have small : b.length ≤ 255 := b.length_le.trans (by decide)
  rw [read, textChars, Sequence.cutAtItem _ (slashless b.base)]
  simp only [Address.readText, Text.readNumberDecimal small]
  exact makeOwn b

theorem readBare (a : Address) : read a.text = .error (.malformed a.text) := by
  have absent : ¬['/'] <:+: a.text.toList := by
    rw [List.singleton_infix_iff]
    exact slashless a
  rw [read, Sequence.cutAbsent.mpr absent]

theorem hostSingle (single : b.length = 32) : host b.base = b := by
  cases b
  cases single
  rfl

inductive Spelled : Block → List Char → Prop where
  | whole (b : Block) : Spelled b b.text.toList
  | bare {b : Block} (single : b.length = 32) : Spelled b b.base.text.toList

theorem Spelled.chars {host : List Char} (spelled : b.Spelled host) :
    host ≠ [] ∧ ∀ c ∈ host, c.isDigit = true ∨ c = '.' ∨ c = '/' := by
  have address : ∀ c ∈ b.base.text.toList, c.isDigit = true ∨ c = '.' ∨ c = '/' :=
    fun c mem => (Address.textDigits mem).imp_right .inl
  cases spelled with
  | bare single => exact ⟨b.base.textSome, address⟩
  | whole =>
    rw [textChars]
    refine ⟨by simp, fun c mem => ?_⟩
    rcases List.mem_append.mp mem with base | mem
    · exact address c base
    · rcases List.mem_cons.mp mem with slash | digit
      · exact .inr (.inr slash)
      · exact .inl (Text.decimalDigit digit)

end Block

end FileServer
