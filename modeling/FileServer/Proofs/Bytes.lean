import FileServer.Bytes

/-! Text as bytes. Encoding is a homomorphism and is undone by reading; and since every byte of a
wider character lies above the ASCII ones, a text of ASCII characters stands among the bytes only
where it stands in the text. -/
namespace FileServer.Bytes

theorem ofTextEncodes (s : String) : ofText s = s.toList.flatMap String.utf8EncodeChar := by
  have encoded : s.toByteArray = (s.toList.flatMap String.utf8EncodeChar).toByteArray :=
    String.utf8Encode_toList.symm
  simp only [ofText, String.toUTF8_eq_toByteArray, encoded, List.toList_data_toByteArray]

theorem textOfText (s : String) : text? (ofText s) = some s := by
  have same : (⟨(ofText s).toArray⟩ : ByteArray) = s.toByteArray := by
    simp only [ofText, String.toUTF8_eq_toByteArray, Array.toArray_toList]
  simp only [text?, String.fromUTF8?, same, s.isValidUTF8, dite_true]
  rfl

theorem textExact {bs : Bytes} {s : String} : text? bs = some s ↔ bs = ofText s := by
  constructor
  · intro read
    simp only [text?, String.fromUTF8?] at read
    split at read
    · cases read
      rfl
    · cases read
  · rintro rfl
    exact textOfText s

theorem encodedChar (c : Char) :
    c.toNat < 128 ∧ String.utf8EncodeChar c = [UInt8.ofNat c.toNat] ∨
      128 ≤ c.toNat ∧ ∀ b ∈ String.utf8EncodeChar c, 128 ≤ b.toNat := by
  fun_cases String.utf8EncodeChar c with
  | case1 v low => exact .inl ⟨Nat.lt_succ_of_le low, rfl⟩
  | case2 v high low =>
    refine .inr ⟨Nat.lt_of_not_le high, fun b mem => ?_⟩
    simp only [List.mem_cons, List.not_mem_nil, or_false] at mem
    rcases mem with rfl | rfl <;> simp only [UInt8.toNat_ofNat'] <;> omega
  | case3 v high higher low =>
    refine .inr ⟨Nat.lt_of_not_le high, fun b mem => ?_⟩
    simp only [List.mem_cons, List.not_mem_nil, or_false] at mem
    rcases mem with rfl | rfl | rfl <;> simp only [UInt8.toNat_ofNat'] <;> omega
  | case4 v high higher highest =>
    refine .inr ⟨Nat.lt_of_not_le high, fun b mem => ?_⟩
    simp only [List.mem_cons, List.not_mem_nil, or_false] at mem
    rcases mem with rfl | rfl | rfl | rfl <;> simp only [UInt8.toNat_ofNat'] <;> omega

theorem infixPast {α : Type} {x : α} {xs high ys : List α} (fresh : x ∉ high)
    (inside : x :: xs <:+: high ++ ys) : x :: xs <:+: ys := by
  induction high with
  | nil => exact inside
  | cons y high ih =>
    obtain ⟨other, fresh⟩ := not_or.mp (mt List.mem_cons.mpr fresh)
    rcases List.infix_cons_iff.mp inside with front | later
    · exact absurd (List.cons_prefix_cons.mp front).1 other
    · exact ih fresh later

theorem encodedPrefix {xs ys : List Char}
    (front : xs.flatMap String.utf8EncodeChar <+: ys.flatMap String.utf8EncodeChar) : xs <+: ys := by
  obtain ⟨rest, joined⟩ := front
  refine List.isPrefix_of_utf8Encode_append_eq_utf8Encode rest.toByteArray ?_
  simp only [List.utf8Encode, ← joined, List.toByteArray_append]

theorem encodedInfix {x : Char} {xs ys : List Char} (ascii : x.toNat < 128)
    (inside : (x :: xs).flatMap String.utf8EncodeChar <:+: ys.flatMap String.utf8EncodeChar) :
    x :: xs <:+: ys := by
  have single : String.utf8EncodeChar x = [UInt8.ofNat x.toNat] := by
    rcases encodedChar x with ⟨_, single⟩ | ⟨wide, _⟩
    · exact single
    · omega
  have head : (x :: xs).flatMap String.utf8EncodeChar =
      UInt8.ofNat x.toNat :: xs.flatMap String.utf8EncodeChar := by
    rw [List.flatMap_cons, single, List.singleton_append]
  induction ys with
  | nil =>
    rw [head, List.flatMap_nil] at inside
    exact absurd (List.infix_nil.mp inside) (List.cons_ne_nil _ _)
  | cons y ys ih =>
    rcases encodedChar y with ⟨_, alone⟩ | ⟨_, wide⟩
    · have whole := inside
      rw [List.flatMap_cons (x := y), alone, List.singleton_append] at inside
      rcases List.infix_cons_iff.mp inside with front | later
      · refine (encodedPrefix ?_).isInfix
        rwa [List.flatMap_cons (x := y), alone, List.singleton_append]
      · exact List.infix_cons (ih later)
    · rw [head, List.flatMap_cons] at inside
      refine List.infix_cons (ih (head ▸ infixPast ?_ inside))
      intro mem
      have := wide _ mem
      simp only [UInt8.toNat_ofNat'] at this
      omega

theorem textInside {s t : String} (ascii : ∀ c ∈ s.toList, c.toNat < 128)
    (inside : ofText s <:+: ofText t) : s.toList <:+: t.toList := by
  rw [ofTextEncodes, ofTextEncodes] at inside
  cases whole : s.toList with
  | nil => exact List.nil_infix
  | cons x xs =>
    rw [whole] at ascii inside
    exact encodedInfix (ascii x List.mem_cons_self) inside

end FileServer.Bytes
