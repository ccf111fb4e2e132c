/-! Text, character by character. White space is what has the Unicode property of that name. Unsigned
numbers have an upper bound; a digit is looked at before the bound, and the first fault from the left is
the one reported. -/
namespace FileServer.Text

def blankRanges : List (Nat × Nat) :=
  [(0x09, 0x0d), (0x20, 0x20), (0x85, 0x85), (0xa0, 0xa0), (0x1680, 0x1680), (0x2000, 0x200a),
   (0x2028, 0x2029), (0x202f, 0x202f), (0x205f, 0x205f), (0x3000, 0x3000)]

def isBlank (c : Char) : Bool :=
  blankRanges.any fun (low, high) => low ≤ c.toNat && c.toNat ≤ high

def trim (cs : List Char) : List Char :=
  ((cs.dropWhile isBlank).reverse.dropWhile isBlank).reverse

def sameIgnoringCase (a b : String) : Bool :=
  a.toList.map Char.toLower == b.toList.map Char.toLower

inductive NumberFault
  | empty
  | badDigit
  | tooLarge
  deriving DecidableEq, Repr

def NumberFault.message : NumberFault → String
  | .empty => "cannot parse integer from empty string"
  | .badDigit => "invalid digit found in string"
  | .tooLarge => "number too large to fit in target type"

def digit? (radix : Nat) (c : Char) : Option Nat :=
  let value :=
    if '0' ≤ c ∧ c ≤ '9' then c.toNat - '0'.toNat
    else if 'a' ≤ c ∧ c ≤ 'z' then c.toNat - 'a'.toNat + 10
    else if 'A' ≤ c ∧ c ≤ 'Z' then c.toNat - 'A'.toNat + 10
    else radix
  if value < radix then some value else none

def readDigits (radix max value : Nat) : List Char → Except NumberFault Nat
  | [] => .ok value
  | c :: cs =>
    match digit? radix c with
    | none => .error .badDigit
    | some d =>
      if value * radix + d ≤ max then readDigits radix max (value * radix + d) cs
      else .error .tooLarge

def readNumber (radix max : Nat) : List Char → Except NumberFault Nat
  | [] => .error .empty
  | ['+'] => .error .badDigit
  | '+' :: cs => readDigits radix max 0 cs
  | cs => readDigits radix max 0 cs

def decimal (n : Nat) : List Char := Nat.toDigits 10 n

def maxWord : Nat := 0xffffffffffffffff

def readWord (cs : List Char) : Except NumberFault Nat := readNumber 10 maxWord cs

theorem readDigitsBound {radix max value n : Nat} {cs : List Char} (small : value ≤ max)
    (read : readDigits radix max value cs = .ok n) : n ≤ max := by
  induction cs generalizing value with
  | nil =>
    cases read
    exact small
  | cons c cs ih =>
    simp only [readDigits] at read
    split at read
    · cases read
    · split at read
      · next within => exact ih within read
      · cases read

theorem readNumberBound {radix max n : Nat} {cs : List Char}
    (read : readNumber radix max cs = .ok n) : n ≤ max := by
  unfold readNumber at read
  split at read
  · cases read
  · cases read
  · exact readDigitsBound (Nat.zero_le max) read
  · exact readDigitsBound (Nat.zero_le max) read

theorem readWordBound {cs : List Char} {n : Nat} (read : readWord cs = .ok n) : n ≤ maxWord :=
  readNumberBound read

end FileServer.Text
