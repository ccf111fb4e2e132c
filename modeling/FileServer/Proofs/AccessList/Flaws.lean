import FileServer.AccessList.Reader
import FileServer.Proofs.Sequence
import FileServer.Proofs.Text

/-! A single line of an access list. It is at fault in one of three ways, each of which is told by
its text and by what its name stands for; a line without a rule never is. -/
namespace FileServer.AccessList

inductive Idle : List Char → Prop where
  | blank {line : List Char} (blank : ∀ c ∈ line, Text.isBlank c = true) : Idle line
  | comment {front : List Char} (blank : ∀ c ∈ front, Text.isBlank c = true) (note : List Char) :
      Idle (front ++ '#' :: note)

/-- What is wrong with a line that is the `n`th one: no separator stands in it, its directive is
neither of the two, or its host is a name that the resolver does not know. -/
inductive Flawed (resolver : Resolver) (n : Nat) : List Char → RuleFault → Prop where
  | unseparated {line text : List Char} (busy : ¬Idle line) (trimmed : Text.Trimmed line text)
      (absent : ¬ " from ".toList <:+: text) :
      Flawed resolver n line (.invalidLine n (String.ofList text))
  | misdirected {line text front back directive : List Char} (busy : ¬Idle line)
      (trimmed : Text.Trimmed line text) (cut : Sequence.Cut " from ".toList text front back)
      (word : Text.Trimmed front directive)
      (unknown : ¬(String.ofList directive = "allow" ∨ String.ofList directive = "deny")) :
      Flawed resolver n line (.invalidDirective n (String.ofList directive))
  | unresolved {line text front back directive host : List Char} {cause : Failure}
      (busy : ¬Idle line) (trimmed : Text.Trimmed line text)
      (cut : Sequence.Cut " from ".toList text front back) (word : Text.Trimmed front directive)
      (known : String.ofList directive = "allow" ∨ String.ofList directive = "deny")
      (named : Text.Trimmed back host)
      (unblocked : ∀ block, Block.read (String.ofList host) ≠ .ok block)
      (unnumbered : Address.read? host = none)
      (unfound : resolver (String.ofList host) = .error cause) :
      Flawed resolver n line (.unresolved n (String.ofList host) cause)

def Sound (resolver : Resolver) (line : List Char) : Prop :=
  ∀ n fault, ¬Flawed resolver n line fault

variable {resolver : Resolver} {line : List Char} {m n : Nat} {fault : RuleFault}

theorem skippedIdle : isSkipped (Text.trim line) = true ↔ Idle line := by
  rw [isSkipped, Bool.or_eq_true, List.isEmpty_iff, Text.trimNil, beq_iff_eq,
    Text.trimHead (by decide)]
  constructor
  · rintro (blank | ⟨front, note, rfl, blank⟩)
    · exact .blank blank
    · exact .comment blank note
  · rintro (blank | ⟨blank, note⟩)
    · exact .inl blank
    · exact .inr ⟨_, note, rfl, blank⟩

instance : DecidablePred Idle := fun _ => decidable_of_iff _ skippedIdle

theorem readLineIdle (idle : Idle line) (n : Nat) : readLine resolver n line = ⟨[], .ok []⟩ := by
  simp only [readLine, skippedIdle.mpr idle, if_true]

section Opened

variable {text front back directive host : List Char}

theorem readLineUncut (busy : ¬Idle line) (trimmed : Text.Trimmed line text)
    (absent : ¬ " from ".toList <:+: text) :
    readLine resolver n line = ⟨[], .error (.invalidLine n (String.ofList text))⟩ := by
  have shown := mt skippedIdle.mp busy
  rw [Text.trimComplete trimmed] at shown
  simp only [readLine, Text.trimComplete trimmed, if_neg shown, Sequence.cutAbsent.mpr absent]

theorem readLineCut (busy : ¬Idle line) (trimmed : Text.Trimmed line text)
    (cut : Sequence.Cut " from ".toList text front back) (word : Text.Trimmed front directive)
    (named : Text.Trimmed back host) :
    readLine resolver n line =
      if String.ofList directive = "allow" ∨ String.ofList directive = "deny" then
        (resolveHost resolver n host).map
          (·.map fun blocks => blocks.map (⟨String.ofList directive == "allow", ·⟩))
      else ⟨[], .error (.invalidDirective n (String.ofList directive))⟩ := by
  have shown := mt skippedIdle.mp busy
  rw [Text.trimComplete trimmed] at shown
  simp only [readLine, Text.trimComplete trimmed, if_neg shown, Sequence.cutComplete cut,
    Text.trimComplete word, Text.trimComplete named]

end Opened

theorem resolveHostFault {host : List Char} :
    (resolveHost resolver n host).value = .error fault ↔
      (∀ block, Block.read (String.ofList host) ≠ .ok block) ∧ Address.read? host = none ∧
      ∃ cause, resolver (String.ofList host) = .error cause ∧
        fault = .unresolved n (String.ofList host) cause := by
  simp only [resolveHost]
  split
  · next block read => simp only [reduceCtorEq, read, Except.ok.injEq, ne_eq, forall_eq', false_and]
  · next cause read =>
    split
    · next address => simp only [reduceCtorEq, address, false_and, and_false]
    · next address =>
      split
      · next found => simp only [reduceCtorEq, found, false_and, exists_false, and_false]
      · next found =>
        simp only [Except.error.injEq, read, address, found, ne_eq, reduceCtorEq, not_false_eq_true,
          implies_true, true_and, exists_eq_left', eq_comm]

theorem mappedFault {α β : Type} {f : α → β} {reading : Read α} :
    (reading.map (·.map f)).value = .error fault ↔ reading.value = .error fault := by
  rcases reading with ⟨asked, own | a⟩ <;>
    simp only [Traced.map, Except.map, Except.error.injEq, reduceCtorEq]

theorem readLineFault :
    (readLine resolver n line).value = .error fault ↔ Flawed resolver n line fault := by
  constructor
  · intro fails
    have trimmed := Text.trimTrimmed line
    by_cases busy : Idle line
    · rw [readLineIdle busy] at fails
      cases fails
    · cases found : Sequence.cut? " from ".toList (Text.trim line) with
      | none =>
        have absent := Sequence.cutAbsent.mp found
        rw [readLineUncut busy trimmed absent] at fails
        cases fails
        exact .unseparated busy trimmed absent
      | some halves =>
        have cut := Sequence.cutSound found
        have word := Text.trimTrimmed halves.1
        have named := Text.trimTrimmed halves.2
        rw [readLineCut busy trimmed cut word named] at fails
        split at fails
        · next known =>
          obtain ⟨unblocked, unnumbered, cause, unfound, rfl⟩ :=
            resolveHostFault.mp (mappedFault.mp fails)
          exact .unresolved busy trimmed cut word known named unblocked unnumbered unfound
        · next unknown =>
          cases fails
          exact .misdirected busy trimmed cut word unknown
  · intro flawed
    cases flawed with
    | unseparated busy trimmed absent => rw [readLineUncut busy trimmed absent]
    | misdirected busy trimmed cut word unknown =>
      rw [readLineCut busy trimmed cut word (Text.trimTrimmed _), if_neg unknown]
    | unresolved busy trimmed cut word known named unblocked unnumbered unfound =>
      rw [readLineCut busy trimmed cut word named, if_pos known]
      exact mappedFault.mpr (resolveHostFault.mpr ⟨unblocked, unnumbered, _, unfound, rfl⟩)

theorem flawedElsewhere (flawed : Flawed resolver m line fault) (n : Nat) :
    ∃ fault', Flawed resolver n line fault' := by
  cases flawed with
  | unseparated busy trimmed absent => exact ⟨_, .unseparated busy trimmed absent⟩
  | misdirected busy trimmed cut word unknown =>
    exact ⟨_, .misdirected busy trimmed cut word unknown⟩
  | unresolved busy trimmed cut word known named unblocked unnumbered unfound =>
    exact ⟨_, .unresolved busy trimmed cut word known named unblocked unnumbered unfound⟩

theorem readLineSound : (∃ rules, (readLine resolver n line).value = .ok rules) ↔
    Sound resolver line := by
  constructor
  · rintro ⟨rules, ok⟩ m fault flawed
    obtain ⟨fault', here⟩ := flawedElsewhere flawed n
    rw [readLineFault.mpr here] at ok
    cases ok
  · intro sound
    cases reading : (readLine resolver n line).value with
    | ok rules => exact ⟨rules, rfl⟩
    | error fault => exact absurd (readLineFault.mp reading) (sound n fault)

theorem firstFlawed (resolver : Resolver) (lines : List (List Char)) :
    (∀ line ∈ lines, Sound resolver line) ∨
    ∃ front line back fault, lines = front ++ line :: back ∧
      (∀ earlier ∈ front, Sound resolver earlier) ∧
      Flawed resolver (front.length + 1) line fault := by
  induction lines with
  | nil => exact .inl (List.forall_mem_nil _)
  | cons raw rest ih =>
    by_cases here : Sound resolver raw
    · rcases ih with sound | ⟨front, line, back, fault, rfl, sound, flawed⟩
      · exact .inl (List.forall_mem_cons.mpr ⟨here, sound⟩)
      · obtain ⟨fault', flawed⟩ := flawedElsewhere flawed (front.length + 2)
        exact .inr ⟨raw :: front, line, back, fault', rfl,
          List.forall_mem_cons.mpr ⟨here, sound⟩, flawed⟩
    · simp only [Sound, not_forall, not_not] at here
      obtain ⟨n, fault, flawed⟩ := here
      obtain ⟨fault', flawed⟩ := flawedElsewhere flawed 1
      exact .inr ⟨[], raw, rest, fault', rfl, List.forall_mem_nil _, flawed⟩

end FileServer.AccessList
