import FileServer.Proofs.AccessList.Flaws

/-! An access list line by line. Reading one text behind another is reading both, the faults of the
second counted on from the lines of the first; so the first line at fault is the one reported, and
lines that hold no rule only count. -/
namespace FileServer

def RuleFault.onLine (line : Nat) : RuleFault → RuleFault
  | .invalidLine _ text => .invalidLine line text
  | .invalidDirective _ directive => .invalidDirective line directive
  | .unresolved _ host cause => .unresolved line host cause

theorem RuleFault.onLineOwn (fault : RuleFault) : fault.onLine fault.line = fault := by
  cases fault <;> rfl

theorem RuleFault.onLineAgain (fault : RuleFault) (m n : Nat) :
    (fault.onLine m).onLine n = fault.onLine n := by
  cases fault <;> rfl

namespace AccessList

def andThen (first second : Read AccessList) : Read AccessList :=
  match first with
  | ⟨asked, .error fault⟩ => ⟨asked, .error fault⟩
  | ⟨asked, .ok rules⟩ => ⟨asked ++ second.trace, second.value.map (rules ++ ·)⟩

def renumber {α : Type} (number : Nat → Nat) (reading : Read α) : Read α :=
  ⟨reading.trace, reading.value.mapError fun fault => fault.onLine (number fault.line)⟩

variable {resolver : Resolver} {line : List Char} {lines : List (List Char)} {n : Nat}

theorem andThenNothing (reading : Read AccessList) : andThen reading ⟨[], .ok []⟩ = reading := by
  rcases reading with ⟨asked, fault | rules⟩
  · rfl
  · simp only [andThen, Except.map, List.append_nil]

theorem nothingAndThen (reading : Read AccessList) : andThen ⟨[], .ok []⟩ reading = reading := by
  rcases reading with ⟨asked, fault | rules⟩ <;> rfl

theorem andThenAssoc (x y z : Read AccessList) :
    andThen (andThen x y) z = andThen x (andThen y z) := by
  rcases x with ⟨asked, fault | rules⟩
  · rfl
  · rcases y with ⟨more, fault | others⟩
    · rfl
    · rcases z with ⟨last, fault | rest⟩ <;>
        simp only [andThen, Except.map, List.append_assoc]

theorem renumberAndThen (number : Nat → Nat) (x y : Read AccessList) :
    renumber number (andThen x y) = andThen (renumber number x) (renumber number y) := by
  rcases x with ⟨asked, fault | rules⟩
  · rfl
  · rcases y with ⟨more, fault | others⟩ <;> rfl

theorem renumberedOk {α : Type} {x y : Read α} {a : α} {number : Nat → Nat}
    (same : renumber number x = renumber number y) (ok : x.value = .ok a) : y.value = .ok a := by
  have value := congrArg Traced.value same
  simp only [renumber, ok, Except.mapError] at value
  cases other : y.value with
  | ok b => simpa only [other, Except.mapError] using value.symm
  | error fault => rw [other] at value; cases value

theorem renumberedFault {α : Type} {x y : Read α} {fault : RuleFault} {number : Nat → Nat}
    (same : renumber number x = renumber number y) (fails : x.value = .error fault) :
    ∃ line, y.value = .error (fault.onLine line) := by
  have value := congrArg Traced.value same
  simp only [renumber, fails, Except.mapError] at value
  cases other : y.value with
  | ok b => rw [other] at value; cases value
  | error fault' =>
    rw [other] at value
    have kind := congrArg (RuleFault.onLine fault'.line) (Except.error.inj value)
    rw [RuleFault.onLineAgain, RuleFault.onLineAgain, RuleFault.onLineOwn] at kind
    exact ⟨fault'.line, congrArg Except.error kind.symm⟩

theorem readLinesCons (n : Nat) (raw : List Char) (rest : List (List Char)) :
    readLines resolver n (raw :: rest) =
      andThen (readLine resolver n raw) (readLines resolver (n + 1) rest) := by
  rw [readLines]
  rcases readLine resolver n raw with ⟨asked, fault | rules⟩ <;> rfl

theorem readLinesAppend (n : Nat) (xs ys : List (List Char)) :
    readLines resolver n (xs ++ ys) =
      andThen (readLines resolver n xs) (readLines resolver (n + xs.length) ys) := by
  induction xs generalizing n with
  | nil => exact (nothingAndThen _).symm
  | cons raw rest ih =>
    rw [List.cons_append, readLinesCons, readLinesCons, ih, andThenAssoc, List.length_cons,
      Nat.add_right_comm n 1]
    rfl

theorem resolveHostRenumber (number : Nat → Nat) (n : Nat) (host : List Char) :
    resolveHost resolver (number n) host = renumber number (resolveHost resolver n host) := by
  simp only [resolveHost]
  split
  · rfl
  · split
    · rfl
    · split <;> rfl

theorem readLineRenumber (number : Nat → Nat) (n : Nat) (raw : List Char) :
    readLine resolver (number n) raw = renumber number (readLine resolver n raw) := by
  simp only [readLine]
  split
  · rfl
  · split
    · rfl
    · split
      · rw [resolveHostRenumber]
        rcases resolveHost resolver n _ with ⟨asked, fault | blocks⟩ <;> rfl
      · rfl

theorem readLinesBelow (k n : Nat) (lines : List (List Char)) :
    readLines resolver (k + n) lines = renumber (k + ·) (readLines resolver n lines) := by
  induction lines generalizing n with
  | nil => rfl
  | cons raw rest ih =>
    rw [readLinesCons, readLinesCons, readLineRenumber (k + ·), renumberAndThen, ← ih (n + 1),
      Nat.add_assoc]

theorem readLinesBusy (m n : Nat) (lines : List (List Char)) :
    renumber (fun _ => 1) (readLines resolver m lines) =
      renumber (fun _ => 1) (readLines resolver n (lines.filter (¬Idle ·))) := by
  induction lines generalizing m n with
  | nil => rfl
  | cons raw rest ih =>
    rw [readLinesCons, renumberAndThen]
    by_cases idle : Idle raw
    · rw [readLineIdle idle, List.filter_cons_of_neg (by simpa using idle), ← ih (m + 1) n]
      exact nothingAndThen _
    · rw [List.filter_cons_of_pos (by simpa using idle), readLinesCons, renumberAndThen,
        ← readLineRenumber, ← readLineRenumber, ih (m + 1) (n + 1)]

theorem readLinesSound (sound : ∀ line ∈ lines, Sound resolver line) (n : Nat) :
    ∃ rules, readLines resolver n lines =
      ⟨lines.flatMap fun line => (readLine resolver 1 line).trace, .ok rules⟩ := by
  induction lines generalizing n with
  | nil => exact ⟨[], rfl⟩
  | cons raw rest ih =>
    obtain ⟨others, tail⟩ := ih (fun line mem => sound line (List.mem_cons_of_mem _ mem)) (n + 1)
    obtain ⟨rules, here⟩ : ∃ rules, (readLine resolver 1 raw).value = .ok rules :=
      readLineSound.mpr (sound raw List.mem_cons_self)
    refine ⟨rules ++ others, ?_⟩
    rw [readLinesCons, tail, readLineRenumber (fun _ => n) 1]
    simp only [renumber, here, Except.mapError, andThen, Except.map, List.flatMap_cons]

theorem readLinesFlawed {front back : List (List Char)} {fault : RuleFault}
    (sound : ∀ earlier ∈ front, Sound resolver earlier)
    (flawed : Flawed resolver (front.length + 1) line fault) :
    readLines resolver 1 (front ++ line :: back) =
      ⟨(front ++ [line]).flatMap fun l => (readLine resolver 1 l).trace, .error fault⟩ := by
  obtain ⟨rules, before⟩ := readLinesSound sound 1
  have asked : (readLine resolver (front.length + 1) line).trace =
      (readLine resolver 1 line).trace := by
    rw [readLineRenumber (fun _ => front.length + 1) 1]
    rfl
  have fails := readLineFault.mpr flawed
  rw [readLinesAppend, before, readLinesCons, Nat.add_comm 1]
  generalize readLine resolver (front.length + 1) line = reading at asked fails
  obtain ⟨names, value⟩ := reading
  cases asked
  cases fails
  rw [List.flatMap_append, List.flatMap_singleton]
  rfl

theorem readAlone (resolver : Resolver) (fresh : '\n' ∉ line) :
    read resolver (String.ofList line) = readLine resolver 1 line := by
  rw [read, String.toList_ofList, Sequence.piecesAlone fresh, readLinesCons, readLines,
    andThenNothing]

theorem readJoined (resolver : Resolver) (a b : String) : read resolver (a ++ "\n" ++ b) =
    andThen (read resolver a) (renumber (a.toList.count '\n' + 1 + ·) (read resolver b)) := by
  have whole : (a ++ "\n" ++ b).toList = a.toList ++ '\n' :: b.toList := by
    rw [String.toList_append, String.toList_append, List.append_assoc]
    rfl
  rw [read, read, read, whole, Sequence.piecesSplitOn, List.splitOn_append_cons_self,
    ← Sequence.piecesSplitOn, ← Sequence.piecesSplitOn, readLinesAppend, Sequence.piecesCount,
    Nat.add_comm 1, readLinesBelow]

theorem readFaultFirst (resolver : Resolver) (text : String) (asked : List String)
    (fault : RuleFault) : read resolver text = ⟨asked, .error fault⟩ ↔
      ∃ front line back, text.toList.splitOn '\n' = front ++ line :: back ∧
        (∀ earlier ∈ front, Sound resolver earlier) ∧
        Flawed resolver (front.length + 1) line fault ∧
        asked = (front ++ [line]).flatMap fun l => (read resolver (String.ofList l)).trace := by
  have alone : ∀ l ∈ text.toList.splitOn '\n',
      read resolver (String.ofList l) = readLine resolver 1 l := by
    rw [← Sequence.piecesSplitOn]
    exact fun l mem => readAlone resolver (Sequence.piecesFresh '\n' text.toList l mem)
  rw [read, Sequence.piecesSplitOn]
  generalize text.toList.splitOn '\n' = lines at alone
  have asks {front back : List (List Char)} {line : List Char}
      (whole : lines = front ++ line :: back) :
      ((front ++ [line]).flatMap fun l => (readLine resolver 1 l).trace) =
        (front ++ [line]).flatMap fun l => (read resolver (String.ofList l)).trace := by
    refine List.flatMap_congr fun l mem => congrArg Traced.trace (alone l ?_).symm
    rw [whole, List.append_cons]
    exact List.mem_append_left _ mem
  constructor
  · intro fails
    rcases firstFlawed resolver lines with sound | ⟨front, line, back, own, whole, sound, flawed⟩
    · obtain ⟨rules, done⟩ := readLinesSound sound 1
      rw [done] at fails
      cases fails
    · rw [whole, readLinesFlawed sound flawed, asks whole] at fails
      cases fails
      exact ⟨front, line, back, whole, sound, flawed, rfl⟩
  · rintro ⟨front, line, back, whole, sound, flawed, rfl⟩
    rw [← asks whole, whole]
    exact readLinesFlawed sound flawed

theorem readIdleLines (resolver : Resolver) {text text' : String}
    (same : (text.toList.splitOn '\n').filter (¬Idle ·) =
      (text'.toList.splitOn '\n').filter (¬Idle ·)) :
    renumber (fun _ => 1) (read resolver text) = renumber (fun _ => 1) (read resolver text') := by
  rw [read, read, Sequence.piecesSplitOn, Sequence.piecesSplitOn, readLinesBusy 1 1, same,
    ← readLinesBusy 1 1]

/-- Two texts one below the other are read one after the other: a fault of the first one ends the
reading, and one of the second is counted on from the lines of the first. So the fault reported is
that of the first line at fault, no name behind it is asked for, and lines without a rule make no
difference but to the numbers of the others. -/
theorem readByLines (resolver : Resolver) :
    (∀ a b : String, read resolver (a ++ "\n" ++ b) =
      match read resolver a with
      | ⟨asked, .error fault⟩ => ⟨asked, .error fault⟩
      | ⟨asked, .ok rules⟩ =>
        match read resolver b with
        | ⟨more, .error fault⟩ =>
          ⟨asked ++ more, .error (fault.onLine (fault.line + (a.toList.count '\n' + 1)))⟩
        | ⟨more, .ok others⟩ => ⟨asked ++ more, .ok (rules ++ others)⟩) ∧
    (∀ text asked fault, read resolver text = ⟨asked, .error fault⟩ ↔
      ∃ front line back, text.toList.splitOn '\n' = front ++ line :: back ∧
        (∀ earlier ∈ front, Sound resolver earlier) ∧
        Flawed resolver (front.length + 1) line fault ∧
        asked = (front ++ [line]).flatMap fun l => (read resolver (String.ofList l)).trace) ∧
    ∀ text text' : String, (text.toList.splitOn '\n').filter (¬Idle ·) =
        (text'.toList.splitOn '\n').filter (¬Idle ·) →
      (read resolver text).trace = (read resolver text').trace ∧
      (∀ rules, (read resolver text).value = .ok rules → (read resolver text').value = .ok rules) ∧
      ∀ fault, (read resolver text).value = .error fault →
        ∃ line, (read resolver text').value = .error (fault.onLine line) := by
  refine ⟨fun a b => ?_, readFaultFirst resolver, fun text text' same => ?_⟩
  · rw [readJoined]
    rcases read resolver a with ⟨asked, fault | rules⟩
    · rfl
    · rcases read resolver b with ⟨more, fault | others⟩
      · simp only [renumber, andThen, Except.mapError, Except.map, Nat.add_comm fault.line]
      · rfl
  · have both := readIdleLines resolver same
    have asked : (read resolver text).trace = (read resolver text').trace :=
      congrArg (fun reading => reading.trace) both
    exact ⟨asked, fun _ ok => renumberedOk both ok, fun _ fails => renumberedFault both fails⟩

theorem readByLinesPastComment :
    let resolver : Resolver := .ofNames [("gate", [.ofOctets 10 0 0 1, .ofOctets 10 0 0 2])]
    let above := "allow from gate\r\n# note"
    let under := " \ndeny from cellar\nshut"
    let bare := "allow from gate\r\ndeny from cellar\nshut"
    let fault : RuleFault := .unresolved 4 "cellar" ⟨.notFound, "unknown host cellar"⟩
    read resolver (above ++ "\n" ++ under) = ⟨["gate", "cellar"], .error fault⟩ ∧
      Flawed resolver 4 "deny from cellar".toList fault ∧
      ((above ++ "\n" ++ under).toList.splitOn '\n').filter (¬Idle ·) =
        (bare.toList.splitOn '\n').filter (¬Idle ·) ∧
      ∃ line, (read resolver bare).value = .error (fault.onLine line) := by
  intro resolver above under bare fault
  obtain ⟨joined, _, idle⟩ := readByLines resolver
  have first : read resolver above =
      ⟨["gate"], .ok [⟨true, .host (.ofOctets 10 0 0 1)⟩, ⟨true, .host (.ofOctets 10 0 0 2)⟩]⟩ := by
    decide +kernel
  have second : read resolver under =
      ⟨["cellar"], .error (.unresolved 2 "cellar" ⟨.notFound, "unknown host cellar"⟩)⟩ := by
    decide +kernel
  have whole : read resolver (above ++ "\n" ++ under) = ⟨["gate", "cellar"], .error fault⟩ := by
    rw [joined above under, first, second]
    decide +kernel
  have same : ((above ++ "\n" ++ under).toList.splitOn '\n').filter (¬Idle ·) =
      (bare.toList.splitOn '\n').filter (¬Idle ·) := by
    decide +kernel
  have flawed : Flawed resolver 4 "deny from cellar".toList fault :=
    readLineFault.mp (by decide +kernel)
  exact ⟨whole, flawed, same, (idle _ _ same).2.2 fault (congrArg Traced.value whole)⟩

end AccessList

end FileServer
