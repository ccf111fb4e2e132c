import FileServer.Proofs.AccessList.Lines
import FileServer.Proofs.Address.Written

/-! Access lists as they are written: a line for each rule, with white space wherever it may stand,
blocks in full or as a bare address, and lines without a rule in between. What is written is read
back, and no name is asked for. -/
namespace FileServer

def Gap (cs : List Char) : Prop := ∀ c ∈ cs, c = ' ' ∨ c = '\t'

instance (cs : List Char) : Decidable (Gap cs) := List.decidableBAll _ cs

theorem Gap.blank {cs : List Char} (gap : Gap cs) : ∀ c ∈ cs, Text.isBlank c = true := by
  intro c mem
  rcases gap c mem with rfl | rfl <;> decide

theorem Block.Spelled.visible {block : Block} {host : List Char} (spelled : block.Spelled host) :
    ∀ c ∈ host, Text.isBlank c = false := by
  intro c mem
  rcases spelled.chars.2 c mem with digit | rfl | rfl
  · exact Text.digitVisible digit
  · decide
  · decide

namespace Rule

def directive (rule : Rule) : List Char := if rule.allow then "allow".toList else "deny".toList

theorem directiveVisible (rule : Rule) : rule.directive ≠ [] ∧
    ∀ c ∈ rule.directive, Text.isBlank c = false ∧ c ≠ '#' ∧ c ≠ 'f' := by
  have each : rule.directive ≠ [] ∧
      rule.directive.all (fun c => !Text.isBlank c && c ≠ '#' && c ≠ 'f') = true := by
    unfold directive
    split <;> decide
  refine ⟨each.1, fun c mem => ?_⟩
  simpa [and_assoc] using List.all_eq_true.mp each.2 c mem

theorem directiveTold (rule : Rule) :
    (String.ofList rule.directive = "allow" ∨ String.ofList rule.directive = "deny") ∧
      (String.ofList rule.directive == "allow") = rule.allow := by
  unfold directive
  cases rule.allow <;> decide

inductive Written (rule : Rule) : List Char → Prop where
  | mk {lead between before host trail : List Char} (inFront : Gap lead) (behind : Gap between)
      (ahead : Gap before) (last : Gap trail) (spelled : rule.block.Spelled host) :
      Written rule (lead ++
        (rule.directive ++ between ++ " from ".toList ++ (before ++ host)) ++ trail)

end Rule

namespace AccessList

inductive Line : AccessList → List Char → Prop where
  | rule {rule : Rule} {line : List Char} (written : rule.Written line) : Line [rule] line
  | idle {line : List Char} (idle : Idle line) (whole : '\n' ∉ line) : Line [] line

inductive Written : AccessList → List Char → Prop where
  | last {rules : AccessList} {line : List Char} (here : Line rules line) : Written rules line
  | more {rules others : AccessList} {line ending text : List Char} (here : Line rules line)
      (ends : ending = ['\n'] ∨ ending = ['\r', '\n']) (rest : Written others text) :
      Written (rules ++ others) (line ++ ending ++ text)

variable {resolver : Resolver} {rule : Rule} {line host : List Char} {block : Block}

theorem resolveSpelled (spelled : block.Spelled host) (n : Nat) :
    resolveHost resolver n host = ⟨[], .ok [block]⟩ := by
  cases spelled with
  | whole =>
    simp only [resolveHost, String.ofList_toList, Block.readText]
  | bare single =>
    simp only [resolveHost, String.ofList_toList, Block.readBare, Address.readText,
      Block.hostSingle single]

section Lines

variable {lead between before trail : List Char}

theorem ruleTrimmed (inFront : ∀ c ∈ lead, Text.isBlank c = true)
    (behind : ∀ c ∈ trail, Text.isBlank c = true) (spelled : block.Spelled host) :
    Text.Trimmed
      (lead ++ (rule.directive ++ between ++ " from ".toList ++ (before ++ host)) ++ trail)
      (rule.directive ++ between ++ " from ".toList ++ (before ++ host)) := by
  obtain ⟨some', visible⟩ := rule.directiveVisible
  refine .mk inFront behind (fun c first => ?_) fun c last => ?_
  · rw [List.append_assoc, List.append_assoc, List.head?_append_of_ne_nil _ some'] at first
    exact (visible c (List.mem_of_mem_head? first)).1
  · rw [← List.append_assoc, List.getLast?_append_of_ne_nil _ spelled.chars.1] at last
    exact spelled.visible c (List.mem_of_mem_getLast? last)

theorem ruleBusy (trimmed : Text.Trimmed line
    (rule.directive ++ between ++ " from ".toList ++ (before ++ host))) : ¬Idle line := by
  obtain ⟨some', visible⟩ := rule.directiveVisible
  obtain ⟨c, rest, directive⟩ := List.exists_cons_of_ne_nil some'
  have mark : c ≠ '#' := (visible c (directive ▸ List.mem_cons_self)).2.1
  rw [← skippedIdle, Text.trimComplete trimmed, directive]
  simpa [isSkipped] using mark

theorem ruleCut (behind : Gap between) : Sequence.Cut " from ".toList
    (rule.directive ++ between ++ " from ".toList ++ (before ++ host))
    (rule.directive ++ between) (before ++ host) := by
  refine Sequence.cutOfFree _ (by decide) fun mem => ?_
  rcases List.mem_append.mp mem with inside | gap
  · exact (rule.directiveVisible.2 'f' inside).2.2 rfl
  · exact absurd (behind 'f' gap) (by decide)

end Lines

theorem readLineWritten (written : rule.Written line) {ending : List Char}
    (ends : ∀ c ∈ ending, Text.isBlank c = true) (n : Nat) :
    readLine resolver n (line ++ ending) = ⟨[], .ok [rule]⟩ := by
  obtain @⟨lead, between, before, host, trail, inFront, behind, ahead, last, spelled⟩ := written
  have around : ∀ c ∈ trail ++ ending, Text.isBlank c = true :=
    List.forall_mem_append.mpr ⟨last.blank, ends⟩
  have trimmed := @ruleTrimmed rule host rule.block _ between before _ inFront.blank around spelled
  have word : Text.Trimmed ([] ++ rule.directive ++ between) rule.directive :=
    Text.trimmedVisible (List.forall_mem_nil _) behind.blank fun c mem =>
      (rule.directiveVisible.2 c mem).1
  have named : Text.Trimmed (before ++ host ++ []) host :=
    Text.trimmedVisible ahead.blank (List.forall_mem_nil _) spelled.visible
  rw [List.nil_append] at word
  rw [List.append_nil] at named
  rw [List.append_assoc _ trail ending, readLineCut (ruleBusy trimmed) trimmed (ruleCut behind) word
    named, if_pos rule.directiveTold.1, resolveSpelled spelled, rule.directiveTold.2]
  rfl

theorem idleExtended {ending : List Char} (idle : Idle line)
    (ends : ∀ c ∈ ending, Text.isBlank c = true) : Idle (line ++ ending) := by
  cases idle with
  | blank blank => exact .blank (List.forall_mem_append.mpr ⟨blank, ends⟩)
  | comment blank note =>
    rw [List.append_assoc]
    exact .comment blank (note ++ ending)

theorem ruleWhole (written : rule.Written line) : '\n' ∉ line := by
  obtain @⟨lead, between, before, host, trail, inFront, behind, ahead, last, spelled⟩ := written
  have gap {cs : List Char} (gap : Gap cs) : '\n' ∉ cs := fun mem => absurd (gap _ mem) (by decide)
  have directive : '\n' ∉ rule.directive := fun mem =>
    absurd (rule.directiveVisible.2 _ mem).1 (by decide)
  have host' : '\n' ∉ host := fun mem => absurd (spelled.visible _ mem) (by decide)
  simp [gap inFront, gap behind, gap ahead, gap last, directive, host']

theorem readLineLine {rules : AccessList} (here : Line rules line) {ending : List Char}
    (ends : ∀ c ∈ ending, Text.isBlank c = true) (n : Nat) :
    readLine resolver n (line ++ ending) = ⟨[], .ok rules⟩ := by
  cases here with
  | rule written => exact readLineWritten written ends n
  | idle idle whole => exact readLineIdle (idleExtended idle ends) n

theorem Line.whole {rules : AccessList} (here : Line rules line) : '\n' ∉ line := by
  cases here with
  | rule written => exact ruleWhole written
  | idle idle whole => exact whole

theorem writtenPieces {front text : List Char} (whole : '\n' ∉ front) :
    Sequence.pieces ['\n'] (front ++ '\n' :: text) = front :: Sequence.pieces ['\n'] text := by
  rw [Sequence.piecesSplitOn, Sequence.piecesSplitOn,
    List.splitOn_append_cons_self_of_not_mem whole]

theorem readWritten {rules : AccessList} {text : List Char} (written : Written rules text)
    (n : Nat) : readLines resolver n (Sequence.pieces ['\n'] text) = ⟨[], .ok rules⟩ := by
  induction written generalizing n with
  | @last rules line here =>
    have read : readLine resolver n (line ++ []) = ⟨[], .ok rules⟩ :=
      readLineLine here (List.forall_mem_nil _) n
    rw [List.append_nil] at read
    rw [Sequence.piecesAlone here.whole, readLinesCons, readLines, andThenNothing, read]
  | @more rules others line ending text here ends rest ih =>
    obtain ⟨tail, rfl, blank, whole⟩ : ∃ tail, ending = tail ++ ['\n'] ∧
        (∀ c ∈ tail, Text.isBlank c = true) ∧ '\n' ∉ tail := by
      rcases ends with rfl | rfl
      · exact ⟨[], rfl, List.forall_mem_nil _, List.not_mem_nil⟩
      · exact ⟨['\r'], rfl, List.forall_mem_singleton.mpr (by decide), by decide⟩
    have line' : '\n' ∉ line ++ tail := by
      rw [List.mem_append, not_or]
      exact ⟨here.whole, whole⟩
    rw [← List.append_assoc, List.append_assoc _ ['\n'], List.singleton_append,
      writtenPieces line', readLinesCons, readLineLine here blank, ih]
    rfl

/-- However a list of rules is written, it is read back, and no name is asked for. -/
theorem readsBackWritten (resolver : Resolver) {rules : AccessList} {text : String}
    (written : Written rules text.toList) : read resolver text = ⟨[], .ok rules⟩ :=
  readWritten written 1

theorem readsBackWrittenAroundComment :
    let office : Rule := ⟨false, ⟨.ofOctets 10 0 0 0, 8, by decide, by decide⟩⟩
    let desk : Rule := ⟨true, .host (.ofOctets 10 0 0 1)⟩
    let text := " deny\t from 10.0.0.0/8 \r\n # open\n\nallow from  10.0.0.1"
    Written [office, desk] text.toList ∧ read .silent text = ⟨[], .ok [office, desk]⟩ := by
  intro office desk text
  have full : office.Written (" ".toList ++ (office.directive ++ "\t".toList ++ " from ".toList ++
      ([] ++ office.block.text.toList)) ++ " ".toList) :=
    .mk (by decide) (by decide) (by decide) (by decide) (.whole _)
  have bare : desk.Written ([] ++ (desk.directive ++ [] ++ " from ".toList ++
      (" ".toList ++ desk.block.base.text.toList)) ++ []) :=
    .mk (by decide) (by decide) (by decide) (by decide) (.bare rfl)
  have comment : Line [] " # open".toList := .idle (by decide) (by decide)
  have blank : Line [] [] := .idle (by decide) (by decide)
  have written : Written [office, desk] text.toList := by
    refine Eq.mp (congrArg (Written [office, desk]) ?_) <|
      @Written.more [office] [desk] _ _ _ (.rule full) (.inr rfl) <|
      @Written.more [] [desk] _ _ _ comment (.inl rfl) <|
      @Written.more [] [desk] _ _ _ blank (.inl rfl) <| .last (.rule bare)
    decide +kernel
  exact ⟨written, readsBackWritten .silent written⟩

end AccessList

end FileServer
