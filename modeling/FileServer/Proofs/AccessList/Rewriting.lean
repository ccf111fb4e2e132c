import FileServer.AccessList.Reader
import FileServer.Proofs.Address.Block

/-! Rewritings of access lists that change no decision. What stands in front of the rewritten part
decides as before, so each rewriting is a statement about the rest of the list; it rests on blocks
being apart or nested. -/
namespace FileServer.AccessList

variable {front back back' rules : AccessList} {rule first second earlier : Rule} {a : Address}

theorem admitsCons (rule : Rule) (rest : AccessList) (a : Address) :
    admits (rule :: rest) a =
      if rule.block.contains a = true then rule.allow else admits rest a := by
  unfold admits
  rw [List.find?_cons]
  cases rule.block.contains a <;> rfl

theorem admitsBehind (same : admits back a = admits back' a) :
    admits (front ++ back) a = admits (front ++ back') a := by
  induction front with
  | nil => exact same
  | cons rule front ih => rw [List.cons_append, List.cons_append, admitsCons, admitsCons, ih]

theorem admitsInFront (mem : earlier ∈ front) (holds : earlier.block.contains a = true) :
    admits (front ++ back) a = admits front a := by
  induction front with
  | nil => cases mem
  | cons rule front ih =>
    rw [List.cons_append, admitsCons, admitsCons]
    rcases List.mem_cons.mp mem with rfl | mem
    · rw [if_pos holds, if_pos holds]
    · rw [ih mem]

theorem admitsOpen (open' : ∀ rule ∈ rules, rule.allow = true) : admits rules a = true := by
  induction rules with
  | nil => rfl
  | cons rule rest ih =>
    have later := ih fun r mem => open' r (List.mem_cons_of_mem _ mem)
    rw [admitsCons, open' rule List.mem_cons_self, later]
    exact ite_self _

theorem admitsShadowed (mem : earlier ∈ front) (within : rule.block.Within earlier.block) :
    admits (front ++ rule :: back) a = admits (front ++ back) a := by
  by_cases holds : rule.block.contains a = true
  · have covered := within a holds
    rw [admitsInFront mem covered, admitsInFront mem covered]
  · apply admitsBehind
    rw [admitsCons, if_neg holds]

theorem admitsSwapped
    (free : (¬first.block.Within second.block ∧ ¬second.block.Within first.block) ∨
      first.allow = second.allow) :
    admits (front ++ first :: second :: back) a = admits (front ++ second :: first :: back) a := by
  apply admitsBehind
  simp only [admitsCons]
  by_cases inFirst : first.block.contains a = true <;>
    by_cases inSecond : second.block.contains a = true
  · rw [if_pos inFirst, if_pos inSecond]
    rcases free with ⟨notFirst, notSecond⟩ | same
    · rcases first.block.apartOrNested second.block with apart | within | within
      · exact absurd ⟨inFirst, inSecond⟩ (apart a)
      · exact absurd within notFirst
      · exact absurd within notSecond
    · exact same
  · simp only [inFirst, inSecond, if_true, if_false, Bool.false_eq_true]
  · simp only [inFirst, inSecond, if_true, if_false, Bool.false_eq_true]
  · simp only [inFirst, inSecond, if_false, Bool.false_eq_true]

theorem admitsTrailing (allow : rule.allow = true) (open' : ∀ later ∈ back, later.allow = true) :
    admits (front ++ rule :: back) a = admits (front ++ back) a := by
  apply admitsBehind
  rw [admitsOpen open', admitsOpen]
  intro r mem
  rcases List.mem_cons.mp mem with rfl | mem
  · exact allow
  · exact open' r mem

theorem admitsHalved {low high : Block} (halved : rule.block.Halved low high) :
    admits (front ++ rule :: back) a =
      admits (front ++ ⟨rule.allow, low⟩ :: ⟨rule.allow, high⟩ :: back) a := by
  apply admitsBehind
  simp only [admitsCons, halved.contains, Bool.or_eq_true]
  by_cases inLow : low.contains a = true
  · rw [if_pos (.inl inLow), if_pos inLow]
  · simp only [inLow, false_or, Bool.false_eq_true, if_false]

/-- A rule can go where an earlier one covers its block, and where it allows and nothing behind it
denies; neighbours change places where neither block lies in the other or both decide alike; and a
rule stands for two with the halves of its block. -/
theorem admitsRewritten :
    (∀ x y : Block, (∀ a, x.contains a = true → y.contains a = true) ↔
      y.length ≤ x.length ∧ y.contains x.base = true) ∧
    ∀ (front back : AccessList) (a : Address),
      (∀ rule, (∃ earlier ∈ front, rule.block.Within earlier.block) →
        admits (front ++ rule :: back) a = admits (front ++ back) a) ∧
      (∀ first second, (¬first.block.Within second.block ∧ ¬second.block.Within first.block) ∨
          first.allow = second.allow →
        admits (front ++ first :: second :: back) a = admits (front ++ second :: first :: back) a) ∧
      (∀ rule, rule.allow = true → (∀ later ∈ back, later.allow = true) →
        admits (front ++ rule :: back) a = admits (front ++ back) a) ∧
      ∀ rule, rule.block.length < 32 →
        (∃ low high, rule.block.Halved low high) ∧
        ∀ low high, rule.block.Halved low high →
          admits (front ++ rule :: back) a =
            admits (front ++ ⟨rule.allow, low⟩ :: ⟨rule.allow, high⟩ :: back) a := by
  refine ⟨fun x y => Block.withinDecided, fun front back a => ⟨?_, ?_, ?_, ?_⟩⟩
  · rintro rule ⟨earlier, mem, within⟩
    exact admitsShadowed mem within
  · intro first second free
    exact admitsSwapped free
  · intro rule allow open'
    exact admitsTrailing allow open'
  · intro rule short
    exact ⟨Block.halvesExist short, fun low high halved => admitsHalved halved⟩

theorem admitsRewrittenByOffice :
    let office : Block := ⟨.ofOctets 10 1 0 0, 16, by decide, by decide⟩
    let desk : Block := ⟨.ofOctets 10 1 2 0, 24, by decide, by decide⟩
    let lab : Block := ⟨.ofOctets 10 3 0 0, 16, by decide, by decide⟩
    let all : Block := ⟨.unspecified, 0, by decide, by decide⟩
    let lower : Block := ⟨.unspecified, 1, by decide, by decide⟩
    let upper : Block := ⟨.ofOctets 128 0 0 0, 1, by decide, by decide⟩
    desk.Within office ∧ ¬office.Within lab ∧ ¬lab.Within office ∧ all.Halved lower upper ∧
      ∀ a : Address,
        admits [⟨true, office⟩, ⟨false, desk⟩, ⟨false, lab⟩] a =
          admits [⟨true, office⟩, ⟨false, lab⟩] a ∧
        admits [⟨true, office⟩, ⟨false, lab⟩] a = admits [⟨false, lab⟩, ⟨true, office⟩] a ∧
        admits [⟨false, lab⟩, ⟨true, office⟩] a = admits [⟨false, lab⟩] a ∧
        admits [⟨false, all⟩] a = admits [⟨false, lower⟩, ⟨false, upper⟩] a := by
  intro office desk lab all lower upper
  obtain ⟨decided, rewritten⟩ := admitsRewritten
  have inside : desk.Within office := (decided desk office).mpr (by decide)
  have notLab : ¬office.Within lab := mt (decided office lab).mp (by decide)
  have notOffice : ¬lab.Within office := mt (decided lab office).mp (by decide)
  have halved : all.Halved lower upper := ⟨rfl, rfl, rfl, by decide⟩
  refine ⟨inside, notLab, notOffice, halved, fun a => ⟨?_, ?_, ?_, ?_⟩⟩
  · exact (rewritten [⟨true, office⟩] [⟨false, lab⟩] a).1 ⟨false, desk⟩
      ⟨_, List.mem_singleton_self _, inside⟩
  · exact (rewritten [] [] a).2.1 ⟨true, office⟩ ⟨false, lab⟩ (.inl ⟨notLab, notOffice⟩)
  · exact (rewritten [⟨false, lab⟩] [] a).2.2.1 ⟨true, office⟩ rfl nofun
  · exact ((rewritten [] [] a).2.2.2 ⟨false, all⟩ (by decide)).2 lower upper halved

end FileServer.AccessList
