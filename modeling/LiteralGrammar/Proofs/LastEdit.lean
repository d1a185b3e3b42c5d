import LiteralGrammar.Proofs.Agreement
import LiteralGrammar.Proofs.Basic
import LiteralGrammar.Proofs.Verdict

namespace LiteralGrammar

/-- The rules of a group, told by their form. -/
def Selector.covers : Selector → Rule → Bool
  | .rule q, r => q == r
  | .digits, .requiredDigits _ => true
  | .placement p, .separator _ q => p == q
  | .region g, .separator h _ => g == h
  | .separators, .separator _ _ => true
  | .separators, .specialSeparator => true
  | _, _ => false

theorem Selector.covers_iff {group : Selector} {r : Rule} :
    group.covers r = true ↔ r ∈ group.members := by
  cases group with
  | rule q => rw [covers, beq_iff_eq, members, List.mem_singleton, eq_comm]
  | digits => cases r <;> simp [covers, members, Region.mem_all]
  | placement p => cases r <;> simp [covers, members, Region.mem_all]
  | region g => cases r <;> simp [covers, members, Placement.mem_all]
  | separators =>
    rw [mem_separators]
    cases r <;> simp [covers, Rule.isSeparator]

namespace Edit

def switch? (r : Rule) : Edit → Option Bool
  | .switch group on => if group.covers r then some on else none
  | .separator _ => none

def separator? : Edit → Option Byte
  | .switch _ _ => none
  | .separator b => some b

end Edit

namespace Draft

variable {d : Draft} {m : Markers}

theorem mem_apply {e : Edit} {r : Rule} :
    r ∈ (d.apply e).rules ↔ e.switch? r = some true ∨ e.switch? r = none ∧ r ∈ d.rules := by
  cases e with
  | switch group on =>
    change r ∈ (d.switch group on).rules ↔ _
    rw [mem_switch, if_congr Selector.covers_iff.symm rfl rfl]
    cases concerned : group.covers r <;> simp [Edit.switch?, concerned]
  | separator b => simp [apply, withSeparator, Edit.switch?]

theorem separator_apply (e : Edit) :
    (d.apply e).separator = e.separator?.getD d.separator := by
  cases e <;> rfl

theorem run_concat (d : Draft) (edits : List Edit) (e : Edit) :
    d.run (edits ++ [e]) = (d.run edits).apply e :=
  run_append d edits [e]

theorem mem_run {edits : List Edit} {r : Rule} :
    r ∈ (d.run edits).rules ↔
      edits.findSomeRev? (Edit.switch? r) = some true ∨
        edits.findSomeRev? (Edit.switch? r) = none ∧ r ∈ d.rules := by
  -- From the right: the last edit decides, unless it does not concern the rule.
  induction edits using List.reverseRecOn with
  | nil => simp [run]
  | append_singleton edits e ih =>
    rw [run_concat, mem_apply, ih, List.findSomeRev?_concat]
    cases e.switch? r <;> simp

theorem separator_run (edits : List Edit) :
    (d.run edits).separator = (edits.findSomeRev? Edit.separator?).getD d.separator := by
  induction edits using List.reverseRecOn with
  | nil => rfl
  | append_singleton edits e ih =>
    rw [run_concat, separator_apply, ih, List.findSomeRev?_concat, Option.getD_or]

theorem exists_unmet_of_compile {v : Violation} (refused : d.compile m = .error v) :
    ∃ c, ¬ Constraint.Demand d m c ∧ v = Constraint.blame d c := by
  have judged := compile_eq_error_iff.mp refused
  obtain ⟨c, _, found⟩ := List.exists_of_findSome?_eq_some judged
  exact ⟨c, Constraint.violation?_eq_some_iff.mp found⟩

theorem compile_ne_unusedSeparator (b : Byte) : d.compile m ≠ .error (.unusedSeparator b) := by
  intro refused
  obtain ⟨c, _, blamed⟩ := exists_unmet_of_compile refused
  cases c <;> cases blamed

theorem compile_ne_reservedBits (owned : d.rules.reserved = 0) (bits : Word) :
    d.compile m ≠ .error (.reservedBits bits) := by
  intro refused
  obtain ⟨c, unmet, blamed⟩ := exists_unmet_of_compile refused
  cases c with
  | knownRules => exact unmet (RuleSet.reserved_eq_zero_iff.mp owned)
  | _ => cases blamed

/-- The last edit that concerns a rule decides it, and the last separator stands. No bit is set
    that belongs to no rule, and compiling under any markers finds neither reserved bits nor a
    separator that no rule uses. -/
theorem run_last_edit {d : Draft} (held : d.Attainable) (edits : List Edit) :
    (∀ r, r ∈ (d.run edits).rules ↔
      edits.findSomeRev? (Edit.switch? r) = some true ∨
        edits.findSomeRev? (Edit.switch? r) = none ∧ r ∈ d.rules) ∧
    (d.run edits).separator = (edits.findSomeRev? Edit.separator?).getD d.separator ∧
    (∀ i, (d.run edits).rules.bits.getLsbD i = true → ∃ r : Rule, r.index = i) ∧
    ∀ m, (∀ bits, (d.run edits).compile m ≠ .error (.reservedBits bits)) ∧
      ∀ b, (d.run edits).compile m ≠ .error (.unusedSeparator b) := by
  have owned := (held.run edits).reserved
  exact ⟨fun r => mem_run, separator_run edits, RuleSet.reserved_eq_zero_iff.mp owned,
    fun m => ⟨compile_ne_reservedBits owned, compile_ne_unusedSeparator⟩⟩

/-- From the C++17 literals, which have internal separators in every region and a rule about special
    values: groups that overlap, switched on and off. -/
theorem run_last_edit_cxx17 :
    let d := (Preset.literal .cxx17).format.draft
    let edits : List Edit := [.switch .separators true, .separator (.ofChar ','),
      .switch (.region .exponent) false, .switch (.placement .leading) true,
      .switch .digits false, .switch (.placement .internal) false]
    d.Attainable ∧
      .separator .exponent .leading ∈ (d.run edits).rules ∧
      ¬ .separator .exponent .trailing ∈ (d.run edits).rules ∧
      ¬ .separator .integer .internal ∈ (d.run edits).rules ∧
      .separator .integer .trailing ∈ (d.run edits).rules ∧
      .caseSensitiveSpecial ∈ (d.run edits).rules ∧
      (d.run edits).separator = .ofChar ',' ∧
      ∀ m bits, (d.run edits).compile m ≠ .error (.reservedBits bits) := by
  intro d edits
  have held : d.Attainable := .ofFormat (.preset _)
  obtain ⟨decided, separator, _, reported⟩ := run_last_edit held edits
  refine ⟨held, ?_, ?_, ?_, ?_, ?_, separator, fun m => (reported m).1⟩
  all_goals
    rw [decided]
    decide +kernel

end Draft

end LiteralGrammar
