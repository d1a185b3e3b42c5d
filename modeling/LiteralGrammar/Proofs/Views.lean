import LiteralGrammar.Proofs.Image
import LiteralGrammar.Proofs.WellFormed

namespace LiteralGrammar

theorem Rule.pairwise_index_all : all.Pairwise (·.index < ·.index) := by decide

theorem Rule.filter_concernsExponent :
    all.filter (·.concernsExponent) =
      [.requiredDigits .exponent, .noPositiveExponentSign, .requiredExponentSign,
        .noExponentWithoutFraction, .separator .exponent .internal, .separator .exponent .leading,
        .separator .exponent .trailing, .separator .exponent .consecutive] := by
  decide

namespace Format

variable {f : Format}

theorem test_eq_isActive (r : Rule) : f.test r = f.isActive r := by
  rw [Bool.eq_iff_iff, test_iff, isActive_iff]

theorem pairwise_index_activeRules (f : Format) : f.activeRules.Pairwise (·.index < ·.index) :=
  Rule.pairwise_index_all.filter _

theorem rules_run_activeRules (f : Format) :
    (({} : Draft).run (f.activeRules.map fun r : Rule => .switch r true)).rules = f.rules := by
  have built := Draft.run_switches (d := { rules := f.rules }) f.reserved_rules fun r =>
    mem_activeRules
  exact congrArg Draft.rules built

theorem meets_ofList_eq_any (rules : List Rule) :
    f.rules.meets (.ofList rules) = rules.any fun r => f.test r := by
  rw [Bool.eq_iff_iff, RuleSet.meets_ofList, List.any_eq_true]
  exact exists_congr fun r => and_congr_right fun _ => (test_iff r).symm

theorem requiresDigits_eq :
    f.requiresDigits =
      (f.requiresIntegerDigits || f.requiresFractionDigits || f.requiresExponentDigits) := by
  rw [requiresDigits, Selector.rules, meets_ofList_eq_any]
  simp [Selector.members, Region.all, test, Bool.or_assoc]

theorem allowsPlacement_eq (p : Placement) :
    f.allowsPlacement p =
      (f.test (.separator .integer p) || f.test (.separator .fraction p) ||
        f.test (.separator .exponent p)) := by
  rw [allowsPlacement, Selector.rules, meets_ofList_eq_any]
  simp [Selector.members, Region.all, Bool.or_assoc]

theorem hasSeparator_eq :
    f.hasSeparator = (Rule.all.filter (·.isSeparator)).any fun r => f.test r := by
  rw [hasSeparator, RuleSet.hasSeparator, separatorRules, meets_ofList_eq_any]

theorem hasExponentRules_eq :
    f.hasExponentRules =
      (f.requiresExponentDigits || f.forbidsPositiveExponentSign || f.requiresExponentSign ||
        f.requiresFractionBeforeExponent || f.exponentInternalSeparator ||
        f.exponentLeadingSeparator || f.exponentTrailingSeparator ||
        f.exponentConsecutiveSeparator) := by
  rw [hasExponentRules, exponentRules, Rule.filter_concernsExponent, meets_ofList_eq_any]
  simp [test, Bool.or_assoc]

/-- All views of a format tell the same rules: the list of the active ones, which stands in the
    order of the bits and builds the rules again; the test of each rule; the table of separators;
    and the questions about groups, each of which asks for any of its members. -/
theorem views_agree (f : Format) :
    (f.activeRules.Pairwise (·.index < ·.index) ∧
      (∀ r, r ∈ f.activeRules ↔ f.isActive r = true) ∧
      (({} : Draft).run (f.activeRules.map fun r : Rule => .switch r true)).rules = f.rules) ∧
    ((∀ r, f.test r = f.isActive r) ∧
      ∀ g p, f.separatorAllowed g p = f.test (.separator g p)) ∧
    f.requiresDigits =
      (f.requiresIntegerDigits || f.requiresFractionDigits || f.requiresExponentDigits) ∧
    (∀ p, f.allowsPlacement p =
      (f.test (.separator .integer p) || f.test (.separator .fraction p) ||
        f.test (.separator .exponent p))) ∧
    f.hasSeparator = (Rule.all.filter (·.isSeparator)).any (fun r => f.test r) ∧
    f.hasExponentRules =
      (f.requiresExponentDigits || f.forbidsPositiveExponentSign || f.requiresExponentSign ||
        f.requiresFractionBeforeExponent || f.exponentInternalSeparator ||
        f.exponentLeadingSeparator || f.exponentTrailingSeparator ||
        f.exponentConsecutiveSeparator) := by
  refine ⟨⟨pairwise_index_activeRules f, fun r => ?_, rules_run_activeRules f⟩,
    ⟨test_eq_isActive, fun g p => ?_⟩, requiresDigits_eq, allowsPlacement_eq, hasSeparator_eq,
    hasExponentRules_eq⟩
  · rw [mem_activeRules, isActive_iff]
  · exact (test_eq_isActive _).symm

end Format

end LiteralGrammar
