import LiteralGrammar.Proofs.Consistency

namespace LiteralGrammar

theorem Rule.concernsExponent_iff {r : Rule} :
    r.concernsExponent = true ↔
      r = .requiredDigits .exponent ∨ r = .noPositiveExponentSign ∨ r = .requiredExponentSign ∨
        r = .noExponentWithoutFraction ∨ ∃ p, r = .separator .exponent p := by
  cases r with
  | requiredDigits g => cases g <;> simp [Rule.concernsExponent]
  | separator g p => cases g <;> simp [Rule.concernsExponent]
  | _ => simp [Rule.concernsExponent]

theorem RuleSet.exponentFree_iff {s : RuleSet} :
    (∀ r ∈ s, r.concernsExponent = false) ↔
      ¬ .requiredDigits .exponent ∈ s ∧ ¬ .noPositiveExponentSign ∈ s ∧
      ¬ .requiredExponentSign ∈ s ∧ ¬ .noExponentWithoutFraction ∈ s ∧
      ∀ p, ¬ .separator .exponent p ∈ s := by
  constructor
  · intro free
    have absent (r : Rule) (concerns : r.concernsExponent = true) : ¬ r ∈ s := by
      intro held
      rw [free r held] at concerns
      cases concerns
    exact ⟨absent _ rfl, absent _ rfl, absent _ rfl, absent _ rfl, fun p => absent _ rfl⟩
  · intro absent r held
    obtain ⟨digits, positive, sign, fraction, separators⟩ := absent
    rw [Bool.eq_false_iff]
    intro concerns
    rcases Rule.concernsExponent_iff.mp concerns with rfl | rfl | rfl | rfl | ⟨p, rfl⟩
    · exact digits held
    · exact positive held
    · exact sign held
    · exact fraction held
    · exact separators p held

namespace Constraint

def Demand (d : Draft) (m : Markers) : Constraint → Prop
  | .knownRules => ∀ i, d.rules.bits.getLsbD i = true → ∃ r : Rule, r.index = i
  | .freeSeparator =>
    (d.separator.toNat < 128 ∧ ¬ (48 ≤ d.separator.toNat ∧ d.separator.toNat ≤ 57) ∧
      d.separator ≠ .ofChar '+' ∧ d.separator ≠ .ofChar '-' ∧ d.separator ≠ .ofChar '.') ∧
    d.separator ≠ m.primary ∧ m.secondary ≠ some d.separator
  | .exponentNotation =>
    .noExponentNotation ∈ d.rules →
      ¬ .requiredDigits .exponent ∈ d.rules ∧ ¬ .noPositiveExponentSign ∈ d.rules ∧
      ¬ .requiredExponentSign ∈ d.rules ∧ ¬ .noExponentWithoutFraction ∈ d.rules ∧
      ∀ p, ¬ .separator .exponent p ∈ d.rules
  | .mantissaSign => ¬ (.noPositiveMantissaSign ∈ d.rules ∧ .requiredMantissaSign ∈ d.rules)
  | .exponentSign => ¬ (.noPositiveExponentSign ∈ d.rules ∧ .requiredExponentSign ∈ d.rules)
  | .specialValues =>
    .noSpecial ∈ d.rules → ¬ .caseSensitiveSpecial ∈ d.rules ∧ ¬ .specialSeparator ∈ d.rules
  | .placedSeparators g =>
    .separator g .consecutive ∈ d.rules →
      .separator g .internal ∈ d.rules ∨ .separator g .leading ∈ d.rules ∨
        .separator g .trailing ∈ d.rules

def precedence : List Constraint :=
  [.knownRules, .freeSeparator, .exponentNotation, .mantissaSign, .exponentSign, .specialValues,
    .placedSeparators .integer, .placedSeparators .fraction, .placedSeparators .exponent]

def blame (d : Draft) : Constraint → Violation
  | .knownRules => .reservedBits d.rules.reserved
  | .freeSeparator => .unusableSeparator d.separator
  | .exponentNotation => .exponentRulesWithoutNotation
  | .mantissaSign => .mantissaSignConflict
  | .exponentSign => .exponentSignConflict
  | .specialValues => .specialRulesWithoutSpecial
  | .placedSeparators g => .consecutiveAlone g

theorem order_eq_precedence : order = precedence := rfl

theorem holds_iff_demand {d : Draft} {m : Markers} (c : Constraint) :
    Holds d (some m) c ↔ Demand d m c := by
  cases c with
  | knownRules => exact RuleSet.reserved_eq_zero_iff
  | freeSeparator =>
    have free : m.begins d.separator = false ↔
        d.separator ≠ m.primary ∧ m.secondary ≠ some d.separator := by
      rw [← Bool.not_eq_true, Markers.begins_iff, not_or]
    exact Byte.usable_some.trans (and_congr Byte.isPlain_iff free)
  | exponentNotation => exact imp_congr Iff.rfl RuleSet.exponentFree_iff
  | mantissaSign => exact Iff.rfl
  | exponentSign => exact Iff.rfl
  | specialValues => exact Iff.rfl
  | placedSeparators g => exact imp_congr Iff.rfl Placement.exists_placing

theorem met_iff_demand {d : Draft} {m : Markers} {c : Constraint} :
    violation? d (some m) c = none ↔ Demand d m c :=
  (violation?_eq_none c).trans (holds_iff_demand c)

theorem violation?_eq_none_or_blame (d : Draft) (markers : Option Markers) (c : Constraint) :
    violation? d markers c = none ∨ violation? d markers c = some (blame d c) := by
  cases c <;> simp only [violation?, blame] <;> split <;> simp

theorem violation?_eq_some_iff {d : Draft} {m : Markers} {c : Constraint} {v : Violation} :
    violation? d (some m) c = some v ↔ ¬ Demand d m c ∧ v = blame d c := by
  rw [← met_iff_demand]
  rcases violation?_eq_none_or_blame d (some m) c with verdict | verdict
  · simp [verdict]
  · simp [verdict, eq_comm]

end Constraint

namespace Draft

open Constraint

/-- A draft is accepted exactly if it meets every demand, and otherwise it is blamed for the first
    demand in the order of precedence that it does not meet. -/
theorem violation_first_unmet (d : Draft) (m : Markers) :
    (d.violation? (some m) = none ↔ ∀ c, Demand d m c) ∧
    ∀ v, d.violation? (some m) = some v ↔
      ∃ before c later, precedence = before ++ c :: later ∧
        (∀ b ∈ before, Demand d m b) ∧ ¬ Demand d m c ∧ v = blame d c := by
  refine ⟨accepted_iff.trans (forall_congr' holds_iff_demand), fun v => ?_⟩
  -- The first finding of the search splits the list into what passed, the culprit and the rest.
  rw [Draft.violation?, order_eq_precedence, List.findSome?_eq_some_iff]
  constructor
  · intro first
    obtain ⟨before, c, later, split, found, passed⟩ := first
    obtain ⟨unmet, blamed⟩ := violation?_eq_some_iff.mp found
    exact ⟨before, c, later, split, fun b hb => met_iff_demand.mp (passed b hb), unmet, blamed⟩
  · intro first
    obtain ⟨before, c, later, split, passed, unmet, blamed⟩ := first
    have found := violation?_eq_some_iff.mpr ⟨unmet, blamed⟩
    exact ⟨before, c, later, split, found, fun b hb => met_iff_demand.mpr (passed b hb)⟩

example : (⟨.ofList [.noSpecial, .specialSeparator, .noPositiveMantissaSign, .requiredMantissaSign],
    .ofChar '_'⟩ : Draft).violation? (some .usual) = some .mantissaSignConflict := by
  decide

end Draft

end LiteralGrammar
