import LiteralGrammar.Proofs.LastEdit

namespace LiteralGrammar

/-- The rules that bring the violation about when they are switched on in a draft without it. -/
def Violation.parties : Violation → List Rule
  | .exponentRulesWithoutNotation => .noExponentNotation :: exponentRules.toList
  | .mantissaSignConflict => [.noPositiveMantissaSign, .requiredMantissaSign]
  | .exponentSignConflict => [.noPositiveExponentSign, .requiredExponentSign]
  | .specialRulesWithoutSpecial => [.noSpecial, .caseSensitiveSpecial, .specialSeparator]
  | .consecutiveAlone g => [.separator g .consecutive]
  | .unusableSeparator _ | .reservedBits _ | .unusedSeparator _ => []

inductive Constraint.Excludes : Constraint → Rule → Rule → Prop
  | exponentNotation {r : Rule} (concerns : r.concernsExponent = true) :
      Excludes .exponentNotation .noExponentNotation r
  | mantissaSign : Excludes .mantissaSign .noPositiveMantissaSign .requiredMantissaSign
  | exponentSign : Excludes .exponentSign .noPositiveExponentSign .requiredExponentSign
  | caseSensitive : Excludes .specialValues .noSpecial .caseSensitiveSpecial
  | specialSeparator : Excludes .specialValues .noSpecial .specialSeparator

theorem RuleSet.mem_exponentRules {r : Rule} : r ∈ exponentRules ↔ r.concernsExponent = true := by
  rw [exponentRules, RuleSet.mem_ofList, List.mem_filter]
  exact and_iff_right r.mem_all

namespace Draft

/-- The region has consecutive separators, and of the rules that they continue this one alone. -/
structure SolePlacing (d : Draft) (g : Region) (r : Rule) : Prop where
  held : r ∈ d.rules
  places : ∃ p, p ≠ .consecutive ∧ r = .separator g p
  continued : .separator g .consecutive ∈ d.rules
  sole : ∀ p, p ≠ .consecutive → .separator g p ∈ d.rules → r = .separator g p

/-- A rule of the draft cannot stand beside this one, or this one needs a placement that is not
    there. -/
inductive Clashes (d : Draft) (r : Rule) : Constraint → Prop
  | excluded {c : Constraint} {q : Rule} (other : q ∈ d.rules)
      (apart : Constraint.Excludes c r q ∨ Constraint.Excludes c q r) : Clashes d r c
  | unplaced {g : Region} (widens : r = .separator g .consecutive)
      (alone : ∀ p, p ≠ .consecutive → ¬ .separator g p ∈ d.rules) :
      Clashes d r (.placedSeparators g)

variable {d : Draft} {m : Markers} {r : Rule} {c : Constraint}

open Constraint (Holds Excludes)

theorem holds_of_compile {f : Format} (compiled : d.compile m = .ok f) (c : Constraint) :
    Holds d (some m) c :=
  accepted_iff.mp (compile_eq_ok_iff.mp compiled).1 c

theorem exists_error_of_not_holds (broken : ¬ Holds d (some m) c) :
    ∃ v, d.compile m = .error v := by
  cases outcome : d.compile m with
  | error v => exact ⟨v, rfl⟩
  | ok f => exact absurd (holds_of_compile outcome c) broken

theorem exists_not_holds_of_compile {v : Violation} (refused : d.compile m = .error v) :
    ∃ c, ¬ Holds d (some m) c ∧ v = Constraint.blame d c := by
  obtain ⟨c, unmet, blamed⟩ := exists_unmet_of_compile refused
  exact ⟨c, fun holds => unmet ((Constraint.holds_iff_demand c).mp holds), blamed⟩

section

variable {markers : Option Markers}

theorem not_holds_of_excludes {p q : Rule} (apart : Excludes c p q) (first : p ∈ d.rules)
    (second : q ∈ d.rules) : ¬ Holds d markers c := by
  intro holds
  cases apart with
  | exponentNotation concerns =>
    have free := holds first q second
    rw [concerns] at free
    cases free
  | mantissaSign => exact holds ⟨first, second⟩
  | exponentSign => exact holds ⟨first, second⟩
  | caseSensitive => exact (holds first).1 second
  | specialSeparator => exact (holds first).2 second

theorem clashes_of_excludes {p q : Rule} (holds : Holds d markers c) (apart : Excludes c p q)
    (first : p ∈ (d.switch r true).rules) (second : q ∈ (d.switch r true).rules) :
    d.Clashes r c := by
  -- The two did not stand together before, so one of them is the rule that came in.
  rcases mem_switch_on.mp first with rfl | held
  · rcases mem_switch_on.mp second with rfl | other
    · cases apart with
      | exponentNotation concerns => cases concerns
    · exact .excluded other (Or.inl apart)
  · rcases mem_switch_on.mp second with rfl | other
    · exact .excluded held (Or.inr apart)
    · exact absurd holds (not_holds_of_excludes apart held other)

theorem clashes_of_not_holds (holds : Holds d markers c)
    (broken : ¬ Holds (d.switch r true) markers c) : d.Clashes r c := by
  cases c with
  | knownRules => exact absurd ((d.reserved_apply (.switch r true)).trans holds) broken
  | freeSeparator => exact absurd holds broken
  | exponentNotation =>
    simp only [Holds, Classical.not_imp, not_forall, Bool.not_eq_false] at broken
    obtain ⟨refused, q, second, concerns⟩ := broken
    exact clashes_of_excludes holds (.exponentNotation concerns) refused second
  | mantissaSign =>
    obtain ⟨first, second⟩ := not_not.mp broken
    exact clashes_of_excludes holds .mantissaSign first second
  | exponentSign =>
    obtain ⟨first, second⟩ := not_not.mp broken
    exact clashes_of_excludes holds .exponentSign first second
  | specialValues =>
    obtain ⟨first, present⟩ := Classical.not_imp.mp broken
    rcases Classical.not_and_iff_not_or_not.mp present with second | second
    · exact clashes_of_excludes holds .caseSensitive first (not_not.mp second)
    · exact clashes_of_excludes holds .specialSeparator first (not_not.mp second)
  | placedSeparators g =>
    obtain ⟨consecutive, unplaced⟩ := Classical.not_imp.mp broken
    have absent (p : Placement) (other : p ≠ .consecutive) : ¬ .separator g p ∈ d.rules :=
      fun held => unplaced ⟨p, other, mem_switch_on.mpr (Or.inr held)⟩
    rcases mem_switch_on.mp consecutive with same | held
    · exact .unplaced same.symm absent
    · obtain ⟨p, other, placed⟩ := holds held
      exact absurd placed (absent p other)

theorem not_holds_of_clashes (clash : d.Clashes r c) :
    ¬ Holds (d.switch r true) markers c := by
  have fresh : r ∈ (d.switch r true).rules := mem_switch_on.mpr (Or.inl rfl)
  cases clash with
  | excluded other apart =>
    have kept := mem_switch_on (r := r).mpr (Or.inr other)
    rcases apart with apart | apart
    · exact not_holds_of_excludes apart fresh kept
    · exact not_holds_of_excludes apart kept fresh
  | unplaced widens alone =>
    subst widens
    intro holds
    obtain ⟨p, other, placed⟩ := holds fresh
    rcases mem_switch_on.mp placed with same | held
    · cases same
      exact other rfl
    · exact alone p other held

theorem Clashes.mem_parties (clash : d.Clashes r c) (e : Draft) :
    r ∈ (Constraint.blame e c).parties := by
  cases clash with
  | excluded other apart =>
    rcases apart with apart | apart
    all_goals
      cases apart <;>
        simp_all [Constraint.blame, Violation.parties, RuleSet.mem_toList,
          RuleSet.mem_exponentRules]
  | unplaced widens alone => simp [Constraint.blame, Violation.parties, widens]

theorem solePlacing_of_not_holds (holds : Holds d markers c)
    (broken : ¬ Holds (d.switch r false) markers c) :
    ∃ g, c = .placedSeparators g ∧ d.SolePlacing g r := by
  have before {q : Rule} (held : q ∈ (d.switch r false).rules) : q ∈ d.rules :=
    (mem_switch_off.mp held).2
  cases c with
  | knownRules => exact absurd ((d.reserved_apply (.switch r false)).trans holds) broken
  | freeSeparator => exact absurd holds broken
  | exponentNotation =>
    exact absurd (fun refused q held => holds (before refused) q (before held)) broken
  | mantissaSign => exact absurd (fun both => holds ⟨before both.1, before both.2⟩) broken
  | exponentSign => exact absurd (fun both => holds ⟨before both.1, before both.2⟩) broken
  | specialValues =>
    refine absurd (fun refused => ?_) broken
    have absent := holds (before refused)
    exact ⟨fun held => absent.1 (before held), fun held => absent.2 (before held)⟩
  | placedSeparators g =>
    obtain ⟨consecutive, unplaced⟩ := Classical.not_imp.mp broken
    have continued := before consecutive
    have gone (p : Placement) (other : p ≠ .consecutive) (held : .separator g p ∈ d.rules) :
        r = .separator g p := by
      by_contra different
      exact unplaced ⟨p, other, mem_switch_off.mpr ⟨fun same => different same.symm, held⟩⟩
    obtain ⟨p, other, placed⟩ := holds continued
    have same := gone p other placed
    rw [← same] at placed
    exact ⟨g, rfl, ⟨placed, ⟨p, other, same⟩, continued, gone⟩⟩

theorem not_holds_of_solePlacing {g : Region} (sole : d.SolePlacing g r) :
    ¬ Holds (d.switch r false) markers (.placedSeparators g) := by
  intro holds
  obtain ⟨q, distinct, places⟩ := sole.places
  have consecutive : .separator g .consecutive ∈ (d.switch r false).rules := by
    refine mem_switch_off.mpr ⟨fun same => ?_, sole.continued⟩
    rw [places] at same
    cases same
    exact distinct rfl
  obtain ⟨p, other, placed⟩ := holds consecutive
  obtain ⟨different, held⟩ := mem_switch_off.mp placed
  exact different (sole.sole p other held).symm

end

theorem SolePlacing.unique {g h : Region} (first : d.SolePlacing g r) (second : d.SolePlacing h r) :
    g = h := by
  obtain ⟨p, _, places⟩ := first.places
  obtain ⟨q, _, others⟩ := second.places
  cases places.symm.trans others
  rfl

/-- A compiled draft still compiles without one of its rules, unless consecutive separators lose
    the last rule that places them, and then their region is named. With one more rule it compiles
    unless the rule clashes with those that are there, and then the rule is a party to what is
    reported: never a separator or a reserved bit. -/
theorem compile_switch_rule {f : Format} (compiled : d.compile m = .ok f) (r : Rule) :
    (∀ v, (d.switch r false).compile m = .error v ↔
      ∃ g, d.SolePlacing g r ∧ v = .consecutiveAlone g) ∧
    ((∃ v, (d.switch r true).compile m = .error v) ↔ ∃ c, d.Clashes r c) ∧
    ∀ v, (d.switch r true).compile m = .error v → r ∈ v.parties := by
  have holds := holds_of_compile compiled
  have cleared {v : Violation} (refused : (d.switch r false).compile m = .error v) :
      ∃ g, d.SolePlacing g r ∧ v = .consecutiveAlone g := by
    obtain ⟨c, broken, blamed⟩ := exists_not_holds_of_compile refused
    obtain ⟨g, rfl, sole⟩ := solePlacing_of_not_holds (holds c) broken
    exact ⟨g, sole, blamed⟩
  have clashing {v : Violation} (refused : (d.switch r true).compile m = .error v) :
      ∃ c, d.Clashes r c ∧ v = Constraint.blame (d.switch r true) c := by
    obtain ⟨c, broken, blamed⟩ := exists_not_holds_of_compile refused
    exact ⟨c, clashes_of_not_holds (holds c) broken, blamed⟩
  refine ⟨fun v => ⟨cleared, fun last => ?_⟩, ⟨fun refused => ?_, fun clash => ?_⟩,
    fun v refused => ?_⟩
  · obtain ⟨g, sole, rfl⟩ := last
    obtain ⟨w, refused⟩ := exists_error_of_not_holds (not_holds_of_solePlacing sole)
    obtain ⟨h, again, rfl⟩ := cleared refused
    rw [sole.unique again]
    exact refused
  · obtain ⟨v, refused⟩ := refused
    obtain ⟨c, clash, _⟩ := clashing refused
    exact ⟨c, clash⟩
  · obtain ⟨c, clash⟩ := clash
    exact exists_error_of_not_holds (not_holds_of_clashes clash)
  · obtain ⟨c, clash, rfl⟩ := clashing refused
    exact clash.mem_parties _

theorem compile_switch_rule_fraction :
    let d : Draft := .ofGroups [Rule.noExponentNotation, Rule.separator .fraction .internal,
      Rule.separator .fraction .consecutive]
    d.compile .usual = .ok ⟨0x5f00009000000020⟩ ∧
      (d.switch (Rule.separator .fraction .internal) false).compile .usual =
        .error (.consecutiveAlone .fraction) ∧
      (∃ v, (d.switch Rule.requiredExponentSign true).compile .usual = .error v) ∧
      .requiredExponentSign ∈ Violation.exponentRulesWithoutNotation.parties := by
  intro d
  have compiled : d.compile .usual = .ok ⟨0x5f00009000000020⟩ := by decide
  have sole : d.SolePlacing .fraction (.separator .fraction .internal) :=
    { held := by decide
      places := ⟨.internal, by decide, rfl⟩
      continued := by decide
      sole := fun p => by cases p <;> decide }
  have refused : (d.switch Rule.requiredExponentSign true).compile .usual =
      .error .exponentRulesWithoutNotation := by decide
  have clash : d.Clashes .requiredExponentSign .exponentNotation :=
    .excluded (by decide : .noExponentNotation ∈ d.rules) (Or.inr (.exponentNotation rfl))
  obtain ⟨cleared, _⟩ := compile_switch_rule compiled (.separator .fraction .internal)
  obtain ⟨_, fails, reported⟩ := compile_switch_rule compiled .requiredExponentSign
  exact ⟨compiled, (cleared _).mpr ⟨_, sole, rfl⟩, fails.mpr ⟨_, clash⟩, reported _ refused⟩

example : ((Draft.ofGroups [Rule.noExponentNotation]).switch
    (Rule.separator .exponent .consecutive) true).compile .usual =
      .error .exponentRulesWithoutNotation :=
  rfl

end Draft

end LiteralGrammar
