import LiteralGrammar.Constraint
import LiteralGrammar.Proofs.Reserved

namespace LiteralGrammar

theorem Placement.exists_placing {P : Placement → Prop} :
    (∃ p, p ≠ .consecutive ∧ P p) ↔ P .internal ∨ P .leading ∨ P .trailing := by
  constructor
  · intro placed
    obtain ⟨p, other, hp⟩ := placed
    cases p with
    | internal => exact Or.inl hp
    | leading => exact Or.inr (Or.inl hp)
    | trailing => exact Or.inr (Or.inr hp)
    | consecutive => exact absurd rfl other
  · intro placed
    rcases placed with hp | hp | hp
    · exact ⟨.internal, by decide, hp⟩
    · exact ⟨.leading, by decide, hp⟩
    · exact ⟨.trailing, by decide, hp⟩

theorem RuleSet.meets_exponentRules {s : RuleSet} :
    s.meets exponentRules = true ↔ ∃ r ∈ s, r.concernsExponent = true := by
  simp only [exponentRules, meets_ofList, List.mem_filter, Rule.mem_all, true_and]
  exact exists_congr fun r => And.comm

theorem RuleSet.hasSeparator_eq_false {s : RuleSet} :
    s.hasSeparator = false ↔ ∀ r ∈ s, r.isSeparator = false := by
  rw [← Bool.not_eq_true, hasSeparator_iff]
  simp only [not_exists, not_and, Bool.not_eq_true]

theorem RuleSet.inter_region_eq {s : RuleSet} {g : Region} :
    s ∩ (Selector.region g).rules = .single (.separator g .consecutive) ↔
      .separator g .consecutive ∈ s ∧ ∀ p, .separator g p ∈ s → p = .consecutive := by
  have member (p : Placement) : Rule.separator g p ∈ (Selector.region g).rules :=
    Selector.mem_rules.mpr (List.mem_map.mpr ⟨p, p.mem_all, rfl⟩)
  refine ⟨fun alone => ?_, fun alone => ?_⟩
  · have inside (r : Rule) : r ∈ s ∩ (Selector.region g).rules ↔ r = .separator g .consecutive := by
      rw [alone, mem_single]
    refine ⟨(mem_inter.mp ((inside _).mpr rfl)).1, fun p held => ?_⟩
    cases (inside _).mp (mem_inter.mpr ⟨held, member p⟩)
    rfl
  · apply eq_of_mem_iff (reserved_inter (reserved_ofList _)) (reserved_single _)
    intro r
    rw [mem_inter, mem_single]
    refine ⟨fun both => ?_, fun same => ?_⟩
    · obtain ⟨p, _, rfl⟩ := List.mem_map.mp (Selector.mem_rules.mp both.2)
      rw [alone.2 p both.1]
    · subst same
      exact ⟨alone.1, member _⟩

namespace Byte

theorem isPlain_iff {b : Byte} :
    b.isPlain = true ↔ b.toNat < 128 ∧ ¬ (48 ≤ b.toNat ∧ b.toNat ≤ 57) ∧
      b ≠ .ofChar '+' ∧ b ≠ .ofChar '-' ∧ b ≠ .ofChar '.' := by
  simp only [isPlain, isAscii, Bool.and_eq_true, Bool.not_eq_true', Bool.and_eq_false_iff,
    decide_eq_true_eq, decide_eq_false_iff_not, bne_iff_ne, ne_eq, and_assoc,
    Classical.not_and_iff_not_or_not]

def Usable (markers : Option Markers) (b : Byte) : Prop :=
  b.isPlain = true ∧ ∀ m ∈ markers, m.begins b = false

theorem usable_none {b : Byte} : b.Usable none ↔ b.isPlain = true := by
  simp [Usable]

theorem usable_some {m : Markers} {b : Byte} :
    b.Usable (some m) ↔ b.isPlain = true ∧ m.begins b = false := by
  simp [Usable]

theorem Usable.forget {markers : Option Markers} {b : Byte} (usable : b.Usable markers) :
    b.Usable none := usable_none.mpr usable.1

theorem not_usable {m : Markers} {b : Byte} (taken : m.begins b = true) : ¬ b.Usable (some m) := by
  intro usable
  have absent := (usable_some.mp usable).2
  rw [taken] at absent
  cases absent

theorem usable_zero : (0 : Byte).Usable none := usable_none.mpr (by decide)

end Byte

namespace Constraint

def Holds (d : Draft) (markers : Option Markers) : Constraint → Prop
  | .knownRules => d.rules.reserved = 0
  | .freeSeparator => d.separator.Usable markers
  | .exponentNotation =>
    .noExponentNotation ∈ d.rules → ∀ r ∈ d.rules, r.concernsExponent = false
  | .mantissaSign => ¬ (.noPositiveMantissaSign ∈ d.rules ∧ .requiredMantissaSign ∈ d.rules)
  | .exponentSign => ¬ (.noPositiveExponentSign ∈ d.rules ∧ .requiredExponentSign ∈ d.rules)
  | .specialValues =>
    .noSpecial ∈ d.rules → ¬ .caseSensitiveSpecial ∈ d.rules ∧ ¬ .specialSeparator ∈ d.rules
  | .placedSeparators g =>
    .separator g .consecutive ∈ d.rules → ∃ p, p ≠ .consecutive ∧ .separator g p ∈ d.rules

theorem violation?_eq_none {d : Draft} {markers : Option Markers} (c : Constraint) :
    violation? d markers c = none ↔ Holds d markers c := by
  cases c with
  | knownRules => simp [violation?, Holds]
  | freeSeparator =>
    cases markers with
    | none => simp [violation?, Holds, Byte.usable_none]
    | some m => simp [violation?, Holds, Byte.usable_some, Markers.admits]
  | exponentNotation =>
    simp only [violation?, Holds, RuleSet.meets_exponentRules, ite_eq_right_iff, reduceCtorEq,
      imp_false, not_and, not_exists, Bool.not_eq_true]
  | mantissaSign =>
    simp [violation?, Holds, RuleSet.contains_ofList]
  | exponentSign =>
    simp [violation?, Holds, RuleSet.contains_ofList]
  | specialValues =>
    simp [violation?, Holds, RuleSet.meets_ofList]
  | placedSeparators g =>
    simp only [violation?, Holds, RuleSet.inter_region_eq, ite_eq_right_iff, reduceCtorEq,
      imp_false, not_and]
    refine ⟨fun crowded held => ?_, fun crowded held alone => ?_⟩
    · obtain ⟨p, hp⟩ := Classical.not_forall.mp (crowded held)
      rw [Classical.not_imp] at hp
      exact ⟨p, hp.2, hp.1⟩
    · obtain ⟨p, other, hp⟩ := crowded held
      exact other (alone p hp)

theorem Holds.of_rules {d e : Draft} {markers others : Option Markers} {c : Constraint}
    (holds : Holds d markers c) (same : e.rules = d.rules) (seen : c ≠ .freeSeparator) :
    Holds e others c := by
  cases c with
  | freeSeparator => exact absurd rfl seen
  | _ => simpa only [Holds, same] using holds

end Constraint

namespace Draft

theorem accepted_iff {d : Draft} {markers : Option Markers} :
    d.violation? markers = none ↔ ∀ c, Constraint.Holds d markers c := by
  rw [violation?_eq_none_iff]
  exact forall_congr' Constraint.violation?_eq_none

section

variable {d : Draft} {markers : Option Markers} (accepted : d.violation? markers = none)
include accepted

theorem reserved_of_accepted : d.rules.reserved = 0 := accepted_iff.mp accepted .knownRules

theorem usable_of_accepted : d.separator.Usable markers :=
  accepted_iff.mp accepted .freeSeparator

theorem accepted_of_rules {e : Draft} {others : Option Markers} (same : e.rules = d.rules)
    (usable : e.separator.Usable others) : e.violation? others = none := by
  apply accepted_iff.mpr
  intro c
  by_cases seen : c = .freeSeparator
  · subst seen
    exact usable
  · exact (accepted_iff.mp accepted c).of_rules same seen

theorem accepted_without_markers : d.violation? none = none :=
  accepted_of_rules accepted rfl (usable_of_accepted accepted).forget

end

theorem violation?_of_unusable {d : Draft} {markers : Option Markers}
    (owned : d.rules.reserved = 0) (unusable : ¬ d.separator.Usable markers) :
    d.violation? markers = some (.unusableSeparator d.separator) := by
  have first : Constraint.violation? d markers .knownRules = none :=
    (Constraint.violation?_eq_none _).mpr owned
  have second : Constraint.violation? d markers .freeSeparator =
      some (.unusableSeparator d.separator) := by
    cases markers with
    | none =>
      rw [Byte.usable_none] at unusable
      simp only [Constraint.violation?, unusable, if_false, Bool.false_eq_true]
    | some m =>
      rw [Byte.usable_some] at unusable
      have refused : m.admits d.separator = false := by
        simpa [Markers.admits] using unusable
      simp only [Constraint.violation?, refused, if_false, Bool.false_eq_true]
  simp only [Draft.violation?, Constraint.order, List.cons_append, List.findSome?_cons, first,
    second]

end Draft

end LiteralGrammar
