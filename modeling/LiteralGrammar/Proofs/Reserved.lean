import LiteralGrammar.Draft

namespace LiteralGrammar

namespace RuleSet

theorem getLsbD_union (s t : RuleSet) (i : Nat) :
    (s ∪ t).bits.getLsbD i = (s.bits.getLsbD i || t.bits.getLsbD i) :=
  BitVec.getLsbD_or

theorem getLsbD_inter (s t : RuleSet) (i : Nat) :
    (s ∩ t).bits.getLsbD i = (s.bits.getLsbD i && t.bits.getLsbD i) :=
  BitVec.getLsbD_and

theorem getLsbD_sdiff (s t : RuleSet) (i : Nat) :
    (s \ t).bits.getLsbD i = (s.bits.getLsbD i && !t.bits.getLsbD i) := by
  change (s.bits &&& ~~~t.bits).getLsbD i = _
  rw [BitVec.getLsbD_and, BitVec.getLsbD_not]
  cases hs : s.bits.getLsbD i
  · simp
  · have low := BitVec.lt_of_getLsbD hs
    simp [low]

theorem getLsbD_known {i : Nat} : known.bits.getLsbD i = true ↔ ∃ r : Rule, r.index = i := by
  rw [known, getLsbD_ofList]
  refine exists_congr fun r => ?_
  exact and_iff_right (Rule.mem_all r)

theorem getLsbD_reserved {s : RuleSet} {i : Nat} :
    s.reserved.getLsbD i = true ↔ s.bits.getLsbD i = true ∧ ¬ ∃ r : Rule, r.index = i := by
  rw [← getLsbD_known, reserved, getLsbD_sdiff, Bool.and_eq_true, Bool.not_eq_true',
    Bool.not_eq_true]

theorem reserved_eq_zero_iff {s : RuleSet} :
    s.reserved = 0 ↔ ∀ i, s.bits.getLsbD i = true → ∃ r : Rule, r.index = i := by
  refine ⟨fun owned i hs => ?_, fun owned => ?_⟩
  · by_cases hr : ∃ r : Rule, r.index = i
    · exact hr
    · have reserved := getLsbD_reserved.mpr ⟨hs, hr⟩
      rw [owned] at reserved
      simp at reserved
  · apply BitVec.eq_of_getLsbD_eq
    intro i _
    cases hr : s.reserved.getLsbD i
    · simp
    · have outside := getLsbD_reserved.mp hr
      exact absurd (owned i outside.1) outside.2

theorem getLsbD_of_reserved {s : RuleSet} (owned : s.reserved = 0) {i : Nat} (high : 45 ≤ i) :
    s.bits.getLsbD i = false := by
  cases hs : s.bits.getLsbD i
  · rfl
  · obtain ⟨r, rfl⟩ := reserved_eq_zero_iff.mp owned i hs
    have low := r.index_lt
    omega

theorem eq_of_mem_iff {s t : RuleSet} (hs : s.reserved = 0) (ht : t.reserved = 0)
    (same : ∀ r, r ∈ s ↔ r ∈ t) : s = t := by
  apply RuleSet.ext
  apply BitVec.eq_of_getLsbD_eq
  intro i _
  rw [Bool.eq_iff_iff]
  refine ⟨fun held => ?_, fun held => ?_⟩
  · obtain ⟨r, rfl⟩ := reserved_eq_zero_iff.mp hs i held
    exact (same r).mp held
  · obtain ⟨r, rfl⟩ := reserved_eq_zero_iff.mp ht i held
    exact (same r).mpr held

theorem reserved_ofList (rules : List Rule) : (ofList rules).reserved = 0 := by
  apply reserved_eq_zero_iff.mpr
  intro i held
  obtain ⟨r, _, owned⟩ := getLsbD_ofList.mp held
  exact ⟨r, owned⟩

theorem reserved_empty : (∅ : RuleSet).reserved = 0 := reserved_ofList []

theorem reserved_known : known.reserved = 0 := reserved_ofList Rule.all

theorem single_eq_ofList (r : Rule) : single r = ofList [r] := by
  simp [ofList, Union.union, EmptyCollection.emptyCollection]

theorem contains_single {s : RuleSet} {r : Rule} : s.contains (single r) = true ↔ r ∈ s := by
  rw [single_eq_ofList, contains_ofList, List.forall_mem_singleton]

theorem reserved_single (r : Rule) : (single r).reserved = 0 := by
  rw [single_eq_ofList]
  exact reserved_ofList [r]

theorem reserved_inter {s t : RuleSet} (ht : t.reserved = 0) : (s ∩ t).reserved = 0 := by
  apply reserved_eq_zero_iff.mpr
  intro i held
  rw [getLsbD_inter, Bool.and_eq_true] at held
  exact reserved_eq_zero_iff.mp ht i held.2

theorem reserved_union {s t : RuleSet} (ht : t.reserved = 0) :
    (s ∪ t).reserved = s.reserved := by
  apply BitVec.eq_of_getLsbD_eq
  intro i _
  rw [Bool.eq_iff_iff, getLsbD_reserved, getLsbD_reserved, getLsbD_union, Bool.or_eq_true]
  refine and_congr_left fun outside => or_iff_left fun held => ?_
  exact outside (reserved_eq_zero_iff.mp ht i held)

theorem reserved_sdiff {s t : RuleSet} (ht : t.reserved = 0) :
    (s \ t).reserved = s.reserved := by
  apply BitVec.eq_of_getLsbD_eq
  intro i _
  rw [Bool.eq_iff_iff, getLsbD_reserved, getLsbD_reserved, getLsbD_sdiff, Bool.and_eq_true,
    Bool.not_eq_true']
  refine and_congr_left fun outside => and_iff_left ?_
  rw [Bool.eq_false_iff]
  intro held
  exact outside (reserved_eq_zero_iff.mp ht i held)

end RuleSet

namespace Draft

theorem reserved_apply (d : Draft) (e : Edit) : (d.apply e).rules.reserved = d.rules.reserved := by
  cases e with
  | switch group on =>
    cases on
    · exact RuleSet.reserved_sdiff (RuleSet.reserved_ofList _)
    · exact RuleSet.reserved_union (RuleSet.reserved_ofList _)
  | separator b => rfl

theorem reserved_run (d : Draft) (edits : List Edit) :
    (d.run edits).rules.reserved = d.rules.reserved := by
  induction edits generalizing d with
  | nil => rfl
  | cons e edits ih =>
    change ((d.apply e).run edits).rules.reserved = _
    rw [ih, reserved_apply]

end Draft

end LiteralGrammar
