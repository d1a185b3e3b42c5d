import LiteralGrammar.Attainable
import LiteralGrammar.Predicate
import LiteralGrammar.Proofs.Layout

namespace LiteralGrammar

theorem Preset.draft_accepted (p : Preset) : p.draft.violation? (some .usual) = none :=
  (by decide +kernel : ∀ q ∈ all, q.draft.violation? (some .usual) = none) p p.mem_all

namespace Format

/-- Every bit of the word has an owner, the separator is there exactly where it matters, and no two
    tests on the word contradict each other. -/
structure WellFormed (f : Format) : Prop where
  owned : ∀ i, f.word.getLsbD i = true → 56 ≤ i ∨ ∃ r : Rule, r.index = i
  layout : f.word = f.rules.bits ||| Word.ofByte f.separator
  silent : (∀ r : Rule, r.isSeparator = true → f.isActive r = false) → f.separator = 0
  plain : ∀ r : Rule, r.isSeparator = true → f.isActive r = true →
    f.separator.toNat < 128 ∧ ¬ (48 ≤ f.separator.toNat ∧ f.separator.toNat ≤ 57) ∧
      f.separator ≠ .ofChar '+' ∧ f.separator ≠ .ofChar '-' ∧ f.separator ≠ .ofChar '.'
  exponentNotation : f.forbidsExponent = true → f.hasExponentRules = false
  mantissaSign : ¬ (f.forbidsPositiveMantissaSign = true ∧ f.requiresMantissaSign = true)
  exponentSign : ¬ (f.forbidsPositiveExponentSign = true ∧ f.requiresExponentSign = true)
  specialValues : f.forbidsSpecial = true →
    f.matchesSpecialCase = false ∧ f.specialSeparator = false
  placedSeparators : ∀ g, f.test (.separator g .consecutive) = true →
    f.test (.separator g .internal) = true ∨ f.test (.separator g .leading) = true ∨
      f.test (.separator g .trailing) = true

def shown (f : Format) : Draft := ⟨f.rules, f.separator⟩

section

variable {f : Format}

theorem test_iff (r : Rule) : f.test r = true ↔ r ∈ f.rules := by
  rw [mem_rules]
  cases r with
  | requiredDigits g => cases g <;> rfl
  | separator g p => cases g <;> cases p <;> rfl
  | _ => rfl

theorem test_eq_false_iff (r : Rule) : f.test r = false ↔ ¬ r ∈ f.rules := by
  rw [← test_iff, Bool.not_eq_true]

theorem hasExponentRules_eq_false :
    f.hasExponentRules = false ↔ ∀ r ∈ f.rules, r.concernsExponent = false := by
  rw [← Bool.not_eq_true, hasExponentRules, RuleSet.meets_exponentRules]
  simp only [not_exists, not_and, Bool.not_eq_true]

theorem holds_exponentNotation :
    Constraint.Holds f.shown none .exponentNotation ↔
      (f.forbidsExponent = true → f.hasExponentRules = false) := by
  rw [hasExponentRules_eq_false]
  exact imp_congr (test_iff .noExponentNotation).symm Iff.rfl

theorem holds_mantissaSign :
    Constraint.Holds f.shown none .mantissaSign ↔
      ¬ (f.forbidsPositiveMantissaSign = true ∧ f.requiresMantissaSign = true) :=
  (not_congr (and_congr (test_iff .noPositiveMantissaSign) (test_iff .requiredMantissaSign))).symm

theorem holds_exponentSign :
    Constraint.Holds f.shown none .exponentSign ↔
      ¬ (f.forbidsPositiveExponentSign = true ∧ f.requiresExponentSign = true) :=
  (not_congr (and_congr (test_iff .noPositiveExponentSign) (test_iff .requiredExponentSign))).symm

theorem holds_specialValues :
    Constraint.Holds f.shown none .specialValues ↔
      (f.forbidsSpecial = true → f.matchesSpecialCase = false ∧ f.specialSeparator = false) := by
  have absent := and_congr (test_eq_false_iff (f := f) .caseSensitiveSpecial)
    (test_eq_false_iff (f := f) .specialSeparator)
  exact (imp_congr (test_iff .noSpecial) absent).symm

theorem holds_placedSeparators (g : Region) :
    Constraint.Holds f.shown none (.placedSeparators g) ↔
      (f.test (.separator g .consecutive) = true →
        f.test (.separator g .internal) = true ∨ f.test (.separator g .leading) = true ∨
          f.test (.separator g .trailing) = true) := by
  simp only [test_iff]
  exact imp_congr Iff.rfl Placement.exists_placing

theorem draft_of_owned (owned : (Draft.ofWord f.word).rules.reserved = 0) :
    Draft.ofWord f.word = f.shown := by
  have same : (Draft.ofWord f.word).rules = f.rules :=
    RuleSet.eq_of_mem_iff owned f.reserved_rules fun r => mem_rules_ofWord
  rw [shown, ← same]
  rfl

theorem hasSeparator_eq_false_iff :
    f.rules.hasSeparator = false ↔ ∀ r : Rule, r.isSeparator = true → f.isActive r = false := by
  rw [RuleSet.hasSeparator_eq_false]
  refine forall_congr' fun r => ⟨fun h separates => ?_, fun h held => ?_⟩
  · rw [Bool.eq_false_iff]
    intro active
    rw [h (isActive_iff.mp active)] at separates
    cases separates
  · rw [Bool.eq_false_iff]
    intro separates
    have inactive := h separates
    rw [isActive_iff.mpr held] at inactive
    cases inactive

end

theorem wellFormed_of_accepted {f : Format} (accepted : ofWord none f.word = .ok f) :
    f.WellFormed := by
  obtain ⟨_, judged, spelled⟩ := ofWord_eq_ok_iff.mp accepted
  have shown := draft_of_owned (Draft.reserved_of_accepted judged)
  have layout : f.word = f.rules.bits ||| Word.ofByte f.separator :=
    (Word.lowBits_or_topByte f.word).symm.trans
      (congrArg (fun d : Draft => d.rules.bits ||| Word.ofByte d.separator) shown)
  rw [shown] at judged spelled
  have holds := Draft.accepted_iff.mp judged
  have owned : ∀ i, f.word.getLsbD i = true → 56 ≤ i ∨ ∃ r : Rule, r.index = i := by
    intro i hi
    rw [layout, BitVec.getLsbD_or, Bool.or_eq_true] at hi
    rcases hi with low | high
    · exact Or.inr (RuleSet.reserved_eq_zero_iff.mp (holds .knownRules) i low)
    · rw [Word.getLsbD_ofByte, Bool.and_eq_true, decide_eq_true_eq] at high
      exact Or.inl high.1
  have silent : (∀ r : Rule, r.isSeparator = true → f.isActive r = false) → f.separator = 0 := by
    intro inactive
    have unused : f.shown.rules.hasSeparator = false := hasSeparator_eq_false_iff.mpr inactive
    rw [Draft.spelled_of_unused unused] at spelled
    exact (congrArg Draft.separator spelled).symm
  have plain := Byte.isPlain_iff.mp (Byte.usable_none.mp (holds .freeSeparator))
  exact
    { owned := owned
      layout := layout
      silent := silent
      plain := fun _ _ _ => plain
      exponentNotation := holds_exponentNotation.mp (holds .exponentNotation)
      mantissaSign := holds_mantissaSign.mp (holds .mantissaSign)
      exponentSign := holds_exponentSign.mp (holds .exponentSign)
      specialValues := holds_specialValues.mp (holds .specialValues)
      placedSeparators := fun g => (holds_placedSeparators g).mp (holds (.placedSeparators g)) }

namespace WellFormed

variable {f : Format} (formed : f.WellFormed)
include formed

theorem usable : f.separator.Usable none := by
  cases used : f.rules.hasSeparator
  · rw [formed.silent (hasSeparator_eq_false_iff.mp used)]
    exact Byte.usable_zero
  · obtain ⟨r, hr, separates⟩ := RuleSet.hasSeparator_iff.mp used
    have plain := formed.plain r separates (isActive_iff.mpr hr)
    exact Byte.usable_none.mpr (Byte.isPlain_iff.mpr plain)

theorem holds (c : Constraint) : Constraint.Holds f.shown none c := by
  cases c with
  | knownRules => exact f.reserved_rules
  | freeSeparator => exact formed.usable
  | exponentNotation => exact holds_exponentNotation.mpr formed.exponentNotation
  | mantissaSign => exact holds_mantissaSign.mpr formed.mantissaSign
  | exponentSign => exact holds_exponentSign.mpr formed.exponentSign
  | specialValues => exact holds_specialValues.mpr formed.specialValues
  | placedSeparators g => exact (holds_placedSeparators g).mpr (formed.placedSeparators g)

theorem reserved : (Draft.ofWord f.word).rules.reserved = 0 := by
  apply RuleSet.reserved_eq_zero_iff.mpr
  intro i hi
  simp only [Draft.ofWord, Word.getLsbD_lowBits, Bool.and_eq_true, decide_eq_true_eq] at hi
  rcases formed.owned i hi.2 with high | known
  · omega
  · exact known

theorem accepted : ofWord none f.word = .ok f := by
  have shown := draft_of_owned formed.reserved
  apply ofWord_eq_ok_iff.mpr
  rw [shown]
  refine ⟨rfl, Draft.accepted_iff.mpr formed.holds, ?_⟩
  cases used : f.shown.rules.hasSeparator
  · have none := formed.silent (hasSeparator_eq_false_iff.mp used)
    rw [Draft.spelled_of_unused used, Format.shown, none]
    rfl
  · exact Draft.spelled_of_used used

end WellFormed

theorem ofWord_of_ofDatum {stored : Datum} {f : Format} (accepted : ofDatum stored = .ok f) :
    ∃ w, stored.word? = some w ∧ ofWord none w = .ok f := by
  unfold ofDatum at accepted
  cases read : stored.word? with
  | none =>
    rw [read] at accepted
    cases accepted
  | some w =>
    simp only [read] at accepted
    refine ⟨w, rfl, ?_⟩
    cases decoded : ofWord none w with
    | error v =>
      rw [decoded] at accepted
      cases accepted
    | ok g =>
      rw [decoded] at accepted
      cases accepted
      rfl

theorem compile_of_ignoring {b : Byte} {f : Format} (accepted : ignoring? b = some f) :
    ((({} : Draft).withSeparator b).switch .separators true).compile .usual = .ok f := by
  unfold ignoring? at accepted
  cases compiled : ((({} : Draft).withSeparator b).switch .separators true).compile .usual with
  | error v => simp [compiled, Except.toOption] at accepted
  | ok g =>
    rw [compiled] at accepted
    cases accepted
    rfl

theorem Attainable.exists_draft {f : Format} (held : f.Attainable) :
    ∃ d : Draft, d.violation? none = none ∧ f = pack d := by
  have decoded {markers : Option Markers} {w : Word} (accepted : Format.ofWord markers w = .ok f) :
      ∃ d : Draft, d.violation? none = none ∧ f = pack d := by
    obtain ⟨d, judged, packed⟩ := exists_draft_of_ofWord accepted
    exact ⟨d, Draft.accepted_without_markers judged, packed⟩
  have compiled {d : Draft} {m : Markers} (accepted : d.compile m = .ok f) :
      ∃ d : Draft, d.violation? none = none ∧ f = pack d := by
    obtain ⟨judged, packed⟩ := Draft.compile_eq_ok_iff.mp accepted
    exact ⟨d, Draft.accepted_without_markers judged, packed⟩
  cases held with
  | preset p => exact ⟨p.draft, Draft.accepted_without_markers p.draft_accepted, rfl⟩
  | ofWord accepted => exact decoded accepted
  | ofDatum accepted =>
    obtain ⟨w, _, read⟩ := ofWord_of_ofDatum accepted
    exact decoded read
  | ignoring accepted => exact compiled (compile_of_ignoring accepted)
  | compiled _ accepted => exact compiled accepted

theorem Attainable.accepted {f : Format} (held : f.Attainable) :
    Format.ofWord none f.word = .ok f := by
  obtain ⟨d, judged, packed⟩ := held.exists_draft
  rw [packed]
  exact ofWord_none_pack judged

/-- The formats that a program can hold are exactly the well-formed ones. -/
theorem attainable_iff_wellFormed (f : Format) : f.Attainable ↔ f.WellFormed := by
  refine ⟨fun held => ?_, fun formed => ?_⟩
  · exact wellFormed_of_accepted held.accepted
  · exact Attainable.ofWord formed.accepted

end Format

theorem Draft.Attainable.reserved {d : Draft} : d.Attainable → d.rules.reserved = 0
  | .fresh => RuleSet.reserved_empty
  | .ofFormat (f := f) _ => by
    rw [Format.rules_draft]
    exact f.reserved_rules
  | .edited (d := d) held e => by
    rw [reserved_apply]
    exact Attainable.reserved held

end LiteralGrammar
