import LiteralGrammar.Format
import LiteralGrammar.Proofs.Consistency

namespace LiteralGrammar

namespace Word

theorem ofByte_zero : ofByte 0 = 0 := by decide

variable {low : Word} (small : ∀ i, 56 ≤ i → low.getLsbD i = false) (b : Byte)
include small

theorem lowBits_or_ofByte : lowBits (low ||| ofByte b) = low := by
  apply BitVec.eq_of_getLsbD_eq
  intro i _
  rw [getLsbD_lowBits, BitVec.getLsbD_or, getLsbD_ofByte]
  by_cases h : i < 56
  · simp [h, Nat.not_le.mpr h]
  · have empty := small i (by omega)
    simp [h, empty]

theorem topByte_or_ofByte : topByte (low ||| ofByte b) = b := by
  apply BitVec.eq_of_getLsbD_eq
  intro i _
  have empty := small (56 + i) (by omega)
  rw [getLsbD_topByte, BitVec.getLsbD_or, getLsbD_ofByte, empty]
  simp

end Word

namespace Draft

/-- The word of all that a draft holds, with its separator whether or not a rule uses it. -/
def word (d : Draft) : Word := d.rules.bits ||| .ofByte d.separator

theorem ofWord_word {d : Draft} (owned : d.rules.reserved = 0) : Draft.ofWord d.word = d := by
  have small : ∀ i, 56 ≤ i → d.rules.bits.getLsbD i = false :=
    fun i high => RuleSet.getLsbD_of_reserved owned (by omega)
  rw [word, Draft.ofWord, Word.lowBits_or_ofByte small, Word.topByte_or_ofByte small]

/-- What the word of a draft spells: a separator that no rule uses is dropped. -/
def spelled (d : Draft) : Draft :=
  d.withSeparator (if d.rules.hasSeparator then d.separator else 0)

theorem spelled_rules (d : Draft) : d.spelled.rules = d.rules := rfl

theorem spelled_of_used {d : Draft} (used : d.rules.hasSeparator = true) : d.spelled = d := by
  simp only [spelled, used, if_true, withSeparator]

theorem spelled_of_unused {d : Draft} (unused : d.rules.hasSeparator = false) :
    d.spelled = d.withSeparator 0 := by
  simp only [spelled, unused, Bool.false_eq_true, if_false]

theorem spelled_spelled (d : Draft) : d.spelled.spelled = d.spelled := by
  cases used : d.rules.hasSeparator
  · rw [spelled_of_unused used, spelled_of_unused (d := d.withSeparator 0) used]
    rfl
  · rw [spelled_of_used used, spelled_of_used used]

theorem spelled_eq_self_iff {d : Draft} :
    d.spelled = d ↔ ¬ (d.separator ≠ 0 ∧ ¬ d.rules.hasSeparator = true) := by
  cases used : d.rules.hasSeparator
  · rw [spelled_of_unused used]
    have drop : d.withSeparator 0 = d ↔ d.separator = 0 := by
      refine ⟨fun h => ?_, fun h => ?_⟩
      · rw [← h]
        rfl
      · rw [withSeparator, ← h]
    rw [drop]
    simp
  · rw [spelled_of_used used]
    simp

theorem usable_spelled {d : Draft} (usable : d.separator.Usable none) :
    d.spelled.separator.Usable none := by
  cases used : d.rules.hasSeparator
  · rw [spelled_of_unused used]
    exact Byte.usable_zero
  · rw [spelled_of_used used]
    exact usable

theorem compile_eq_ok_iff {d : Draft} {m : Markers} {f : Format} :
    d.compile m = .ok f ↔ d.violation? (some m) = none ∧ f = .pack d := by
  unfold compile
  cases judged : d.violation? (some m) with
  | some v => simp
  | none =>
    simp only [true_and, Except.ok.injEq]
    exact eq_comm

end Draft

namespace Format

theorem reserved_rules (f : Format) : f.rules.reserved = 0 :=
  RuleSet.reserved_inter RuleSet.reserved_known

theorem pack_word (d : Draft) : (pack d).word = d.spelled.word := by
  cases used : d.rules.hasSeparator
  · rw [Draft.spelled_of_unused used]
    simp only [pack, used, Bool.false_eq_true, if_false, Draft.word, Draft.withSeparator,
      Word.ofByte_zero]
  · rw [Draft.spelled_of_used used]
    simp only [pack, used, if_true, Draft.word]

theorem pack_spelled (d : Draft) : pack d.spelled = pack d := by
  apply Format.ext
  rw [pack_word, pack_word, Draft.spelled_spelled]

theorem pack_withSeparator {d : Draft} (unused : d.rules.hasSeparator = false) (b : Byte) :
    pack (d.withSeparator b) = pack d := by
  have same : (d.withSeparator b).spelled = d.spelled := by
    rw [Draft.spelled_of_unused unused, Draft.spelled_of_unused (d := d.withSeparator b) unused]
    rfl
  rw [← pack_spelled, same, pack_spelled]

section

variable {d : Draft} (owned : d.rules.reserved = 0)
include owned

theorem draft_of_pack : Draft.ofWord (pack d).word = d.spelled := by
  rw [pack_word]
  exact Draft.ofWord_word (d := d.spelled) owned

theorem separator_pack : (pack d).separator = d.spelled.separator :=
  congrArg Draft.separator (draft_of_pack owned)

theorem rules_pack : (pack d).rules = d.rules := by
  apply RuleSet.eq_of_mem_iff (reserved_rules _) owned
  intro r
  have low := r.index_lt
  change r ∈ (pack d).rules ↔ _
  rw [mem_rules, pack_word, Draft.word, Draft.spelled_rules, BitVec.getLsbD_or,
    Word.getLsbD_ofByte, RuleSet.mem_def]
  simp [show ¬ 56 ≤ r.index by omega]

end

theorem rules_draft (f : Format) : f.draft.rules = f.rules := by
  cases used : f.hasSeparator <;> simp [draft, used]

theorem separator_draft (f : Format) :
    f.draft.separator = if f.hasSeparator then f.separator else .ofChar '_' := by
  cases used : f.hasSeparator <;> simp [draft, used]

theorem isActive_iff {f : Format} {r : Rule} : f.isActive r = true ↔ r ∈ f.rules :=
  decide_eq_true_iff

theorem mem_activeRules {f : Format} {r : Rule} : r ∈ f.activeRules ↔ r ∈ f.rules := by
  rw [activeRules, List.mem_filter, isActive_iff]
  exact and_iff_right r.mem_all

theorem mem_rules_ofWord {w : Word} {r : Rule} :
    r ∈ (Draft.ofWord w).rules ↔ r ∈ (⟨w⟩ : Format).rules := by
  have low := r.index_lt
  rw [mem_rules, RuleSet.mem_def]
  simp only [Draft.ofWord, Word.getLsbD_lowBits, show r.index < 56 by omega, decide_true,
    Bool.true_and]

theorem pack_ofWord {w : Word} (exact : (Draft.ofWord w).spelled = Draft.ofWord w) :
    pack (Draft.ofWord w) = ⟨w⟩ := by
  apply Format.ext
  rw [pack_word, exact]
  exact Word.lowBits_or_topByte w

theorem ofWord_eq_ok_iff {markers : Option Markers} {w : Word} {f : Format} :
    ofWord markers w = .ok f ↔ f = ⟨w⟩ ∧ (Draft.ofWord w).violation? markers = none ∧
      (Draft.ofWord w).spelled = Draft.ofWord w := by
  rw [Draft.spelled_eq_self_iff]
  simp only [ofWord]
  cases judged : (Draft.ofWord w).violation? markers with
  | some v => simp
  | none =>
    by_cases unused : (Draft.ofWord w).separator ≠ 0 ∧ ¬ (Draft.ofWord w).rules.hasSeparator = true
    · rw [if_pos unused]
      refine ⟨fun h => ?_, fun h => ?_⟩
      · cases h
      · exact absurd unused h.2.2
    · rw [if_neg unused]
      refine ⟨fun h => ?_, fun h => ?_⟩
      · cases h
        exact ⟨rfl, rfl, unused⟩
      · rw [h.1]

theorem ofWord_of_violation {markers : Option Markers} {w : Word} {v : Violation}
    (found : (Draft.ofWord w).violation? markers = some v) : ofWord markers w = .error v := by
  simp only [ofWord, found]

theorem exists_draft_of_ofWord {markers : Option Markers} {w : Word} {f : Format}
    (accepted : ofWord markers w = .ok f) :
    ∃ d : Draft, d.violation? markers = none ∧ f = pack d := by
  obtain ⟨same, judged, exact⟩ := ofWord_eq_ok_iff.mp accepted
  refine ⟨Draft.ofWord w, judged, ?_⟩
  rw [pack_ofWord exact, same]

theorem ofWord_pack_of_accepted {markers : Option Markers} {d : Draft}
    (accepted : d.spelled.violation? markers = none) :
    ofWord markers (pack d).word = .ok (pack d) := by
  have owned : d.rules.reserved = 0 := Draft.reserved_of_accepted (d := d.spelled) accepted
  have spelled := draft_of_pack owned
  apply ofWord_eq_ok_iff.mpr
  rw [spelled]
  exact ⟨rfl, accepted, Draft.spelled_spelled d⟩

theorem ofWord_none_pack {d : Draft} (judged : d.violation? none = none) :
    ofWord none (pack d).word = .ok (pack d) := by
  have usable := Draft.usable_spelled (Draft.usable_of_accepted judged)
  exact ofWord_pack_of_accepted (Draft.accepted_of_rules judged d.spelled_rules usable)

theorem ofWord_none_of_compile {d : Draft} {m : Markers} {f : Format}
    (compiled : d.compile m = .ok f) : ofWord none f.word = .ok f := by
  obtain ⟨judged, rfl⟩ := Draft.compile_eq_ok_iff.mp compiled
  exact ofWord_none_pack (Draft.accepted_without_markers judged)

theorem ofWord_pack_of_refused {markers : Option Markers} {d : Draft} {v : Violation}
    (owned : d.rules.reserved = 0) (refused : d.spelled.violation? markers = some v) :
    ofWord markers (pack d).word = .error v := by
  apply ofWord_of_violation
  rw [draft_of_pack owned]
  exact refused

section

variable {d : Draft} {m : Markers}

theorem ofWord_some_pack_of_free (judged : d.violation? none = none)
    (free : m.begins d.spelled.separator = false) :
    ofWord (some m) (pack d).word = .ok (pack d) := by
  have plain := Byte.usable_none.mp (Draft.usable_spelled (Draft.usable_of_accepted judged))
  have usable : d.spelled.separator.Usable (some m) := Byte.usable_some.mpr ⟨plain, free⟩
  exact ofWord_pack_of_accepted (Draft.accepted_of_rules judged d.spelled_rules usable)

theorem ofWord_some_pack_of_taken (owned : d.rules.reserved = 0)
    (taken : m.begins d.spelled.separator = true) :
    ofWord (some m) (pack d).word = .error (.unusableSeparator d.spelled.separator) :=
  ofWord_pack_of_refused owned
    (Draft.violation?_of_unusable (d := d.spelled) owned (Byte.not_usable taken))

/-- A separator that was judged under the markers is none of them; zero, which stands for none, may
    be one. -/
theorem begins_spelled (judged : d.violation? (some m) = none)
    (free : d.rules.hasSeparator = true ∨ m.begins 0 = false) :
    m.begins d.spelled.separator = false := by
  cases used : d.rules.hasSeparator
  · rw [Draft.spelled_of_unused used]
    rw [used] at free
    exact free.resolve_left (by decide)
  · rw [Draft.spelled_of_used used]
    exact (Byte.usable_some.mp (Draft.usable_of_accepted judged)).2

end

end Format

end LiteralGrammar
