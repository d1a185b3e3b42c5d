import LiteralGrammar.Proofs.WellFormed

namespace LiteralGrammar

theorem Constraint.violation?_of_free {d : Draft} {m : Markers}
    (free : m.begins d.separator = false) (c : Constraint) :
    violation? d (some m) c = violation? d none c := by
  cases c with
  | freeSeparator =>
    have same : m.admits d.separator = d.separator.isPlain := by
      rw [Markers.admits, free, Bool.not_false, Bool.and_true]
    simp only [violation?, same]
  | _ => rfl

namespace Draft

variable {d : Draft} {m : Markers}

theorem violation?_of_free (free : m.begins d.separator = false) :
    d.violation? (some m) = d.violation? none := by
  have same : Constraint.violation? d (some m) = Constraint.violation? d none := by
    funext c
    exact Constraint.violation?_of_free free c
  rw [violation?, violation?, same]

theorem violation?_of_reserved {markers : Option Markers} (foreign : d.rules.reserved ≠ 0) :
    d.violation? markers = some (.reservedBits d.rules.reserved) := by
  have first : Constraint.violation? d markers .knownRules =
      some (.reservedBits d.rules.reserved) := by
    simp only [Constraint.violation?, foreign, if_false]
  simp only [violation?, Constraint.order, List.cons_append, List.findSome?_cons, first]

theorem violation?_of_taken (taken : m.begins d.separator = true) :
    d.violation? (some m) =
      some (if d.rules.reserved = 0 then .unusableSeparator d.separator
        else .reservedBits d.rules.reserved) := by
  by_cases owned : d.rules.reserved = 0
  · rw [if_pos owned]
    exact violation?_of_unusable owned (Byte.not_usable taken)
  · rw [if_neg owned]
    exact violation?_of_reserved owned

theorem compile_eq_error_iff {v : Violation} :
    d.compile m = .error v ↔ d.violation? (some m) = some v := by
  unfold compile
  cases judged : d.violation? (some m) <;> simp

theorem getLsbD_reserved_ofWord {w : Word} {i : Nat} :
    (Draft.ofWord w).rules.reserved.getLsbD i = true ↔
      w.getLsbD i = true ∧ i < 56 ∧ ∀ r : Rule, r.index ≠ i := by
  have low : (Draft.ofWord w).rules.bits.getLsbD i = true ↔ w.getLsbD i = true ∧ i < 56 := by
    rw [Draft.ofWord, Word.getLsbD_lowBits, Bool.and_eq_true, decide_eq_true_eq, and_comm]
  rw [RuleSet.getLsbD_reserved, low, not_exists, and_assoc]

end Draft

namespace Format

section

variable {w : Word} {m : Markers}

theorem ofWord_of_free (free : m.begins w.topByte = false) :
    ofWord (some m) w = ofWord none w := by
  have same : (Draft.ofWord w).violation? (some m) = (Draft.ofWord w).violation? none :=
    Draft.violation?_of_free free
  simp only [ofWord, same]

theorem ofWord_of_taken (taken : m.begins w.topByte = true) :
    ofWord (some m) w =
      .error (if (Draft.ofWord w).rules.reserved = 0 then .unusableSeparator w.topByte
        else .reservedBits (Draft.ofWord w).rules.reserved) :=
  ofWord_of_violation (Draft.violation?_of_taken (d := Draft.ofWord w) taken)

theorem ofWord_none_of_some {f : Format} (accepted : ofWord (some m) w = .ok f) :
    ofWord none w = .ok f := by
  cases marked : m.begins w.topByte with
  | false => rw [← ofWord_of_free marked, accepted]
  | true =>
    rw [ofWord_of_taken marked] at accepted
    cases accepted

end

/-- Under markers the decoder says of a word what it says without them, unless the word's separator
    is a marker. Then the word is refused for its reserved bits, if it has any, and for the
    separator otherwise. So no word is accepted under markers that is not accepted without them. -/
theorem ofWord_agrees_unless_taken (w : Word) (m : Markers) :
    (m.begins w.topByte = false → ofWord (some m) w = ofWord none w) ∧
    (m.begins w.topByte = true →
      ∃ r : Word,
        (∀ i, r.getLsbD i = true ↔ w.getLsbD i = true ∧ i < 56 ∧ ∀ q : Rule, q.index ≠ i) ∧
        ofWord (some m) w =
          .error (if r = 0 then .unusableSeparator w.topByte else .reservedBits r)) ∧
    ∀ f, ofWord (some m) w = .ok f → ofWord none w = .ok f := by
  refine ⟨ofWord_of_free, fun taken => ?_, fun f => ofWord_none_of_some⟩
  exact ⟨(Draft.ofWord w).rules.reserved, fun i => Draft.getLsbD_reserved_ofWord,
    ofWord_of_taken taken⟩

example : ofWord (some .usual) 0x6500000100000000 = .error (.unusableSeparator (.ofChar 'e')) ∧
    ofWord none 0x6500000100000000 = .ok ⟨0x6500000100000000⟩ := ⟨rfl, rfl⟩

section

variable {d : Draft} (owned : d.rules.reserved = 0)
include owned

theorem ofWord_word_of_spelled {m : Markers} (exact : d.spelled = d) :
    ofWord (some m) d.word = d.compile m := by
  have shown := Draft.ofWord_word owned
  have packed : pack d = ⟨d.word⟩ := by
    rw [← shown] at exact
    rw [← pack_ofWord exact, shown]
  have needed := Draft.spelled_eq_self_iff.mp exact
  simp only [ofWord, shown, Draft.compile, if_neg needed, packed]

theorem ofWord_word_of_unused {markers : Option Markers} (unused : d.rules.hasSeparator = false)
    (present : d.separator ≠ 0) :
    ofWord markers d.word =
      .error ((d.violation? markers).getD (.unusedSeparator d.separator)) := by
  have idle : d.separator ≠ 0 ∧ ¬ d.rules.hasSeparator = true := by
    rw [unused]
    exact ⟨present, Bool.false_ne_true⟩
  simp only [ofWord, Draft.ofWord_word owned]
  cases d.violation? markers with
  | some v => rfl
  | none => rw [if_pos idle, Option.getD_none]

end

/-- If a rule uses the separator of a draft, or the draft has none, then decoding the word of all
    that it holds has the outcome of compiling it. Otherwise the word is refused: for the reason
    why the draft is, and for the idle separator if the draft compiles. -/
theorem ofWord_word_agrees_with_compile {d : Draft} (held : d.Attainable) (m : Markers) :
    ((∃ r ∈ d.rules, r.isSeparator = true) ∨ d.separator = 0 →
      ofWord (some m) d.word = d.compile m ∧ ∀ f, d.compile m = .ok f → f.word = d.word) ∧
    ((∀ r ∈ d.rules, r.isSeparator = false) → d.separator ≠ 0 →
      (∀ v, d.compile m = .error v → ofWord (some m) d.word = .error v) ∧
      ∀ f, d.compile m = .ok f → ofWord (some m) d.word = .error (.unusedSeparator d.separator)) := by
  have owned := held.reserved
  rw [← RuleSet.hasSeparator_iff, ← RuleSet.hasSeparator_eq_false]
  refine ⟨fun needed => ?_, fun unused present => ⟨fun v refused => ?_, fun f compiled => ?_⟩⟩
  · have exact : d.spelled = d := by
      rw [Draft.spelled_eq_self_iff]
      rcases needed with used | absent
      · exact fun idle => idle.2 used
      · exact fun idle => idle.1 absent
    have same := ofWord_word_of_spelled owned (m := m) exact
    refine ⟨same, fun f compiled => ?_⟩
    exact word_of_ofWord (same.trans compiled)
  · rw [ofWord_word_of_unused owned unused present, Draft.compile_eq_error_iff.mp refused,
      Option.getD_some]
  · rw [ofWord_word_of_unused owned unused present, (Draft.compile_eq_ok_iff.mp compiled).1,
      Option.getD_none]

theorem ofWord_word_agrees_with_compile_hash :
    ((({} : Draft).withSeparator (.ofChar '#')).switch .digits true).Attainable ∧
    ((({} : Draft).withSeparator (.ofChar '#')).switch .digits true).compile .usual = .ok ⟨7⟩ ∧
    ofWord (some .usual) 0x2300000000000007 = .error (.unusedSeparator (.ofChar '#')) := by
  have held : ((({} : Draft).withSeparator (.ofChar '#')).switch .digits true).Attainable :=
    .edited (.edited .fresh (.separator (.ofChar '#'))) (.switch .digits true)
  have compiled : ((({} : Draft).withSeparator (.ofChar '#')).switch .digits true).compile
      .usual = .ok ⟨7⟩ := rfl
  have unused : ∀ r ∈ ((({} : Draft).withSeparator (.ofChar '#')).switch .digits true).rules,
      r.isSeparator = false := RuleSet.hasSeparator_eq_false.mp (by decide)
  have present : Byte.ofChar '#' ≠ 0 := by decide
  exact ⟨held, compiled,
    ((ofWord_word_agrees_with_compile held .usual).2 unused present).2 _ compiled⟩

end Format

end LiteralGrammar
