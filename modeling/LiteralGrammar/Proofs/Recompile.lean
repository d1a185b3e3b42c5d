import LiteralGrammar.Attainable
import LiteralGrammar.Proofs.Layout

namespace LiteralGrammar

namespace Draft

theorem compile_of_unusable {d : Draft} {m : Markers} (owned : d.rules.reserved = 0)
    (unusable : ¬ d.separator.Usable (some m)) :
    d.compile m = .error (.unusableSeparator d.separator) := by
  rw [compile, violation?_of_unusable owned unusable]

end Draft

namespace Format

section

variable {d : Draft} (owned : d.rules.reserved = 0)
include owned

theorem hasSeparator_pack : (pack d).hasSeparator = d.rules.hasSeparator := by
  rw [hasSeparator, rules_pack owned]

theorem draft_pack_of_used (used : d.rules.hasSeparator = true) : (pack d).draft = d := by
  rw [draft, hasSeparator_pack owned, used, rules_pack owned, separator_pack owned,
    Draft.spelled_of_used used]
  rfl

theorem draft_pack_of_unused (unused : d.rules.hasSeparator = false) :
    (pack d).draft = d.withSeparator (.ofChar '_') := by
  rw [draft, hasSeparator_pack owned, unused, rules_pack owned]
  rfl

end

section

variable {d : Draft} {m : Markers}

theorem compile_draft_pack (judged : d.violation? none = none)
    (usable : (pack d).draft.separator.Usable (some m)) :
    (pack d).draft.compile m = .ok (pack d) := by
  have owned := Draft.reserved_of_accepted judged
  apply Draft.compile_eq_ok_iff.mpr
  cases used : d.rules.hasSeparator
  · rw [draft_pack_of_unused owned used] at usable ⊢
    exact ⟨Draft.accepted_of_rules judged rfl usable, (pack_withSeparator used _).symm⟩
  · rw [draft_pack_of_used owned used] at usable ⊢
    exact ⟨Draft.accepted_of_rules judged rfl usable, rfl⟩

theorem usable_draft_pack (judged : d.violation? none = none) :
    (pack d).draft.separator.Usable none := by
  have owned := Draft.reserved_of_accepted judged
  cases used : d.rules.hasSeparator
  · rw [draft_pack_of_unused owned used]
    exact Byte.usable_none.mpr (by decide : (Byte.ofChar '_').isPlain = true)
  · rw [draft_pack_of_used owned used]
    exact Draft.usable_of_accepted judged

theorem ofWord_pack_of_free (judged : d.violation? (some m) = none)
    (free : d.rules.hasSeparator = true ∨ m.begins 0 = false) :
    ofWord (some m) (pack d).word = .ok (pack d) :=
  ofWord_some_pack_of_free (Draft.accepted_without_markers judged) (begins_spelled judged free)

theorem ofWord_pack_of_taken (judged : d.violation? (some m) = none)
    (unused : d.rules.hasSeparator = false) (taken : m.begins 0 = true) :
    ofWord (some m) (pack d).word = .error (.unusableSeparator 0) := by
  have dropped : d.spelled.separator = 0 := by
    rw [Draft.spelled_of_unused unused]
    rfl
  rw [← dropped] at taken ⊢
  exact ofWord_some_pack_of_taken (Draft.reserved_of_accepted judged) taken

theorem compile_draft_of_free (judged : d.violation? (some m) = none)
    (free : d.rules.hasSeparator = true ∨ m.begins (.ofChar '_') = false) :
    (pack d).draft.compile m = .ok (pack d) := by
  have owned := Draft.reserved_of_accepted judged
  apply compile_draft_pack (Draft.accepted_without_markers judged)
  cases used : d.rules.hasSeparator
  · rw [used] at free
    have absent : m.begins (.ofChar '_') = false := by simpa using free
    rw [draft_pack_of_unused owned used]
    exact Byte.usable_some.mpr ⟨(by decide : (Byte.ofChar '_').isPlain = true), absent⟩
  · rw [draft_pack_of_used owned used]
    exact Draft.usable_of_accepted judged

theorem compile_draft_of_taken (judged : d.violation? (some m) = none)
    (unused : d.rules.hasSeparator = false) (taken : m.begins (.ofChar '_') = true) :
    (pack d).draft.compile m = .error (.unusableSeparator (.ofChar '_')) := by
  have owned := Draft.reserved_of_accepted judged
  have unusable : ¬ (d.withSeparator (.ofChar '_')).separator.Usable (some m) :=
    Byte.not_usable taken
  rw [draft_pack_of_unused owned unused]
  exact Draft.compile_of_unusable (d := d.withSeparator (.ofChar '_')) owned unusable

end

/-- The word of a compiled draft is accepted under the same markers if a rule uses the separator or
    zero is no marker, and in no other case. -/
theorem ofWord_of_compile {d : Draft} {m : Markers} {f : Format} (compiled : d.compile m = .ok f) :
    ((∃ r ∈ d.rules, r.isSeparator = true) ∨ m.begins 0 = false →
      ofWord (some m) f.word = .ok f) ∧
    ((∀ r ∈ d.rules, r.isSeparator = false) → m.begins 0 = true →
      ofWord (some m) f.word = .error (.unusableSeparator 0)) := by
  obtain ⟨judged, packed⟩ := Draft.compile_eq_ok_iff.mp compiled
  rw [packed, ← RuleSet.hasSeparator_iff, ← RuleSet.hasSeparator_eq_false]
  exact ⟨ofWord_pack_of_free judged, ofWord_pack_of_taken judged⟩

theorem ofWord_of_compile_hash :
    ((({} : Draft).withSeparator (.ofChar '#')).switch (.placement .internal) true).compile
      ⟨0, none⟩ = .ok ⟨0x2300011100000000⟩ ∧
    ofWord (some ⟨0, none⟩) 0x2300011100000000 = .ok ⟨0x2300011100000000⟩ := by
  have compiled : ((({} : Draft).withSeparator (.ofChar '#')).switch (.placement .internal)
      true).compile ⟨0, none⟩ = .ok ⟨0x2300011100000000⟩ := rfl
  have used : Rule.separator .integer .internal ∈
      ((({} : Draft).withSeparator (.ofChar '#')).switch (.placement .internal) true).rules := by
    decide
  exact ⟨compiled, (ofWord_of_compile compiled).1 (Or.inl ⟨_, used, rfl⟩)⟩

/-- The fresh draft compiles where zero begins an exponent, and its word is refused there. -/
theorem ofWord_refuses_compiled :
    ¬ ∀ (d : Draft) (m : Markers) (f : Format), d.Attainable → d.compile m = .ok f →
      ofWord (some m) f.word = .ok f := by
  intro law
  have again := law {} ⟨0, none⟩ ⟨0⟩ .fresh rfl
  have refused : ofWord (some ⟨0, none⟩) 0 = .error (.unusableSeparator 0) := rfl
  rw [refused] at again
  cases again

/-- A format's draft compiles to the format again under the same markers if a rule uses the
    separator or the usual separator is no marker, and in no other case. -/
theorem compile_draft_of_compile {d : Draft} {m : Markers} {f : Format}
    (compiled : d.compile m = .ok f) :
    ((∃ r ∈ d.rules, r.isSeparator = true) ∨ m.begins (.ofChar '_') = false →
      f.draft.compile m = .ok f) ∧
    ((∀ r ∈ d.rules, r.isSeparator = false) → m.begins (.ofChar '_') = true →
      f.draft.compile m = .error (.unusableSeparator (.ofChar '_'))) := by
  obtain ⟨judged, packed⟩ := Draft.compile_eq_ok_iff.mp compiled
  rw [packed, ← RuleSet.hasSeparator_iff, ← RuleSet.hasSeparator_eq_false]
  exact ⟨compile_draft_of_free judged, compile_draft_of_taken judged⟩

theorem compile_draft_of_compile_hash :
    ((({} : Draft).withSeparator (.ofChar '#')).switch (.placement .internal) true).compile
      ⟨.ofChar '_', none⟩ = .ok ⟨0x2300011100000000⟩ ∧
    (⟨0x2300011100000000⟩ : Format).draft.compile ⟨.ofChar '_', none⟩ =
      .ok ⟨0x2300011100000000⟩ := by
  have compiled : ((({} : Draft).withSeparator (.ofChar '#')).switch (.placement .internal)
      true).compile ⟨.ofChar '_', none⟩ = .ok ⟨0x2300011100000000⟩ := rfl
  have used : Rule.separator .integer .internal ∈
      ((({} : Draft).withSeparator (.ofChar '#')).switch (.placement .internal) true).rules := by
    decide
  exact ⟨compiled, (compile_draft_of_compile compiled).1 (Or.inl ⟨_, used, rfl⟩)⟩

/-- Without rules a draft with a comma compiles where `_` begins an exponent, and the draft of its
    format has `_` again. -/
theorem compile_draft_refuses_compiled :
    ¬ ∀ (d : Draft) (m : Markers) (f : Format), d.Attainable → d.compile m = .ok f →
      f.draft.compile m = .ok f := by
  intro law
  have held : (({} : Draft).withSeparator (.ofChar ',')).Attainable :=
    .edited .fresh (.separator (.ofChar ','))
  have again := law _ ⟨.ofChar '_', none⟩ ⟨0⟩ held rfl
  have refused : (⟨0⟩ : Format).draft.compile ⟨.ofChar '_', none⟩ =
      .error (.unusableSeparator (.ofChar '_')) := rfl
  rw [refused] at again
  cases again

end Format

end LiteralGrammar
