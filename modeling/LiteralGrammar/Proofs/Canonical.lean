import LiteralGrammar.Proofs.Agreement
import LiteralGrammar.Proofs.Image
import LiteralGrammar.Proofs.Recompile

namespace LiteralGrammar

theorem Word.exists_toNat_eq {n : Int} (low : 0 ≤ n) (high : n < UInt64.size) :
    ∃ w : Word, (w.toNat : Int) = n := by
  refine ⟨BitVec.ofInt 64 n, ?_⟩
  rw [UInt64.size] at high
  rw [BitVec.toNat_ofInt]
  omega

namespace Draft

theorem spelled_eq_iff {d e : Draft} :
    d.spelled = e.spelled ↔
      d.rules = e.rules ∧ (d.rules.hasSeparator = true → d.separator = e.separator) := by
  constructor
  · intro same
    have rules : d.spelled.rules = e.spelled.rules := congrArg Draft.rules same
    rw [spelled_rules, spelled_rules] at rules
    refine ⟨rules, fun used => ?_⟩
    rw [spelled_of_used used, spelled_of_used (rules ▸ used)] at same
    exact congrArg Draft.separator same
  · intro same
    obtain ⟨rules, separator⟩ := same
    cases used : d.rules.hasSeparator with
    | false =>
      rw [spelled_of_unused used, spelled_of_unused (rules ▸ used)]
      exact Draft.ext rules rfl
    | true =>
      rw [spelled_of_used used, spelled_of_used (rules ▸ used)]
      exact Draft.ext rules (separator used)

theorem compile_of_accepted {d : Draft} (judged : d.violation? none = none) (m : Markers) :
    d.compile m =
      if m.begins d.separator then .error (.unusableSeparator d.separator)
      else .ok (.pack d) := by
  cases marked : m.begins d.separator with
  | false =>
    have free : d.violation? (some m) = none := (violation?_of_free marked).trans judged
    simp only [compile, free, Bool.false_eq_true, if_false]
  | true =>
    have taken := Byte.not_usable marked
    simp only [compile_of_unusable (reserved_of_accepted judged) taken, if_true]

end Draft

namespace Format

theorem pack_eq_iff {d e : Draft} (first : d.rules.reserved = 0) (second : e.rules.reserved = 0) :
    pack d = pack e ↔ d.spelled = e.spelled := by
  constructor
  · intro same
    rw [← draft_of_pack first, ← draft_of_pack second, same]
  · intro same
    rw [← pack_spelled d, same, pack_spelled]

section

variable {d : Draft} (owned : d.rules.reserved = 0)
include owned

theorem isActive_pack (r : Rule) : (pack d).isActive r = d.rules.contains (.single r) := by
  rw [Bool.eq_iff_iff, isActive_iff, rules_pack owned, RuleSet.contains_single]

theorem separator_pack_of_used (used : d.rules.hasSeparator = true) :
    (pack d).separator = d.separator := by
  rw [separator_pack owned, Draft.spelled_of_used used]

theorem separator_pack_of_unused (unused : d.rules.hasSeparator = false) :
    (pack d).separator = 0 := by
  rw [separator_pack owned, Draft.spelled_of_unused unused]
  rfl

end

/-- Two compiled formats are equal exactly if their drafts hold the same rules and, if a rule uses
    it, the same separator. A compiled format shows the rules of its draft and the separator where
    a rule uses it; the draft compiles to the same format under all markers that leave its separator
    free, and under no others. -/
theorem compiled_eq_iff {d e : Draft} {m n : Markers} {f g : Format}
    (first : d.compile m = .ok f) (second : e.compile n = .ok g) :
    ((f = g ↔ d.rules = e.rules ∧
        ((∃ r ∈ d.rules, r.isSeparator = true) → d.separator = e.separator)) ∧
      (f = g ↔ f.word = g.word)) ∧
    (f.rules = d.rules ∧ (∀ r, f.isActive r = d.rules.contains (.single r)) ∧
      ((∃ r ∈ d.rules, r.isSeparator = true) → f.separator = d.separator) ∧
      ((∀ r ∈ d.rules, r.isSeparator = false) → f.separator = 0)) ∧
    ∀ k : Markers, d.compile k =
      if k.begins d.separator then .error (.unusableSeparator d.separator) else .ok f := by
  obtain ⟨judged, rfl⟩ := Draft.compile_eq_ok_iff.mp first
  obtain ⟨judged', rfl⟩ := Draft.compile_eq_ok_iff.mp second
  have owned := Draft.reserved_of_accepted judged
  have owned' := Draft.reserved_of_accepted judged'
  rw [← RuleSet.hasSeparator_iff, ← RuleSet.hasSeparator_eq_false]
  refine ⟨⟨?_, Format.ext_iff⟩, ⟨rules_pack owned, isActive_pack owned, ?_, ?_⟩, ?_⟩
  · rw [pack_eq_iff owned owned', Draft.spelled_eq_iff]
  · exact separator_pack_of_used owned
  · exact separator_pack_of_unused owned
  · exact Draft.compile_of_accepted (Draft.accepted_without_markers judged)

/-- A comma and an underscore make no difference to drafts without rules, and tell two formats
    apart when a rule uses them. -/
theorem compiled_eq_iff_comma :
    ((({} : Draft).withSeparator (.ofChar ',')).compile ⟨.ofChar '_', none⟩ = .ok ⟨0⟩ ∧
      ({} : Draft).compile .usual = .ok ⟨0⟩ ∧
      ((({} : Draft).withSeparator (.ofChar ',')).rules = ({} : Draft).rules ∧
        ((∃ r ∈ (({} : Draft).withSeparator (.ofChar ',')).rules, r.isSeparator = true) →
          Byte.ofChar ',' = Byte.ofChar '_')) ∧
      (({} : Draft).withSeparator (.ofChar ',')).compile .usual = .ok ⟨0⟩) ∧
    let line := (({} : Draft).switch (.placement .internal) true).switch (.rule .noSpecial) true
    let comma := line.withSeparator (.ofChar ',')
    let f : Format := ⟨0x2c00011100000200⟩
    comma.compile .usual = .ok f ∧
      line.compile ⟨.ofChar 'p', none⟩ = .ok ⟨0x5f00011100000200⟩ ∧
      ¬ (comma.rules = line.rules ∧
        ((∃ r ∈ comma.rules, r.isSeparator = true) → comma.separator = line.separator)) ∧
      f.rules = comma.rules ∧ f.isActive .noSpecial = true ∧ f.separator = .ofChar ',' ∧
      comma.compile ⟨.ofChar ',', none⟩ = .error (.unusableSeparator (.ofChar ',')) := by
  have dropped : (({} : Draft).withSeparator (.ofChar ',')).compile ⟨.ofChar '_', none⟩ =
      .ok ⟨0⟩ := rfl
  have fresh : ({} : Draft).compile .usual = .ok ⟨0⟩ := rfl
  have law := compiled_eq_iff dropped fresh
  refine ⟨⟨dropped, fresh, law.1.1.mp rfl, law.2.2 .usual⟩, ?_⟩
  intro line comma f
  have first : comma.compile .usual = .ok f :=
    Draft.compile_eq_ok_iff.mpr ⟨by decide, by decide⟩
  have second : line.compile ⟨.ofChar 'p', none⟩ = .ok ⟨0x5f00011100000200⟩ :=
    Draft.compile_eq_ok_iff.mpr ⟨by decide, by decide⟩
  obtain ⟨⟨same, _⟩, ⟨rules, active, shown, _⟩, markers⟩ := compiled_eq_iff first second
  have used : ∃ r ∈ comma.rules, r.isSeparator = true :=
    ⟨.separator .integer .internal, by decide, rfl⟩
  exact ⟨first, second, fun equal => absurd (same.mpr equal) (by decide), rules,
    (active .noSpecial).trans (by decide), shown used, markers ⟨.ofChar ',', none⟩⟩

/-- Some draft that a program can hold compiles to the format under some markers. -/
def Compiled (f : Format) : Prop :=
  ∃ (d : Draft) (m : Markers), d.Attainable ∧ d.compile m = .ok f

theorem compiled_iff_accepted {f : Format} : f.Compiled ↔ ofWord none f.word = .ok f := by
  constructor
  · intro built
    obtain ⟨d, m, _, compiled⟩ := built
    exact ofWord_none_of_compile compiled
  · intro accepted
    obtain ⟨d, judged, packed⟩ := exists_draft_of_ofWord accepted
    -- A digit is no separator, so it is a marker under which the draft of the format compiles.
    have compiled := compile_draft_pack judged (usable_draft_pack judged).with_digit
    rw [← packed] at compiled
    exact ⟨f.draft, _, .ofFormat (.ofWord accepted), compiled⟩

theorem ofDatum_integer (w : Word) :
    ofDatum (.integer w.toNat) = (ofWord none w).mapError .refused := by
  rw [ofDatum, Datum.word?_integer]

theorem ofDatum_toDatum {f : Format} (accepted : ofWord none f.word = .ok f) :
    ofDatum f.toDatum = .ok f := by
  rw [toDatum, ofDatum_integer, accepted]
  rfl

theorem exists_ofDatum_iff {w : Word} :
    (∃ f, ofDatum (.integer w.toNat) = .ok f) ↔ Compiled ⟨w⟩ := by
  constructor
  · intro read
    obtain ⟨f, accepted⟩ := read
    obtain ⟨v, same, decoded⟩ := ofWord_of_ofDatum accepted
    rw [Datum.word?_integer] at same
    cases same
    rw [(ofWord_eq_ok_iff.mp decoded).1] at decoded
    exact compiled_iff_accepted.mpr decoded
  · intro built
    exact ⟨_, ofDatum_toDatum (compiled_iff_accepted.mp built)⟩

theorem ofDatum_of_not_compiled {w : Word} (missed : ¬ Compiled ⟨w⟩) :
    ∃ v e, ofWord none w = .error v ∧ ofDatum (.integer w.toNat) = .error e ∧
      e.message? = some v.message := by
  rw [compiled_iff_accepted] at missed
  cases decoded : ofWord none w with
  | ok f =>
    rw [(ofWord_eq_ok_iff.mp decoded).1] at decoded
    exact absurd decoded missed
  | error v =>
    refine ⟨v, .refused v, rfl, ?_, rfl⟩
    rw [ofDatum_integer, decoded]
    rfl

/-- A compiled format is read back from what was stored of it, under whatever markers it was
    compiled. An integer of 64 bits is read exactly if some draft compiles to its word, and then as
    the format with this word. Any other is refused in the words of the decoder that knows no
    markers. -/
theorem ofDatum_iff_compiled :
    (∀ (d : Draft) (m : Markers) (f : Format), d.compile m = .ok f →
      ofDatum f.toDatum = .ok f) ∧
    ∀ n : Int, 0 ≤ n → n < UInt64.size → ∃ w : Word, (w.toNat : Int) = n ∧
      ((∃ f, ofDatum (.integer n) = .ok f) ↔ Compiled ⟨w⟩) ∧
      (Compiled ⟨w⟩ → ofDatum (.integer n) = .ok ⟨w⟩) ∧
      (¬ Compiled ⟨w⟩ → ∃ v e, ofWord none w = .error v ∧ ofDatum (.integer n) = .error e ∧
        e.message? = some v.message) := by
  refine ⟨fun d m f compiled => ?_, fun n low high => ?_⟩
  · exact ofDatum_toDatum (ofWord_none_of_compile compiled)
  · obtain ⟨w, rfl⟩ := Word.exists_toNat_eq low high
    refine ⟨w, rfl, exists_ofDatum_iff, fun built => ?_, ofDatum_of_not_compiled⟩
    exact ofDatum_toDatum (compiled_iff_accepted.mp built)

theorem ofDatum_iff_compiled_letter :
    (((({} : Draft).withSeparator (.ofChar 'e')).switch (.placement .internal) true).compile
      ⟨.ofChar '_', some 0⟩ = .ok ⟨0x6500011100000000⟩ ∧
      ofDatum (⟨0x6500011100000000⟩ : Format).toDatum = .ok ⟨0x6500011100000000⟩) ∧
    ((0 : Int) ≤ 0x200000000000 ∧ (0x200000000000 : Int) < UInt64.size ∧
      ∃ w : Word, (w.toNat : Int) = 0x200000000000 ∧
        ((∃ f, ofDatum (.integer 0x200000000000) = .ok f) ↔ Compiled ⟨w⟩)) := by
  have compiled : ((({} : Draft).withSeparator (.ofChar 'e')).switch (.placement .internal)
      true).compile ⟨.ofChar '_', some 0⟩ = .ok ⟨0x6500011100000000⟩ := rfl
  have low : (0 : Int) ≤ 0x200000000000 := by decide
  have high : (0x200000000000 : Int) < UInt64.size := by decide
  obtain ⟨w, same, read, _⟩ := ofDatum_iff_compiled.2 _ low high
  exact ⟨⟨compiled, ofDatum_iff_compiled.1 _ _ _ compiled⟩, low, high, w, same, read⟩

example : ofDatum (.integer 0x200000000000) = .error (.refused (.reservedBits 0x200000000000)) :=
  rfl

end Format

end LiteralGrammar
