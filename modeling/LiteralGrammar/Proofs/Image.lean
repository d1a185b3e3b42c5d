import LiteralGrammar.Proofs.Layout

namespace LiteralGrammar

namespace Draft

def edits (d : Draft) : List Edit :=
  .separator d.separator :: d.rules.toList.map fun r : Rule => .switch r true

theorem mem_run_switches {d : Draft} {rules : List Rule} {r : Rule} :
    r ∈ (d.run (rules.map fun q : Rule => .switch q true)).rules ↔ r ∈ rules ∨ r ∈ d.rules := by
  induction rules generalizing d with
  | nil => simp [run]
  | cons q rules ih =>
    change r ∈ ((d.switch q true).run _).rules ↔ _
    rw [ih, mem_switch_on, List.mem_cons]
    exact or_left_comm.trans or_assoc.symm

theorem separator_run_switches (d : Draft) (rules : List Rule) :
    (d.run (rules.map fun q : Rule => .switch q true)).separator = d.separator := by
  induction rules generalizing d with
  | nil => rfl
  | cons q rules ih => exact ih (d.switch q true)

/-- Any list of its rules builds the draft, in whatever order and however often each is named. -/
theorem run_switches {d : Draft} (owned : d.rules.reserved = 0) {rules : List Rule}
    (members : ∀ r, r ∈ rules ↔ r ∈ d.rules) :
    (({} : Draft).withSeparator d.separator).run (rules.map fun r : Rule => .switch r true) =
      d := by
  have built : ((({} : Draft).withSeparator d.separator).run
      (rules.map fun r : Rule => .switch r true)).rules = d.rules := by
    apply RuleSet.eq_of_mem_iff (reserved_run _ _ |>.trans RuleSet.reserved_empty) owned
    intro r
    rw [mem_run_switches, members]
    exact or_iff_left (RuleSet.mem_empty r)
  have kept := separator_run_switches (({} : Draft).withSeparator d.separator) rules
  exact Draft.ext built kept

theorem run_edits {d : Draft} (owned : d.rules.reserved = 0) : ({} : Draft).run d.edits = d :=
  run_switches owned fun _ => RuleSet.mem_toList

end Draft

namespace Markers

theorem eq_of_begins {m : Markers} {a b c : Byte} (ha : m.begins a = true)
    (hb : m.begins b = true) (hc : m.begins c = true) : a = b ∨ a = c ∨ b = c := by
  rw [begins_iff] at ha hb hc
  rcases ha with ha | ha <;> rcases hb with hb | hb
  · exact Or.inl (ha.trans hb.symm)
  · rcases hc with hc | hc
    · exact Or.inr (Or.inl (ha.trans hc.symm))
    · exact Or.inr (Or.inr (Option.some.inj (hb.symm.trans hc)))
  · rcases hc with hc | hc
    · exact Or.inr (Or.inr (hb.trans hc.symm))
    · exact Or.inr (Or.inl (Option.some.inj (ha.symm.trans hc)))
  · exact Or.inl (Option.some.inj (ha.symm.trans hb))

theorem exists_usable (m : Markers) : ∃ b : Byte, b.Usable (some m) := by
  cases first : m.begins (.ofChar '_')
  · exact ⟨.ofChar '_', Byte.usable_some.mpr ⟨by decide, first⟩⟩
  cases second : m.begins (.ofChar ',')
  · exact ⟨.ofChar ',', Byte.usable_some.mpr ⟨by decide, second⟩⟩
  cases third : m.begins (.ofChar '#')
  · exact ⟨.ofChar '#', Byte.usable_some.mpr ⟨by decide, third⟩⟩
  exact absurd (eq_of_begins first second third) (by decide)

end Markers

theorem Byte.Usable.with_digit {b : Byte} (usable : b.Usable none) :
    b.Usable (some ⟨.ofChar '0', none⟩) := by
  have plain := Byte.usable_none.mp usable
  refine Byte.usable_some.mpr ⟨plain, ?_⟩
  rw [Bool.eq_false_iff]
  intro taken
  rcases Markers.begins_iff.mp taken with same | other
  · rw [same] at plain
    exact absurd plain (by decide)
  · cases other

namespace Format

/-- The word of a draft that was built from a fresh one and compiled under the markers. -/
def Compiles (m : Markers) (w : Word) : Prop :=
  ∃ edits, (({} : Draft).run edits).compile m = .ok ⟨w⟩

theorem compiles_iff {m : Markers} {w : Word} :
    Compiles m w ↔ ∃ d : Draft, d.violation? (some m) = none ∧ pack d = ⟨w⟩ := by
  refine ⟨fun built => ?_, fun packed => ?_⟩
  · obtain ⟨edits, compiled⟩ := built
    obtain ⟨judged, same⟩ := Draft.compile_eq_ok_iff.mp compiled
    exact ⟨_, judged, same.symm⟩
  · obtain ⟨d, judged, same⟩ := packed
    refine ⟨d.edits, ?_⟩
    rw [Draft.run_edits (Draft.reserved_of_accepted judged)]
    exact Draft.compile_eq_ok_iff.mpr ⟨judged, same.symm⟩

theorem hasSeparator_ofWord {w : Word} :
    (Draft.ofWord w).rules.hasSeparator = true ↔
      ∃ r : Rule, r.isSeparator = true ∧ (⟨w⟩ : Format).isActive r = true := by
  rw [RuleSet.hasSeparator_iff]
  refine exists_congr fun r => ?_
  rw [isActive_iff, mem_rules_ofWord]
  exact and_comm

section

variable {m : Markers} {w : Word}

theorem accepted_of_compiles (built : Compiles m w) : ofWord none w = .ok ⟨w⟩ := by
  obtain ⟨edits, compiled⟩ := built
  exact ofWord_none_of_compile compiled

theorem unmarked_of_compiles (built : Compiles m w)
    (used : (Draft.ofWord w).rules.hasSeparator = true) : m.begins w.topByte = false := by
  obtain ⟨d, judged, packed⟩ := compiles_iff.mp built
  have spelled := draft_of_pack (Draft.reserved_of_accepted judged)
  rw [packed] at spelled
  rw [spelled, Draft.spelled_rules] at used
  rw [Draft.spelled_of_used used] at spelled
  have usable := Draft.usable_of_accepted judged
  rw [← spelled] at usable
  exact (Byte.usable_some.mp usable).2

theorem compiles_of_unmarked (accepted : ofWord none w = .ok ⟨w⟩)
    (unmarked : (Draft.ofWord w).rules.hasSeparator = true → m.begins w.topByte = false) :
    Compiles m w := by
  obtain ⟨_, judged, exact⟩ := ofWord_eq_ok_iff.mp accepted
  apply compiles_iff.mpr
  cases used : (Draft.ofWord w).rules.hasSeparator
  · obtain ⟨b, usable⟩ := m.exists_usable
    refine ⟨(Draft.ofWord w).withSeparator b, ?_, ?_⟩
    · exact Draft.accepted_of_rules judged rfl usable
    · rw [pack_withSeparator used, pack_ofWord exact]
  · have plain := Byte.usable_none.mp (Draft.usable_of_accepted judged)
    have usable : (Draft.ofWord w).separator.Usable (some m) :=
      Byte.usable_some.mpr ⟨plain, unmarked used⟩
    exact ⟨Draft.ofWord w, Draft.accepted_of_rules judged rfl usable, pack_ofWord exact⟩

end

/-- Without markers the decoder accepts exactly the words that drafts compile to, and gives them
    back as they are. Under fixed markers drafts compile to those among them whose separator, if a
    rule uses it, is no marker. -/
theorem ofWord_none_iff_compiles (w : Word) :
    ((∃ f, ofWord none w = .ok f) ↔ ∃ m, Compiles m w) ∧
    (∀ f, ofWord none w = .ok f → f.word = w) ∧
    ∀ m, Compiles m w ↔ (∃ f, ofWord none w = .ok f) ∧
      ((∃ r : Rule, r.isSeparator = true ∧ isActive ⟨w⟩ r = true) →
        m.begins w.topByte = false) := by
  have exact {f : Format} (accepted : ofWord none w = .ok f) : ofWord none w = .ok ⟨w⟩ := by
    rw [accepted, (ofWord_eq_ok_iff.mp accepted).1]
  refine ⟨⟨fun decoded => ?_, fun built => ?_⟩, fun f => word_of_ofWord, fun m => ?_⟩
  · obtain ⟨f, accepted⟩ := decoded
    have usable := Draft.usable_of_accepted (ofWord_eq_ok_iff.mp accepted).2.1
    exact ⟨_, compiles_of_unmarked (exact accepted)
      fun _ => (Byte.usable_some.mp usable.with_digit).2⟩
  · obtain ⟨m, built⟩ := built
    exact ⟨_, accepted_of_compiles built⟩
  · rw [← hasSeparator_ofWord]
    refine ⟨fun built => ?_, fun word => ?_⟩
    · exact ⟨⟨_, accepted_of_compiles built⟩, unmarked_of_compiles built⟩
    · obtain ⟨⟨f, accepted⟩, unmarked⟩ := word
      exact compiles_of_unmarked (exact accepted) unmarked

end Format

end LiteralGrammar
