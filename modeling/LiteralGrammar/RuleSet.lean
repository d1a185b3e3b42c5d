import LiteralGrammar.Rule
import LiteralGrammar.Word

namespace LiteralGrammar

/-- Bits that belong to no rule are kept too, so that a word from outside can be judged. -/
@[ext]
structure RuleSet where
  bits : Word
  deriving DecidableEq

namespace RuleSet

instance : Membership Rule RuleSet where
  mem s r := s.bits.getLsbD r.index = true

theorem mem_def {r : Rule} {s : RuleSet} : r ∈ s ↔ s.bits.getLsbD r.index = true := Iff.rfl

instance (r : Rule) (s : RuleSet) : Decidable (r ∈ s) :=
  inferInstanceAs (Decidable (s.bits.getLsbD r.index = true))

instance : EmptyCollection RuleSet := ⟨⟨0⟩⟩
instance : Union RuleSet := ⟨fun s t => ⟨s.bits ||| t.bits⟩⟩
instance : Inter RuleSet := ⟨fun s t => ⟨s.bits &&& t.bits⟩⟩
instance : SDiff RuleSet := ⟨fun s t => ⟨s.bits &&& ~~~t.bits⟩⟩
instance : Inhabited RuleSet := ⟨∅⟩

def contains (s t : RuleSet) : Bool := s.bits &&& t.bits == t.bits

def meets (s t : RuleSet) : Bool := s.bits &&& t.bits != 0

def single (r : Rule) : RuleSet := ⟨BitVec.twoPow 64 r.index⟩

def ofList (rules : List Rule) : RuleSet := rules.foldr (fun r s => single r ∪ s) ∅

def toList (s : RuleSet) : List Rule := Rule.all.filter (· ∈ s)

def known : RuleSet := ofList Rule.all

def reserved (s : RuleSet) : Word := (s \ known).bits

theorem mem_empty (r : Rule) : ¬ r ∈ (∅ : RuleSet) := by
  simp [mem_def, EmptyCollection.emptyCollection]

theorem mem_union {r : Rule} {s t : RuleSet} : r ∈ s ∪ t ↔ r ∈ s ∨ r ∈ t := by
  simp [mem_def, Union.union]

theorem mem_inter {r : Rule} {s t : RuleSet} : r ∈ s ∩ t ↔ r ∈ s ∧ r ∈ t := by
  simp [mem_def, Inter.inter]

theorem mem_sdiff {r : Rule} {s t : RuleSet} : r ∈ s \ t ↔ r ∈ s ∧ ¬ r ∈ t := by
  have hr : r.index < 64 := Nat.lt_trans r.index_lt (by decide)
  simp [mem_def, SDiff.sdiff, hr]

theorem mem_single {r q : Rule} : q ∈ single r ↔ q = r := by
  have hr : r.index < 64 := Nat.lt_trans r.index_lt (by decide)
  simp [mem_def, single, BitVec.getLsbD_twoPow, hr, Rule.index_inj, eq_comm]

theorem mem_ofList {r : Rule} {rules : List Rule} : r ∈ ofList rules ↔ r ∈ rules := by
  induction rules with
  | nil => simp [ofList, mem_empty]
  | cons q rules ih =>
    change r ∈ single q ∪ ofList rules ↔ _
    rw [mem_union, mem_single, ih, List.mem_cons]

theorem getLsbD_ofList {rules : List Rule} {i : Nat} :
    (ofList rules).bits.getLsbD i = true ↔ ∃ r ∈ rules, r.index = i := by
  induction rules with
  | nil => simp [ofList, EmptyCollection.emptyCollection]
  | cons q rules ih =>
    have hq : q.index < 64 := Nat.lt_trans q.index_lt (by decide)
    change (BitVec.twoPow 64 q.index ||| (ofList rules).bits).getLsbD i = true ↔ _
    simp only [BitVec.getLsbD_or, Bool.or_eq_true, ih, BitVec.getLsbD_twoPow, hq, decide_true,
      Bool.true_and, decide_eq_true_eq]
    simp [or_and_right, exists_or]

theorem meets_ofList {s : RuleSet} {rules : List Rule} :
    s.meets (ofList rules) = true ↔ ∃ r ∈ rules, r ∈ s := by
  constructor
  · intro h
    have hne : s.bits &&& (ofList rules).bits ≠ 0#64 := by simpa [meets] using h
    by_cases ho : ∃ r ∈ rules, r ∈ s
    · exact ho
    · refine absurd (BitVec.eq_of_getLsbD_eq fun i _ => ?_) hne
      cases hs : s.bits.getLsbD i
      · simp [hs]
      · cases ht : (ofList rules).bits.getLsbD i
        · simp [ht]
        · obtain ⟨r, hr, rfl⟩ := getLsbD_ofList.mp ht
          exact absurd ⟨r, hr, hs⟩ ho
  · rintro ⟨r, hr, hs⟩
    have hb : (s.bits &&& (ofList rules).bits).getLsbD r.index = true := by
      rw [BitVec.getLsbD_and, Bool.and_eq_true]
      exact ⟨hs, getLsbD_ofList.mpr ⟨r, hr, rfl⟩⟩
    have hne : s.bits &&& (ofList rules).bits ≠ 0#64 := fun h0 => by simp [h0] at hb
    simpa [meets] using hne

theorem contains_ofList {s : RuleSet} {rules : List Rule} :
    s.contains (ofList rules) = true ↔ ∀ r ∈ rules, r ∈ s := by
  have hc : s.contains (ofList rules) = true ↔
      s.bits &&& (ofList rules).bits = (ofList rules).bits := by
    simp [contains]
  rw [hc]
  constructor
  · intro h r hr
    have hb := getLsbD_ofList.mpr ⟨r, hr, rfl⟩
    rw [← h, BitVec.getLsbD_and, Bool.and_eq_true] at hb
    exact hb.1
  · intro h
    apply BitVec.eq_of_getLsbD_eq
    intro i _
    rw [BitVec.getLsbD_and]
    cases ht : (ofList rules).bits.getLsbD i
    · simp
    · obtain ⟨r, hr, rfl⟩ := getLsbD_ofList.mp ht
      rw [mem_def.mp (h r hr), Bool.true_and]

theorem mem_known (r : Rule) : r ∈ known := mem_ofList.mpr (Rule.mem_all r)

theorem mem_toList {r : Rule} {s : RuleSet} : r ∈ s.toList ↔ r ∈ s := by
  simp [toList, Rule.mem_all]

end RuleSet

def separatorRules : RuleSet := .ofList (Rule.all.filter (·.isSeparator))

def exponentRules : RuleSet := .ofList (Rule.all.filter (·.concernsExponent))

def generalRules : RuleSet := .known \ separatorRules

def RuleSet.hasSeparator (s : RuleSet) : Bool := s.meets separatorRules

theorem RuleSet.hasSeparator_iff {s : RuleSet} :
    s.hasSeparator = true ↔ ∃ r ∈ s, r.isSeparator = true := by
  simp only [hasSeparator, separatorRules, meets_ofList, List.mem_filter, Rule.mem_all, true_and]
  exact exists_congr fun r => And.comm

end LiteralGrammar
