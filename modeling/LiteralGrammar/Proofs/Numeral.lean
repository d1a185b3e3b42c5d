import Mathlib.Data.List.Forall2
import Mathlib.Data.Nat.Digits.Defs
import LiteralGrammar.Proofs.Basic
import LiteralGrammar.Text.Hex

namespace LiteralGrammar.Text

namespace Hex

def numerals : List Char := "0123456789abcdef".toList

/-- The character is the digit of this value, as a small letter or as a capital. -/
def Numeral (c : Char) (n : Nat) : Prop := numerals[n]? = some c.toLower

/-- The second text is the first without one leading `0x` or `0X`, if it has one. -/
inductive Unmarked : String → String → Prop
  | small (body : String) : Unmarked ("0x" ++ body) body
  | capital (body : String) : Unmarked ("0X" ++ body) body
  | bare {text : String} (noSmall : ¬ "0x".toList <+: text.toList)
      (noCapital : ¬ "0X".toList <+: text.toList) : Unmarked text text

/-- After its mark the text has digits, at least one, and underscores anywhere among them. The
    digits write the number from the left, and zeros in front do not count. -/
def Writes (s : String) (n : Nat) : Prop :=
  ∃ body ds, Unmarked s body ∧ ds ≠ [] ∧
    List.Forall₂ Numeral (body.toList.filter (· != '_')) ds ∧ Nat.ofDigits 16 ds.reverse = n

theorem numeral_iff {c : Char} {n : Nat} : Numeral c n ↔ n < 16 ∧ c.toLower = digit n := by
  have listed : ∀ m < 16, numerals[m]? = some (digit m) := by decide
  by_cases small : n < 16
  · rw [Numeral, listed n small, Option.some.injEq, eq_comm]
    exact (and_iff_right small).symm
  · have none : numerals[n]? = none := List.getElem?_eq_none (Nat.not_lt.mp small)
    simp [Numeral, none, small]

theorem toNat_digit {n : Nat} (small : n < 16) :
    (digit n).toNat = if n < 10 then 48 + n else 87 + n :=
  (by decide : ∀ m < 16, (digit m).toNat = if m < 10 then 48 + m else 87 + m) n small

theorem value?_eq_some_iff {c : Char} {n : Nat} : value? c = some n ↔ Numeral c n := by
  rw [numeral_iff]
  by_cases small : n < 16
  · rw [← Char.toNat_inj, toNat_digit small, Char.toNat_toLower]
    simp only [value?, small, true_and]
    -- What is left says of each range of digits that both sides count from the same place.
    split_ifs <;> simp only [Option.some.injEq, false_iff] <;> omega
  · have large : value? c ≠ some n := fun valued => small (value?_lt valued)
    simp [large, small]

theorem value?_toLower (c : Char) : value? c.toLower = value? c := by
  simp only [value?, Char.toNat_toLower]
  by_cases capital : 65 ≤ c.toNat ∧ c.toNat ≤ 90
  · rw [if_pos capital]
    grind
  · rw [if_neg capital]

/-- The first digit counts the most, so what was read before moves up by one place for each
    digit. -/
theorem number?_eq_some_iff {n m : Nat} {cs : List Char} :
    number? n cs = some m ↔
      ∃ ds, List.Forall₂ Numeral cs ds ∧ 16 ^ ds.length * n + Nat.ofDigits 16 ds.reverse = m := by
  induction cs generalizing n with
  | nil => simp [number?, List.forall₂_nil_left_iff]
  | cons c cs ih =>
    have shifted (d : Nat) (ds : List Nat) :
        16 ^ (d :: ds).length * n + Nat.ofDigits 16 (d :: ds).reverse =
          16 ^ ds.length * (16 * n + d) + Nat.ofDigits 16 ds.reverse := by
      rw [Nat.ofDigits_reverse_cons, List.length_cons, Nat.pow_succ]
      ring
    rw [number?, Option.bind_eq_some_iff]
    constructor
    · intro read
      obtain ⟨d, valued, later⟩ := read
      obtain ⟨ds, each, total⟩ := ih.mp later
      exact ⟨d :: ds, .cons (value?_eq_some_iff.mp valued) each, (shifted d ds).trans total⟩
    · intro written
      obtain ⟨_, each, total⟩ := written
      cases each with
      | @cons _ d _ ds first later =>
        have rest := ih.mpr ⟨ds, later, (shifted d ds).symm.trans total⟩
        exact ⟨d, value?_eq_some_iff.mpr first, rest⟩

theorem number?_map_toLower (n : Nat) (cs : List Char) :
    number? n (cs.map Char.toLower) = number? n cs := by
  induction cs generalizing n with
  | nil => rfl
  | cons c cs ih => simp only [List.map_cons, number?, value?_toLower, ih]

theorem number?_zeros (zeros : Nat) : number? 0 (List.replicate zeros '0') = some 0 := by
  induction zeros with
  | zero => rfl
  | succ zeros ih =>
    rw [List.replicate_succ]
    exact ih

theorem unmarked_eq_self {cs : List Char} (noSmall : ¬ "0x".toList <+: cs)
    (noCapital : ¬ "0X".toList <+: cs) : unmarked cs = cs := by
  unfold unmarked
  split
  · exact absurd (List.prefix_append _ _) noSmall
  · exact absurd (List.prefix_append _ _) noCapital
  · rfl

theorem unmarked_iff {s body : String} : Unmarked s body ↔ unmarked s.toList = body.toList := by
  constructor
  · intro unmarks
    cases unmarks with
    | small => simp [unmarked]
    | capital => simp [unmarked]
    | bare noSmall noCapital => exact unmarked_eq_self noSmall noCapital
  · intro same
    by_cases small : "0x".toList <+: s.toList
    · obtain ⟨rest, rfl⟩ := String.exists_append_of_prefix small
      have kept : rest = body := String.toList_injective (by simpa [unmarked] using same)
      exact kept ▸ .small rest
    by_cases capital : "0X".toList <+: s.toList
    · obtain ⟨rest, rfl⟩ := String.exists_append_of_prefix capital
      have kept : rest = body := String.toList_injective (by simpa [unmarked] using same)
      exact kept ▸ .capital rest
    rw [unmarked_eq_self small capital] at same
    exact String.toList_injective same ▸ .bare small capital

theorem writes_iff {s : String} {n : Nat} :
    Writes s n ↔ (unmarked s.toList).filter (· != '_') ≠ [] ∧
      number? 0 ((unmarked s.toList).filter (· != '_')) = some n := by
  simp only [number?_eq_some_iff, Nat.mul_zero, Nat.zero_add]
  constructor
  · intro writes
    obtain ⟨body, ds, unmarks, some, each, total⟩ := writes
    rw [unmarked_iff.mp unmarks]
    refine ⟨fun empty => some ?_, ds, each, total⟩
    rw [empty] at each
    exact List.forall₂_nil_left_iff.mp each
  · intro reads
    obtain ⟨some, ds, each, total⟩ := reads
    refine ⟨String.ofList (unmarked s.toList), ds, ?_, fun empty => some ?_, ?_, total⟩
    · exact unmarked_iff.mpr String.toList_ofList.symm
    · rw [empty] at each
      exact List.forall₂_nil_right_iff.mp each
    · rw [String.toList_ofList]
      exact each

theorem read?_eq_some_iff {s : String} {w : Word} :
    read? s = some w ↔ ∃ n, Writes s n ∧ n < 2 ^ 64 ∧ BitVec.ofNat 64 n = w := by
  simp only [writes_iff, read?]
  cases written : (unmarked s.toList).filter (· != '_') with
  | nil => simp
  | cons c cs => simp [Option.bind_eq_some_iff, UInt64.size]

/-- Another spelling of a displayed word. Its digits may be capitals, underscores may stand among
    them and zeros in front, and the mark may be the other one or missing. -/
inductive Respelled (w : Word) : String → Prop
  | of {mark body shown : String} (zeros : Nat) (marked : mark ∈ ["0x", "0X", ""])
      (displayed : word w = "0x" ++ shown)
      (same : (body.toList.filter (· != '_')).map Char.toLower =
        List.replicate zeros '0' ++ shown.toList) : Respelled w (mark ++ body)

theorem mem_digits {c : Char} {count n : Nat} (member : c ∈ digits count n) :
    ∃ d < 16, c = digit d := by
  induction count generalizing n with
  | zero => cases member
  | succ count ih =>
    rw [digits, List.mem_append, List.mem_singleton] at member
    rcases member with earlier | last
    · exact ih earlier
    · exact ⟨n % 16, Nat.mod_lt _ (by decide), last⟩

theorem plain_of_mem_digits {c : Char} {count n : Nat} (member : c ∈ digits count n) :
    c ≠ '\n' ∧ c ≠ '_' ∧ c ≠ 'x' ∧ c.toLower = c := by
  obtain ⟨d, small, rfl⟩ := mem_digits member
  exact (by decide : ∀ d < 16, digit d ≠ '\n' ∧ digit d ≠ '_' ∧ digit d ≠ 'x' ∧
    (digit d).toLower = digit d) d small

theorem toLower_ne_x {body : List Char} {zeros count n : Nat}
    (same : (body.filter (· != '_')).map Char.toLower =
      List.replicate zeros '0' ++ digits count n) : ∀ c ∈ body, c.toLower ≠ 'x' := by
  intro c member hex
  have kept : c ≠ '_' := by
    intro line
    subst line
    exact absurd hex (by decide)
  have lowered : c.toLower ∈ List.replicate zeros '0' ++ digits count n := by
    rw [← same]
    exact List.mem_map_of_mem (List.mem_filter.mpr ⟨member, by simpa using kept⟩)
  rcases List.mem_append.mp lowered with zero | digit
  · rw [hex] at zero
    exact absurd (List.eq_of_mem_replicate zero) (by decide)
  · exact (plain_of_mem_digits digit).2.2.1 hex

theorem unmarked_append {mark body : String} (marked : mark ∈ ["0x", "0X", ""])
    (plain : ∀ c ∈ body.toList, c.toLower ≠ 'x') :
    unmarked (mark ++ body).toList = body.toList := by
  simp only [List.mem_cons, List.not_mem_nil, or_false] at marked
  rcases marked with rfl | rfl | rfl
  · exact unmarked_iff.mp (.small body)
  · exact unmarked_iff.mp (.capital body)
  · rw [String.empty_append]
    apply unmarked_eq_self
    · intro begins
      exact plain 'x' (begins.subset (by decide)) (by decide)
    · intro begins
      exact plain 'X' (begins.subset (by decide)) (by decide)

theorem writes_of_respelled {w : Word} {s : String} (respelled : Respelled w s) :
    Writes s w.toNat := by
  cases respelled with
  | @of mark body shown zeros marked displayed same =>
  have written : shown.toList = digits 16 w.toNat := by
    have lists := congrArg String.toList displayed
    simpa [word] using lists.symm
  rw [written] at same
  have number : number? 0 (body.toList.filter (· != '_')) = some w.toNat := by
    have digits := number?_digits 16 0 w.toNat w.isLt
    rw [Nat.mul_zero, Nat.zero_add] at digits
    rw [← number?_map_toLower, same, number?_append, number?_zeros, Option.bind_some]
    exact digits
  -- Sixteen digits are written even for zero, so something is left without the underscores.
  have some : body.toList.filter (· != '_') ≠ [] := by
    intro empty
    have length := congrArg List.length same
    rw [empty, List.length_append, length_digits] at length
    simp at length
  rw [writes_iff, unmarked_append marked (toLower_ne_x same)]
  exact ⟨some, number⟩

theorem respelled_word (w : Word) : Respelled w (word w) := by
  have plain : (digits 16 w.toNat).filter (· != '_') = digits 16 w.toNat := by
    apply List.filter_eq_self.mpr
    intro c member
    simpa using (plain_of_mem_digits member).2.1
  have small : (digits 16 w.toNat).map Char.toLower = digits 16 w.toNat := by
    rw [List.map_congr_left fun c member => (plain_of_mem_digits member).2.2.2, List.map_id']
  refine .of 0 List.mem_cons_self rfl ?_
  rw [String.toList_ofList, plain, small, List.replicate_zero, List.nil_append]

theorem read?_of_respelled {w : Word} {s : String} (respelled : Respelled w s) :
    read? s = some w := by
  refine read?_eq_some_iff.mpr ⟨w.toNat, writes_of_respelled respelled, w.isLt, ?_⟩
  rw [BitVec.ofNat_toNat, BitVec.setWidth_eq]

theorem read?_word (w : Word) : read? (word w) = some w := read?_of_respelled (respelled_word w)

end Hex

end LiteralGrammar.Text
