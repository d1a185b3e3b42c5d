import Mathlib.Data.List.Induction
import Mathlib.Tactic.SplitIfs

theorem List.findSomeRev?_concat {α β : Type} (f : α → Option β) (l : List α) (x : α) :
    (l ++ [x]).findSomeRev? f = (f x).or (l.findSomeRev? f) := by
  rw [findSomeRev?_eq_findSome?_reverse, findSomeRev?_eq_findSome?_reverse, reverse_append,
    reverse_singleton, singleton_append, findSome?_cons]
  cases f x <;> rfl

theorem List.findSomeRev?_eq_none {α β : Type} {f : α → Option β} {l : List α}
    (silent : ∀ x ∈ l, f x = none) : l.findSomeRev? f = none := by
  rw [findSomeRev?_eq_findSome?_reverse, findSome?_eq_none_iff]
  intro x member
  exact silent x (mem_reverse.mp member)

theorem List.findSomeRev?_filter {α β : Type} {f : α → Option β} {p : α → Bool}
    (kept : ∀ x, p x = false → f x = none) (l : List α) :
    (l.filter p).findSomeRev? f = l.findSomeRev? f := by
  induction l using List.reverseRecOn with
  | nil => rfl
  | append_singleton l x ih =>
    rw [filter_append, findSomeRev?_concat]
    cases held : p x with
    | true => rw [filter_cons_of_pos held, filter_nil, findSomeRev?_concat, ih]
    | false =>
      rw [filter_cons_of_neg (by simp [held]), filter_nil, append_nil, ih, kept x held,
        Option.none_or]

theorem Except.map_eq_ok_iff {α β ε : Type} {x : Except ε α} {f : α → β} {b : β} :
    x.map f = .ok b ↔ ∃ a, x = .ok a ∧ f a = b := by
  cases x <;> simp [Except.map]

theorem Except.map_eq_error_iff {α β ε : Type} {x : Except ε α} {f : α → β} {e : ε} :
    x.map f = .error e ↔ x = .error e := by
  cases x <;> simp [Except.map]

theorem Char.toNat_toLower (c : Char) :
    c.toLower.toNat = if 65 ≤ c.toNat ∧ c.toNat ≤ 90 then c.toNat + 32 else c.toNat := by
  have capital : (c.val ≥ 'A'.val ∧ c.val ≤ 'Z'.val) ↔ (65 ≤ c.toNat ∧ c.toNat ≤ 90) := by
    rw [ge_iff_le, UInt32.le_iff_toNat_le, UInt32.le_iff_toNat_le]
    rfl
  unfold Char.toLower
  split_ifs with raised bounds bounds
  · change (c.val + 32).toNat = c.toNat + 32
    rw [UInt32.toNat_add]
    change (c.toNat + 32) % 2 ^ 32 = c.toNat + 32
    omega
  · exact absurd (capital.mp raised) bounds
  · exact absurd (capital.mpr bounds) raised
  · rfl

theorem String.exists_append_of_prefix {head s : String} (begins : head.toList <+: s.toList) :
    ∃ rest, s = head ++ rest := by
  obtain ⟨rest, split⟩ := begins
  refine ⟨String.ofList rest, String.toList_injective ?_⟩
  rw [String.toList_append, String.toList_ofList, split]

theorem String.utf8EncodeChar_of_ascii {c : Char} (ascii : c.toNat < 128) :
    String.utf8EncodeChar c = [UInt8.ofNat c.toNat] :=
  if_pos (Nat.le_of_lt_succ ascii)

theorem String.high_of_mem_utf8EncodeChar {c : Char} (high : 128 ≤ c.toNat) :
    ∀ b ∈ String.utf8EncodeChar c, 128 ≤ b.toNat := by
  have wide : ¬ c.val.toNat ≤ 127 := Nat.not_le.mpr high
  simp only [String.utf8EncodeChar, wide, if_false]
  split_ifs
  all_goals
    simp only [List.forall_mem_cons, List.not_mem_nil, false_imp_iff, implies_true, and_true,
      UInt8.toNat_ofNat']
    omega

theorem String.flatMap_utf8EncodeChar_inj {a b : List Char} :
    a.flatMap String.utf8EncodeChar = b.flatMap String.utf8EncodeChar ↔ a = b := by
  refine ⟨fun same => ?_, fun same => by rw [same]⟩
  have texts : String.ofList a = String.ofList b := by
    rw [← String.toByteArray_inj, String.toByteArray_ofList, String.toByteArray_ofList,
      List.utf8Encode, List.utf8Encode, same]
  exact String.ofList_injective texts
