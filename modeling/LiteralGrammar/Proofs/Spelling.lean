import LiteralGrammar.Proofs.Basic
import LiteralGrammar.Proofs.Lookup
import LiteralGrammar.Proofs.Naming

namespace LiteralGrammar

namespace Name

def foldCode (n : Nat) : Nat :=
  if n = 95 then 45 else if 65 ≤ n ∧ n ≤ 90 then n + 32 else n

def foldByte (b : UInt8) : UInt8 := UInt8.ofNat (foldCode b.toNat)

def bytes (s : String) : List UInt8 := s.toUTF8.data.toList

def agreeBytes (a b : List UInt8) : Bool :=
  a.length == b.length && (a.zip b).all fun pair => foldByte pair.1 == foldByte pair.2

theorem toNat_fold (c : Char) : (fold c).toNat = foldCode c.toNat := by
  have underscore : c = '_' ↔ c.toNat = 95 := Char.toNat_inj.symm
  unfold fold foldCode
  by_cases same : c = '_'
  · rw [if_pos same, if_pos (underscore.mp same)]
    rfl
  · rw [if_neg same, if_neg fun code => same (underscore.mpr code), Char.toNat_toLower]

theorem toNat_foldByte (b : UInt8) : (foldByte b).toNat = foldCode b.toNat := by
  have bound := b.toNat_lt
  have kept : foldCode b.toNat < 256 := by
    unfold foldCode
    split_ifs <;> omega
  rw [foldByte, UInt8.toNat_ofNat']
  exact Nat.mod_eq_of_lt kept

theorem foldCode_of_high {n : Nat} (high : 128 ≤ n) : foldCode n = n := by
  unfold foldCode
  split_ifs <;> omega

theorem foldCode_lt {n : Nat} (ascii : n < 128) : foldCode n < 128 := by
  unfold foldCode
  split_ifs <;> omega

theorem utf8EncodeChar_fold (c : Char) :
    String.utf8EncodeChar (fold c) = (String.utf8EncodeChar c).map foldByte := by
  by_cases ascii : c.toNat < 128
  · have stays : (fold c).toNat < 128 := by
      rw [toNat_fold]
      exact foldCode_lt ascii
    have byte : (UInt8.ofNat c.toNat).toNat = c.toNat := by
      rw [UInt8.toNat_ofNat']
      omega
    rw [String.utf8EncodeChar_of_ascii stays, String.utf8EncodeChar_of_ascii ascii, toNat_fold,
      List.map_cons, List.map_nil, foldByte, byte]
  · have high : 128 ≤ c.toNat := Nat.not_lt.mp ascii
    have kept : fold c = c := by
      rw [← Char.toNat_inj, toNat_fold, foldCode_of_high high]
    have same : ∀ b ∈ String.utf8EncodeChar c, foldByte b = b := by
      intro b member
      rw [← UInt8.toNat_inj, toNat_foldByte,
        foldCode_of_high (String.high_of_mem_utf8EncodeChar high b member)]
    rw [kept, List.map_congr_left same, List.map_id']

theorem bytes_eq (s : String) : bytes s = s.toList.flatMap String.utf8EncodeChar := by
  rw [bytes, String.toUTF8_eq_toByteArray, ← String.utf8Encode_toList, List.utf8Encode,
    List.toList_data_toByteArray]

theorem map_foldByte_bytes (s : String) :
    (bytes s).map foldByte = (key s).flatMap String.utf8EncodeChar := by
  rw [bytes_eq, key, List.map_flatMap, List.flatMap_map]
  simp only [utf8EncodeChar_fold]

theorem same_iff_bytes {a b : String} :
    same a b = true ↔ (bytes a).map foldByte = (bytes b).map foldByte := by
  rw [same_iff, map_foldByte_bytes, map_foldByte_bytes, String.flatMap_utf8EncodeChar_inj]

theorem agreeBytes_iff {a b : List UInt8} :
    agreeBytes a b = true ↔ a.map foldByte = b.map foldByte := by
  induction a generalizing b with
  | nil => cases b <;> simp [agreeBytes]
  | cons x a ih =>
    cases b with
    | nil => simp [agreeBytes]
    | cons y b =>
      rw [List.map_cons, List.map_cons, List.cons.injEq, ← ih]
      simp [agreeBytes, and_left_comm]

theorem same_eq_agreeBytes (a b : String) : same a b = agreeBytes (bytes a) (bytes b) := by
  rw [Bool.eq_iff_iff, same_iff_bytes, agreeBytes_iff]

end Name

theorem Preset.key_name (p : Preset) : Name.key p.name = p.name.toList :=
  (by decide +kernel : ∀ q ∈ all, Name.key q.name = q.name.toList) p p.mem_all

theorem Preset.ofName?_of_same {p : Preset} {s : String} (spelled : Name.same p.name s = true) :
    ofName? s = some p := by
  apply ofName?_eq_some_iff_names.mpr
  rw [← (Name.same_iff _ _).mp spelled, key_name]
  exact .own rfl

namespace Rule

theorem key_name (r : Rule) : Name.key r.name = r.name.toList :=
  (by decide +kernel : ∀ q ∈ all, Name.key q.name = q.name.toList) r r.mem_all

theorem find?_same_eq_some_iff {tried : List Rule} (complete : ∀ r, r ∈ tried) {s : String}
    {r : Rule} :
    tried.find? (fun q => Name.same q.name s) = some r ↔ Name.key s = r.name.toList := by
  have sound {q : Rule} (found : tried.find? (fun q => Name.same q.name s) = some q) :
      Name.key s = q.name.toList := by
    have hit := List.find?_some found
    rw [← key_name, (Name.same_iff _ _).mp hit]
  refine ⟨sound, fun spelled => ?_⟩
  cases found : tried.find? fun q => Name.same q.name s with
  | some q =>
    have names : Name.key q.name = Name.key r.name := by
      rw [key_name, key_name, ← sound found, spelled]
    rw [key_inj.mp names]
  | none =>
    have missed := List.find?_eq_none.mp found r (complete r)
    exact absurd ((Name.same_iff _ _).mpr ((key_name r).trans spelled.symm)) missed

theorem ofName?_eq_some_iff_key {s : String} {r : Rule} :
    ofName? s = some r ↔ Name.key s = r.name.toList :=
  find?_same_eq_some_iff mem_all

/-- A rule is found exactly by the texts that fold to its name, whatever the order in which rules
    are tried. Folding is the same for characters and for bytes. -/
theorem ofName?_iff_key (s : String) :
    (∀ r, ofName? s = some r ↔ Name.key s = r.name.toList) ∧
    (ofName? s = none ↔ ∀ r : Rule, Name.key s ≠ r.name.toList) ∧
    (∀ p q : Rule, Name.key s = p.name.toList → Name.key s = q.name.toList → p = q) ∧
    (∀ tried : List Rule, List.Perm tried all →
      tried.find? (fun r => Name.same r.name s) = ofName? s) ∧
    (∀ r : Rule, Name.key s = Name.key r.name → ofName? s = some r) ∧
    (∀ c : Char, (Name.fold c).toNat = Name.foldCode c.toNat) ∧
    (∀ a b : String,
      (Name.same a b = true ↔
        (Name.bytes a).map Name.foldByte = (Name.bytes b).map Name.foldByte) ∧
      Name.same a b = Name.agreeBytes (Name.bytes a) (Name.bytes b)) ∧
    ∀ p : Preset, Name.same p.name s = true → Preset.ofName? s = some p := by
  refine ⟨fun r => ofName?_eq_some_iff_key, ?_, fun p q first second => ?_,
    fun tried order => ?_, fun r respelled => ?_, Name.toNat_fold,
    fun a b => ⟨Name.same_iff_bytes, Name.same_eq_agreeBytes a b⟩,
    fun p => Preset.ofName?_of_same⟩
  · simp only [Option.eq_none_iff_forall_ne_some, ne_eq, ofName?_eq_some_iff_key]
  · rw [← key_name] at first second
    exact key_inj.mp (first.symm.trans second)
  · have complete (r : Rule) : r ∈ tried := order.mem_iff.mpr r.mem_all
    ext r
    rw [find?_same_eq_some_iff complete, ofName?_eq_some_iff_key]
  · rw [ofName?_eq_some_iff_key, respelled, key_name]

theorem ofName?_iff_key_capitals :
    Name.key "Integer_INTERNAL-digit_separator" = Name.key (separator .integer .internal).name ∧
      ofName? "Integer_INTERNAL-digit_separator" = some (.separator .integer .internal) := by
  have respelled : Name.key "Integer_INTERNAL-digit_separator" =
      Name.key (separator .integer .internal).name := by decide +kernel
  obtain ⟨_, _, _, _, found, _⟩ := ofName?_iff_key "Integer_INTERNAL-digit_separator"
  exact ⟨respelled, found _ respelled⟩

-- The long s is a small letter already, and no other letter folds to `s`.
example : ofName? "no-\u017fpecial" = none := by decide +kernel

end Rule

end LiteralGrammar
