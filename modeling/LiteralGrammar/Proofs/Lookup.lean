import Mathlib.Data.List.Nodup
import LiteralGrammar.Preset

namespace LiteralGrammar.Preset

/-- The first beginning leaves out a version, and the second is what it means. -/
inductive Abbreviates : String → String → Prop
  | python : Abbreviates "python-" "python3-"
  | cxx : Abbreviates "cxx-" "cxx17-"
  | c : Abbreviates "c-" "c18-"
  | csharp : Abbreviates "csharp-" "csharp7-"

inductive Names (key : List Char) : Preset → Prop
  | own {p : Preset} (same : key = p.name.toList) : Names key p
  | short {p : Preset} {short full : String} {tail : List Char} (stands : Abbreviates short full)
      (written : key = short.toList ++ tail) (meant : p.name.toList = full.toList ++ tail) :
      Names key p
  | yaml (written : key = "yaml".toList) : Names key (.data .json)

theorem name_inj {p q : Preset} : p.name = q.name ↔ p = q := by
  have distinct : (all.map name).Nodup := by decide +kernel
  refine ⟨fun same => ?_, congrArg name⟩
  exact List.inj_on_of_nodup_map distinct p.mem_all q.mem_all same

theorem toList_name_inj {p q : Preset} : p.name.toList = q.name.toList ↔ p = q :=
  String.toList_inj.trans name_inj

theorem mem_abbreviations {short full : String} :
    (short, full) ∈ abbreviations ↔ Abbreviates short full := by
  constructor
  · intro member
    simp only [abbreviations, List.mem_cons, Prod.mk.injEq, List.not_mem_nil, or_false] at member
    rcases member with ⟨rfl, rfl⟩ | ⟨rfl, rfl⟩ | ⟨rfl, rfl⟩ | ⟨rfl, rfl⟩
    · exact .python
    · exact .cxx
    · exact .c
    · exact .csharp
  · intro stands
    cases stands <;> simp [abbreviations]

theorem mem_readings {key reading : List Char} :
    reading ∈ readings key ↔ reading = key ∨
      (∃ short full tail, Abbreviates short full ∧ key = short.toList ++ tail ∧
        reading = full.toList ++ tail) ∨
      key = "yaml".toList ∧ reading = "json".toList := by
  rw [readings, List.mem_append, List.mem_cons, List.mem_filterMap, or_assoc]
  refine or_congr Iff.rfl (or_congr ⟨fun found => ?_, fun stood => ?_⟩ ?_)
  · obtain ⟨⟨short, full⟩, member, found⟩ := found
    obtain ⟨tail, begins, rfl⟩ := Option.map_eq_some_iff.mp found
    have written := List.isPrefixOf?_eq_some_iff_append_eq.mp begins
    exact ⟨short, full, tail, mem_abbreviations.mp member, written.symm, rfl⟩
  · obtain ⟨short, full, tail, stands, written, rfl⟩ := stood
    have begins := List.isPrefixOf?_eq_some_iff_append_eq.mpr written.symm
    exact ⟨(short, full), mem_abbreviations.mpr stands,
      Option.map_eq_some_iff.mpr ⟨tail, begins, rfl⟩⟩
  · by_cases yaml : key = "yaml".toList <;> simp [yaml]

theorem names_iff {key : List Char} {p : Preset} :
    Names key p ↔ p.name.toList ∈ readings key := by
  rw [mem_readings]
  constructor
  · intro names
    cases names with
    | own same => exact Or.inl same.symm
    | short stands written meant => exact Or.inr (Or.inl ⟨_, _, _, stands, written, meant⟩)
    | yaml written => exact Or.inr (Or.inr ⟨written, rfl⟩)
  · intro reading
    rcases reading with same | ⟨short, full, tail, stands, written, meant⟩ | ⟨written, meant⟩
    · exact .own same.symm
    · exact .short stands written meant
    · have json : p = .data .json := toList_name_inj.mp meant
      subst json
      exact .yaml written

theorem readings_name (p : Preset) : readings p.name.toList = [p.name.toList] :=
  (by decide +kernel : ∀ q ∈ all, readings q.name.toList = [q.name.toList]) p p.mem_all

theorem eq_of_names_name {p q : Preset} (names : Names p.name.toList q) : q = p := by
  have reading := names_iff.mp names
  rw [readings_name, List.mem_singleton] at reading
  exact toList_name_inj.mp reading

theorem Abbreviates.eq_of_append {a b c d : String} {s t : List Char} (first : Abbreviates a c)
    (second : Abbreviates b d) (same : a.toList ++ s = b.toList ++ t) : c = d ∧ s = t := by
  cases first <;> cases second <;> simp_all

theorem Abbreviates.append_ne_yaml {a b : String} (stands : Abbreviates a b) (tail : List Char) :
    "yaml".toList ≠ a.toList ++ tail := by
  cases stands <;> simp

theorem names_unique {key : List Char} {p q : Preset} (first : Names key p)
    (second : Names key q) : p = q := by
  cases first with
  | own same =>
    subst same
    exact (eq_of_names_name second).symm
  | short stands written meant =>
    cases second with
    | own same =>
      subst same
      exact eq_of_names_name (.short stands written meant)
    | short others rewritten remeant =>
      obtain ⟨rfl, rfl⟩ := stands.eq_of_append others (written.symm.trans rewritten)
      exact toList_name_inj.mp (meant.trans remeant.symm)
    | yaml whole => exact absurd (whole.symm.trans written) (stands.append_ne_yaml _)
  | yaml whole =>
    cases second with
    | own same =>
      subst same
      exact eq_of_names_name (.yaml whole)
    | short stands written _ => exact absurd (whole.symm.trans written) (stands.append_ne_yaml _)
    | yaml _ => rfl

/-- Whatever the order in which the readings of a text and the presets are tried. -/
theorem findSome?_eq_some_iff_names {key : List Char} {tried : List (List Char)}
    {presets : List Preset} (readable : ∀ r, r ∈ tried ↔ r ∈ readings key)
    (complete : ∀ p, p ∈ presets) {p : Preset} :
    (tried.findSome? fun reading => presets.find? fun p => p.name.toList == reading) = some p ↔
      Names key p := by
  have sound {q : Preset} (found : (tried.findSome? fun reading =>
      presets.find? fun p => p.name.toList == reading) = some q) : Names key q := by
    obtain ⟨reading, member, hit⟩ := List.exists_of_findSome?_eq_some found
    have named : q.name.toList = reading := by simpa using List.find?_some hit
    rw [names_iff, named]
    exact (readable _).mp member
  refine ⟨sound, fun names => ?_⟩
  cases found : tried.findSome? fun reading => presets.find? fun p => p.name.toList == reading with
  | some q => rw [names_unique (sound found) names]
  | none =>
    have missed := List.findSome?_eq_none_iff.mp found _ ((readable _).mpr (names_iff.mp names))
    have unnamed := List.find?_eq_none.mp missed p (complete p)
    simp at unnamed

theorem ofName?_eq_some_iff_names {s : String} {p : Preset} :
    ofName? s = some p ↔ Names (Name.key s) p :=
  findSome?_eq_some_iff_names (fun _ => Iff.rfl) mem_all

theorem ofName?_eq_none_iff {s : String} :
    ofName? s = none ↔ ∀ p, ¬ Names (Name.key s) p := by
  simp only [Option.eq_none_iff_forall_ne_some, ne_eq, ofName?_eq_some_iff_names]

/-- A preset is found exactly by the texts that fold to a name of it. No text names two presets, so
    the order in which names and presets are tried does not matter, and equally folded texts find
    the same. -/
theorem ofName?_iff_names (s : String) :
    (∀ p, ofName? s = some p ↔ Names (Name.key s) p) ∧
    (ofName? s = none ↔ ∀ p, ¬ Names (Name.key s) p) ∧
    (∀ p q, Names (Name.key s) p → Names (Name.key s) q → p = q) ∧
    (∀ tried presets, List.Perm tried (readings (Name.key s)) → List.Perm presets all →
      (tried.findSome? fun reading => presets.find? fun p => p.name.toList == reading) =
        ofName? s) ∧
    ∀ t, Name.key t = Name.key s → ofName? t = ofName? s := by
  refine ⟨fun p => ofName?_eq_some_iff_names, ofName?_eq_none_iff, fun p q => names_unique,
    fun tried presets sameReadings samePresets => ?_, fun t same => ?_⟩
  · ext p
    have complete (q : Preset) : q ∈ presets := samePresets.mem_iff.mpr q.mem_all
    rw [ofName?_eq_some_iff_names]
    exact findSome?_eq_some_iff_names (fun _ => sameReadings.mem_iff) complete
  · ext p
    rw [ofName?_eq_some_iff_names, ofName?_eq_some_iff_names, same]

example : ofName? "CSharp_String" = some (.string .csharp7) := by decide +kernel

end LiteralGrammar.Preset
