import Mathlib.Data.List.Basic
import LiteralGrammar.Command.Argument
import LiteralGrammar.Proofs.Basic
import LiteralGrammar.Proofs.Naming

namespace LiteralGrammar.Command.Argument

theorem after?_eq_some_iff {head s rest : String} :
    after? head s = some rest ↔ s = head ++ rest := by
  rw [after?, Option.map_eq_some_iff]
  constructor
  · intro found
    obtain ⟨tail, found, rfl⟩ := found
    have whole := List.isPrefixOf?_eq_some_iff_append_eq.mp found
    apply String.toList_injective
    rw [String.toList_append, String.toList_ofList, whole]
  · intro whole
    subst whole
    refine ⟨rest.toList, ?_, String.ofList_toList⟩
    rw [List.isPrefixOf?_eq_some_iff_append_eq, String.toList_append]

theorem after?_append (head rest : String) : after? head (head ++ rest) = some rest :=
  after?_eq_some_iff.mpr rfl

theorem after?_eq_none_iff {head s : String} :
    after? head s = none ↔ ∀ rest, s ≠ head ++ rest := by
  simp only [Option.eq_none_iff_forall_ne_some, ne_eq, after?_eq_some_iff]

theorem read_separator (text : String) :
    read ("--separator=" ++ text) = (byte text).map .separator := by
  simp [read, options, after?_append]

theorem read_preset (name : String) :
    read ("--preset=" ++ name) = (presetNamed name).map .preset := by
  simp [read, options, after?, List.isPrefixOf?]

theorem read_exponent (text : String) :
    read ("--exponent=" ++ text) = (byte text).map .exponent := by
  simp [read, options, after?, List.isPrefixOf?]

theorem read_secondExponent (text : String) :
    read ("--exponent-backup=" ++ text) = (optionalByte text).map .secondExponent := by
  simp [read, options, after?, List.isPrefixOf?]

theorem read_negated (name : String) :
    read ("!" ++ name) = (ruleNamed name).map (.rule · false) := by
  simp [read, options, after?, List.isPrefixOf?, readRule]

theorem findSome?_options {s : String} (other : ∀ option ∈ options, after? option.1 s = none) :
    (options.findSome? fun (head, reader) => (after? head s).map reader) = none := by
  apply List.findSome?_eq_none_iff.mpr
  intro (head, reader) member
  have absent : after? head s = none := other _ member
  simp only [absent, Option.map_none]

theorem read_other {s rest : String} (hyphens : after? "--" s = some rest)
    (other : ∀ option ∈ options, after? option.1 s = none) :
    read s = .error (.unknownOption s) := by
  simp only [read, findSome?_options other, hyphens, Option.isSome_some, if_true]

theorem read_plain {s : String} (hyphens : after? "--" s = none) (mark : after? "!" s = none) :
    read s = (ruleNamed s).map (.rule · true) := by
  have other : ∀ option ∈ options, after? option.1 s = none := by
    intro option member
    rw [after?_eq_none_iff] at hyphens ⊢
    intro rest whole
    have begins (tail : String) (head : option.1 = "--" ++ tail) : False := by
      rw [head, String.append_assoc] at whole
      exact hyphens _ whole
    simp only [options, List.mem_cons, List.not_mem_nil, or_false] at member
    rcases member with rfl | rfl | rfl | rfl
    · exact begins "separator=" rfl
    · exact begins "preset=" rfl
    · exact begins "exponent=" rfl
    · exact begins "exponent-backup=" rfl
  simp only [read, findSome?_options other, hyphens, Option.isSome_none, Bool.false_eq_true,
    if_false, readRule, mark]

inductive Form : String → Prop
  | separator (text : String) : Form ("--separator=" ++ text)
  | preset (name : String) : Form ("--preset=" ++ name)
  | exponent (text : String) : Form ("--exponent=" ++ text)
  | secondExponent (text : String) : Form ("--exponent-backup=" ++ text)
  | other {s rest : String} (hyphens : after? "--" s = some rest)
      (other : ∀ option ∈ options, after? option.1 s = none) : Form s
  | negated (name : String) : Form ("!" ++ name)
  | plain {s : String} (hyphens : after? "--" s = none) (mark : after? "!" s = none) : Form s

theorem form (s : String) : Form s := by
  by_cases known : ∃ option ∈ options, ∃ text, s = option.1 ++ text
  · obtain ⟨option, member, text, rfl⟩ := known
    simp only [options, List.mem_cons, List.not_mem_nil, or_false] at member
    rcases member with rfl | rfl | rfl | rfl
    · exact .separator text
    · exact .preset text
    · exact .exponent text
    · exact .secondExponent text
  · have other : ∀ option ∈ options, after? option.1 s = none := by
      intro option member
      rw [after?_eq_none_iff]
      exact fun text whole => known ⟨option, member, text, whole⟩
    cases hyphens : after? "--" s with
    | some rest => exact .other hyphens other
    | none =>
      cases mark : after? "!" s with
      | some name =>
        rw [after?_eq_some_iff.mp mark]
        exact .negated name
      | none => exact .plain hyphens mark

inductive Denotes : String → Argument → Prop
  | separator {text : String} {b : Byte} (one : Byte.ofText? text = some b) :
      Denotes ("--separator=" ++ text) (.separator b)
  | preset {name : String} {p : Preset} (known : Preset.ofName? name = some p) :
      Denotes ("--preset=" ++ name) (.preset p)
  | exponent {text : String} {b : Byte} (one : Byte.ofText? text = some b) :
      Denotes ("--exponent=" ++ text) (.exponent b)
  | noSecondExponent : Denotes ("--exponent-backup=" ++ "none") (.secondExponent none)
  | secondExponent {text : String} {b : Byte} (one : Byte.ofText? text = some b) :
      Denotes ("--exponent-backup=" ++ text) (.secondExponent (some b))
  | on {name : String} {r : Rule} (spelled : Name.key name = Name.key r.name) :
      Denotes name (.rule r true)
  | off {name : String} {r : Rule} (spelled : Name.key name = Name.key r.name) :
      Denotes ("!" ++ name) (.rule r false)

theorem byte_eq_ok_iff {text : String} {b : Byte} :
    byte text = .ok b ↔ Byte.ofText? text = some b := by
  unfold byte
  cases Byte.ofText? text <;> simp

theorem presetNamed_eq_ok_iff {name : String} {p : Preset} :
    presetNamed name = .ok p ↔ Preset.ofName? name = some p := by
  unfold presetNamed
  cases Preset.ofName? name <;> simp

theorem ruleNamed_eq_ok_iff {name : String} {r : Rule} :
    ruleNamed name = .ok r ↔ Name.key name = Name.key r.name := by
  rw [← Rule.ofName?_eq_some_iff]
  unfold ruleNamed
  cases Rule.ofName? name <;> simp

theorem optionalByte_eq_ok_iff {text : String} {b : Option Byte} :
    optionalByte text = .ok b ↔
      text = "none" ∧ b = none ∨ ∃ c, Byte.ofText? text = some c ∧ b = some c := by
  have several : Byte.ofText? "none" = none := by simp [Byte.ofText?]
  unfold optionalByte
  by_cases none : text = "none"
  · subst none
    simp [several, eq_comm]
  · simp only [none, if_false, false_and, false_or, Except.map_eq_ok_iff, byte_eq_ok_iff]
    simp only [eq_comm]

theorem denotes_of_read {s : String} {a : Argument} (done : read s = .ok a) : Denotes s a := by
  cases form s with
  | separator text =>
    simp only [read_separator, Except.map_eq_ok_iff, byte_eq_ok_iff] at done
    obtain ⟨b, one, rfl⟩ := done
    exact .separator one
  | preset name =>
    simp only [read_preset, Except.map_eq_ok_iff, presetNamed_eq_ok_iff] at done
    obtain ⟨p, known, rfl⟩ := done
    exact .preset known
  | exponent text =>
    simp only [read_exponent, Except.map_eq_ok_iff, byte_eq_ok_iff] at done
    obtain ⟨b, one, rfl⟩ := done
    exact .exponent one
  | secondExponent text =>
    simp only [read_secondExponent, Except.map_eq_ok_iff, optionalByte_eq_ok_iff] at done
    obtain ⟨b, chosen, rfl⟩ := done
    rcases chosen with ⟨rfl, rfl⟩ | ⟨c, one, rfl⟩
    · exact .noSecondExponent
    · exact .secondExponent one
  | other hyphens other =>
    rw [read_other hyphens other] at done
    cases done
  | negated name =>
    simp only [read_negated, Except.map_eq_ok_iff, ruleNamed_eq_ok_iff] at done
    obtain ⟨r, spelled, rfl⟩ := done
    exact .off spelled
  | plain hyphens mark =>
    simp only [read_plain hyphens mark, Except.map_eq_ok_iff, ruleNamed_eq_ok_iff] at done
    obtain ⟨r, spelled, rfl⟩ := done
    exact .on spelled

theorem after?_of_spelled {name : String} {r : Rule} (spelled : Name.key name = Name.key r.name)
    {head : String} (mark : head.toList.head? = some '-' ∨ head.toList.head? = some '!') :
    after? head name = none := by
  cases found : after? head name with
  | none => rfl
  | some rest =>
    rw [after?_eq_some_iff.mp found, Name.key, String.toList_append, List.map_append] at spelled
    -- Folding keeps both marks, so the name of the rule would begin with one.
    have letter {c : Char} (first : head.toList.head? = some c) :
        Name.fold c ≠ '-' ∧ Name.fold c ≠ '!' := by
      apply r.head_key
      rw [← spelled, List.head?_append, List.head?_map, first]
      rfl
    rcases mark with first | first
    · exact absurd (by decide : Name.fold '-' = '-') (letter first).1
    · exact absurd (by decide : Name.fold '!' = '!') (letter first).2

theorem read_of_denotes {s : String} {a : Argument} (denoted : Denotes s a) : read s = .ok a := by
  cases denoted with
  | separator one => rw [read_separator, byte_eq_ok_iff.mpr one, Except.map]
  | preset known => rw [read_preset, presetNamed_eq_ok_iff.mpr known, Except.map]
  | exponent one => rw [read_exponent, byte_eq_ok_iff.mpr one, Except.map]
  | noSecondExponent =>
    rw [read_secondExponent, optionalByte_eq_ok_iff.mpr (Or.inl ⟨rfl, rfl⟩), Except.map]
  | secondExponent one =>
    rw [read_secondExponent, optionalByte_eq_ok_iff.mpr (Or.inr ⟨_, one, rfl⟩), Except.map]
  | on spelled =>
    have hyphens : after? "--" s = none := after?_of_spelled spelled (by simp)
    have mark : after? "!" s = none := after?_of_spelled spelled (by simp)
    rw [read_plain hyphens mark, ruleNamed_eq_ok_iff.mpr spelled, Except.map]
  | off spelled => rw [read_negated, ruleNamed_eq_ok_iff.mpr spelled, Except.map]

theorem read_eq_ok_iff {s : String} {a : Argument} : read s = .ok a ↔ Denotes s a :=
  ⟨denotes_of_read, read_of_denotes⟩

end LiteralGrammar.Command.Argument
