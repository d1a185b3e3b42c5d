import LiteralGrammar.Proofs.Command.Refusal
import LiteralGrammar.Proofs.Command.RoundTrip

namespace LiteralGrammar.Command

section

variable {d : Draft} (judged : d.violation? (some .usual) = none)
include judged

-- What is judged in place of a separator that no rule uses, zero by the check and the usual
-- separator by the compile command, is no usual marker.

theorem check_pack_of_usual : check (Format.pack d).text = .ok (Format.pack d).report := by
  apply check_pack_of_free judged
  rw [Format.separator_pack (Draft.reserved_of_accepted judged)]
  exact Format.begins_spelled judged (Or.inr (by decide))

theorem compile_draft_pack_of_usual :
    (Format.pack d).draft.compile .usual = .ok (Format.pack d) :=
  Format.compile_draft_of_free judged (Or.inr (by decide))

end

theorem startFrom_fresh (p : Preset) :
    ({} : Request).startFrom p = { draft := p.format.draft } := by
  have separator := p.format.separator_draft
  cases used : p.format.hasSeparator with
  | true => simp only [Request.startFrom, used, if_true]
  | false =>
    simp only [used, Bool.false_eq_true, if_false] at separator
    simp only [Request.startFrom, used, Bool.false_eq_true, if_false, Draft.withSeparator,
      ← separator]

section

variable {name : String}

theorem preset_of_named {p : Preset} (known : Preset.ofName? name = some p) :
    preset name = .ok ("preset:    " ++ p.name ++ "\n" ++ p.format.report) := by
  rw [preset, Argument.presetNamed_eq_ok_iff.mpr known]
  simp [Except.map, Text.lines, String.join]

theorem compile_of_named {p : Preset} (known : Preset.ofName? name = some p) :
    compile ["--preset=" ++ name] = .ok p.format.report := by
  have asked : Request.ofArguments ([] ++ ["--preset=" ++ name]) =
      .ok { draft := p.format.draft } :=
    Request.ofArguments_concat.mpr ⟨{}, _, rfl, .preset known, startFrom_fresh p⟩
  have compiled : p.format.draft.compile .usual = .ok p.format :=
    compile_draft_pack_of_usual p.draft_accepted
  refine compile_eq_ok_iff.mpr ⟨_, p.format, asked, ?_, rfl⟩
  rw [Request.compile, compiled]
  rfl

theorem preset_of_unknown (unknown : Preset.ofName? name = none) :
    preset name = .error (.unknownPreset name) := by
  have refused : Argument.presetNamed name = .error (.unknownPreset name) :=
    Argument.presetNamed_eq_error_iff.mpr ⟨Preset.ofName?_eq_none_iff.mp unknown, rfl⟩
  rw [preset, refused]
  rfl

theorem compile_of_unknown (unknown : Preset.ofName? name = none) :
    compile ["--preset=" ++ name] = .error (.unknownPreset name) := by
  have refused : Argument.Refused ("--preset=" ++ name) (.unknownPreset name) :=
    .preset (Preset.ofName?_eq_none_iff.mp unknown)
  apply compile_of_firstRefused
  exact ⟨[], _, [], rfl, by simp, refused⟩

end

/-- By whatever name a preset is called, its report is shown under the preset's own name, printed by
    compiling the preset, and printed by checking its word. A name without a preset is refused as it
    stands. -/
theorem preset_reported_alike (name : String) :
    (∀ p, Preset.ofName? name = some p →
      preset name = .ok ("preset:    " ++ p.name ++ "\n" ++ p.format.report) ∧
      compile ["--preset=" ++ name] = .ok p.format.report ∧
      check p.format.text = .ok p.format.report) ∧
    (Preset.ofName? name = none →
      preset name = .error (.unknownPreset name) ∧
      compile ["--preset=" ++ name] = .error (.unknownPreset name)) := by
  refine ⟨fun p known => ⟨preset_of_named known, compile_of_named known, ?_⟩, fun unknown => ?_⟩
  · exact check_pack_of_usual p.draft_accepted
  · exact ⟨preset_of_unknown unknown, compile_of_unknown unknown⟩

theorem preset_reported_alike_cxx :
    (Preset.ofName? "CXX_Literal" = some (.literal .cxx17) ∧
      preset "CXX_Literal" = .ok ("preset:    " ++ "cxx17-literal" ++ "\n" ++
        (Preset.literal .cxx17).format.report) ∧
      compile ["--preset=" ++ "CXX_Literal"] = .ok (Preset.literal .cxx17).format.report) ∧
    Preset.ofName? "\u212aotlin-string" = none ∧
      preset "\u212aotlin-string" = .error (.unknownPreset "\u212aotlin-string") := by
  have known : Preset.ofName? "CXX_Literal" = some (.literal .cxx17) := by decide +kernel
  have unknown : Preset.ofName? "\u212aotlin-string" = none := by decide +kernel
  obtain ⟨shown, compiled, _⟩ := (preset_reported_alike "CXX_Literal").1 _ known
  obtain ⟨refused, _⟩ := (preset_reported_alike "\u212aotlin-string").2 unknown
  exact ⟨⟨known, shown, compiled⟩, unknown, refused⟩

end LiteralGrammar.Command
