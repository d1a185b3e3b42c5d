import LiteralGrammar.Language

namespace LiteralGrammar

inductive Preset
  | literal (l : Language)
  | string (l : Language)
  | rustStringStrict
  | data (t : DataFormat)
  | permissive
  | standard
  | ignore
  deriving DecidableEq

namespace Preset

def ofLanguage : Language → List Preset
  | .rust => [.literal .rust, .string .rust, .rustStringStrict]
  | l => [.literal l, .string l]

def all : List Preset :=
  Language.all.flatMap ofLanguage ++ DataFormat.all.map .data ++ [.permissive, .standard, .ignore]

theorem mem_all (p : Preset) : p ∈ all := by
  have hl (l : Language) : .literal l ∈ ofLanguage l ∧ .string l ∈ ofLanguage l := by
    cases l <;> simp [ofLanguage]
  cases p with
  | literal l => simpa [all] using ⟨l, Language.mem_all l, (hl l).1⟩
  | string l => simpa [all] using ⟨l, Language.mem_all l, (hl l).2⟩
  | rustStringStrict =>
    simpa [all] using ⟨Language.rust, Language.mem_all _, by simp [ofLanguage]⟩
  | data t => simp [all, DataFormat.mem_all]
  | _ => simp [all]

def name : Preset → String
  | .literal l => l.name ++ "-literal"
  | .string l => l.name ++ "-string"
  | .rustStringStrict => "rust-string-strict"
  | .data t => t.name
  | .permissive => "permissive"
  | .standard => "standard"
  | .ignore => "ignore"

def draft : Preset → Draft
  | .literal l => l.literal
  | .string l => l.string
  | .rustStringStrict => .ofGroups [Rule.requiredDigits .exponent, Rule.caseSensitiveSpecial]
  | .data t => t.draft
  | .permissive => {}
  | .standard => .ofGroups [Rule.requiredDigits .exponent]
  | .ignore => .ofGroups [.separators]

def format (p : Preset) : Format := .pack p.draft

def abbreviations : List (String × String) :=
  [("python-", "python3-"), ("cxx-", "cxx17-"), ("c-", "c18-"), ("csharp-", "csharp7-")]

def readings (key : List Char) : List (List Char) :=
  key :: abbreviations.filterMap
      (fun (short, full) => (short.toList.isPrefixOf? key).map (full.toList ++ ·)) ++
    if key = "yaml".toList then ["json".toList] else []

def ofName? (s : String) : Option Preset :=
  (readings (Name.key s)).findSome? fun reading => all.find? fun p => p.name.toList == reading

end Preset

end LiteralGrammar
