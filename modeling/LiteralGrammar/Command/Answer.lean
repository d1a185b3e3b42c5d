import LiteralGrammar.Command.Request
import LiteralGrammar.Report

namespace LiteralGrammar.Command

def list : String := Preset.table

def preset (name : String) : Except Error String :=
  (Argument.presetNamed name).map fun p =>
    Text.lines ["preset:    " ++ p.name] ++ p.format.report

def compile (args : List String) : Except Error String :=
  (Request.ofArguments args).bind fun q => q.compile.map Format.report

def check (text : String) : Except Error String :=
  match Text.Hex.read? text with
  | none => .error (.notAWord text)
  | some w => ((Format.ofWord (some .usual) w).mapError .noFormat).map Format.report

end LiteralGrammar.Command
