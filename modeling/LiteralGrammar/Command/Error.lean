import LiteralGrammar.Violation

namespace LiteralGrammar.Command

inductive Error
  | unknownPreset (name : String)
  | unknownRule (name : String)
  | unknownOption (argument : String)
  | notOneCharacter (text : String)
  | notAWord (text : String)
  | noFormat (v : Violation)
  deriving DecidableEq

def Error.message : Error → String
  | .unknownPreset name => "unknown preset `" ++ name ++ "` (run `numgram list`)"
  | .unknownRule name => "unknown grammar rule `" ++ name ++ "`"
  | .unknownOption argument => "unknown option `" ++ argument ++ "`"
  | .notOneCharacter text => "`" ++ text ++ "` is not a single ASCII character"
  | .notAWord text => "`" ++ text ++ "` is not a hexadecimal format word"
  | .noFormat v => "invalid format: " ++ v.message

end LiteralGrammar.Command
