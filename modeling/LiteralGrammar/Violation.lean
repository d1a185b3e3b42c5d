import LiteralGrammar.Region
import LiteralGrammar.Text.Hex

namespace LiteralGrammar

inductive Violation
  | unusableSeparator (b : Byte)
  | exponentRulesWithoutNotation
  | mantissaSignConflict
  | exponentSignConflict
  | specialRulesWithoutSpecial
  | consecutiveAlone (g : Region)
  | reservedBits (bits : Word)
  | unusedSeparator (b : Byte)
  deriving DecidableEq

def Violation.message : Violation → String
  | .unusableSeparator b => "invalid digit separator byte 0x" ++ Text.Hex.byte b
  | .exponentRulesWithoutNotation => "exponent rules are set but exponent notation is disabled"
  | .mantissaSignConflict => "mantissa sign cannot be both forbidden and required"
  | .exponentSignConflict => "exponent sign cannot be both forbidden and required"
  | .specialRulesWithoutSpecial => "special value rules are set but special values are disabled"
  | .consecutiveAlone g =>
    g.name ++ " digit separators allow consecutive separators but no placement"
  | .reservedBits bits => "reserved bits set: " ++ Text.Hex.word bits
  | .unusedSeparator b =>
    "digit separator byte 0x" ++ Text.Hex.byte b ++ " set without any separator rule"

end LiteralGrammar
