import LiteralGrammar.Format

namespace LiteralGrammar.Format

def requiresIntegerDigits (f : Format) : Bool := f.word.getLsbD 0
def requiresFractionDigits (f : Format) : Bool := f.word.getLsbD 1
def requiresExponentDigits (f : Format) : Bool := f.word.getLsbD 2
def forbidsPositiveMantissaSign (f : Format) : Bool := f.word.getLsbD 3
def requiresMantissaSign (f : Format) : Bool := f.word.getLsbD 4
def forbidsExponent (f : Format) : Bool := f.word.getLsbD 5
def forbidsPositiveExponentSign (f : Format) : Bool := f.word.getLsbD 6
def requiresExponentSign (f : Format) : Bool := f.word.getLsbD 7
def requiresFractionBeforeExponent (f : Format) : Bool := f.word.getLsbD 8
def forbidsSpecial (f : Format) : Bool := f.word.getLsbD 9
def matchesSpecialCase (f : Format) : Bool := f.word.getLsbD 10
def forbidsIntegerLeadingZeros (f : Format) : Bool := f.word.getLsbD 11
def forbidsFloatLeadingZeros (f : Format) : Bool := f.word.getLsbD 12

def integerInternalSeparator (f : Format) : Bool := f.word.getLsbD 32
def integerLeadingSeparator (f : Format) : Bool := f.word.getLsbD 33
def integerTrailingSeparator (f : Format) : Bool := f.word.getLsbD 34
def integerConsecutiveSeparator (f : Format) : Bool := f.word.getLsbD 35
def fractionInternalSeparator (f : Format) : Bool := f.word.getLsbD 36
def fractionLeadingSeparator (f : Format) : Bool := f.word.getLsbD 37
def fractionTrailingSeparator (f : Format) : Bool := f.word.getLsbD 38
def fractionConsecutiveSeparator (f : Format) : Bool := f.word.getLsbD 39
def exponentInternalSeparator (f : Format) : Bool := f.word.getLsbD 40
def exponentLeadingSeparator (f : Format) : Bool := f.word.getLsbD 41
def exponentTrailingSeparator (f : Format) : Bool := f.word.getLsbD 42
def exponentConsecutiveSeparator (f : Format) : Bool := f.word.getLsbD 43
def specialSeparator (f : Format) : Bool := f.word.getLsbD 44

def test : Rule → Format → Bool
  | .requiredDigits .integer => requiresIntegerDigits
  | .requiredDigits .fraction => requiresFractionDigits
  | .requiredDigits .exponent => requiresExponentDigits
  | .noPositiveMantissaSign => forbidsPositiveMantissaSign
  | .requiredMantissaSign => requiresMantissaSign
  | .noExponentNotation => forbidsExponent
  | .noPositiveExponentSign => forbidsPositiveExponentSign
  | .requiredExponentSign => requiresExponentSign
  | .noExponentWithoutFraction => requiresFractionBeforeExponent
  | .noSpecial => forbidsSpecial
  | .caseSensitiveSpecial => matchesSpecialCase
  | .noIntegerLeadingZeros => forbidsIntegerLeadingZeros
  | .noFloatLeadingZeros => forbidsFloatLeadingZeros
  | .separator .integer .internal => integerInternalSeparator
  | .separator .integer .leading => integerLeadingSeparator
  | .separator .integer .trailing => integerTrailingSeparator
  | .separator .integer .consecutive => integerConsecutiveSeparator
  | .separator .fraction .internal => fractionInternalSeparator
  | .separator .fraction .leading => fractionLeadingSeparator
  | .separator .fraction .trailing => fractionTrailingSeparator
  | .separator .fraction .consecutive => fractionConsecutiveSeparator
  | .separator .exponent .internal => exponentInternalSeparator
  | .separator .exponent .leading => exponentLeadingSeparator
  | .separator .exponent .trailing => exponentTrailingSeparator
  | .separator .exponent .consecutive => exponentConsecutiveSeparator
  | .specialSeparator => specialSeparator

end LiteralGrammar.Format
