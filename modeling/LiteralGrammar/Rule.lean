import LiteralGrammar.Name
import LiteralGrammar.Region

namespace LiteralGrammar

inductive Rule
  | requiredDigits (region : Region)
  | noPositiveMantissaSign
  | requiredMantissaSign
  | noExponentNotation
  | noPositiveExponentSign
  | requiredExponentSign
  | noExponentWithoutFraction
  | noSpecial
  | caseSensitiveSpecial
  | noIntegerLeadingZeros
  | noFloatLeadingZeros
  | separator (region : Region) (placement : Placement)
  | specialSeparator
  deriving DecidableEq

namespace Rule

def all : List Rule :=
  Region.all.map .requiredDigits ++
    [.noPositiveMantissaSign, .requiredMantissaSign, .noExponentNotation,
      .noPositiveExponentSign, .requiredExponentSign, .noExponentWithoutFraction, .noSpecial,
      .caseSensitiveSpecial, .noIntegerLeadingZeros, .noFloatLeadingZeros] ++
    Region.all.flatMap (fun g => Placement.all.map (.separator g)) ++ [.specialSeparator]

theorem mem_all (r : Rule) : r ∈ all := by
  cases r with
  | requiredDigits g => cases g <;> decide
  | separator g p => cases g <;> cases p <;> decide
  | _ => decide

/-- The bit of the rule in a format word. Bits 13 to 31 and those from 45 belong to no rule. -/
def index : Rule → Nat
  | .requiredDigits g => g.index
  | .noPositiveMantissaSign => 3
  | .requiredMantissaSign => 4
  | .noExponentNotation => 5
  | .noPositiveExponentSign => 6
  | .requiredExponentSign => 7
  | .noExponentWithoutFraction => 8
  | .noSpecial => 9
  | .caseSensitiveSpecial => 10
  | .noIntegerLeadingZeros => 11
  | .noFloatLeadingZeros => 12
  | .separator g p => 32 + 4 * g.index + p.index
  | .specialSeparator => 44

/-- No rule reaches the top byte, which holds the separator. -/
theorem index_lt (r : Rule) : r.index < 45 :=
  (by decide : ∀ s ∈ all, s.index < 45) r (mem_all r)

theorem index_injective {r s : Rule} (h : r.index = s.index) : r = s :=
  (by decide : ∀ a ∈ all, ∀ b ∈ all, a.index = b.index → a = b) r (mem_all r) s (mem_all s) h

theorem index_inj {r s : Rule} : r.index = s.index ↔ r = s :=
  ⟨index_injective, congrArg index⟩

def name : Rule → String
  | .requiredDigits g => "required-" ++ g.name ++ "-digits"
  | .noPositiveMantissaSign => "no-positive-mantissa-sign"
  | .requiredMantissaSign => "required-mantissa-sign"
  | .noExponentNotation => "no-exponent-notation"
  | .noPositiveExponentSign => "no-positive-exponent-sign"
  | .requiredExponentSign => "required-exponent-sign"
  | .noExponentWithoutFraction => "no-exponent-without-fraction"
  | .noSpecial => "no-special"
  | .caseSensitiveSpecial => "case-sensitive-special"
  | .noIntegerLeadingZeros => "no-integer-leading-zeros"
  | .noFloatLeadingZeros => "no-float-leading-zeros"
  | .separator g p => g.name ++ "-" ++ p.name ++ "-digit-separator"
  | .specialSeparator => "special-digit-separator"

def ofName? (s : String) : Option Rule := all.find? fun r => Name.same r.name s

def isSeparator : Rule → Bool
  | .separator _ _ | .specialSeparator => true
  | _ => false

def concernsExponent : Rule → Bool
  | .requiredDigits .exponent | .noPositiveExponentSign | .requiredExponentSign
  | .noExponentWithoutFraction | .separator .exponent _ => true
  | _ => false

end Rule

end LiteralGrammar
