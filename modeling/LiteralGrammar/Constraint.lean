import LiteralGrammar.Draft
import LiteralGrammar.Markers
import LiteralGrammar.Violation

namespace LiteralGrammar

def Byte.isPlain (b : Byte) : Bool :=
  b.isAscii && !(decide (48 ≤ b.toNat) && decide (b.toNat ≤ 57)) &&
    b != .ofChar '+' && b != .ofChar '-' && b != .ofChar '.'

def Markers.admits (m : Markers) (b : Byte) : Bool := b.isPlain && !m.begins b

inductive Constraint
  | knownRules
  | freeSeparator
  | exponentNotation
  | mantissaSign
  | exponentSign
  | specialValues
  /-- Consecutive separators in a region need some separator there that they continue. -/
  | placedSeparators (region : Region)
  deriving DecidableEq

namespace Constraint

def order : List Constraint :=
  [.knownRules, .freeSeparator, .exponentNotation, .mantissaSign, .exponentSign, .specialValues] ++
    Region.all.map .placedSeparators

theorem mem_order (c : Constraint) : c ∈ order := by
  cases c with
  | placedSeparators g => cases g <;> decide
  | _ => decide

/-- A stored word does not tell under which markers it was compiled, so these may be missing. -/
def violation? (d : Draft) (markers : Option Markers) : Constraint → Option Violation
  | .knownRules =>
    if d.rules.reserved = 0 then none else some (.reservedBits d.rules.reserved)
  | .freeSeparator =>
    let usable := match markers with
      | some m => m.admits d.separator
      | none => d.separator.isPlain
    if usable then none else some (.unusableSeparator d.separator)
  | .exponentNotation =>
    if Rule.noExponentNotation ∈ d.rules ∧ d.rules.meets exponentRules then
      some .exponentRulesWithoutNotation
    else none
  | .mantissaSign =>
    if d.rules.contains (.ofList [.noPositiveMantissaSign, .requiredMantissaSign]) then
      some .mantissaSignConflict
    else none
  | .exponentSign =>
    if d.rules.contains (.ofList [.noPositiveExponentSign, .requiredExponentSign]) then
      some .exponentSignConflict
    else none
  | .specialValues =>
    if Rule.noSpecial ∈ d.rules ∧
        d.rules.meets (.ofList [.caseSensitiveSpecial, .specialSeparator]) then
      some .specialRulesWithoutSpecial
    else none
  | .placedSeparators g =>
    if d.rules ∩ (Selector.region g).rules = .single (.separator g .consecutive) then
      some (.consecutiveAlone g)
    else none

end Constraint

def Draft.violation? (d : Draft) (markers : Option Markers) : Option Violation :=
  Constraint.order.findSome? (Constraint.violation? d markers)

theorem Draft.violation?_eq_none_iff {d : Draft} {markers : Option Markers} :
    d.violation? markers = none ↔ ∀ c, Constraint.violation? d markers c = none := by
  simp [Draft.violation?, List.findSome?_eq_none_iff, Constraint.mem_order]

end LiteralGrammar
