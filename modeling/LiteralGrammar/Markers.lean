import LiteralGrammar.Word

namespace LiteralGrammar

/-- The bytes that begin an exponent. They belong to the reader of numbers and not to a format. -/
structure Markers where
  primary : Byte
  secondary : Option Byte := none
  deriving DecidableEq

namespace Markers

def usual : Markers := ⟨.ofChar 'e', some (.ofChar '^')⟩

instance : Inhabited Markers := ⟨usual⟩

def withSecondary (m : Markers) (b : Option Byte) : Markers := { m with secondary := b }

/-- Bytes are compared exactly: `E` does not begin an exponent where `e` does. -/
def begins (m : Markers) (b : Byte) : Bool := b == m.primary || m.secondary == some b

theorem begins_iff {m : Markers} {b : Byte} :
    m.begins b = true ↔ b = m.primary ∨ m.secondary = some b := by
  simp [begins]

end Markers

end LiteralGrammar
