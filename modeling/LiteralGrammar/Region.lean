namespace LiteralGrammar

inductive Region
  | integer
  | fraction
  | exponent
  deriving DecidableEq

namespace Region

def all : List Region := [.integer, .fraction, .exponent]

theorem mem_all (g : Region) : g ∈ all := by cases g <;> decide

def index : Region → Nat
  | .integer => 0
  | .fraction => 1
  | .exponent => 2

def name : Region → String
  | .integer => "integer"
  | .fraction => "fraction"
  | .exponent => "exponent"

end Region

/-- Where a separator stands in a region: between two digits, before the first, after the last, or
    next to another separator. The last only widens the other three. -/
inductive Placement
  | internal
  | leading
  | trailing
  | consecutive
  deriving DecidableEq

namespace Placement

def all : List Placement := [.internal, .leading, .trailing, .consecutive]

theorem mem_all (p : Placement) : p ∈ all := by cases p <;> decide

def index : Placement → Nat
  | .internal => 0
  | .leading => 1
  | .trailing => 2
  | .consecutive => 3

def name : Placement → String
  | .internal => "internal"
  | .leading => "leading"
  | .trailing => "trailing"
  | .consecutive => "consecutive"

end Placement

end LiteralGrammar
