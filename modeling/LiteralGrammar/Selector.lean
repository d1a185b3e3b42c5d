import LiteralGrammar.RuleSet

namespace LiteralGrammar

inductive Selector
  | rule (r : Rule)
  | digits
  | placement (p : Placement)
  | region (g : Region)
  | separators
  deriving DecidableEq

namespace Selector

instance : Coe Rule Selector := ⟨.rule⟩

def members : Selector → List Rule
  | .rule r => [r]
  | .digits => Region.all.map .requiredDigits
  | .placement p => Region.all.map (.separator · p)
  | .region g => Placement.all.map (.separator g)
  | .separators => Region.all.flatMap (fun g => Placement.all.map (.separator g)) ++
      [.specialSeparator]

def rules (s : Selector) : RuleSet := .ofList s.members

theorem mem_rules {r : Rule} {s : Selector} : r ∈ s.rules ↔ r ∈ s.members := RuleSet.mem_ofList

/-- Everything about separators is exactly the rules for which the separator byte matters. -/
theorem mem_separators {r : Rule} : r ∈ separators.members ↔ r.isSeparator = true :=
  (by decide : ∀ q ∈ Rule.all, q ∈ separators.members ↔ q.isSeparator = true) r (Rule.mem_all r)

def name : Selector → String
  | .rule r => r.name
  | .digits => "required-digits"
  | .placement p => p.name ++ "-digit-separators"
  | .region g => g.name ++ "-digit-separators"
  | .separators => "digit-separators"

def all : List Selector :=
  Rule.all.map .rule ++ [.digits] ++ Placement.all.map .placement ++ Region.all.map .region ++
    [.separators]

def ofName? (s : String) : Option Selector := all.find? fun g => Name.same g.name s

end Selector

end LiteralGrammar
