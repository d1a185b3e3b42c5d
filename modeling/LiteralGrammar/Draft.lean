import LiteralGrammar.Selector

namespace LiteralGrammar

@[ext]
structure Draft where
  rules : RuleSet := ∅
  separator : Byte := .ofChar '_'
  deriving DecidableEq

inductive Edit
  | switch (group : Selector) (on : Bool)
  | separator (b : Byte)
  deriving DecidableEq

namespace Draft

instance : Inhabited Draft := ⟨{}⟩

def switch (d : Draft) (group : Selector) (on : Bool) : Draft :=
  { d with rules := if on then d.rules ∪ group.rules else d.rules \ group.rules }

def withSeparator (d : Draft) (b : Byte) : Draft := { d with separator := b }

def apply (d : Draft) : Edit → Draft
  | .switch group on => d.switch group on
  | .separator b => d.withSeparator b

def run (d : Draft) (edits : List Edit) : Draft := edits.foldl apply d

theorem mem_switch {d : Draft} {group : Selector} {on : Bool} {r : Rule} :
    r ∈ (d.switch group on).rules ↔ if r ∈ group.members then on = true else r ∈ d.rules := by
  cases on
  · by_cases hr : r ∈ group.members <;> simp [switch, RuleSet.mem_sdiff, Selector.mem_rules, hr]
  · by_cases hr : r ∈ group.members <;> simp [switch, RuleSet.mem_union, Selector.mem_rules, hr]

theorem mem_switch_on {d : Draft} {q r : Rule} :
    q ∈ (d.switch r true).rules ↔ q = r ∨ q ∈ d.rules := by
  rw [mem_switch]
  by_cases same : q = r <;> simp [Selector.members, same]

theorem mem_switch_off {d : Draft} {q r : Rule} :
    q ∈ (d.switch r false).rules ↔ q ≠ r ∧ q ∈ d.rules := by
  rw [mem_switch]
  by_cases same : q = r <;> simp [Selector.members, same]

theorem run_append (d : Draft) (edits later : List Edit) :
    d.run (edits ++ later) = (d.run edits).run later := by
  simp [run]

end Draft

end LiteralGrammar
