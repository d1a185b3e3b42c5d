import LiteralGrammar.Command.Argument

namespace LiteralGrammar.Command

structure Request where
  draft : Draft := {}
  markers : Markers := .usual
  deriving DecidableEq

namespace Request

instance : Inhabited Request := ⟨{}⟩

/-- A preset takes the place of all rules given so far, and of the separator if it has one. -/
def startFrom (q : Request) (p : Preset) : Request :=
  let d := p.format.draft
  { q with draft := if p.format.hasSeparator then d else d.withSeparator q.draft.separator }

def obey (q : Request) : Argument → Request
  | .separator b => { q with draft := q.draft.withSeparator b }
  | .preset p => q.startFrom p
  | .exponent b => { q with markers := { q.markers with primary := b } }
  | .secondExponent b => { q with markers := q.markers.withSecondary b }
  | .rule r on => { q with draft := q.draft.switch (.rule r) on }

def ofArguments (args : List String) : Except Error Request :=
  (args.mapM Argument.read).map (·.foldl obey {})

def compile (q : Request) : Except Error Format :=
  (q.draft.compile q.markers).mapError .noFormat

end Request

end LiteralGrammar.Command
