import LiteralGrammar.Constraint

namespace LiteralGrammar

@[ext]
structure Format where
  word : Word
  deriving DecidableEq

def Draft.ofWord (w : Word) : Draft := ⟨⟨w.lowBits⟩, w.topByte⟩

namespace Format

def pack (d : Draft) : Format :=
  ⟨d.rules.bits ||| if d.rules.hasSeparator then .ofByte d.separator else 0⟩

/-- The format of a word, under markers if they are known. A separator that no rule uses is the
    last thing to be refused. -/
def ofWord (markers : Option Markers) (w : Word) : Except Violation Format :=
  let d := Draft.ofWord w
  match d.violation? markers with
  | some v => .error v
  | none =>
    if d.separator ≠ 0 ∧ ¬ d.rules.hasSeparator then .error (.unusedSeparator d.separator)
    else .ok ⟨w⟩

theorem word_of_ofWord {markers : Option Markers} {w : Word} {f : Format}
    (h : ofWord markers w = .ok f) : f.word = w := by
  simp only [ofWord] at h
  split at h
  · cases h
  · split at h
    · cases h
    · cases h; rfl

def rules (f : Format) : RuleSet := ⟨f.word⟩ ∩ .known

def separator (f : Format) : Byte := f.word.topByte

theorem mem_rules {f : Format} {r : Rule} : r ∈ f.rules ↔ f.word.getLsbD r.index = true := by
  rw [rules, RuleSet.mem_inter]
  exact and_iff_left (RuleSet.mem_known r)

def isActive (f : Format) (r : Rule) : Bool := r ∈ f.rules

def activeRules (f : Format) : List Rule := Rule.all.filter f.isActive

def separatorAllowed (f : Format) (g : Region) (p : Placement) : Bool :=
  f.isActive (.separator g p)

def hasSeparator (f : Format) : Bool := f.rules.hasSeparator

def requiresDigits (f : Format) : Bool := f.rules.meets Selector.digits.rules

def allowsPlacement (f : Format) (p : Placement) : Bool :=
  f.rules.meets (Selector.placement p).rules

def hasExponentRules (f : Format) : Bool := f.rules.meets exponentRules

/-- The draft to change a format from. Without separator rules the format has no separator, so the
    draft gets the usual one. -/
def draft (f : Format) : Draft :=
  if f.hasSeparator then ⟨f.rules, f.separator⟩ else { rules := f.rules }

def permissive : Format := pack {}

instance : Inhabited Format := ⟨permissive⟩

end Format

def Draft.compile (d : Draft) (markers : Markers) : Except Violation Format :=
  match d.violation? (some markers) with
  | some v => .error v
  | none => .ok (.pack d)

def Format.ignoring? (b : Byte) : Option Format :=
  ((({} : Draft).withSeparator b).switch .separators true).compile .usual |>.toOption

end LiteralGrammar
