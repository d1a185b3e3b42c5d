import LiteralGrammar.Preset
import LiteralGrammar.Stored

namespace LiteralGrammar

mutual

/-- The drafts that a program can hold. A set of rules that was merely written down is not among
    them, and neither is such a word among the formats. -/
inductive Draft.Attainable : Draft → Prop
  | fresh : Draft.Attainable {}
  | ofFormat {f : Format} (held : Format.Attainable f) : Draft.Attainable f.draft
  | edited {d : Draft} (held : Draft.Attainable d) (e : Edit) : Draft.Attainable (d.apply e)

inductive Format.Attainable : Format → Prop
  | preset (p : Preset) : Format.Attainable p.format
  | ofWord {markers : Option Markers} {w : Word} {f : Format}
      (accepted : Format.ofWord markers w = .ok f) : Format.Attainable f
  | ofDatum {stored : Datum} {f : Format} (accepted : Format.ofDatum stored = .ok f) :
      Format.Attainable f
  | ignoring {b : Byte} {f : Format} (accepted : Format.ignoring? b = some f) :
      Format.Attainable f
  | compiled {d : Draft} {markers : Markers} {f : Format} (held : Draft.Attainable d)
      (accepted : d.compile markers = .ok f) : Format.Attainable f

end

theorem Draft.Attainable.run {d : Draft} (held : Attainable d) (edits : List Edit) :
    Attainable (d.run edits) := by
  induction edits generalizing d with
  | nil => exact held
  | cons e edits ih => exact ih (held.edited e)

end LiteralGrammar
