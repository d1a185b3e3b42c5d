import LiteralGrammar.Preset
import LiteralGrammar.Text.Layout
import LiteralGrammar.Text.Quoted

namespace LiteralGrammar

namespace Format

def text (f : Format) : String := Text.Hex.word f.word

def separatorLine (f : Format) : String :=
  "separator: " ++ if f.hasSeparator then Text.quoted f.separator.toChar else "none"

def ruleLines (f : Format) : List String :=
  match f.activeRules with
  | [] => ["rules:     none"]
  | rules => "rules:" :: rules.map fun r => "  " ++ r.name

def report (f : Format) : String :=
  Text.lines (("format:    " ++ f.text) :: f.separatorLine :: f.ruleLines)

end Format

namespace Preset

def table : String :=
  let width := (all.map (·.name.length)).foldl max 0
  Text.lines (all.map fun p => Text.padded width p.name ++ "  " ++ p.format.text)

end Preset

end LiteralGrammar
