import LiteralGrammar.Format
import LiteralGrammar.Text.Layout
import LiteralGrammar.Text.Quoted

namespace LiteralGrammar

def RuleSet.describe (s : RuleSet) : String :=
  let named := s.toList.map fun r => Name.capitals r.name
  let rest := if s.reserved = 0 then [] else ["0x" ++ Text.Hex.short s.reserved.toNat]
  let parts := if (named ++ rest).isEmpty then ["0x0"] else named ++ rest
  "RuleFlags(" ++ " | ".intercalate parts ++ ")"

def Format.describe (f : Format) : String :=
  let separator :=
    if f.hasSeparator then [("digit_separator", Text.quoted f.separator.toChar)] else []
  Text.record "NumberFormat" (("rules", f.rules.describe) :: separator)

def Draft.describe (d : Draft) : String :=
  Text.record "NumberFormatBuilder"
    [("rules", d.rules.describe), ("digit_separator", Text.decimal d.separator.toNat)]

def Markers.describe (m : Markers) : String :=
  let secondary := match m.secondary with
    | none => "None"
    | some b => "Some(" ++ Text.decimal b.toNat ++ ")"
  Text.record "ExponentConfig" [("primary", Text.decimal m.primary.toNat), ("secondary", secondary)]

end LiteralGrammar
