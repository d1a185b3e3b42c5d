import LiteralGrammar.Text.Hex

namespace LiteralGrammar.Text

def escaped (c : Char) : String :=
  if c = '\x00' then "\\0"
  else if c = '\t' then "\\t"
  else if c = '\r' then "\\r"
  else if c = '\n' then "\\n"
  else if c = '\'' then "\\'"
  else if c = '\\' then "\\\\"
  else if c.toNat < 32 ∨ c.toNat = 127 then "\\u\x7b" ++ Hex.short c.toNat ++ "\x7d"
  else String.ofList [c]

def quoted (c : Char) : String := "'" ++ escaped c ++ "'"

end LiteralGrammar.Text
