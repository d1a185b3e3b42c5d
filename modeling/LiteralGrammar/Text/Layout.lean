namespace LiteralGrammar.Text

def lines (ls : List String) : String := String.join (ls.map (· ++ "\n"))

def padded (width : Nat) (s : String) : String := String.ofList (s.toList.rightpad width ' ')

def decimal (n : Nat) : String := String.ofList (Nat.toDigits 10 n)

def record (name : String) (fields : List (String × String)) : String :=
  name ++ " \x7b " ++ ", ".intercalate (fields.map fun (key, value) => key ++ ": " ++ value) ++
    " \x7d"

end LiteralGrammar.Text
