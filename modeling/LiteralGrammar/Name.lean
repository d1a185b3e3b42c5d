namespace LiteralGrammar.Name

def fold (c : Char) : Char :=
  if c = '_' then '-' else c.toLower

def agree : List Char → List Char → Bool
  | [], [] => true
  | a :: as, b :: bs => fold a == fold b && agree as bs
  | _, _ => false

theorem agree_iff (a b : List Char) : agree a b = true ↔ a.map fold = b.map fold := by
  induction a generalizing b with
  | nil => cases b <;> simp [agree]
  | cons c a ih => cases b <;> simp [agree, ih]

def same (a b : String) : Bool := agree a.toList b.toList

def key (s : String) : List Char := s.toList.map fold

theorem same_iff (a b : String) : same a b = true ↔ key a = key b := agree_iff _ _

def snake (name : String) : String :=
  String.ofList (name.toList.map fun c => if c = '-' then '_' else c)

def capitals (name : String) : String :=
  String.ofList ((snake name).toList.map Char.toUpper)

/-- Drops each hyphen and raises the letter after it. `start` says that a word begins here. -/
def joinWords : (start : Bool) → List Char → List Char
  | _, [] => []
  | start, c :: rest =>
    if c = '-' then joinWords true rest
    else (if start then c.toUpper else c) :: joinWords false rest

def camel (name : String) : String := String.ofList (joinWords true name.toList)

end LiteralGrammar.Name
