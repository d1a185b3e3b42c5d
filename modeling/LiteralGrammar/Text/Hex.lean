import LiteralGrammar.Word

namespace LiteralGrammar.Text.Hex

def digit (n : Nat) : Char := Char.ofNat (if n < 10 then 48 + n else 87 + n)

def digits : (count : Nat) → Nat → List Char
  | 0, _ => []
  | count + 1, n => digits count (n / 16) ++ [digit (n % 16)]

theorem length_digits (count n : Nat) : (digits count n).length = count := by
  induction count generalizing n with
  | zero => rfl
  | succ count ih => simp [digits, ih]

def byte (b : Byte) : String := String.ofList (digits 2 b.toNat)

def word (w : Word) : String := "0x" ++ String.ofList (digits 16 w.toNat)

/-- The digits of a number below `2 ^ 64` with no zero in front, but `0` for zero. -/
def short (n : Nat) : String :=
  match (digits 16 n).dropWhile (· == '0') with
  | [] => "0"
  | ds => String.ofList ds

def value? (c : Char) : Option Nat :=
  let n := c.toNat
  if 48 ≤ n ∧ n ≤ 57 then some (n - 48)
  else if 97 ≤ n ∧ n ≤ 102 then some (n - 87)
  else if 65 ≤ n ∧ n ≤ 70 then some (n - 55)
  else none

theorem value?_digit {n : Nat} (h : n < 16) : value? (digit n) = some n :=
  (by decide : ∀ m < 16, value? (digit m) = some m) n h

theorem value?_lt {c : Char} {n : Nat} (h : value? c = some n) : n < 16 := by
  simp only [value?] at h
  split at h
  · cases h; omega
  · split at h
    · cases h; omega
    · split at h
      · cases h; omega
      · cases h

/-- The number that digits write after the number `n` is written. -/
def number? (n : Nat) : List Char → Option Nat
  | [] => some n
  | c :: rest => (value? c).bind fun d => number? (16 * n + d) rest

theorem number?_append (n : Nat) (ds es : List Char) :
    number? n (ds ++ es) = (number? n ds).bind (number? · es) := by
  induction ds generalizing n with
  | nil => rfl
  | cons c ds ih => cases h : value? c <;> simp [number?, h, ih]

theorem number?_digits (count n m : Nat) (h : m < Nat.pow 16 count) :
    number? n (digits count m) = some (Nat.pow 16 count * n + m) := by
  induction count generalizing n m with
  | zero => simp_all [digits, number?]
  | succ count ih =>
    have hq : m / 16 < Nat.pow 16 count := by
      rw [Nat.div_lt_iff_lt_mul (by decide)]
      exact h
    have hm : m % 16 < 16 := Nat.mod_lt _ (by decide)
    rw [digits, number?_append, ih _ _ hq]
    simp only [Option.bind_some, number?, value?_digit hm]
    congr 1
    have whole := Nat.div_add_mod m 16
    change 16 * (Nat.pow 16 count * n + m / 16) + m % 16 = Nat.pow 16 count * 16 * n + m
    rw [Nat.mul_comm (Nat.pow 16 count) 16, Nat.mul_assoc]
    omega

def unmarked : List Char → List Char
  | '0' :: 'x' :: rest => rest
  | '0' :: 'X' :: rest => rest
  | cs => cs

def read? (s : String) : Option Word :=
  match (unmarked s.toList).filter (· != '_') with
  | [] => none
  | ds => (number? 0 ds).bind fun n => if n < UInt64.size then some (BitVec.ofNat 64 n) else none

end LiteralGrammar.Text.Hex
