import LiteralGrammar.Format

namespace LiteralGrammar

/-- Plain data. Texts, truth values and numbers that are no integers are not told apart. -/
inductive Datum
  | null
  | integer (n : Int)
  | list (items : List Datum)
  | record (fields : List (String × Datum))
  | other
  deriving Inhabited

inductive LoadError
  | notAWord
  | refused (v : Violation)
  deriving DecidableEq

/-- The words for a refused integer. What is no word is for the reader of the data to explain. -/
def LoadError.message? : LoadError → Option String
  | .notAWord => none
  | .refused v => some v.message

namespace Datum

def word? : Datum → Option Word
  | .integer n => if 0 ≤ n ∧ n < UInt64.size then some (BitVec.ofInt 64 n) else none
  | _ => none

def byte? : Datum → Option Byte
  | .integer n => if 0 ≤ n ∧ n < 256 then some (BitVec.ofInt 8 n) else none
  | _ => none

def optionalByte? : Datum → Option (Option Byte)
  | .null => some none
  | d => d.byte?.map some

theorem word?_integer (w : Word) : word? (.integer w.toNat) = some w := by
  have hw := w.isLt
  have hn : (0 : Int) ≤ w.toNat ∧ (w.toNat : Int) < UInt64.size := by
    simp only [UInt64.size]
    omega
  simp only [word?, hn, and_self, if_true, Option.some.injEq]
  exact BitVec.eq_of_toNat_eq (by simp)

end Datum

namespace Format

def toDatum (f : Format) : Datum := .integer f.word.toNat

def ofDatum (d : Datum) : Except LoadError Format :=
  match d.word? with
  | none => .error .notAWord
  | some w => (ofWord none w).mapError .refused

end Format

namespace Markers

def toDatum (m : Markers) : Datum :=
  .record [("primary", .integer m.primary.toNat),
    ("secondary", match m.secondary with
      | none => .null
      | some b => .integer b.toNat)]

/-- A record without `secondary` has none; other fields are passed over. -/
def ofDatum? : Datum → Option Markers
  | .record fields => do
    let primary ← (← fields.lookup "primary").byte?
    let secondary ← ((fields.lookup "secondary").getD .null).optionalByte?
    return ⟨primary, secondary⟩
  | .list [first, second] => return ⟨← first.byte?, ← second.optionalByte?⟩
  | _ => none

end Markers

end LiteralGrammar
