import LiteralGrammar.Command.Answer
import LiteralGrammar.Proofs.Numeral

namespace LiteralGrammar.Command

open Text.Hex (Writes Respelled)

def answer (w : Word) : Except Error String :=
  match Format.ofWord (some .usual) w with
  | .ok f => .ok f.report
  | .error v => .error (.noFormat v)

theorem check_of_read {s : String} {w : Word} (read : Text.Hex.read? s = some w) :
    check s = answer w := by
  simp only [check, read, answer]
  cases Format.ofWord (some .usual) w <;> rfl

theorem check_of_unread {s : String} (unread : Text.Hex.read? s = none) :
    check s = .error (.notAWord s) := by
  rw [check, unread]

theorem read?_eq_none_iff {s : String} :
    Text.Hex.read? s = none ↔ ¬ ∃ n, Writes s n ∧ n < 2 ^ 64 := by
  rw [Option.eq_none_iff_forall_ne_some]
  simp only [ne_eq, Text.Hex.read?_eq_some_iff]
  constructor
  · intro unread written
    obtain ⟨n, writes, small⟩ := written
    exact unread _ ⟨n, writes, small, rfl⟩
  · intro unwritten w read
    obtain ⟨n, writes, small, _⟩ := read
    exact unwritten ⟨n, writes, small⟩

/-- A text is answered as the word that it writes, and refused as it stands if it writes none. All
    spellings of a displayed word have the answer of the word. -/
theorem check_written (s : String) :
    (∀ n, Writes s n → n < 2 ^ 64 → check s = answer (BitVec.ofNat 64 n)) ∧
    ((¬ ∃ n, Writes s n ∧ n < 2 ^ 64) → check s = .error (.notAWord s)) ∧
    ∀ w, Respelled w s → check s = answer w := by
  refine ⟨fun n writes small => ?_, fun unwritten => ?_, fun w respelled => ?_⟩
  · exact check_of_read (Text.Hex.read?_eq_some_iff.mpr ⟨n, writes, small, rfl⟩)
  · exact check_of_unread (read?_eq_none_iff.mpr unwritten)
  · exact check_of_read (Text.Hex.read?_of_respelled respelled)

theorem check_written_capitals :
    (Writes "0X5F00_0001_0000_0000" 0x5f00000100000000 ∧
      check "0X5F00_0001_0000_0000" = answer 0x5f00000100000000) ∧
    ((¬ ∃ n, Writes "0x+4" n ∧ n < 2 ^ 64) ∧ check "0x+4" = .error (.notAWord "0x+4")) ∧
    Respelled 4 ("" ++ "_00000000000000000_4") ∧
      check ("" ++ "_00000000000000000_4") = answer 4 := by
  have writes : Writes "0X5F00_0001_0000_0000" 0x5f00000100000000 :=
    Text.Hex.writes_iff.mpr ⟨by decide, by decide⟩
  have unwritten : ¬ ∃ n, Writes "0x+4" n ∧ n < 2 ^ 64 := read?_eq_none_iff.mp (by decide)
  have respelled : Respelled 4 ("" ++ "_00000000000000000_4") := .of 2 (by decide) rfl (by decide)
  exact ⟨⟨writes, (check_written _).1 _ writes (by decide)⟩,
    ⟨unwritten, (check_written _).2.1 unwritten⟩, respelled,
    (check_written _).2.2 _ respelled⟩

example : answer 0x2000 = .error (.noFormat (.reservedBits 0x2000)) := rfl

end LiteralGrammar.Command
