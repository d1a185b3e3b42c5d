namespace LiteralGrammar

abbrev Word := BitVec 64
abbrev Byte := BitVec 8

namespace Byte

/-- The byte of a character below 256. -/
def ofChar (c : Char) : Byte := BitVec.ofNat 8 c.toNat

def toChar (b : Byte) : Char := Char.ofNat b.toNat

theorem toNat_toChar (b : Byte) : b.toChar.toNat = b.toNat := by
  have hb := b.isLt
  have hv : b.toNat.isValidChar := Or.inl (by omega)
  rw [toChar, Char.ofNat, dif_pos hv]
  rfl

theorem ofChar_toChar (b : Byte) : ofChar b.toChar = b := by
  have hb := b.isLt
  apply BitVec.eq_of_toNat_eq
  rw [ofChar, BitVec.toNat_ofNat, toNat_toChar]
  omega

def isAscii (b : Byte) : Bool := b.toNat < 128

def ofText? (s : String) : Option Byte :=
  match s.toList with
  | [c] => if c.toNat < 128 then some (ofChar c) else none
  | _ => none

end Byte

namespace Word

def ofByte (b : Byte) : Word := b.setWidth 64 <<< 56

def topByte (w : Word) : Byte := (w >>> 56).setWidth 8

def lowBits (w : Word) : Word := w &&& ~~~ofByte (BitVec.allOnes 8)

theorem getLsbD_ofByte (b : Byte) (i : Nat) :
    (ofByte b).getLsbD i = (decide (56 ≤ i) && b.getLsbD (i - 56)) := by
  by_cases hi : i < 64
  · simp [ofByte, hi]
    by_cases h : 56 ≤ i
    · simp [h, Nat.not_lt.mpr h]
    · simp [h, show i < 56 by omega]
  · simp [BitVec.getLsbD_of_ge _ _ (show 64 ≤ i by omega),
      BitVec.getLsbD_of_ge b _ (show 8 ≤ i - 56 by omega)]

theorem getLsbD_topByte (w : Word) (i : Nat) : (topByte w).getLsbD i = w.getLsbD (56 + i) := by
  by_cases hi : i < 8
  · simp [topByte, hi]
  · simp [BitVec.getLsbD_of_ge _ _ (show 8 ≤ i by omega),
      BitVec.getLsbD_of_ge w _ (show 64 ≤ 56 + i by omega)]

theorem getLsbD_lowBits (w : Word) (i : Nat) :
    (lowBits w).getLsbD i = (decide (i < 56) && w.getLsbD i) := by
  by_cases hi : i < 64
  · simp only [lowBits, BitVec.getLsbD_and, BitVec.getLsbD_not, hi, getLsbD_ofByte,
      BitVec.getLsbD_allOnes]
    by_cases h : i < 56
    · simp [h, Nat.not_le.mpr h]
    · simp [h, show 56 ≤ i by omega, show i - 56 < 8 by omega]
  · simp [BitVec.getLsbD_of_ge _ _ (show 64 ≤ i by omega)]

theorem lowBits_or_topByte (w : Word) : lowBits w ||| ofByte (topByte w) = w := by
  apply BitVec.eq_of_getLsbD_eq
  intro i hi
  rw [BitVec.getLsbD_or, getLsbD_lowBits, getLsbD_ofByte, getLsbD_topByte]
  by_cases h : i < 56
  · simp [h, Nat.not_le.mpr h]
  · simp [h, show 56 ≤ i by omega, show 56 + (i - 56) = i by omega]

end Word

end LiteralGrammar
