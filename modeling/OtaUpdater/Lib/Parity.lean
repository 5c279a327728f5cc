import Mathlib.Data.List.Basic
import OtaUpdater.Lib.Crc

/-!
# Parity of bits

Whether a bit string has an odd number of ones. A CRC whose polynomial has an
even number of terms keeps that of its message.
-/

namespace OtaUpdater.Lib.Crc

/-! ## Bit strings -/

/-- Whether an odd number of the first `n` bits is set. -/
def oddOnes (f : Nat → Bool) : Nat → Bool
  | 0 => false
  | n + 1 => oddOnes f n ^^ f n

theorem oddOnes_congr {f g : Nat → Bool} {n : Nat} (h : ∀ i, i < n → f i = g i) :
    oddOnes f n = oddOnes g n := by
  induction n with
  | zero => rfl
  | succ n ih =>
    rw [oddOnes, oddOnes, ih (fun i hi => h i (by omega)), h n (Nat.lt_succ_self n)]

theorem oddOnes_xor (f g : Nat → Bool) (n : Nat) :
    oddOnes (fun i => f i ^^ g i) n = (oddOnes f n ^^ oddOnes g n) := by
  induction n with
  | zero => rfl
  | succ n ih =>
    rw [oddOnes, oddOnes, oddOnes, ih]
    cases oddOnes f n <;> cases oddOnes g n <;> cases f n <;> cases g n <;> rfl

theorem oddOnes_add (f : Nat → Bool) (m n : Nat) :
    oddOnes f (m + n) = (oddOnes f m ^^ oddOnes (fun i => f (m + i)) n) := by
  induction n with
  | zero => simp [oddOnes]
  | succ n ih =>
    rw [← Nat.add_assoc, oddOnes, oddOnes, ih, Bool.xor_assoc]

theorem oddOnes_eq_countP (f : Nat → Bool) (n : Nat) :
    oddOnes f n = decide ((List.range n).countP f % 2 = 1) := by
  induction n with
  | zero => rfl
  | succ n ih =>
    rw [oddOnes, ih, List.range_succ, List.countP_append]
    rcases hf : f n
    · simp [hf]
    · rw [List.countP_singleton, if_pos hf, Bool.xor_true, ← decide_not]
      apply decide_eq_decide.mpr
      omega

/-! ## Registers -/

section Registers

variable {w : Nat}

def parity (c : BitVec w) : Bool := oddOnes c.getMsbD w

theorem parity_xor (a b : BitVec w) : parity (a ^^^ b) = (parity a ^^ parity b) := by
  unfold parity
  rw [← oddOnes_xor]
  apply oddOnes_congr
  intro i _
  rw [BitVec.getMsbD_xor]

theorem parity_shiftLeft (c : BitVec w) : parity (c <<< 1) = (parity c ^^ c.msb) := by
  have hmore := oddOnes_add c.getMsbD 1 w
  rw [Nat.add_comm, oddOnes, BitVec.getMsbD_of_ge c w (Nat.le_refl w), Bool.xor_false] at hmore
  have hshift : parity (c <<< 1) = oddOnes (fun i => c.getMsbD (1 + i)) w := by
    apply oddOnes_congr
    intro i hi
    rw [BitVec.getMsbD_shiftLeft, Nat.add_comm]
  have hmsb : c.msb = oddOnes c.getMsbD 1 := by simp [BitVec.msb, oddOnes]
  rw [hshift, hmsb, parity, hmore, Bool.xor_comm, ← Bool.xor_assoc, Bool.xor_self, Bool.false_xor]

/-- A bit that falls out is made up for by an odd number of bits of the polynomial. -/
theorem parity_shiftMsb (poly c : BitVec w) (hpoly : parity poly = true) :
    parity (shiftMsb poly c) = parity c := by
  unfold shiftMsb
  split_ifs with hmsb
  · rw [parity_xor, parity_shiftLeft, hpoly, hmsb, Bool.xor_assoc, Bool.xor_self, Bool.xor_false]
  · rw [parity_shiftLeft, Bool.eq_false_iff.mpr hmsb, Bool.xor_false]

end Registers

end OtaUpdater.Lib.Crc
