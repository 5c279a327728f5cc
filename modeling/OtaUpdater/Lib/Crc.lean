import Mathlib.Logic.Function.Basic
import Mathlib.Tactic.Common

/-!
# Bitwise CRC registers

A CRC register of any width, shifted one bit at a time in either direction, and
the byte-wise fold over a message. Nothing here fixes a width or a polynomial.
-/

namespace OtaUpdater.Lib.Crc

variable {w : Nat}

/-! ## One shift -/

/-- Most significant bit first: the bit that falls out decides about `poly`. -/
def shiftMsb (poly c : BitVec w) : BitVec w :=
  if c.msb then (c <<< 1) ^^^ poly else c <<< 1

/-- Least significant bit first, for a reflected polynomial. -/
def shiftLsb (poly c : BitVec w) : BitVec w :=
  if c.getLsbD 0 then (c >>> 1) ^^^ poly else c >>> 1

theorem xor_cancel (a b p : BitVec w) : (a ^^^ p) ^^^ (b ^^^ p) = a ^^^ b := by
  rw [BitVec.xor_assoc, BitVec.xor_comm b p, ← BitVec.xor_assoc p p b, BitVec.xor_self,
    BitVec.zero_xor]

theorem shiftMsb_xor (poly a b : BitVec w) :
    shiftMsb poly (a ^^^ b) = shiftMsb poly a ^^^ shiftMsb poly b := by
  unfold shiftMsb
  rw [BitVec.msb_xor, BitVec.shiftLeft_xor_distrib]
  cases a.msb <;> cases b.msb
  · simp
  · simp [BitVec.xor_assoc]
  · simp only [Bool.xor_false, if_true, Bool.false_eq_true, if_false]
    rw [BitVec.xor_assoc, BitVec.xor_comm (b <<< 1) poly, ← BitVec.xor_assoc]
  · simp [xor_cancel]

theorem shiftLsb_xor (poly a b : BitVec w) :
    shiftLsb poly (a ^^^ b) = shiftLsb poly a ^^^ shiftLsb poly b := by
  unfold shiftLsb
  rw [BitVec.getLsbD_xor, BitVec.ushiftRight_xor_distrib]
  cases a.getLsbD 0 <;> cases b.getLsbD 0
  · simp
  · simp [BitVec.xor_assoc]
  · simp only [Bool.xor_false, if_true, Bool.false_eq_true, if_false]
    rw [BitVec.xor_assoc, BitVec.xor_comm (b >>> 1) poly, ← BitVec.xor_assoc]
  · simp [xor_cancel]

theorem shiftMsb_eq_zero (poly c : BitVec w) (hpoly : poly.getLsbD 0 = true)
    (h : shiftMsb poly c = 0#w) : c = 0#w := by
  unfold shiftMsb at h
  split at h
  · have hbit := congrArg (fun x => BitVec.getLsbD x 0) h
    simp [hpoly] at hbit
  · rename_i hmsb
    apply BitVec.eq_of_getLsbD_eq
    intro i hi
    by_cases hlast : i = w - 1
    · subst hlast
      simpa [BitVec.msb_eq_getLsbD_last] using hmsb
    · have hbit := congrArg (fun x => BitVec.getLsbD x (i + 1)) h
      have hlt : i + 1 < w := by omega
      simpa [hlt, BitVec.getLsbD_eq_getElem hi] using hbit

theorem shiftLsb_eq_zero (poly c : BitVec w) (hpoly : poly.msb = true)
    (h : shiftLsb poly c = 0#w) : c = 0#w := by
  unfold shiftLsb at h
  split at h
  · have hbit := congrArg BitVec.msb h
    rw [BitVec.msb_xor, hpoly] at hbit
    simp [BitVec.msb_ushiftRight] at hbit
  · rename_i hlow
    apply BitVec.eq_of_getLsbD_eq
    intro i hi
    match i with
    | 0 => simpa using hlow
    | i + 1 =>
      have hbit := congrArg (fun x => BitVec.getLsbD x i) h
      simpa [Nat.add_comm] using hbit

/-! ## Injective steps -/

theorem xor_eq_zero_iff (a b : BitVec w) : a ^^^ b = 0#w ↔ a = b := by
  constructor
  · intro h
    have := congrArg (· ^^^ b) h
    simpa [BitVec.xor_assoc] using this
  · rintro rfl
    exact BitVec.xor_self

theorem injective_of_linear (f : BitVec w → BitVec w) (hxor : ∀ a b, f (a ^^^ b) = f a ^^^ f b)
    (hker : ∀ c, f c = 0#w → c = 0#w) : Function.Injective f := by
  intro a b h
  rw [← xor_eq_zero_iff]
  apply hker
  rw [hxor, h, BitVec.xor_self]

theorem shiftMsb_injective (poly : BitVec w) (hpoly : poly.getLsbD 0 = true) :
    Function.Injective (shiftMsb poly) :=
  injective_of_linear _ (shiftMsb_xor poly) (fun c => shiftMsb_eq_zero poly c hpoly)

theorem shiftLsb_injective (poly : BitVec w) (hpoly : poly.msb = true) :
    Function.Injective (shiftLsb poly) :=
  injective_of_linear _ (shiftLsb_xor poly) (fun c => shiftLsb_eq_zero poly c hpoly)

theorem repeat_injective {α : Type} (f : α → α) (hf : Function.Injective f) (n : Nat) :
    Function.Injective (Nat.repeat f n) := by
  induction n with
  | zero => exact fun _ _ h => h
  | succ n ih => exact fun a b h => ih (hf h)

/-! ## Messages -/

section Fold

variable {σ β : Type} (feed : σ → β → σ)

theorem foldl_injective (hfeed : ∀ b, Function.Injective (fun c => feed c b)) (msg : List β) :
    Function.Injective (fun c => msg.foldl feed c) := by
  induction msg with
  | nil => exact fun _ _ h => h
  | cons b rest ih => exact fun a c h => hfeed b (ih h)

end Fold

end OtaUpdater.Lib.Crc
