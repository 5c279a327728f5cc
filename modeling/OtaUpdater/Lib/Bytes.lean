import Mathlib.Algebra.Group.Nat.Defs
import Mathlib.Tactic.Common

/-!
# Byte strings

Windows into a byte array, counters and little-endian numbers.
-/

namespace OtaUpdater.Lib.Bytes

/-! ## Windows -/

def window (o n : Nat) (xs : List UInt8) : List UInt8 :=
  (List.range n).map fun i => xs.getD (o + i) 0

@[simp] theorem length_window (o n : Nat) (xs : List UInt8) : (window o n xs).length = n := by
  simp [window]

theorem window_eq_take_drop (o n : Nat) (xs : List UInt8) (h : o + n ≤ xs.length) :
    window o n xs = (xs.drop o).take n := by
  apply List.ext_getElem
  · simp; omega
  · intro i hi _
    rw [length_window] at hi
    simp [window, List.getElem?_eq_getElem (by omega : o + i < xs.length)]

theorem window_append (o m n : Nat) (xs : List UInt8) :
    window o (m + n) xs = window o m xs ++ window (o + m) n xs := by
  simp only [window, List.range_add, List.map_append, List.map_map]
  congr 1
  apply List.map_congr_left
  intro i _
  simp [Nat.add_assoc]

theorem window_left (n : Nat) (xs ys : List UInt8) (h : xs.length = n) :
    window 0 n (xs ++ ys) = xs := by
  rw [window_eq_take_drop _ _ _ (by rw [List.length_append]; omega), List.drop_zero,
    List.take_left' h]

theorem window_right (m n : Nat) (xs ys : List UInt8) (hxs : xs.length = m) (hys : ys.length = n) :
    window m n (xs ++ ys) = ys := by
  rw [window_eq_take_drop _ _ _ (by rw [List.length_append]; omega), List.drop_left' hxs,
    List.take_of_length_le (Nat.le_of_eq hys)]

/-! ## Filling a buffer -/

section Fill

variable {α : Type} (xs : List α) (n : Nat)

theorem take_set_succ (b : α) (h : n < xs.length) :
    (xs.set n b).take (n + 1) = xs.take n ++ [b] := by
  rw [List.take_succ_eq_append_getElem (by rw [List.length_set]; exact h),
    List.take_set_of_le (Nat.le_refl n), List.getElem_set_self]

theorem getD_take (i : Nat) (d : α) (h : i < n) : (xs.take n).getD i d = xs.getD i d := by
  rw [List.getD_eq_getElem?_getD, List.getD_eq_getElem?_getD, List.getElem?_take, if_pos h]

end Fill

theorem append_eq_append_iff (xs xs' ys ys' : List UInt8) (h : xs.length = xs'.length) :
    xs ++ ys = xs' ++ ys' ↔ xs = xs' ∧ ys = ys' := by
  constructor
  · intro heq
    exact List.append_inj heq h
  · rintro ⟨rfl, rfl⟩
    rfl

theorem foldl_range_getD {σ : Type} (f : σ → UInt8 → σ) (s : σ) (xs : List UInt8) (n : Nat)
    (h : n ≤ xs.length) :
    (List.range n).foldl (fun s i => f s (xs.getD i 0)) s = (xs.take n).foldl f s := by
  induction n with
  | zero => rfl
  | succ n ih =>
    have hn : n < xs.length := by omega
    rw [List.range_succ, List.foldl_append, ih (by omega), List.take_add_one,
      List.getElem?_eq_getElem hn, List.foldl_append]
    simp [List.getElem?_eq_getElem hn]

/-! ## Counting -/

theorem succ_toNat8 {n : UInt8} (h : n.toNat + 1 < 2 ^ 8) : (n + 1).toNat = n.toNat + 1 := by
  rw [UInt8.toNat_add]
  exact Nat.mod_eq_of_lt h

theorem succ_toNat16 {n : UInt16} (h : n.toNat + 1 < 2 ^ 16) : (n + 1).toNat = n.toNat + 1 := by
  rw [UInt16.toNat_add]
  exact Nat.mod_eq_of_lt h

theorem succ_toNat32 {n : UInt32} (h : n.toNat + 1 < 2 ^ 32) : (n + 1).toNat = n.toNat + 1 := by
  rw [UInt32.toNat_add]
  exact Nat.mod_eq_of_lt h

/-! ## Little-endian numbers -/

def leBytes : Nat → Nat → List UInt8
  | 0, _ => []
  | k + 1, n => UInt8.ofNat n :: leBytes k (n / 256)

def ofLe : List UInt8 → Nat
  | [] => 0
  | b :: rest => b.toNat + 256 * ofLe rest

@[simp] theorem length_leBytes (k n : Nat) : (leBytes k n).length = k := by
  induction k generalizing n with
  | zero => rfl
  | succ k ih => simp [leBytes, ih]

theorem ofLe_leBytes (k n : Nat) : ofLe (leBytes k n) = n % 256 ^ k := by
  induction k generalizing n with
  | zero => simp [leBytes, ofLe, Nat.mod_one]
  | succ k ih =>
    have hlow : (UInt8.ofNat n).toNat = n % 256 := UInt8.toNat_ofNat'
    rw [leBytes, ofLe, ih, hlow, Nat.pow_succ, Nat.mul_comm (256 ^ k), Nat.mod_mul]

theorem leBytes_ofLe (xs : List UInt8) : leBytes xs.length (ofLe xs) = xs := by
  induction xs with
  | nil => rfl
  | cons b rest ih =>
    have hb := b.toNat_lt
    have hlow : UInt8.ofNat (b.toNat + 256 * ofLe rest) = b := by
      apply UInt8.toNat_inj.mp
      rw [UInt8.toNat_ofNat']
      omega
    have hhigh : (b.toNat + 256 * ofLe rest) / 256 = ofLe rest := by omega
    simp only [List.length_cons, leBytes, ofLe, hlow, hhigh, ih]

theorem ofLe_lt (xs : List UInt8) : ofLe xs < 256 ^ xs.length := by
  rw [← leBytes_ofLe xs, ofLe_leBytes, length_leBytes]
  exact Nat.mod_lt _ (Nat.pow_pos (by omega))

theorem leBytes_eq_iff (k n : Nat) (xs : List UInt8) (hn : n < 256 ^ k) (hxs : xs.length = k) :
    xs = leBytes k n ↔ ofLe xs = n := by
  constructor
  · rintro rfl
    rw [ofLe_leBytes, Nat.mod_eq_of_lt hn]
  · rintro rfl
    rw [← hxs, leBytes_ofLe]

/-- `acc |= byte << shift`, when `byte` lands above everything in `acc`. -/
theorem or_shiftLeft_toNat (acc : UInt32) (b : UInt8) (k : Nat) (hk : k ≤ 24)
    (hacc : acc.toNat < 2 ^ k) :
    (acc ||| b.toUInt32 <<< UInt32.ofNat k).toNat = acc.toNat + 2 ^ k * b.toNat := by
  have hb := b.toNat_lt
  have hpow : 2 ^ k ≤ 2 ^ 24 := Nat.pow_le_pow_right (by omega) hk
  have hsmall : b.toNat * 2 ^ k < 2 ^ 32 := by
    calc b.toNat * 2 ^ k ≤ 255 * 2 ^ 24 := Nat.mul_le_mul (by omega) hpow
      _ < 2 ^ 32 := by decide
  have hshift : (UInt32.ofNat k).toNat % 32 = k := by
    simp [UInt32.toNat_ofNat']
    omega
  rw [UInt32.toNat_or, UInt32.toNat_shiftLeft, UInt8.toNat_toUInt32, hshift,
    Nat.shiftLeft_eq, Nat.mod_eq_of_lt hsmall, Nat.or_comm, ← Nat.shiftLeft_eq,
    ← Nat.shiftLeft_add_eq_or_of_lt hacc, Nat.shiftLeft_eq]
  rw [Nat.mul_comm, Nat.add_comm]

theorem le_word_toNat (b0 b1 b2 b3 : UInt8) :
    (((((0 : UInt32) ||| b0.toUInt32 <<< 0) ||| b1.toUInt32 <<< 8) ||| b2.toUInt32 <<< 16) |||
      b3.toUInt32 <<< 24).toNat = ofLe [b0, b1, b2, b3] := by
  have hb0 := b0.toNat_lt
  have hb1 := b1.toNat_lt
  have hb2 := b2.toNat_lt
  have h0 := or_shiftLeft_toNat 0 b0 0 (by omega) (by decide)
  rw [UInt32.toNat_zero, Nat.zero_add, Nat.pow_zero, Nat.one_mul] at h0
  have h1 := or_shiftLeft_toNat _ b1 8 (by omega) (by rw [h0]; omega)
  rw [h0] at h1
  have h2 := or_shiftLeft_toNat _ b2 16 (by omega) (by rw [h1]; omega)
  rw [h1] at h2
  have h3 := or_shiftLeft_toNat _ b3 24 (by omega) (by rw [h2]; omega)
  rw [h2] at h3
  refine h3.trans ?_
  simp only [ofLe]
  omega

theorem le_half_toNat (b0 b1 : UInt8) :
    ((b0.toUInt32 ||| b1.toUInt32 <<< 8) &&& 0xFFFF).toUInt16.toNat = ofLe [b0, b1] := by
  have hb0 := b0.toNat_lt
  have hb1 := b1.toNat_lt
  have hor := or_shiftLeft_toNat b0.toUInt32 b1 8 (by omega) (by rw [UInt8.toNat_toUInt32]; omega)
  rw [UInt8.toNat_toUInt32] at hor
  have hmask : (0xFFFF : UInt32).toNat = 2 ^ 16 - 1 := rfl
  have h8 : UInt32.ofNat 8 = 8 := rfl
  rw [h8] at hor
  rw [UInt32.toNat_toUInt16, UInt32.toNat_and, hor, hmask, Nat.and_two_pow_sub_one_eq_mod]
  simp only [ofLe]
  omega

end OtaUpdater.Lib.Bytes
