import Mathlib.Data.List.Basic
import Mathlib.Data.List.GetD
import OtaUpdater.Lib.Crc

/-!
# What a CRC register always notices

A register of `w` bits that takes in a message bit by bit. Two messages that
differ within `w` consecutive bits leave it in different states, and so a
damaged one never passes for the original.
-/

namespace OtaUpdater.Lib.Crc

variable {w : Nat}

/-- A register that takes in a bit by adding it at its input end and shifting. -/
structure Register (w : Nat) where
  shift : BitVec w → BitVec w
  shift_xor : ∀ a b, shift (a ^^^ b) = shift a ^^^ shift b
  shift_injective : Function.Injective shift
  /-- Bits at the input end, the first of them in front. -/
  place : List Bool → BitVec w
  place_nil : place [] = 0#w
  place_cons : ∀ b rest, rest.length < w →
    shift (place (b :: rest)) = shift (place [b]) ^^^ place rest
  place_injective : ∀ u v, u.length = v.length → u.length ≤ w → place u = place v → u = v

theorem repeat_succ_inner {α : Type} (f : α → α) (n : Nat) (a : α) :
    Nat.repeat f (n + 1) a = Nat.repeat f n (f a) := by
  induction n with
  | zero => rfl
  | succ n ih =>
    change f (Nat.repeat f (n + 1) a) = f (Nat.repeat f n (f a))
    rw [ih]

namespace Register

variable (R : Register w)

def bitStep (c : BitVec w) (b : Bool) : BitVec w := R.shift (c ^^^ R.place [b])

theorem foldl_bitStep (bits : List Bool) (c : BitVec w) (h : bits.length ≤ w) :
    bits.foldl R.bitStep c = Nat.repeat R.shift bits.length (c ^^^ R.place bits) := by
  induction bits generalizing c with
  | nil => simp [R.place_nil, Nat.repeat]
  | cons b rest ih =>
    rw [List.length_cons] at h
    have henter : R.shift (c ^^^ R.place [b]) ^^^ R.place rest = R.shift (c ^^^ R.place (b :: rest)) := by
      rw [R.shift_xor, R.shift_xor, R.place_cons b rest (by omega), BitVec.xor_assoc]
    rw [List.foldl_cons, ih _ (by omega), List.length_cons, repeat_succ_inner, bitStep, henter]

theorem bitStep_injective (b : Bool) : Function.Injective (fun c => R.bitStep c b) := by
  intro c d h
  have hxor : c ^^^ R.place [b] = d ^^^ R.place [b] := R.shift_injective h
  rw [← xor_eq_zero_iff, ← xor_cancel c d (R.place [b]), xor_eq_zero_iff]
  exact hxor

theorem foldl_bitStep_window (c : BitVec w) (front u v back : List Bool) (hsame : u.length = v.length)
    (hfits : u.length ≤ w)
    (h : (front ++ u ++ back).foldl R.bitStep c = (front ++ v ++ back).foldl R.bitStep c) : u = v := by
  simp only [List.foldl_append] at h
  have hwindow := foldl_injective R.bitStep R.bitStep_injective back h
  rw [R.foldl_bitStep u _ hfits, R.foldl_bitStep v _ (by omega), ← hsame] at hwindow
  apply R.place_injective u v hsame hfits
  have hplaced := repeat_injective R.shift R.shift_injective u.length hwindow
  rw [BitVec.xor_comm _ (R.place u), BitVec.xor_comm _ (R.place v)] at hplaced
  rw [← xor_eq_zero_iff, ← xor_cancel _ _ (front.foldl R.bitStep c), xor_eq_zero_iff]
  exact hplaced

/-- Messages that differ within `w` consecutive bits have different checksums. -/
theorem foldl_bitStep_burst (c : BitVec w) (start : Nat) (xs ys : List Bool)
    (hsame : xs.length = ys.length)
    (hburst : ∀ i, xs[i]? ≠ ys[i]? → start ≤ i ∧ i < start + w)
    (h : xs.foldl R.bitStep c = ys.foldl R.bitStep c) : xs = ys := by
  have hfront : xs.take start = ys.take start := by
    apply List.ext_getElem?
    intro i
    rw [List.getElem?_take, List.getElem?_take]
    split_ifs with hi
    · by_contra hne
      exact absurd (hburst i hne).1 (by omega)
    · rfl
  have hback : xs.drop (start + w) = ys.drop (start + w) := by
    apply List.ext_getElem?
    intro i
    rw [List.getElem?_drop, List.getElem?_drop]
    by_contra hne
    have := (hburst _ hne).2
    omega
  have hsplit : ∀ zs : List Bool,
      zs.take start ++ (zs.drop start).take w ++ zs.drop (start + w) = zs := by
    intro zs
    rw [← List.drop_drop, List.append_assoc, List.take_append_drop, List.take_append_drop]
  have hwindow : (xs.drop start).take w = (ys.drop start).take w := by
    apply R.foldl_bitStep_window c (xs.take start) _ _ (xs.drop (start + w))
    · simp [hsame]
    · exact List.length_take_le _ _
    · rw [hsplit xs, h, hfront, hback, hsplit ys]
  rw [← hsplit xs, ← hsplit ys, hfront, hwindow, hback]

end Register

/-! ## The two directions -/

def placeMsb : List Bool → BitVec w
  | [] => 0#w
  | b :: rest => (bif b then BitVec.twoPow w (w - 1) else 0#w) ^^^ (placeMsb rest >>> 1)

def placeLsb : List Bool → BitVec w
  | [] => 0#w
  | b :: rest => (bif b then 1#w else 0#w) ^^^ (placeLsb rest <<< 1)

theorem getMsbD_placeMsb (bits : List Bool) (i : Nat) (h : i < w) :
    (placeMsb bits : BitVec w).getMsbD i = bits.getD i false := by
  induction bits generalizing i with
  | nil => simp [placeMsb]
  | cons b rest ih =>
    have hentry : (bif b then BitVec.twoPow w (w - 1) else 0#w).getMsbD i = (b && decide (i = 0)) := by
      cases b
      · simp
      · rw [cond_true, BitVec.getMsbD_twoPow]
        by_cases hi : i = 0
        · subst hi
          simp
          omega
        · simp [hi]
          omega
    unfold placeMsb
    rw [BitVec.getMsbD_xor, hentry, BitVec.getMsbD_ushiftRight]
    cases i with
    | zero => simp
    | succ i => simp [ih i (by omega), h]

theorem getLsbD_placeLsb (bits : List Bool) (i : Nat) (h : i < w) :
    (placeLsb bits : BitVec w).getLsbD i = bits.getD i false := by
  induction bits generalizing i with
  | nil => simp [placeLsb]
  | cons b rest ih =>
    have hentry : (bif b then 1#w else 0#w).getLsbD i = (b && decide (i = 0)) := by
      cases b
      · simp
      · simp
        omega
    unfold placeLsb
    rw [BitVec.getLsbD_xor, hentry, BitVec.getLsbD_shiftLeft]
    cases i with
    | zero => simp
    | succ i => simp [ih i (by omega), h]

theorem shiftMsb_placeMsb (poly : BitVec w) (bits : List Bool) (h : bits.length < w) :
    shiftMsb poly (placeMsb bits >>> 1) = placeMsb bits := by
  have hmsb : (placeMsb bits >>> 1 : BitVec w).msb = false := by
    simp [BitVec.msb_ushiftRight]
  unfold shiftMsb
  rw [hmsb, if_neg Bool.false_ne_true]
  apply BitVec.eq_of_getMsbD_eq
  intro i hi
  rw [BitVec.getMsbD_shiftLeft, BitVec.getMsbD_ushiftRight, getMsbD_placeMsb bits i hi]
  rcases Nat.lt_or_ge (i + 1) w with hlt | hlast
  · simp [hlt, getMsbD_placeMsb bits i hi]
  · have hnone : bits.getD i false = false := List.getD_eq_default _ _ (by omega)
    rw [hnone]
    simp
    omega

theorem shiftLsb_placeLsb (poly : BitVec w) (bits : List Bool) (h : bits.length < w) :
    shiftLsb poly (placeLsb bits <<< 1) = placeLsb bits := by
  have hlsb : (placeLsb bits <<< 1 : BitVec w).getLsbD 0 = false := by
    simp
  unfold shiftLsb
  rw [hlsb, if_neg Bool.false_ne_true]
  apply BitVec.eq_of_getLsbD_eq
  intro i hi
  rw [BitVec.getLsbD_ushiftRight, BitVec.getLsbD_shiftLeft, getLsbD_placeLsb bits i hi]
  rcases Nat.lt_or_ge (1 + i) w with hlt | hlast
  · simp [hlt, getLsbD_placeLsb bits i hi]
  · have hnone : bits.getD i false = false := List.getD_eq_default _ _ (by omega)
    rw [hnone]
    simp
    omega

theorem eq_of_getD_eq (u v : List Bool) (hsame : u.length = v.length)
    (h : ∀ i, i < u.length → u.getD i false = v.getD i false) : u = v := by
  apply List.ext_getElem hsame
  intro i hu hv
  have hi := h i hu
  rw [List.getD_eq_getElem _ _ hu, List.getD_eq_getElem _ _ hv] at hi
  exact hi

/-- Most significant bit first; the polynomial has a constant term. -/
def msbRegister (poly : BitVec w) (hpoly : poly.getLsbD 0 = true) : Register w where
  shift := shiftMsb poly
  shift_xor := shiftMsb_xor poly
  shift_injective := shiftMsb_injective poly hpoly
  place := placeMsb
  place_nil := rfl
  place_cons b rest h := by
    have hsingle : placeMsb [b] = (bif b then BitVec.twoPow w (w - 1) else 0#w) := by simp [placeMsb]
    rw [hsingle, placeMsb, shiftMsb_xor, shiftMsb_placeMsb poly rest h]
  place_injective u v hsame hfits h := by
    apply eq_of_getD_eq u v hsame
    intro i hi
    rw [← getMsbD_placeMsb u i (by omega : i < w), h, getMsbD_placeMsb v i (by omega)]

/-- Least significant bit first, for a reflected polynomial. -/
def lsbRegister (poly : BitVec w) (hpoly : poly.msb = true) : Register w where
  shift := shiftLsb poly
  shift_xor := shiftLsb_xor poly
  shift_injective := shiftLsb_injective poly hpoly
  place := placeLsb
  place_nil := rfl
  place_cons b rest h := by
    have hsingle : placeLsb [b] = (bif b then 1#w else 0#w) := by simp [placeLsb]
    rw [hsingle, placeLsb, shiftLsb_xor, shiftLsb_placeLsb poly rest h]
  place_injective u v hsame hfits h := by
    apply eq_of_getD_eq u v hsame
    intro i hi
    rw [← getLsbD_placeLsb u i (by omega : i < w), h, getLsbD_placeLsb v i (by omega)]

/-! ## Symbols of several bits -/

section Symbols

variable {β : Type} (k : Nat) (bit : β → Nat → Bool)

def symbolBits (b : β) : List Bool := (List.range k).map (bit b)

def messageBits (msg : List β) : List Bool := msg.flatMap (symbolBits k bit)

@[simp] theorem length_symbolBits (b : β) : (symbolBits k bit b).length = k := by
  simp [symbolBits]

theorem getElem?_symbolBits (b : β) {i : Nat} (h : i < k) :
    (symbolBits k bit b)[i]? = some (bit b i) := by
  simp [symbolBits, h]

theorem length_messageBits (msg : List β) : (messageBits k bit msg).length = msg.length * k := by
  induction msg with
  | nil => simp [messageBits]
  | cons b msg ih =>
    unfold messageBits at ih ⊢
    rw [List.flatMap_cons, List.length_append, length_symbolBits, ih, List.length_cons, Nat.add_mul,
      Nat.one_mul, Nat.add_comm]

theorem getElem?_messageBits (d : β) (msg : List β) {i : Nat} (h : i < msg.length * k) :
    (messageBits k bit msg)[i]? = some (bit (msg.getD (i / k) d) (i % k)) := by
  induction msg generalizing i with
  | nil => simp at h
  | cons b msg ih =>
    have hsplit : messageBits k bit (b :: msg) = symbolBits k bit b ++ messageBits k bit msg := rfl
    rw [List.length_cons, Nat.add_mul, Nat.one_mul] at h
    have hk : 0 < k := by
      rcases Nat.eq_zero_or_pos k with rfl | hk
      · omega
      · exact hk
    rcases Nat.lt_or_ge i k with hfirst | hrest
    · rw [hsplit, List.getElem?_append_left (by rw [length_symbolBits]; exact hfirst),
        getElem?_symbolBits k bit b hfirst, Nat.div_eq_of_lt hfirst, Nat.mod_eq_of_lt hfirst]
      rfl
    · have hdiv : i / k = (i - k) / k + 1 := by
        rw [Nat.div_eq_sub_div hk hrest]
      rw [hsplit, List.getElem?_append_right (by rw [length_symbolBits]; exact hrest),
        length_symbolBits, ih (by omega), hdiv, Nat.mod_eq_sub_mod hrest]
      rfl

theorem symbolBits_getD (b : β) (i : Nat) :
    (symbolBits k bit b).getD i false = (decide (i < k) && bit b i) := by
  rcases Nat.lt_or_ge i k with hlt | hge
  · rw [List.getD_eq_getElem?_getD, getElem?_symbolBits k bit b hlt]
    simp [hlt]
  · rw [List.getD_eq_default _ _ (by rw [length_symbolBits]; exact hge)]
    simp [Nat.not_lt.mpr hge]

/-- A whole-symbol step is `k` steps of the register, so its bursts are noticed too. -/
theorem foldl_symbols_burst (R : Register w) (feed : BitVec w → β → BitVec w) (hk : 0 < k)
    (hfits : k ≤ w)
    (hfeed : ∀ c b, feed c b = Nat.repeat R.shift k (c ^^^ R.place (symbolBits k bit b)))
    (hbit : ∀ a b, (∀ i, i < k → bit a i = bit b i) → a = b) (d : β) (c : BitVec w) (start : Nat)
    (msg msg' : List β) (hsame : msg.length = msg'.length)
    (hburst : ∀ i, bit (msg.getD (i / k) d) (i % k) ≠ bit (msg'.getD (i / k) d) (i % k) →
      start ≤ i ∧ i < start + w)
    (h : msg.foldl feed c = msg'.foldl feed c) : msg = msg' := by
  have hserial : ∀ (msg : List β) c, msg.foldl feed c = (messageBits k bit msg).foldl R.bitStep c := by
    intro msg c
    have hstep : feed = fun c b => (symbolBits k bit b).foldl R.bitStep c := by
      funext c b
      rw [hfeed, R.foldl_bitStep _ _ (by rw [length_symbolBits]; exact hfits), length_symbolBits]
    rw [hstep, messageBits, List.foldl_flatMap]
  have hlength : (messageBits k bit msg).length = (messageBits k bit msg').length := by
    rw [length_messageBits, length_messageBits, hsame]
  have hbits : messageBits k bit msg = messageBits k bit msg' := by
    apply R.foldl_bitStep_burst c start _ _ hlength
    · intro i hne
      rcases Nat.lt_or_ge i (msg.length * k) with hlt | hge
      · rw [getElem?_messageBits k bit d msg hlt,
          getElem?_messageBits k bit d msg' (by rw [← hsame]; exact hlt)] at hne
        exact hburst i (fun heq => hne (congrArg some heq))
      · rw [List.getElem?_eq_none (by rw [length_messageBits]; exact hge),
          List.getElem?_eq_none (by rw [length_messageBits, ← hsame]; exact hge)] at hne
        exact absurd rfl hne
    · rw [← hserial, ← hserial, h]
  apply List.ext_getElem hsame
  intro n hn hn'
  apply hbit
  intro i hi
  have hindex : n * k + i < msg.length * k := by
    calc n * k + i < n * k + k := Nat.add_lt_add_left hi _
      _ = (n + 1) * k := by rw [Nat.add_mul, Nat.one_mul]
      _ ≤ msg.length * k := Nat.mul_le_mul_right k hn
  have hdiv : (n * k + i) / k = n := by
    rw [Nat.mul_comm, Nat.mul_add_div hk, Nat.div_eq_of_lt hi, Nat.add_zero]
  have hmod : (n * k + i) % k = i := by
    rw [Nat.mul_comm, Nat.mul_add_mod, Nat.mod_eq_of_lt hi]
  have hbyte := getElem?_messageBits k bit d msg hindex
  rw [hbits, getElem?_messageBits k bit d msg' (by rw [← hsame]; exact hindex), hdiv, hmod,
    Option.some.injEq] at hbyte
  rw [List.getD_eq_getElem _ _ hn, List.getD_eq_getElem _ _ hn'] at hbyte
  exact hbyte.symm

end Symbols

theorem placeMsb_symbolBits (b : BitVec w) : placeMsb (symbolBits w BitVec.getMsbD b) = b := by
  apply BitVec.eq_of_getMsbD_eq
  intro i hi
  rw [getMsbD_placeMsb _ i hi, symbolBits_getD]
  simp [hi]

theorem placeLsb_symbolBits {k : Nat} (b : BitVec k) :
    (placeLsb (symbolBits k BitVec.getLsbD b) : BitVec w) = b.setWidth w := by
  apply BitVec.eq_of_getLsbD_eq
  intro i hi
  rw [getLsbD_placeLsb _ i hi, symbolBits_getD, BitVec.getLsbD_setWidth]
  rcases Nat.lt_or_ge i k with hlt | hge
  · simp [hi, hlt]
  · simp [BitVec.getLsbD_of_ge b i hge]

end OtaUpdater.Lib.Crc
