import Mathlib.Algebra.Order.Field.Basic
import Mathlib.Tactic.Linarith
import Mathlib.Tactic.Ring

/-!
# A serial line

Characters of a start bit, eight data bits and a stop bit, over time in any ordered
field: the line they make, how they are put there, and how one is read back.
-/

namespace OtaUpdater.Lib.Serial

/-! ## Characters -/

def data_bit (b : UInt8) (i : Nat) : Bool := (b >>> UInt8.ofNat i) &&& 1 != 0

def cells (b : UInt8) : List Bool := false :: (List.range 8).map (data_bit b) ++ [true]

theorem cells_length (b : UInt8) : (cells b).length = 10 := rfl

theorem cells_data (b : UInt8) {i : Nat} (hi : i < 8) : (cells b).getD (i + 1) true = data_bit b i := by
  have hin : i < ((List.range 8).map (data_bit b)).length := hi
  unfold cells
  rw [List.cons_append, List.getD_cons_succ, List.getD_eq_getElem?_getD, List.getElem?_append_left hin]
  simp [hi]

theorem shift_toNat {i : Nat} (hi : i < 8) : (UInt8.ofNat i).toNat % 8 = i := by
  rw [UInt8.toNat_ofNat']
  omega

theorem data_bit_eq (b : UInt8) {i : Nat} (hi : i < 8) :
    data_bit b i = decide (b.toNat / 2 ^ i % 2 = 1) := by
  have hone : (1 : UInt8).toNat = 1 := rfl
  unfold data_bit
  rw [Bool.eq_iff_iff, bne_iff_ne, decide_eq_true_eq, ne_eq, ← UInt8.toNat_inj, UInt8.toNat_and,
    UInt8.toNat_shiftRight, shift_toNat hi, hone, Nat.and_one_is_mod, Nat.shiftRight_eq_div_pow,
    UInt8.toNat_zero]
  omega

/-! ## The line -/

section Line

variable {T : Type}

/-- A level for each time it was held. -/
abbrev Signal (T : Type) := List (Bool × T)

structure Tx (T : Type) where
  level : Bool
  held : Signal T

def Tx.idle : Tx T := { level := true, held := [] }

def Tx.drive (tx : Tx T) (level : Bool) : Tx T := { tx with level }

def Tx.wait (tx : Tx T) (time : T) : Tx T := { tx with held := tx.held ++ [(tx.level, time)] }

/-- Back to back characters, with `B` for each bit. -/
def wave (B : T) (bytes : List UInt8) : Signal T := (bytes.flatMap cells).map (·, B)

def sent (B : T) (bytes : List UInt8) : Tx T := { level := true, held := wave B bytes }

theorem wave_cons (B : T) (b : UInt8) (bytes : List UInt8) :
    wave B (b :: bytes) = (cells b).map (·, B) ++ wave B bytes := List.map_append

variable [Field T] [LinearOrder T]

/-- A signal from time 0 on, which ends on `rest`. -/
def level_at (rest : Bool) : Signal T → T → Bool
  | [], _ => rest
  | (level, held) :: signal, t => if t < held then level else level_at rest signal (t - held)

def Tx.line (tx : Tx T) (start t : T) : Bool :=
  if t < start then true else level_at tx.level tx.held (t - start)

section Idle

variable {B start t : T}

theorem line_before (bytes : List UInt8) (h : t < start) : (sent B bytes).line start t = true := if_pos h

theorem line_empty : (sent B []).line start t = true := by
  unfold Tx.line
  split_ifs <;> rfl

end Idle

section Steps

variable {rest level : Bool} {held t : T} {signal : Signal T}

theorem level_at_first (h : t < held) : level_at rest ((level, held) :: signal) t = level := if_pos h

theorem level_at_later (h : held ≤ t) :
    level_at rest ((level, held) :: signal) t = level_at rest signal (t - held) := if_neg (not_lt.mpr h)

end Steps

variable [IsStrictOrderedRing T] {B : T}

theorem level_at_cell (hB : 0 < B) (rest : Bool) (cs : List Bool) :
    ∀ (k : Nat) (signal : Signal T) (t : T), k < cs.length → k * B ≤ t → t < (k + 1) * B →
      level_at rest (cs.map (·, B) ++ signal) t = cs.getD k rest := by
  induction cs with
  | nil =>
    intro k signal t hk
    exact absurd hk (Nat.not_lt_zero k)
  | cons c cs ih =>
    intro k signal t hk hle hlt
    rw [List.map_cons, List.cons_append]
    cases k with
    | zero =>
      rw [Nat.cast_zero, zero_add, one_mul] at hlt
      exact level_at_first hlt
    | succ k =>
      push_cast at hle hlt
      have hpos : 0 ≤ (k : T) * B := mul_nonneg (Nat.cast_nonneg k) hB.le
      rw [level_at_later (by linarith), List.getD_cons_succ]
      exact ih k signal (t - B) (Nat.lt_of_succ_lt_succ hk) (by linarith) (by linarith)

theorem level_at_past (hB : 0 < B) (rest : Bool) (cs : List Bool) :
    ∀ (signal : Signal T) (t : T), cs.length * B ≤ t →
      level_at rest (cs.map (·, B) ++ signal) t = level_at rest signal (t - cs.length * B) := by
  induction cs with
  | nil =>
    intro signal t _
    simp
  | cons c cs ih =>
    intro signal t hle
    rw [List.length_cons] at hle ⊢
    push_cast at hle ⊢
    have hpos : 0 ≤ (cs.length : T) * B := mul_nonneg (Nat.cast_nonneg _) hB.le
    rw [List.map_cons, List.cons_append, level_at_later (by linarith), ih signal (t - B) (by linarith)]
    have htime : t - B - cs.length * B = t - (cs.length + 1) * B := by ring
    rw [htime]

theorem line_mark {mark : T} (hmark : 0 ≤ mark) (signal : Signal T) (start t : T) :
    ({ level := true, held := (true, mark) :: signal } : Tx T).line start t =
      ({ level := true, held := signal } : Tx T).line (start + mark) t := by
  unfold Tx.line
  dsimp only
  rcases lt_or_ge (t - start) mark with hmarked | hover
  · have hbefore : t < start + mark := by linarith
    rw [if_pos hbefore, level_at_first hmarked, ite_self]
  · have hfrom : ¬ t < start + mark := by linarith
    have hafter : ¬ t < start := by linarith
    rw [if_neg hfrom, if_neg hafter, level_at_later hover, sub_sub]

section Sent

variable {start t : T} (b : UInt8) (bytes : List UInt8)

theorem line_cell (hB : 0 < B) (k : Nat) (hk : k < 10) (hle : start + k * B ≤ t)
    (hlt : t < start + (k + 1) * B) : (sent B (b :: bytes)).line start t = (cells b).getD k true := by
  have hpos : 0 ≤ (k : T) * B := mul_nonneg (Nat.cast_nonneg k) hB.le
  have hafter : ¬ t < start := by linarith
  unfold Tx.line sent
  rw [if_neg hafter, wave_cons]
  exact level_at_cell hB true (cells b) k _ _ hk (by linarith) (by linarith)

theorem line_next (hB : 0 < B) (h : start + 9 * B ≤ t) :
    (sent B (b :: bytes)).line start t = (sent B bytes).line (start + 10 * B) t := by
  have hten : ((cells b).length : T) * B = 10 * B := by
    rw [cells_length]
    push_cast
    rfl
  rcases lt_or_ge t (start + 10 * B) with hstop | hover
  · rw [line_before bytes hstop, line_cell b bytes hB 9 (by decide) (by push_cast; exact h)
      (by push_cast; linarith)]
    rfl
  · have hafter : ¬ t < start := by linarith
    unfold Tx.line sent
    rw [if_neg hafter, if_neg (not_lt.mpr hover), wave_cons,
      level_at_past hB true (cells b) _ _ (by linarith)]
    congr 1
    linarith

end Sent

end Line

/-! ## The sender -/

section Sender

variable {T : Type} {m : Type → Type} [Monad m]

def hold (set : Tx T → Bool → m (Tx T)) (bit : T) (tx : Tx T) (level : Bool) : m (Tx T) := do
  let tx ← set tx level
  pure (tx.wait bit)

def put (set : Tx T → Bool → m (Tx T)) (bit : T) (tx : Tx T) (b : UInt8) : m (Tx T) := do
  let tx ← hold set bit tx false
  let tx ← (List.range 8).foldlM (fun tx i => hold set bit tx (data_bit b i)) tx
  hold set bit tx true

theorem put_eq [LawfulMonad m] (set : Tx T → Bool → m (Tx T)) (bit : T) (tx : Tx T) (b : UInt8) :
    put set bit tx b = (cells b).foldlM (hold set bit) tx := by
  unfold put cells
  rw [List.cons_append, List.foldlM_cons]
  congr 1
  funext tx
  rw [List.foldlM_append, List.foldlM_map]
  congr 1
  funext tx
  rw [List.foldlM_cons]
  exact (bind_pure _).symm

theorem puts_eq [LawfulMonad m] (set : Tx T → Bool → m (Tx T)) (bit : T) (bytes : List UInt8) :
    ∀ tx, bytes.foldlM (put set bit) tx = (bytes.flatMap cells).foldlM (hold set bit) tx := by
  induction bytes with
  | nil =>
    intro tx
    rfl
  | cons b bytes ih =>
    intro tx
    rw [List.foldlM_cons, List.flatMap_cons, List.foldlM_append, put_eq]
    congr 1
    funext tx
    exact ih tx

/-- A pin after it was at each of the levels for a bit. -/
def Tx.after (tx : Tx T) (bit : T) (levels : List Bool) : Tx T where
  level := levels.getLastD tx.level
  held := tx.held ++ levels.map (·, bit)

theorem after_cons (tx : Tx T) (bit : T) (level : Bool) (levels : List Bool) :
    tx.after bit (level :: levels) = ((tx.drive level).wait bit).after bit levels := by
  unfold Tx.after Tx.drive Tx.wait
  rw [List.getLastD_cons, List.append_assoc]
  rfl

theorem after_append (tx : Tx T) (bit : T) (levels more : List Bool) :
    tx.after bit (levels ++ more) = (tx.after bit levels).after bit more := by
  induction levels generalizing tx with
  | nil => simp [Tx.after]
  | cons level levels ih => rw [List.cons_append, after_cons, after_cons, ih]

theorem after_cells (bit : T) (bytes : List UInt8) :
    ∀ tx : Tx T, tx.level = true → tx.after bit (bytes.flatMap cells) =
      { level := true, held := tx.held ++ wave bit bytes } := by
  induction bytes with
  | nil =>
    rintro ⟨level, held⟩ rfl
    rfl
  | cons b bytes ih =>
    intro tx _
    have hstop : (tx.after bit (cells b)).level = true := rfl
    rw [List.flatMap_cons, after_append, ih _ hstop, wave_cons]
    unfold Tx.after
    rw [List.append_assoc]

def Tx.try_drive {E : Type} (pin : Tx T → Bool → Except E Unit) (tx : Tx T) (level : Bool) :
    Except E (Tx T) := do
  pin tx level
  pure (tx.drive level)

theorem holds_try_drive {E : Type} (pin : Tx T → Bool → Except E Unit) (bit : T) (levels : List Bool) :
    ∀ tx, levels.foldlM (hold (Tx.try_drive pin) bit) tx = .ok (tx.after bit levels) ∨
      ∃ e tx' level, pin tx' level = .error e ∧
        levels.foldlM (hold (Tx.try_drive pin) bit) tx = .error e := by
  induction levels with
  | nil =>
    rintro ⟨level, held⟩
    left
    simp [Tx.after]
    rfl
  | cons level levels ih =>
    intro tx
    rw [after_cons, List.foldlM_cons]
    cases hpin : pin tx level with
    | error e =>
      have hhold : hold (Tx.try_drive pin) bit tx level = .error e := by
        unfold hold Tx.try_drive
        rw [hpin]
        rfl
      rw [hhold]
      exact Or.inr ⟨e, tx, level, hpin, rfl⟩
    | ok =>
      have hhold : hold (Tx.try_drive pin) bit tx level = .ok ((tx.drive level).wait bit) := by
        unfold hold Tx.try_drive
        rw [hpin]
        rfl
      rw [hhold]
      exact ih _

end Sender

/-! ## The receiver -/

inductive Got where
  | Idle
  | Framing
  | Byte (b : UInt8)
deriving DecidableEq, Repr

section Receiver

variable {T : Type} [Field T] {m : Type → Type} [Monad m]

/-- Samples `bit` apart, from `now` on. -/
def read_bits (rx : T → m Bool) (bit now : T) : m (UInt8 × T) :=
  (List.range 8).foldlM (fun (v, now) i => do
    let high ← rx now
    pure (if high then v ||| (1 <<< UInt8.ofNat i) else v, now + bit)) (0, now)

/-- At most so many waits for the line to go high. -/
def await_mark (rx : T → m Bool) (half : T) : Nat → T → m T
  | 0, now => pure now
  | n + 1, now => do
    if ← rx now then pure now
    else await_mark rx half n (now + half)

/-- One sample and, where that is low, the character behind it; with the time afterwards. -/
def receive (rx : T → m Bool) (first bit half now : T) : m (Got × T) := do
  if ← rx now then pure (.Idle, now)
  else
    let (v, now) ← read_bits rx bit (now + first)
    if ← rx now then pure (.Byte v, now)
    else
      let now ← await_mark rx half 20 now
      pure (.Framing, now)

def receive_from (line : T → Bool) (first bit half now : T) : Got × T :=
  Id.run (receive (fun t => pure (line t)) first bit half now)

section Pure

variable [LawfulMonad m] (line : T → Bool) (first bit half now : T)

end Pure

section Character

variable [LawfulMonad m] {line : T → Bool} {first bit half now : T}

theorem or_bit {b v : UInt8} {i : Nat} (hi : i < 8) (hv : v.toNat = b.toNat % 2 ^ i) :
    (if data_bit b i then v ||| (1 <<< UInt8.ofNat i) else v).toNat = b.toNat % 2 ^ (i + 1) := by
  have hsmall : v.toNat < 2 ^ i := by
    rw [hv]
    exact Nat.mod_lt _ (Nat.two_pow_pos i)
  have hbit : (1 <<< UInt8.ofNat i : UInt8).toNat = 2 ^ i := by
    rw [UInt8.toNat_shiftLeft, shift_toNat hi, UInt8.toNat_one, Nat.one_shiftLeft, Nat.mod_eq_of_lt]
    exact Nat.pow_lt_pow_right (by decide) hi
  rw [data_bit_eq b hi, Nat.mod_pow_succ, ← hv]
  rcases Nat.mod_two_eq_zero_or_one (b.toNat / 2 ^ i) with hclear | hset
  · simp [hclear]
  · have hor := Nat.two_pow_add_eq_or_of_lt hsmall 1
    rw [hset, decide_eq_true rfl, if_pos rfl, UInt8.toNat_or, hbit, Nat.or_comm, Nat.add_comm]
    rw [Nat.mul_one] at hor ⊢
    exact hor.symm

theorem read_bits_eq (b : UInt8) (h : ∀ i : Nat, i < 8 → line (now + i * bit) = data_bit b i) :
    read_bits (fun t => (pure (line t) : m Bool)) bit now = pure (b, now + 8 * bit) := by
  have hread : ∀ n ≤ 8, ∃ v : UInt8, v.toNat = b.toNat % 2 ^ n ∧
      (List.range n).foldlM (fun (v, now) i => do
        let high ← (pure (line now) : m Bool)
        pure (if high then v ||| (1 <<< UInt8.ofNat i) else v, now + bit)) (0, now) =
          pure (v, now + n * bit) := by
    intro n
    induction n with
    | zero =>
      intro _
      exact ⟨0, (Nat.mod_one _).symm, by simp⟩
    | succ n ih =>
      intro hn
      obtain ⟨v, hv, hfold⟩ := ih (by omega)
      refine ⟨_, or_bit (b := b) (by omega) hv, ?_⟩
      rw [List.range_succ, List.foldlM_append, hfold, pure_bind, List.foldlM_cons]
      dsimp only
      rw [pure_bind, pure_bind, List.foldlM_nil, h n (by omega)]
      have htime : now + n * bit + bit = now + (n + 1 : Nat) * bit := by
        push_cast
        ring
      rw [htime]
  obtain ⟨v, hv, hfold⟩ := hread 8 (Nat.le_refl 8)
  rw [Nat.mod_eq_of_lt b.toNat_lt, UInt8.toNat_inj] at hv
  subst hv
  exact hfold

theorem receive_idle (h : line now = true) :
    receive (fun t => (pure (line t) : m Bool)) first bit half now = pure (.Idle, now) := by
  unfold receive
  rw [pure_bind, h, if_pos rfl]

theorem receive_byte (b : UInt8) (hlow : line now = false)
    (hbits : ∀ i : Nat, i < 8 → line (now + first + i * bit) = data_bit b i)
    (hstop : line (now + first + 8 * bit) = true) :
    receive (fun t => (pure (line t) : m Bool)) first bit half now =
      pure (.Byte b, now + first + 8 * bit) := by
  unfold receive
  rw [pure_bind, hlow, if_neg Bool.false_ne_true, read_bits_eq b hbits, pure_bind]
  dsimp only
  rw [pure_bind, hstop, if_pos rfl]

end Character

end Receiver

end OtaUpdater.Lib.Serial
