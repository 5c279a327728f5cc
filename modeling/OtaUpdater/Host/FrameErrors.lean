import OtaUpdater.Lib.Burst
import OtaUpdater.Lib.Parity
import OtaUpdater.Host.FrameRules
import OtaUpdater.Host.Session

/-!
# Damage that the host's codec always sees

Short bursts within a frame, and odd numbers of flipped bits anywhere in a
padded read.
-/

open OtaUpdater.Lib.Crc OtaUpdater.Wire

namespace OtaUpdater.Host

/-- Bit `i` in wire order: most significant bit of each byte first. -/
def wireBit (raw : List UInt8) (i : Nat) : Bool := (raw.getD (i / 8) 0).toBitVec.getMsbD (i % 8)

/-- How many bits of `raw'` are not what they are in `raw`. -/
def bitErrors (raw raw' : List UInt8) : Nat :=
  (List.range (8 * raw.length)).countP (fun i => wireBit raw i != wireBit raw' i)

theorem wireBit_beyond (raw : List UInt8) (i : Nat) (h : 8 * raw.length ≤ i) :
    wireBit raw i = false := by
  have hdiv : raw.length ≤ i / 8 := by omega
  unfold wireBit
  rw [List.getD_eq_default _ _ hdiv]
  simp

/-! ## Bursts -/

def wireRegister : Register 8 := msbRegister 0x07#8 rfl

theorem checksumByte_toBitVec (c b : UInt8) :
    (checksumByte c b).toBitVec = Nat.repeat wireRegister.shift 8 (c.toBitVec ^^^ b.toBitVec) := rfl

theorem checksum_wire (cmd : UInt8) (payload : List UInt8) : checksum (wire cmd payload) = 0 := by
  have hself : ∀ c : UInt8, checksumByte c c = 0 := by
    intro c
    unfold checksumByte
    rw [UInt8.xor_self]
    decide
  have hlast : ∀ body : List UInt8, checksum (body ++ [checksum body]) = 0 := by
    intro body
    unfold checksum
    rw [List.foldl_append]
    exact hself _
  exact hlast _

theorem checksum_burst (start : Nat) (raw raw' : List UInt8) (hsame : raw.length = raw'.length)
    (hburst : ∀ i, wireBit raw i ≠ wireBit raw' i → start ≤ i ∧ i < start + 8)
    (h : checksum raw = checksum raw') : raw = raw' := by
  let feed : BitVec 8 → UInt8 → BitVec 8 := fun c b => Nat.repeat wireRegister.shift 8 (c ^^^ b.toBitVec)
  have hregister : ∀ raw : List UInt8, (checksum raw).toBitVec = raw.foldl feed 0#8 := by
    intro raw
    exact (List.foldl_hom UInt8.toBitVec (fun c b => (checksumByte_toBitVec c b).symm)).symm
  apply foldl_symbols_burst 8 (fun b i => b.toBitVec.getMsbD i) wireRegister feed (by omega)
    (Nat.le_refl 8) _ _ 0 0#8 start raw raw' hsame hburst
  · rw [← hregister, ← hregister, h]
  · intro c b
    have hplace : wireRegister.place (symbolBits 8 (fun b i => b.toBitVec.getMsbD i) b) = b.toBitVec :=
      placeMsb_symbolBits b.toBitVec
    rw [hplace]
  · intro a b hbits
    apply UInt8.toBitVec_inj.mp
    apply BitVec.eq_of_getMsbD_eq
    exact hbits

/-- Damage within eight consecutive bits of a frame is always seen. -/
theorem decode_rejects_bursts (raw raw' : List UInt8) (fr : Frame) (start : Nat)
    (hok : decode raw = .ok fr) (hsame : raw'.length = raw.length) (hdamaged : raw' ≠ raw)
    (hburst : ∀ i, wireBit raw' i ≠ wireBit raw i → start ≤ i ∧ i < start + 8) :
    decode raw' = .error .BadFrame := by
  rcases hdecode : decode raw' with e | fr'
  · rw [decode_error hdecode]
  · rw [decode_iff] at hok hdecode
    have hchecksum : checksum raw' = checksum raw := by
      rw [hdecode.2, hok.2, checksum_wire, checksum_wire]
    exact absurd (checksum_burst start raw' raw hsame hburst hchecksum) hdamaged

theorem decode_rejects_bursts_straddling : decode [0x04, 0x80, 0x41] = .error .BadFrame := by
  have hbits : ∀ i, i < 24 → wireBit [0x04, 0x80, 0x41] i ≠ wireBit [0x05, 0x00, 0x41] i →
      7 ≤ i ∧ i < 7 + 8 := by decide +kernel
  apply decode_rejects_bursts [0x05, 0x00, 0x41] [0x04, 0x80, 0x41] ⟨0x05, []⟩ 7 (by decide +kernel) rfl
    (by decide)
  intro i hi
  rcases Nat.lt_or_ge i 24 with hlt | hge
  · exact hbits i hlt hi
  · rw [wireBit_beyond _ _ hge, wireBit_beyond _ _ hge] at hi
    exact absurd rfl hi

/-! ## Odd numbers of bit errors -/

def oddBytes (raw : List UInt8) : Bool := oddOnes (wireBit raw) (8 * raw.length)

theorem oddBytes_cons (b : UInt8) (raw : List UInt8) :
    oddBytes (b :: raw) = (parity b.toBitVec ^^ oddBytes raw) := by
  have hfirst : ∀ i, i < 8 → wireBit (b :: raw) i = b.toBitVec.getMsbD i := by
    intro i hi
    unfold wireBit
    rw [Nat.div_eq_of_lt hi, Nat.mod_eq_of_lt hi]
    rfl
  have hrest : ∀ i, wireBit (b :: raw) (8 + i) = wireBit raw i := by
    intro i
    have hdiv : (8 + i) / 8 = i / 8 + 1 := by omega
    have hmod : (8 + i) % 8 = i % 8 := by omega
    unfold wireBit
    rw [hdiv, hmod, List.getD_cons_succ]
  unfold oddBytes parity
  rw [List.length_cons, Nat.mul_add, Nat.mul_one, Nat.add_comm, oddOnes_add, oddOnes_congr hfirst]
  simp only [hrest]

theorem oddBytes_append (xs ys : List UInt8) :
    oddBytes (xs ++ ys) = (oddBytes xs ^^ oddBytes ys) := by
  induction xs with
  | nil => simp [oddBytes, oddOnes]
  | cons x xs ih => rw [List.cons_append, oddBytes_cons, oddBytes_cons, ih, Bool.xor_assoc]

theorem parity_checksum (bytes : List UInt8) :
    parity (checksum bytes).toBitVec = oddBytes bytes := by
  have hshift : ∀ n c, parity (Nat.repeat checksumBit n c).toBitVec = parity c.toBitVec := by
    intro n c
    induction n with
    | zero => rfl
    | succ n ih => rw [← ih]; exact parity_shiftMsb 0x07#8 _ rfl
  have hfold : ∀ c : UInt8,
      parity (bytes.foldl checksumByte c).toBitVec = (parity c.toBitVec ^^ oddBytes bytes) := by
    induction bytes with
    | nil => simp [oddBytes, oddOnes]
    | cons b bytes ih =>
      intro c
      rw [List.foldl_cons, ih, oddBytes_cons, checksumByte, hshift, UInt8.toBitVec_xor, parity_xor,
        Bool.xor_assoc]
  exact (hfold 0).trans (Bool.false_xor _)

/-- Frame and filler together have an even number of ones. -/
theorem oddBytes_padded {raw : List UInt8} {fr : Frame} (h : decode_padded raw = .ok fr) :
    oddBytes raw = false := by
  obtain ⟨-, pad, hraw⟩ := decode_padded_ok h
  have hfiller : ∀ n, oddBytes (List.replicate n 0xFF) = false := by
    intro n
    induction n with
    | zero => rfl
    | succ n ih =>
      rw [List.replicate_succ, oddBytes_cons, ih]
      decide
  have hframe : ∀ body : List UInt8, oddBytes (body ++ [checksum body]) = false := by
    intro body
    have hcrc : oddBytes [checksum body] = oddBytes body := by
      rw [oddBytes_cons, parity_checksum]
      exact Bool.xor_false _
    rw [oddBytes_append, hcrc, Bool.xor_self]
  rw [hraw, oddBytes_append, hfiller, Bool.xor_false]
  exact hframe _

theorem bitErrors_odd {raw raw' : List UInt8} (hsame : raw'.length = raw.length) :
    decide (bitErrors raw raw' % 2 = 1) = (oddBytes raw ^^ oddBytes raw') := by
  unfold bitErrors oddBytes
  rw [← oddOnes_eq_countP, hsame, ← oddOnes_xor]

/-- An odd number of flipped bits in a padded read is always seen, wherever they are. -/
theorem decode_padded_rejects_odd_errors (raw raw' : List UInt8) (fr : Frame)
    (hok : decode_padded raw = .ok fr) (hsame : raw'.length = raw.length)
    (hodd : bitErrors raw raw' % 2 = 1) :
    decode_padded raw' = .error .BadFrame ∧
      ∀ expect_cmd, validate raw' expect_cmd = .error .Mangled := by
  have hrejected : decode_padded raw' = .error .BadFrame := by
    rcases hdecode : decode_padded raw' with e | fr'
    · rw [decode_padded_error hdecode]
    · have hparity := bitErrors_odd hsame
      rw [oddBytes_padded hok, oddBytes_padded hdecode, decide_eq_true hodd] at hparity
      cases hparity
  refine ⟨hrejected, ?_⟩
  intro expect_cmd
  unfold validate
  rw [hrejected]

theorem decode_padded_rejects_odd_errors_len :
    decode_padded [0x05, 0x01, 0x41, 0xFF] = .error .BadFrame ∧
      ∀ expect_cmd, validate [0x05, 0x01, 0x41, 0xFF] expect_cmd = .error .Mangled :=
  decode_padded_rejects_odd_errors [0x05, 0x00, 0x41, 0xFF] [0x05, 0x01, 0x41, 0xFF] ⟨0x05, []⟩
    (by decide +kernel) rfl (by decide +kernel)

end OtaUpdater.Host
