import OtaUpdater.Lib.Crc

/-!
# The wire format

What both codecs implement: CMD, LEN, payload, and a CRC-8 (polynomial 0x07,
most significant bit first, no reflection) over everything before it.
-/

open OtaUpdater.Lib.Crc

namespace OtaUpdater.Wire

/-! ## The checksum -/

def checksumBit (c : UInt8) : UInt8 := ⟨shiftMsb 0x07#8 c.toBitVec⟩

def checksumByte (c b : UInt8) : UInt8 := Nat.repeat checksumBit 8 (c ^^^ b)

def checksum (bytes : List UInt8) : UInt8 := bytes.foldl checksumByte 0

/-! ## Frames -/

/-- The longest payload whose frame has a one-byte size. -/
def payloadMax : Nat := 252

def wire (cmd : UInt8) (payload : List UInt8) : List UInt8 :=
  let body := cmd :: UInt8.ofNat payload.length :: payload
  body ++ [checksum body]

@[simp] theorem length_wire (cmd : UInt8) (payload : List UInt8) :
    (wire cmd payload).length = payload.length + 3 := by
  simp [wire]

/-- The LEN byte of a frame does not wrap. -/
theorem len_byte (payload : List UInt8) (h : payload.length ≤ 255) :
    (UInt8.ofNat payload.length).toNat = payload.length := by
  apply UInt8.toNat_ofNat_of_lt'
  unfold UInt8.size
  omega

/-- A byte string is a frame exactly when its LEN and its last byte say so. -/
theorem eq_wire_iff (raw : List UInt8) (cmd : UInt8) (payload : List UInt8) :
    raw = wire cmd payload ↔ raw.length = payload.length + 3 ∧ raw.getD 0 0 = cmd ∧
      raw.getD 1 0 = UInt8.ofNat payload.length ∧ (raw.drop 2).take payload.length = payload ∧
      checksum raw.dropLast = raw.getLastD 0 := by
  constructor
  · rintro rfl
    refine ⟨length_wire _ _, rfl, rfl, ?_, ?_⟩
    · simp [wire]
    · rw [wire, List.dropLast_concat, List.getLastD_concat]
  · rintro ⟨hlen, hcmd, hlen_byte, hpayload, hcrc⟩
    match raw, hlen with
    | a :: b :: rest, hlen =>
      have hrest : rest ≠ [] := by
        rintro rfl
        simp at hlen
      obtain ⟨body, crc, rfl⟩ : ∃ body crc, rest = body ++ [crc] :=
        ⟨_, _, (List.dropLast_concat_getLast hrest).symm⟩
      have hbody : body.length = payload.length := by simp at hlen; omega
      simp only [List.drop_succ_cons, List.drop_zero, ← hbody, List.take_left] at hpayload
      subst hpayload
      rw [← List.cons_append, ← List.cons_append, List.dropLast_concat,
        List.getLastD_concat] at hcrc
      simp only [List.getD_cons_zero, List.getD_cons_succ] at hcmd hlen_byte
      simp only [wire, ← hcrc, hcmd, ← hlen_byte, List.cons_append]

theorem wire_injective (cmd cmd' : UInt8) (payload payload' : List UInt8)
    (h : wire cmd payload = wire cmd' payload') : cmd = cmd' ∧ payload = payload' := by
  have hlen := congrArg List.length h
  simp only [length_wire] at hlen
  simp only [wire, List.cons_append, List.cons.injEq] at h
  refine ⟨h.1, ?_⟩
  exact List.append_inj_left h.2.2 (by omega)

end OtaUpdater.Wire
