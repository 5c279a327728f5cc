import OtaUpdater.Agreement.Codec

/-!
# What the host's codec promises by itself

`encode` and `decode` undo each other, and a padded read has one frame in it at most.
-/

open OtaUpdater.Wire

namespace OtaUpdater.Host

/-! ## Round trips -/

theorem encode_error_iff (cmd : UInt8) (payload out : List UInt8) :
    (∃ e, (encode cmd payload out).1 = .error e) ↔
      payloadMax < payload.length ∨ out.length < payload.length + 3 := by
  rcases Nat.lt_or_ge payloadMax payload.length with hlarge | hmax
  · rw [encode_too_large _ _ _ hlarge]
    exact iff_of_true ⟨_, rfl⟩ (Or.inl hlarge)
  rcases Nat.lt_or_ge out.length (payload.length + 3) with hsmall | hroom
  · rw [encode_too_small _ _ _ hmax hsmall]
    exact iff_of_true ⟨_, rfl⟩ (Or.inr hsmall)
  · rw [encode_ok _ _ _ hmax hroom]
    refine iff_of_false ?_ (by omega)
    rintro ⟨e, h⟩
    cases h

theorem encode_extent (cmd : UInt8) (payload out : List UInt8) :
    match encode cmd payload out with
    | (.ok n, out') => out'.length = out.length ∧ out'.drop n = out.drop n
    | (.error _, out') => out' = out := by
  rcases Nat.lt_or_ge payloadMax payload.length with hlarge | hmax
  · rw [encode_too_large _ _ _ hlarge]
  rcases Nat.lt_or_ge out.length (payload.length + 3) with hsmall | hroom
  · rw [encode_too_small _ _ _ hmax hsmall]
  · rw [encode_ok _ _ _ hmax hroom]
    dsimp only
    constructor
    · rw [List.length_append, length_wire, List.length_drop]
      omega
    · rw [List.drop_left' (length_wire _ _)]

theorem encode_of_decode {raw : List UInt8} {fr : Frame} (h : decode raw = .ok fr)
    (out : List UInt8) (hout : raw.length ≤ out.length) :
    encode fr.cmd fr.payload out = (.ok raw.length, raw ++ out.drop raw.length) := by
  rw [decode_iff] at h
  obtain ⟨hmax, rfl⟩ := h
  rw [length_wire] at hout ⊢
  exact encode_ok _ _ _ hmax hout

theorem encode_decode_roundtrip :
    (∀ cmd payload out, payload.length ≤ 252 → payload.length + 3 ≤ out.length →
      (encode cmd payload out).1 = .ok (payload.length + 3) ∧
        decode ((encode cmd payload out).2.take (payload.length + 3)) = .ok ⟨cmd, payload⟩) ∧
    (∀ raw fr out, decode raw = .ok fr → raw.length ≤ out.length →
      (encode fr.cmd fr.payload out).1 = .ok raw.length ∧
        (encode fr.cmd fr.payload out).2.take raw.length = raw) ∧
    (∀ raw raw' fr, decode raw = .ok fr → decode raw' = .ok fr → raw = raw') ∧
    (∀ cmd payload out, (∃ e, (encode cmd payload out).1 = .error e) ↔
      252 < payload.length ∨ out.length < payload.length + 3) ∧
    (∀ cmd payload out, match encode cmd payload out with
      | (.ok n, out') => out'.length = out.length ∧ out'.drop n = out.drop n
      | (.error _, out') => out' = out) := by
  refine ⟨?_, ?_, ?_, encode_error_iff, encode_extent⟩
  · intro cmd payload out hmax hout
    rw [encode_ok cmd payload out hmax hout]
    refine ⟨rfl, ?_⟩
    dsimp only
    rw [List.take_left' (length_wire _ _), decode_iff]
    exact ⟨hmax, rfl⟩
  · intro raw fr out hdecode hout
    rw [encode_of_decode hdecode out hout]
    exact ⟨rfl, List.take_left⟩
  · intro raw raw' fr h h'
    rw [decode_iff] at h h'
    rw [h.2, h'.2]

/-! ## Padded reads -/

theorem decode_padded_wire (cmd : UInt8) (payload : List UInt8) (pad : Nat)
    (hmax : payload.length ≤ payloadMax) :
    decode_padded (wire cmd payload ++ List.replicate pad 0xFF) = .ok ⟨cmd, payload⟩ := by
  have hlen := len_byte payload (by unfold payloadMax at hmax; omega)
  have hbyte : (wire cmd payload ++ List.replicate pad 0xFF)[1]? =
      some (UInt8.ofNat payload.length) := rfl
  have htotal : payload.length + FRAME_OVERHEAD = (wire cmd payload).length := by
    rw [length_wire]
    rfl
  unfold decode_padded
  rw [hbyte]
  dsimp only
  rw [hlen, htotal, if_neg (by simp), List.drop_left, if_pos (by simp), List.take_left,
    decode_iff]
  exact ⟨hmax, rfl⟩

theorem decode_padded_ok {raw : List UInt8} {fr : Frame} (h : decode_padded raw = .ok fr) :
    fr.payload.length ≤ payloadMax ∧
      ∃ pad, raw = wire fr.cmd fr.payload ++ List.replicate pad 0xFF := by
  unfold decode_padded at h
  split at h
  · cases h
  · rename_i len_byte hbyte
    dsimp only at h
    split_ifs at h with hshort hfiller
    rw [decode_iff] at h
    refine ⟨h.1, (raw.drop (len_byte.toNat + FRAME_OVERHEAD)).length, ?_⟩
    have hpad : raw.drop (len_byte.toNat + FRAME_OVERHEAD) =
        List.replicate (raw.drop (len_byte.toNat + FRAME_OVERHEAD)).length 0xFF := by
      rw [List.eq_replicate_iff]
      refine ⟨rfl, ?_⟩
      intro b hb
      rw [List.all_eq_true] at hfiller
      simpa using hfiller b hb
    rw [← hpad, ← h.2, List.take_append_drop]

theorem frame_of_padded {raw g : List UInt8} {fr : Frame} {k : Nat}
    (hraw : raw = g ++ List.replicate k 0xFF) (hdecode : decode g = .ok fr) :
    g.length = (raw.getD 1 0).toNat + 3 ∧ g = raw.take ((raw.getD 1 0).toNat + 3) := by
  rw [decode_iff] at hdecode
  obtain ⟨hmax, hwire⟩ := hdecode
  have hbyte : raw.getD 1 0 = UInt8.ofNat fr.payload.length := by
    rw [hraw, hwire]
    rfl
  have hlen := len_byte fr.payload (by unfold payloadMax at hmax; omega)
  have hsize : g.length = (raw.getD 1 0).toNat + 3 := by
    rw [hbyte, hlen, hwire, length_wire]
  refine ⟨hsize, ?_⟩
  rw [← hsize, hraw, List.take_left]

theorem decode_error {raw : List UInt8} {e : Error Empty} (h : decode raw = .error e) :
    e = .BadFrame := by
  unfold decode at h
  split at h
  · dsimp only at h
    split_ifs at h
    · exact (Except.error.inj h).symm
    · exact (Except.error.inj h).symm
  · exact (Except.error.inj h).symm

theorem decode_padded_error {raw : List UInt8} {e : Error Empty} (h : decode_padded raw = .error e) :
    e = .BadFrame := by
  unfold decode_padded at h
  split at h
  · exact (Except.error.inj h).symm
  · dsimp only at h
    split_ifs at h
    · exact (Except.error.inj h).symm
    · exact decode_error h
    · exact (Except.error.inj h).symm

/-- An idle line, read for as long as one likes, is no frame: LEN would be 255. -/
theorem decode_padded_idle (n : Nat) : decode_padded (List.replicate n 0xFF) = .error .BadFrame := by
  rcases hdecode : decode_padded (List.replicate n 0xFF) with e | fr
  · rw [decode_padded_error hdecode]
  · obtain ⟨hmax, pad, hraw⟩ := decode_padded_ok hdecode
    have hlen := len_byte fr.payload (by unfold payloadMax at hmax; omega)
    have hmem : UInt8.ofNat fr.payload.length ∈ List.replicate n (0xFF : UInt8) := by
      rw [hraw]
      simp [wire]
    have hbyte : UInt8.ofNat fr.payload.length = 0xFF := List.eq_of_mem_replicate hmem
    rw [hbyte] at hlen
    unfold payloadMax at hmax
    have h255 : (0xFF : UInt8).toNat = 255 := rfl
    omega

/-- A padded read is accepted for the one frame it starts with. -/
theorem decode_padded_iff :
    (∀ raw fr, decode_padded raw = .ok fr ↔
      ∃ g k, raw = g ++ List.replicate k 0xFF ∧ decode g = .ok fr) ∧
    (∀ raw g k fr, raw = g ++ List.replicate k 0xFF → decode g = .ok fr →
      g.length = (raw.getD 1 0).toNat + 3 ∧
        ∀ g' k' fr', raw = g' ++ List.replicate k' 0xFF → decode g' = .ok fr' → g' = g ∧ fr' = fr) ∧
    (∀ n, decode_padded (List.replicate n 0xFF) = .error .BadFrame) := by
  refine ⟨?_, ?_, decode_padded_idle⟩
  · intro raw fr
    constructor
    · intro h
      obtain ⟨hmax, pad, hraw⟩ := decode_padded_ok h
      refine ⟨wire fr.cmd fr.payload, pad, hraw, ?_⟩
      rw [decode_iff]
      exact ⟨hmax, rfl⟩
    · rintro ⟨g, k, rfl, hdecode⟩
      rw [decode_iff] at hdecode
      obtain ⟨hmax, rfl⟩ := hdecode
      exact decode_padded_wire _ _ _ hmax
  · intro raw g k fr hraw hdecode
    obtain ⟨hsize, htake⟩ := frame_of_padded hraw hdecode
    refine ⟨hsize, ?_⟩
    intro g' k' fr' hraw' hdecode'
    obtain ⟨-, htake'⟩ := frame_of_padded hraw' hdecode'
    have hsame : g' = g := htake'.trans htake.symm
    rw [hsame, hdecode] at hdecode'
    exact ⟨hsame, (Except.ok.inj hdecode').symm⟩

end OtaUpdater.Host
