import OtaUpdater.Wire
import OtaUpdater.Device.Proto
import OtaUpdater.Host.Frame

/-!
# One codec

Both codecs against the wire format, and so against each other.
-/

open OtaUpdater.Lib.Bytes OtaUpdater.Lib.Crc OtaUpdater.Wire

/-! ## The checksums -/

namespace OtaUpdater.Wire

theorem top_bit_iff (c : UInt8) : c &&& 0x80 ≠ 0 ↔ c.toBitVec.msb = true := by
  have hand : (c &&& 0x80).toBitVec = c.toBitVec &&& BitVec.twoPow 8 7 := by simp [BitVec.twoPow]
  rw [ne_eq, ← UInt8.toBitVec_inj, hand, BitVec.and_twoPow, BitVec.msb_eq_getLsbD_last]
  cases c.toBitVec.getLsbD 7 <;> decide

end OtaUpdater.Wire

namespace OtaUpdater.Device

theorem upd_crc8_bit_eq (c : UInt8) : upd_crc8_bit c = checksumBit c := by
  have hmask : ∀ v : Nat, UInt8.ofNat (v &&& 0xFF) = UInt8.ofNat v := by
    intro v
    apply UInt8.toNat_inj.mp
    rw [UInt8.toNat_ofNat', UInt8.toNat_ofNat', Nat.and_two_pow_sub_one_eq_mod v 8, Nat.mod_mod]
  have hshift : UInt8.ofNat (c.toNat <<< 1) = c <<< 1 := by
    apply UInt8.toNat_inj.mp
    rw [UInt8.toNat_ofNat', UInt8.toNat_shiftLeft]
    rfl
  have hxor : UInt8.ofNat (c.toNat <<< 1 ^^^ 0x07) = c <<< 1 ^^^ 0x07 := by
    rw [← hshift]
    apply UInt8.toNat_inj.mp
    rw [UInt8.toNat_ofNat', UInt8.toNat_xor, UInt8.toNat_ofNat', Nat.xor_mod_two_pow]
    rfl
  simp only [upd_crc8_bit, checksumBit, shiftMsb, hmask, top_bit_iff]
  split
  · rw [hxor]; rfl
  · rw [hshift]; rfl

theorem upd_crc8_byte_eq : upd_crc8_byte = checksumByte := by
  funext c b
  rw [upd_crc8_byte, checksumByte, funext upd_crc8_bit_eq]

theorem upd_crc8_eq (p : List UInt8) (n : UInt8) (h : n.toNat ≤ p.length) :
    upd_crc8 p n = checksum (p.take n.toNat) := by
  rw [upd_crc8, upd_crc8_byte_eq, foldl_range_getD _ _ _ _ h, checksum]

/-! ## The device's parser -/

theorem upd_frame_parse_iff (buf : List UInt8) (n : UInt8) (h : n.toNat ≤ buf.length)
    (fr : UpdFrame) :
    upd_frame_parse buf n = some fr ↔ buf.take n.toNat = wire fr.cmd fr.payload := by
  have hn := n.toNat_lt
  have hget : ∀ i, i < n.toNat → (buf.take n.toNat).getD i 0 = buf.getD i 0 := by
    intro i hi
    simp [List.getD_eq_getElem?_getD, hi]
  have hover : UPD_FRAME_OVERHEAD = 3 := rfl
  have hlength : (buf.take n.toNat).length = n.toNat := List.length_take_of_le h
  rw [eq_wire_iff, hlength, upd_frame_parse]
  by_cases hshort : n.toNat < UPD_FRAME_OVERHEAD
  · rw [if_pos hshort]
    constructor
    · intro hnone
      cases hnone
    · rintro ⟨hlen, -⟩
      omega
  rw [if_neg hshort]
  dsimp only
  have hlast : (buf.take n.toNat).getLastD 0 = buf.getD (n.toNat - 1) 0 := by
    rw [← hget _ (by omega), List.getLastD_eq_getLast?, List.getLast?_eq_getElem?, hlength,
      List.getD_eq_getElem?_getD]
  have hone : (n - 1).toNat = n.toNat - 1 :=
    UInt8.toNat_sub_of_le _ _ (by rw [UInt8.le_iff_toNat_le]; change 1 ≤ n.toNat; omega)
  have hcrc : upd_crc8 buf (n - 1) = checksum (buf.take n.toNat).dropLast := by
    rw [upd_crc8_eq _ _ (by omega), hone, List.dropLast_eq_take, hlength, List.take_take,
      Nat.min_eq_left (by omega)]
  rw [hlast, hget 0 (by omega), hget 1 (by omega), hcrc]
  constructor
  · intro hsome
    rw [Option.ite_none_left_eq_some, Option.ite_none_left_eq_some, not_not, not_not] at hsome
    obtain ⟨hlen, hcrc, hfr⟩ := hsome
    rw [Option.some.injEq] at hfr
    subst hfr
    have hpayload : window 2 (buf.getD 1 0).toNat buf = (buf.drop 2).take (buf.getD 1 0).toNat :=
      window_eq_take_drop _ _ _ (by omega)
    refine ⟨by rw [length_window]; omega, rfl, by simp, ?_, hcrc⟩
    rw [length_window]
    change _ = window 2 (buf.getD 1 0).toNat buf
    rw [hpayload, List.drop_take, List.take_take, Nat.min_eq_left (by omega)]
  · rintro ⟨hlen, hcmd, hlen_byte, hpayload, hcrc_byte⟩
    rw [fr.payload_length] at hlen hlen_byte hpayload
    have hfr : buf.getD 1 0 = fr.len := by rw [hlen_byte, UInt8.ofNat_toNat]
    rw [if_neg (by rw [hfr]; omega), if_neg (by rw [not_not]; exact hcrc_byte)]
    congr 1
    obtain ⟨cmd, len, payload, hsize⟩ := fr
    simp only at hcmd hfr hpayload hlen
    subst hcmd hfr
    congr 1
    rw [window_eq_take_drop _ _ _ (by omega), ← hpayload, List.drop_take, List.take_take,
      Nat.min_eq_left (by omega)]

/-! ## The device's builder -/

theorem copyPayload_succ (payload : PayloadPtr) (len : Nat) (buf : List UInt8) :
    copyPayload payload (len + 1) buf =
      (copyPayload payload len buf).set (2 + len) (payload.read (copyPayload payload len buf) len) := by
  rw [copyPayload, List.range_succ, List.foldl_append]
  rfl

theorem copyPayload_apart (bytes : List UInt8) (len : Nat) (buf : List UInt8)
    (hbytes : len ≤ bytes.length) (hbuf : 2 + len ≤ buf.length) :
    copyPayload (.apart bytes) len buf = buf.take 2 ++ bytes.take len ++ buf.drop (2 + len) := by
  induction len with
  | zero => simp [copyPayload]
  | succ len ih =>
    have hlast : copyPayload (.apart bytes) (len + 1) buf =
        (copyPayload (.apart bytes) len buf).set (2 + len) (bytes.getD len 0) :=
      copyPayload_succ _ len buf
    have hbyte : bytes.getD len 0 = bytes[len] := by simp [List.getElem?_eq_getElem (by omega : len < bytes.length)]
    have hfront : (buf.take 2 ++ bytes.take len).length = 2 + len := by
      simp; omega
    rw [hlast, ih (by omega) (by omega), List.set_append_right _ _ (by omega), hfront,
      Nat.sub_self, List.drop_eq_getElem_cons (by omega : 2 + len < buf.length), List.set_cons_zero,
      hbyte, List.take_succ_eq_append_getElem (by omega : len < bytes.length), Nat.add_assoc]
    simp only [List.append_assoc, List.cons_append, List.nil_append]

theorem copyPayload_above (payload : PayloadPtr) (len : Nat) (buf : List UInt8) :
    ∀ k, 2 + len ≤ k → (copyPayload payload len buf).getD k 0 = buf.getD k 0 := by
  induction len with
  | zero =>
    intro k _
    rfl
  | succ len ih =>
    intro k hk
    rw [copyPayload_succ, List.getD_eq_getElem?_getD, List.getElem?_set_ne (by omega),
      ← List.getD_eq_getElem?_getD, ih k (by omega)]

/-- The loop writes at or below the byte it reads, so it reads what was there at the start. -/
theorem copyPayload_inside (o size : Nat) (buf : List UInt8) (ho : 2 ≤ o) : ∀ len, len ≤ size →
    copyPayload (.inside o) len buf = copyPayload (.apart (window o size buf)) len buf := by
  intro len
  induction len with
  | zero =>
    intro _
    rfl
  | succ len ih =>
    intro hlen
    have hread : PayloadPtr.read (copyPayload (.inside o) len buf) (.inside o) len =
        (window o size buf).getD len 0 := by
      change (copyPayload (.inside o) len buf).getD (o + len) 0 = _
      rw [copyPayload_above _ _ _ _ (by omega)]
      simp [window, List.getElem?_range (show len < size by omega)]
    rw [copyPayload_succ, copyPayload_succ, hread, ih (by omega)]
    rfl

theorem seal_eq_wire (cmd len : UInt8) (payload rest : List UInt8) (old : UInt8)
    (hpayload : payload.length = len.toNat) (hlen : len.toNat + 3 ≤ 255) :
    (cmd :: len :: (payload ++ old :: rest)).set (len.toNat + 3 - 1)
        (upd_crc8 (cmd :: len :: (payload ++ old :: rest)) (UInt8.ofNat (len.toNat + 3 - 1))) =
      wire cmd payload ++ rest := by
  have hsize : (UInt8.ofNat (len.toNat + 3 - 1)).toNat = payload.length + 2 := by
    rw [UInt8.toNat_ofNat', Nat.mod_eq_of_lt (by omega)]
    omega
  have hbyte : UInt8.ofNat payload.length = len := by rw [hpayload, UInt8.ofNat_toNat]
  rw [upd_crc8_eq _ _ (by rw [hsize]; simp), hsize]
  have hindex : len.toNat + 3 - 1 = payload.length + 2 := by omega
  rw [hindex, List.set_cons_succ, List.set_cons_succ, List.set_append_right _ _ (by omega),
    Nat.sub_self, List.set_cons_zero, List.take_succ_cons, List.take_succ_cons,
    List.take_left, wire, hbyte]
  simp

theorem upd_frame_build_refused (buf : List UInt8) (cap cmd : UInt8) (payload : PayloadPtr)
    (len : UInt8) (h : cap.toNat < len.toNat + 3) :
    upd_frame_build buf cap cmd payload len = (0, buf) := by
  exact if_pos (Or.inr h)

theorem upd_frame_build_apart (buf : List UInt8) (cap cmd : UInt8) (payload : List UInt8)
    (len : UInt8) (hbuf : cap.toNat ≤ buf.length) (hpayload : payload.length = len.toNat)
    (hcap : len.toNat + 3 ≤ cap.toNat) :
    upd_frame_build buf cap cmd (.apart payload) len =
      (UInt8.ofNat (len.toNat + 3), wire cmd payload ++ buf.drop (len.toNat + 3)) := by
  have hlt := cap.toNat_lt
  rw [upd_frame_build, if_neg (by simp only [UPD_FRAME_OVERHEAD]; omega)]
  match buf, hbuf with
  | a :: b :: rest, hbuf =>
    simp only [List.set_cons_zero, List.set_cons_succ, UPD_FRAME_OVERHEAD]
    simp only [List.length_cons] at hbuf
    rw [copyPayload_apart _ _ _ (by omega) (by simp; omega), ← hpayload, List.take_length]
    obtain ⟨old, tail, hdrop⟩ : ∃ old tail, rest.drop payload.length = old :: tail :=
      ⟨_, _, List.drop_eq_getElem_cons (by omega)⟩
    have htail : rest.drop (payload.length + 1) = tail := by
      rw [← List.drop_drop, hdrop]
      rfl
    have hfront : (cmd :: len :: rest).take 2 ++ payload ++ (cmd :: len :: rest).drop (2 + payload.length) =
        cmd :: len :: (payload ++ old :: tail) := by
      rw [Nat.add_comm 2, ← hdrop]
      simp
    rw [hfront, hpayload, seal_eq_wire _ _ _ _ _ hpayload (by omega)]
    have hend : (a :: b :: rest).drop (len.toNat + 3) = tail := by
      rw [← hpayload, ← htail]
      rfl
    rw [hend]
  | [], hbuf | [_], hbuf =>
    simp at hbuf
    omega

theorem upd_frame_build_shows (buf : List UInt8) (cap cmd : UInt8) (payload : List UInt8)
    (hbuf : buf.length = cap.toNat) (hroom : payload.length + 3 ≤ cap.toNat) :
    let built := upd_frame_build buf cap cmd (.apart payload) (UInt8.ofNat payload.length)
    built.2.take built.1.toNat = wire cmd payload ∧ built.1.toNat ≤ cap.toNat ∧
      built.2.length = cap.toNat := by
  have hlt := cap.toNat_lt
  have hlen := len_byte payload (by omega)
  have htotal : (UInt8.ofNat (payload.length + 3)).toNat = payload.length + 3 := by
    rw [UInt8.toNat_ofNat', Nat.mod_eq_of_lt (by omega)]
  intro built
  have hbuilt : built = (UInt8.ofNat (payload.length + 3),
      wire cmd payload ++ buf.drop (payload.length + 3)) := by
    unfold built
    rw [upd_frame_build_apart _ _ _ _ _ (by omega) hlen.symm (by omega), hlen]
  rw [hbuilt, htotal]
  refine ⟨?_, hroom, ?_⟩
  · rw [List.take_append_of_le_length (by simp), List.take_of_length_le (by simp)]
  · simp
    omega

theorem copyPayload_header (payload : PayloadPtr) (len : Nat) (buf : List UInt8) :
    (copyPayload payload len buf).length = buf.length ∧
      (copyPayload payload len buf).take 2 = buf.take 2 := by
  induction len with
  | zero => exact ⟨rfl, rfl⟩
  | succ len ih =>
    rw [copyPayload_succ, List.length_set, List.take_set_of_le (by omega)]
    exact ih

theorem upd_frame_build_frame (buf : List UInt8) (cap cmd : UInt8) (payload : PayloadPtr)
    (len : UInt8) (hbuf : cap.toNat ≤ buf.length)
    (hbuilt : (upd_frame_build buf cap cmd payload len).1 ≠ 0) :
    ∃ bytes, bytes.length = len.toNat ∧ len.toNat + 3 ≤ cap.toNat ∧
      (upd_frame_build buf cap cmd payload len).1 = UInt8.ofNat (len.toNat + 3) ∧
      (upd_frame_build buf cap cmd payload len).2.take (len.toNat + 3) = wire cmd bytes := by
  have hlt := cap.toNat_lt
  rcases Nat.lt_or_ge cap.toNat (len.toNat + 3) with hsmall | hcap
  · rw [upd_frame_build_refused _ _ _ _ _ hsmall] at hbuilt
    exact absurd rfl hbuilt
  rw [upd_frame_build, if_neg (by simp only [UPD_FRAME_OVERHEAD]; omega)]
  simp only [UPD_FRAME_OVERHEAD]
  match buf, hbuf with
  | a :: b :: rest, hbuf =>
    simp only [List.set_cons_zero, List.set_cons_succ]
    obtain ⟨hlength, hheader⟩ := copyPayload_header payload len.toNat (cmd :: len :: rest)
    generalize copyPayload payload len.toNat (cmd :: len :: rest) = copied at hlength hheader ⊢
    match copied, hlength with
    | c :: l :: behind, hlength =>
      simp only [List.length_cons] at hbuf hlength
      obtain ⟨rfl, rfl⟩ : c = cmd ∧ l = len := by simpa using hheader
      obtain ⟨old, tail, hdrop⟩ : ∃ old tail, behind.drop l.toNat = old :: tail :=
        ⟨_, _, List.drop_eq_getElem_cons (by omega)⟩
      have hbytes : (behind.take l.toNat).length = l.toNat := List.length_take_of_le (by omega)
      refine ⟨behind.take l.toNat, hbytes, hcap, trivial, ?_⟩
      rw [← List.take_append_drop l.toNat behind, hdrop, seal_eq_wire _ _ _ _ _ hbytes (by omega),
        List.take_left' (by rw [length_wire, hbytes]), ← hdrop, List.take_append_drop]
  | [], hbuf | [_], hbuf =>
    simp at hbuf
    omega

theorem window_header (o n : Nat) (buf : List UInt8) (cmd len : UInt8) (ho : 2 ≤ o) :
    window o n ((buf.set 0 cmd).set 1 len) = window o n buf := by
  apply List.map_congr_left
  intro i _
  rw [List.getD_eq_getElem?_getD, List.getElem?_set_ne (by omega), List.getElem?_set_ne (by omega),
    ← List.getD_eq_getElem?_getD]

theorem upd_frame_build_inside (buf : List UInt8) (cap cmd len : UInt8) (o : Nat) (ho : 2 ≤ o) :
    upd_frame_build buf cap cmd (.inside o) len =
      upd_frame_build buf cap cmd (.apart (window o len.toNat buf)) len := by
  unfold upd_frame_build
  dsimp only
  rw [copyPayload_inside o len.toNat _ ho len.toNat (Nat.le_refl _), window_header _ _ _ _ _ ho]

/-- A payload may lie anywhere behind the header of the frame that is built over it. -/
theorem upd_frame_build_in_place (buf : List UInt8) (cap cmd len : UInt8) (o : Nat)
    (hroom : len.toNat + 3 ≤ min cap.toNat 255) (hbuf : cap.toNat ≤ buf.length) (ho : 2 ≤ o)
    (hinside : o + len.toNat ≤ buf.length) :
    upd_frame_build buf cap cmd (.inside o) len =
        upd_frame_build buf cap cmd (.apart ((buf.drop o).take len.toNat)) len ∧
      upd_frame_build buf cap cmd (.inside o) len =
        (UInt8.ofNat (len.toNat + 3),
          wire cmd ((buf.drop o).take len.toNat) ++ buf.drop (len.toNat + 3)) ∧
      ∃ fr, upd_frame_parse (upd_frame_build buf cap cmd (.inside o) len).2
          (upd_frame_build buf cap cmd (.inside o) len).1 = some fr ∧
        fr.cmd = cmd ∧ fr.len = len ∧ fr.payload = (buf.drop o).take len.toNat := by
  have hwindow : window o len.toNat buf = (buf.drop o).take len.toNat :=
    window_eq_take_drop _ _ _ hinside
  have hsame := upd_frame_build_inside buf cap cmd len o ho
  rw [hwindow] at hsame
  have hpayload : ((buf.drop o).take len.toNat).length = len.toNat := by
    rw [← hwindow, length_window]
  have hbuilt := upd_frame_build_apart buf cap cmd _ len hbuf hpayload (by omega)
  refine ⟨hsame, hsame.trans hbuilt, ⟨cmd, len, (buf.drop o).take len.toNat, hpayload⟩, ?_, rfl, rfl, rfl⟩
  have htotal : (UInt8.ofNat (len.toNat + 3)).toNat = len.toNat + 3 := by
    rw [UInt8.toNat_ofNat', Nat.mod_eq_of_lt (by omega)]
  have hwire : (wire cmd ((buf.drop o).take len.toNat)).length = len.toNat + 3 := by
    rw [length_wire, hpayload]
  rw [hsame, hbuilt, upd_frame_parse_iff _ _ (by rw [htotal, List.length_append]; omega), htotal]
  exact List.take_left' hwire

theorem upd_frame_build_in_place_three :
    upd_frame_build [9, 9, 9, 0xAA, 0xBB, 9, 9] 6 0x06 (.inside 3) 2 =
        upd_frame_build [9, 9, 9, 0xAA, 0xBB, 9, 9] 6 0x06
          (.apart (([9, 9, 9, 0xAA, 0xBB, 9, 9].drop 3).take (2 : UInt8).toNat)) 2 ∧
      upd_frame_build [9, 9, 9, 0xAA, 0xBB, 9, 9] 6 0x06 (.inside 3) 2 =
        (UInt8.ofNat ((2 : UInt8).toNat + 3),
          wire 0x06 (([9, 9, 9, 0xAA, 0xBB, 9, 9].drop 3).take (2 : UInt8).toNat) ++
            [9, 9, 9, 0xAA, 0xBB, 9, 9].drop ((2 : UInt8).toNat + 3)) ∧
      ∃ fr, upd_frame_parse
          (upd_frame_build [9, 9, 9, 0xAA, 0xBB, 9, 9] 6 0x06 (.inside 3) 2).2
          (upd_frame_build [9, 9, 9, 0xAA, 0xBB, 9, 9] 6 0x06 (.inside 3) 2).1 = some fr ∧
        fr.cmd = 0x06 ∧ fr.len = 2 ∧
          fr.payload = ([9, 9, 9, 0xAA, 0xBB, 9, 9].drop 3).take (2 : UInt8).toNat :=
  upd_frame_build_in_place [9, 9, 9, 0xAA, 0xBB, 9, 9] 6 0x06 2 3 (by decide) (by decide) (by decide)
    (by decide)

end OtaUpdater.Device

namespace OtaUpdater.Host

/-! ## The host's codec -/

theorem crc8_step_eq : crc8_step = checksumByte := by
  have hbit : crc8_bit = checksumBit := by
    funext c
    simp only [crc8_bit, checksumBit, shiftMsb, top_bit_iff]
    split <;> rfl
  funext c b
  rw [crc8_step, checksumByte, hbit]

theorem head_checksum (cmd len : UInt8) (payload : List UInt8) :
    payload.foldl crc8_step (crc8_step (crc8_step 0 cmd) len) = checksum (cmd :: len :: payload) := by
  rw [crc8_step_eq, checksum, List.foldl_cons, List.foldl_cons]

theorem decode_iff (raw : List UInt8) (fr : Frame) :
    decode raw = .ok fr ↔ fr.payload.length ≤ payloadMax ∧ raw = wire fr.cmd fr.payload := by
  match raw with
  | [] | [_] =>
    simp [decode, wire]
  | cmd :: len_byte :: rest =>
    have hlt := len_byte.toNat_lt
    constructor
    · intro h
      simp only [decode, head_checksum] at h
      split_ifs at h with hshape hcrc
      rw [not_or, Nat.not_lt, ne_eq, not_not] at hshape
      rw [not_not] at hcrc
      rw [Except.ok.injEq] at h
      subst h
      obtain ⟨hmax, hrest⟩ := hshape
      obtain ⟨payload, crc, rfl⟩ : ∃ payload crc, rest = payload ++ [crc] :=
        ⟨_, _, (List.dropLast_concat_getLast (by rintro rfl; simp at hrest)).symm⟩
      have hpayload : payload.length = len_byte.toNat := by simpa using hrest
      rw [List.dropLast_concat, List.getLastD_concat] at hcrc
      simp only [List.dropLast_concat]
      refine ⟨by rw [hpayload]; exact hmax, ?_⟩
      rw [wire, hpayload, UInt8.ofNat_toNat, hcrc]
      rfl
    · rintro ⟨hmax, hwire⟩
      simp only [wire, List.cons_append, List.cons.injEq] at hwire
      obtain ⟨rfl, rfl, rfl⟩ := hwire
      have hlen : (UInt8.ofNat fr.payload.length).toNat = fr.payload.length := by
        simp only [payloadMax] at hmax
        rw [UInt8.toNat_ofNat', Nat.mod_eq_of_lt (by omega)]
      have hshape : ¬ (PAYLOAD_MAX < (UInt8.ofNat fr.payload.length).toNat ∨
          (fr.payload ++ [checksum (fr.cmd :: UInt8.ofNat fr.payload.length :: fr.payload)]).length ≠
            (UInt8.ofNat fr.payload.length).toNat + 1) := by
        rw [hlen, List.length_append, not_or, Nat.not_lt, ne_eq, not_not]
        exact ⟨hmax, rfl⟩
      simp only [decode]
      rw [if_neg hshape, head_checksum, List.dropLast_concat, List.getLastD_concat,
        if_neg (by rw [not_not])]

theorem encode_ok (cmd : UInt8) (payload out : List UInt8) (hmax : payload.length ≤ payloadMax)
    (hout : payload.length + 3 ≤ out.length) :
    encode cmd payload out =
      (.ok (payload.length + 3), wire cmd payload ++ out.drop (payload.length + 3)) := by
  simp only [payloadMax] at hmax
  simp only [encode]
  rw [if_neg (by omega), if_neg (by simp only [PAYLOAD_MAX, FRAME_OVERHEAD]; omega),
    if_neg (by simp only [FRAME_OVERHEAD]; omega), head_checksum]
  simp [wire, FRAME_OVERHEAD]

theorem encode_too_large (cmd : UInt8) (payload out : List UInt8)
    (h : payloadMax < payload.length) :
    encode cmd payload out = (.error (.PayloadTooLarge payload.length), out) := by
  simp only [encode]
  split_ifs with hbyte hmax
  · rfl
  · rfl
  · exact absurd h hmax
  · exact absurd h hmax

theorem encode_too_small (cmd : UInt8) (payload out : List UInt8)
    (hmax : payload.length ≤ payloadMax) (hout : out.length < payload.length + 3) :
    encode cmd payload out = (.error (.BufferTooSmall (payload.length + 3)), out) := by
  simp only [payloadMax] at hmax
  simp only [encode]
  rw [if_neg (by omega), if_neg (by simp only [PAYLOAD_MAX, FRAME_OVERHEAD]; omega),
    if_pos (by simp only [FRAME_OVERHEAD]; omega)]
  rfl

end OtaUpdater.Host

/-! ## Both -/

namespace OtaUpdater.Agreement

open OtaUpdater.Device OtaUpdater.Host

theorem decode_iff_upd_frame_parse (raw : List UInt8) (fr : Frame) :
    decode raw = .ok fr ↔ raw.length ≤ 255 ∧
      ∃ d, upd_frame_parse raw (UInt8.ofNat raw.length) = some d ∧
        d.cmd = fr.cmd ∧ d.payload = fr.payload := by
  rw [decode_iff]
  have hsize : raw.length ≤ 255 → (UInt8.ofNat raw.length).toNat = raw.length := by
    intro h
    rw [UInt8.toNat_ofNat', Nat.mod_eq_of_lt (by omega)]
  constructor
  · rintro ⟨hmax, hwire⟩
    simp only [payloadMax] at hmax
    have hlen := congrArg List.length hwire
    rw [length_wire] at hlen
    have hbyte := (len_byte fr.payload (by omega)).symm
    refine ⟨by omega, ⟨fr.cmd, UInt8.ofNat fr.payload.length, fr.payload, hbyte⟩, ?_, rfl, rfl⟩
    rw [upd_frame_parse_iff _ _ (Nat.le_of_eq (hsize (by omega))), hsize (by omega), List.take_length]
    exact hwire
  · rintro ⟨hraw, d, hparse, hcmd, hpayload⟩
    rw [upd_frame_parse_iff _ _ (Nat.le_of_eq (hsize hraw)), hsize hraw, List.take_length, hcmd,
      hpayload] at hparse
    have hlen := congrArg List.length hparse
    rw [length_wire] at hlen
    simp only [payloadMax]
    exact ⟨by omega, hparse⟩

theorem encode_eq_upd_frame_build (cmd : UInt8) (payload out : List UInt8)
    (hpayload : payload.length ≤ 255) (hout : out.length ≤ 255) :
    let built := upd_frame_build out (UInt8.ofNat out.length) cmd (.apart payload)
      (UInt8.ofNat payload.length)
    (∀ n, (encode cmd payload out).1 = .ok n ↔ built.1 ≠ 0 ∧ built.1.toNat = n) ∧
      (encode cmd payload out).2 = built.2 := by
  have hlen := len_byte payload (by omega)
  have hcap := len_byte out (by omega)
  by_cases hfit : payload.length + 3 ≤ out.length
  · have htotal : (UInt8.ofNat (payload.length + 3)).toNat = payload.length + 3 := by
      rw [UInt8.toNat_ofNat', Nat.mod_eq_of_lt (by omega)]
    rw [upd_frame_build_apart _ _ _ _ _ (by omega) (by omega) (by omega), hlen,
      encode_ok _ _ _ (by simp only [payloadMax]; omega) hfit]
    refine ⟨fun n => ?_, rfl⟩
    have hne : UInt8.ofNat (payload.length + 3) ≠ 0 := by
      intro h
      rw [h] at htotal
      simp at htotal
    simp only [Except.ok.injEq, htotal]
    constructor
    · intro h
      exact ⟨hne, h⟩
    · exact And.right
  · rw [upd_frame_build_refused _ _ _ _ _ (by omega)]
    have hrefused : (∀ n, (encode cmd payload out).1 ≠ .ok n) ∧ (encode cmd payload out).2 = out := by
      by_cases hmax : payload.length ≤ payloadMax
      · rw [encode_too_small _ _ _ hmax (by omega)]
        simp
      · rw [encode_too_large _ _ _ (by omega)]
        simp
    refine ⟨fun n => ?_, hrefused.2⟩
    simp [hrefused.1 n]

/-- The Rust and the C frame codecs accept, produce and refuse the same. -/
theorem codecs_agree :
    (∀ raw fr, decode raw = .ok fr → raw.length ≤ 255 ∧
      ∃ d, upd_frame_parse raw (UInt8.ofNat raw.length) = some d ∧
        d.cmd = fr.cmd ∧ d.len.toNat = fr.payload.length ∧ d.payload = fr.payload) ∧
    (∀ raw d, raw.length ≤ 255 → upd_frame_parse raw (UInt8.ofNat raw.length) = some d →
      decode raw = .ok ⟨d.cmd, d.payload⟩) ∧
    (∀ cmd payload out, payload.length ≤ 255 → out.length ≤ 255 →
      let built := upd_frame_build out (UInt8.ofNat out.length) cmd (.apart payload)
        (UInt8.ofNat payload.length)
      (∀ n, (encode cmd payload out).1 = .ok n ↔ built.1 ≠ 0 ∧ built.1.toNat = n) ∧
        ∀ n, (encode cmd payload out).1 = .ok n →
          (encode cmd payload out).2.take n = built.2.take n) ∧
    (∀ cmd payload out, 255 < payload.length →
      (encode cmd payload out).1 = .error (.PayloadTooLarge payload.length)) := by
  refine ⟨?_, ?_, ?_, ?_⟩
  · intro raw fr h
    obtain ⟨hraw, d, hparse, hcmd, hpayload⟩ := (decode_iff_upd_frame_parse raw fr).mp h
    refine ⟨hraw, d, hparse, hcmd, ?_, hpayload⟩
    rw [← hpayload, d.payload_length]
  · intro raw d hraw hparse
    exact (decode_iff_upd_frame_parse raw ⟨d.cmd, d.payload⟩).mpr ⟨hraw, d, hparse, rfl, rfl⟩
  · intro cmd payload out hpayload hout
    obtain ⟨hret, hbuf⟩ := encode_eq_upd_frame_build cmd payload out hpayload hout
    exact ⟨hret, fun n _ => by rw [hbuf]⟩
  · intro cmd payload out h
    rw [encode_too_large _ _ _ (by simp only [payloadMax]; omega)]

end OtaUpdater.Agreement
