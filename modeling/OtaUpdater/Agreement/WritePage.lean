import OtaUpdater.Agreement.Pages
import OtaUpdater.Host.Exchange

/-!
# One page, rendered in place

`Session::write_page` assembles its request by hand, over whatever its buffer
held. What leaves is what the codec would have made, and what the device takes.
-/

open OtaUpdater.Lib.Bytes OtaUpdater.Wire OtaUpdater.Device OtaUpdater.Host

namespace OtaUpdater.Agreement

section WritePage

variable {img : Image} {index : UInt16} (hindex : index < img.app_pages)
include hindex

theorem write_page_sent {ε : Type} (outcomes : Nat → Scripted ε) (buf : List UInt8)
    (progress : List (UInt16 × UInt16)) (hbuf : img.page_size.toNat + 9 ≤ buf.length) :
    ∃ k, 1 ≤ k ∧ k ≤ 4 ∧ (write_page (script outcomes) img index { transport := [], buf, progress }).2.transport =
      List.replicate k (wire CMD_WRITE_PAGE (writePayload img index)) := by
  obtain ⟨rx, -, hrun⟩ := write_page_exchange (script outcomes) img index hindex
    { transport := [], buf, progress } hbuf
  obtain ⟨k, hpos, hmax, hsent⟩ := exchange_script_sent outcomes
    (wire CMD_WRITE_PAGE (writePayload img index)) rx (CMD_WRITE_PAGE ||| RSP_FLAG)
  refine ⟨k, hpos, hmax, ?_⟩
  dsimp only at hrun
  rcases hexchange : exchange (script outcomes) [] (wire CMD_WRITE_PAGE (writePayload img index)) rx
    (CMD_WRITE_PAGE ||| RSP_FLAG) with ⟨e | n, t, rx'⟩
  · rw [hexchange] at hrun hsent
    rw [hrun]
    exact hsent
  · rw [hexchange] at hrun hsent
    rw [hrun]
    exact hsent

theorem write_payload_fits : (writePayload img index).length ≤ payloadMax := by
  have hfits : img.page_size.toNat ≤ 250 := img.page_fits
  rw [length_writePayload img index hindex]
  unfold payloadMax
  omega

theorem write_page_parsed :
    ∃ req, upd_frame_parse (wire CMD_WRITE_PAGE (writePayload img index))
        (UInt8.ofNat (wire CMD_WRITE_PAGE (writePayload img index)).length) = some req ∧
      req.cmd = UPD_CMD_WRITE_PAGE ∧ req.payload = writePayload img index := by
  have hdecode : decode (wire CMD_WRITE_PAGE (writePayload img index)) =
      .ok ⟨CMD_WRITE_PAGE, writePayload img index⟩ := by
    rw [decode_iff]
    exact ⟨write_payload_fits hindex, rfl⟩
  obtain ⟨-, req, hreq, hcmd, hpayload⟩ := (decode_iff_upd_frame_parse _ _).mp hdecode
  exact ⟨req, hreq, hcmd, hpayload⟩

theorem handle_write_erased {program : Program} (hblank : program.Fills) {req : UpdFrame}
    (hpayload : req.payload = writePayload img index) {s : UpdSession} (hps : s.info.page_size = img.page_size)
    (hap : s.info.app_pages = img.app_pages) (f : Flash) :
    handle_write (arrayPort s.info program) { s with erased := true } req (eraseAll s.info f) =
      ([UPD_ST_OK], fun off => if InPage img.page_size.toNat index.toNat off then
        (img.page index.toNat).getD (off - index.toNat * img.page_size.toNat) 0
        else eraseAll s.info f off) := by
  have hlt := UInt16.lt_iff_toNat_lt.mp hindex
  obtain ⟨hlen, hidx, hdata⟩ := write_fields index hlt hpayload
  have hrange : ¬ s.info.app_pages ≤ write_index req := by
    rw [UInt16.not_le, UInt16.lt_iff_toNat_lt, hidx, hap]
    exact hlt
  have hwrite := handle_write_array program { s with erased := true } req (eraseAll s.info f)
  rw [if_neg Bool.noConfusion, if_neg (by rw [hps]; exact not_not.mpr hlen), if_neg hrange, hidx,
    hdata, hps] at hwrite
  rw [hwrite]
  congr 1
  funext off
  unfold writePage
  split_ifs with hin
  · -- A page of the region is blank after the erase.
    have hinside : off < s.info.region := by
      unfold InPage at hin
      calc off < index.toNat * img.page_size.toNat + img.page_size.toNat := hin.2
        _ = img.page_size.toNat * (index.toNat + 1) := by rw [Nat.mul_add, Nat.mul_one, Nat.mul_comm]
        _ ≤ img.page_size.toNat * img.app_pages.toNat := Nat.mul_le_mul_left _ hlt
        _ = s.info.region := by rw [← hps, ← hap]; rfl
    have hblank_cell : eraseAll s.info f off = 0xFF := if_pos hinside
    rw [hblank_cell, hblank]
  · rfl

end WritePage

/-- The page rendered in place is the frame `encode` makes, sent as such and taken as such. -/
theorem write_page_is_encode {ε : Type} (outcomes : Nat → Scripted ε) (data : List UInt8)
    (page_size app_pages : UInt16) (img : Image)
    (himg : Image.from_bin data page_size app_pages = .ok img) (index : UInt16)
    (hindex : index < img.page_count) (buf : List UInt8) (progress : List (UInt16 × UInt16)) :
    let self : Session (List (List UInt8)) := { transport := [], buf, progress }
    let r := write_page (script outcomes) img index self
    (buf.length < page_size.toNat + 9 → r = (.error (.BufferTooSmall (page_size.toNat + 9)), self)) ∧
    (page_size.toNat + 9 ≤ buf.length → ∃ page frame k req,
      (∀ out, out.length = page_size.toNat → img.page_into index out = (.ok (), page)) ∧
      (∀ out, frame.length ≤ out.length →
        encode CMD_WRITE_PAGE (leBytes 2 index.toNat ++ page) out =
          (.ok frame.length, frame ++ out.drop frame.length)) ∧
      1 ≤ k ∧ k ≤ 4 ∧ r.2.transport = List.replicate k frame ∧
      upd_frame_parse frame (UInt8.ofNat frame.length) = some req ∧
      ∀ (program : Program) (s : UpdSession) (f : Flash), program.Fills → s.info.page_size = page_size →
        s.info.app_pages = app_pages →
        let erased := handle_erase (arrayPort s.info program) s eraseFrame f
        handle_write (arrayPort s.info program) erased.1.1 req erased.2 =
          ([UPD_ST_OK], fun off => if InPage page_size.toNat index.toNat off then
            page.getD (off - index.toNat * page_size.toNat) 0 else eraseAll s.info f off)) := by
  intro self r
  obtain ⟨-, hps, hap⟩ := from_bin_fields himg
  subst hps hap
  constructor
  · exact write_page_small (script outcomes) img index self
  · intro hbuf
    obtain ⟨k, hpos, hmax, hsent⟩ := write_page_sent hindex outcomes buf progress hbuf
    obtain ⟨req, hreq, -, hpayload⟩ := write_page_parsed hindex
    refine ⟨img.page index.toNat, wire CMD_WRITE_PAGE (writePayload img index), k, req, ?_, ?_, hpos,
      hmax, hsent, hreq, ?_⟩
    · exact fun out hout => img.page_into_page index out hindex hout
    · intro out hout
      rw [length_wire] at hout ⊢
      exact encode_ok CMD_WRITE_PAGE (writePayload img index) out (write_payload_fits hindex) hout
    · intro program s f hblank hps hap
      have hmagic : eraseFrame.payload = eraseMagic := rfl
      have herase := handle_erase_array program s eraseFrame f
      rw [if_pos hmagic] at herase
      dsimp only
      rw [herase]
      exact handle_write_erased hindex hblank hpayload hps hap f

theorem write_page_is_encode_footer :
    let failing : Nat → Scripted Unit := fun _ =>
      { result := .error (), place := id, length_place := fun _ => rfl }
    ∃ img, Image.from_bin [1, 2, 3] 16 2 = .ok img ∧ ∃ frame k, 1 ≤ k ∧ k ≤ 4 ∧
      (write_page (script failing) img 1
        { transport := [], buf := List.replicate 25 0x7E, progress := [] }).2.transport =
          List.replicate k frame ∧
      (upd_frame_parse frame (UInt8.ofNat frame.length)).isSome := by
  intro failing
  obtain ⟨img, himg, -⟩ := from_bin_eq_ok [1, 2, 3] 16 2 (by decide) (by decide) (by decide) (by decide)
  have hindex : 1 < img.page_count := by
    have hcount : img.page_count = 2 := (from_bin_fields himg).2.2
    rw [hcount]
    decide
  obtain ⟨page, frame, k, req, -, -, hpos, hmax, hsent, hreq, -⟩ :=
    (write_page_is_encode failing [1, 2, 3] 16 2 img himg 1 hindex (List.replicate 25 0x7E) []).2
      (by decide)
  exact ⟨img, himg, frame, k, hpos, hmax, hsent, by rw [hreq]; rfl⟩

end OtaUpdater.Agreement
