import OtaUpdater.Device.Flash
import OtaUpdater.Host.ImageRules

/-!
# One footer

The device's boot gate accepts exactly the footers the host writes, and VERIFY
compares against the host's CRC-32.
-/

open OtaUpdater.Lib.Bytes OtaUpdater.Device OtaUpdater.Host

namespace OtaUpdater.Agreement

theorem updCrc32_eq (bytes : List UInt8) : updCrc32 bytes = crc32 bytes := rfl

/-! ## Images of a region -/

theorem footer_take (img : Image) :
    img.footer.take 12 = updMagic ++ leBytes 4 img.data.length ++ leBytes 4 (crc32 img.data).toNat := by
  rw [Image.footer, img.len_eq, img.crc_eq]
  exact List.take_left' (by simp [FOOTER_MAGIC])

/-! ## The gate -/

theorem appValid_iff_footer (R : List UInt8) (page_size app_pages : UInt16)
    (hpages : 0 < app_pages.toNat) (hlow : FOOTER_LEN ≤ page_size.toNat)
    (hhigh : page_size.toNat ≤ PAGE_SIZE_MAX) (hR : R.length = page_size.toNat * app_pages.toNat) :
    AppValid R ↔ ∃ n, n ≤ R.length - 16 ∧ ∃ img, Image.from_bin (R.take n) page_size app_pages = .ok img ∧
      window (R.length - 16) 12 R = img.footer.take 12 := by
  have hfooter : FOOTER_LEN = 16 := rfl
  have hlt : R.length < 2 ^ 32 := by
    rw [hR]
    exact (PortInfo.region_lt { page_size, app_pages, device_id := #v[0, 0, 0, 0], bl_version := 0 })
  have h16 : 16 ≤ R.length := by
    calc 16 ≤ page_size.toNat * 1 := by omega
      _ ≤ page_size.toNat * app_pages.toNat := Nat.mul_le_mul_left _ hpages
      _ = R.length := hR.symm
  have hsplit : window (R.length - 16) 12 R = window (R.length - 16) 4 R ++
      window (R.length - 12) 4 R ++ window (R.length - 8) 4 R := by
    rw [window_append _ 8 4, window_append _ 4 4]
    congr 3 <;> omega
  have hmatch : ∀ n, n ≤ R.length - 16 → ∀ img : Image, img.data = R.take n →
      (window (R.length - 16) 12 R = img.footer.take 12 ↔
        window (R.length - 16) 4 R = updMagic ∧ footerLength R = n ∧
          ofLe (window (R.length - 8) 4 R) = (updCrc32 (R.take n)).toNat) := by
    intro n hn img hdata
    have hlength : img.data.length = n := by
      rw [hdata, List.length_take]
      omega
    rw [hsplit, footer_take, append_eq_append_iff _ _ _ _ (by simp [updMagic]),
      append_eq_append_iff _ _ _ _ (by simp [updMagic]),
      leBytes_eq_iff 4 _ _ (by omega) (length_window _ _ _),
      leBytes_eq_iff 4 _ _ (UInt32.toNat_lt _) (length_window _ _ _), hlength, hdata, updCrc32_eq,
      footerLength, and_assoc]
  constructor
  · rintro ⟨-, hmagic, hlen, hcrc⟩
    obtain ⟨img, hok, hdata⟩ := from_bin_eq_ok (R.take (footerLength R)) page_size app_pages hpages
      hlow hhigh (by rw [List.length_take, ← hR]; omega)
    exact ⟨_, hlen, img, hok, (hmatch _ hlen img hdata).mpr ⟨hmagic, rfl, hcrc.symm⟩⟩
  · rintro ⟨n, hn, img, hok, hwindow⟩
    obtain ⟨hmagic, rfl, hcrc⟩ := (hmatch n hn img (from_bin_fields hok).1).mp hwindow
    exact ⟨h16, hmagic, hn, hcrc.symm⟩

theorem appValid_content (img : Image) : AppValid img.content := by
  have hfooter : FOOTER_LEN = 16 := rfl
  have hfits := img.data_fits
  have hregion : img.region = img.page_size.toNat * img.app_pages.toNat := rfl
  have htake : img.content.take img.data.length = img.data := by
    rw [Image.content, List.append_assoc, List.take_left]
  have hend : window (img.content.length - 16) 12 img.content = img.footer.take 12 := by
    rw [window_eq_take_drop _ _ _ (by rw [img.length_content]; omega), Image.content,
      List.drop_left' (by simp [hfooter]; omega)]
  rw [appValid_iff_footer _ img.page_size img.app_pages img.app_pages_pos img.footer_fits
    img.page_fits img.length_content]
  obtain ⟨same, hok, hdata⟩ := from_bin_eq_ok img.data img.page_size img.app_pages
    img.app_pages_pos img.footer_fits img.page_fits img.data_fits
  refine ⟨img.data.length, by rw [img.length_content]; omega, same, by rw [htake]; exact hok, ?_⟩
  rw [hend, footer_take, footer_take, hdata]

/-! ## VERIFY -/

/-- A VERIFY frame with length `n` and checksum `c`. -/
def verifyFrame (n c : UInt32) : UpdFrame where
  cmd := UPD_CMD_VERIFY
  len := 8
  payload := leBytes 4 n.toNat ++ leBytes 4 c.toNat
  payload_length := by simp

theorem handle_verify_answer (program : Program) (s : UpdSession) (f : Flash) (n c : UInt32)
    (h16 : 16 ≤ s.info.region) :
    handle_verify (arrayPort s.info program) s (verifyFrame n c) f =
      (if s.info.region - 16 < n.toNat then [UPD_ST_OUT_OF_RANGE]
       else if c = crc32 ((region s.info f).take n.toNat) then [UPD_ST_OK]
       else [UPD_ST_BAD_CRC], f) := by
  have hn : ofLe (window 0 4 (verifyFrame n c).payload) = n.toNat := by
    rw [verifyFrame, window_left _ _ _ (length_leBytes _ _), ofLe_leBytes]
    exact Nat.mod_eq_of_lt (UInt32.toNat_lt _)
  have hc : ofLe (window 4 4 (verifyFrame n c).payload) = c.toNat := by
    rw [verifyFrame, window_right _ _ _ _ (length_leBytes _ _) (length_leBytes _ _), ofLe_leBytes]
    exact Nat.mod_eq_of_lt (UInt32.toNat_lt _)
  have h8 : ¬ (verifyFrame n c).len ≠ 8 := not_not.mpr rfl
  have hrange : s.info.region < 16 ∨ s.info.region - 16 < n.toNat ↔ s.info.region - 16 < n.toNat := by
    omega
  have hcrc : ∀ d : UInt32, d.toNat = c.toNat ↔ c = d := by
    intro d
    rw [UInt32.toNat_inj, eq_comm]
  rw [handle_verify_array, if_neg h8, hn, hc, updCrc32_eq]
  simp only [hrange, hcrc]

/-! ## Gate and VERIFY together -/

/-- Over every content of the region, the device's checks are the host's footer and CRC-32. -/
theorem gate_and_verify_agree (program : Program) (info : PortInfo)
    (hlow : 16 ≤ info.page_size.toNat) (hhigh : info.page_size.toNat ≤ 250)
    (hpages : 1 ≤ info.app_pages.toNat) (f : Flash) :
    let R := region info f
    ((upd_app_valid (arrayPort info program) info f).1 = true ↔
      ∃ n, n ≤ R.length - 16 ∧ ∃ img, Image.from_bin (R.take n) info.page_size info.app_pages = .ok img ∧
        window (R.length - 16) 12 R = img.footer.take 12) ∧
    ∀ (erased boot_pending : Bool) (rsp_cap : UInt8) (n c : UInt32), rsp_cap ≠ 0 →
      (upd_handle (arrayPort info program) { info, erased, boot_pending } (verifyFrame n c) rsp_cap f).1.2 =
        if R.length - 16 < n.toNat then [UPD_ST_OUT_OF_RANGE]
        else if c = crc32 (R.take n.toNat) then [UPD_ST_OK]
        else [UPD_ST_BAD_CRC] := by
  intro R
  have hR : R.length = info.page_size.toNat * info.app_pages.toNat := length_region info f
  constructor
  · rw [upd_app_valid_array, decide_eq_true_iff]
    exact appValid_iff_footer R _ _ hpages hlow hhigh hR
  · intro erased boot_pending rsp_cap n c hcap
    have h16 : 16 ≤ info.region := by
      calc 16 ≤ info.page_size.toNat * 1 := by omega
        _ ≤ info.page_size.toNat * info.app_pages.toNat := Nat.mul_le_mul_left _ hpages
    rw [hR, upd_handle_verify program { info, erased, boot_pending } f rsp_cap rfl hcap,
      handle_verify_answer program _ f n c h16]
    rfl

theorem gate_and_verify_agree_installed :
    let info : PortInfo :=
      { page_size := 16, app_pages := 2, device_id := #v[0, 0, 0, 0], bl_version := 0 }
    let bytes : List UInt8 := [1, 2, 3] ++ List.replicate 13 0xFF ++
      [0x4F, 0x54, 0x41, 0x55, 3, 0, 0, 0, 0x1D, 0x80, 0xBC, 0x55, 0xFF, 0xFF, 0xFF, 0xFF]
    let f : Flash := fun off => bytes.getD off 0xFF
    let R := region info f
    (upd_app_valid (arrayPort info store) info f).1 = true ∧
    ((upd_app_valid (arrayPort info store) info f).1 = true ↔
      ∃ n, n ≤ R.length - 16 ∧ ∃ img, Image.from_bin (R.take n) info.page_size info.app_pages = .ok img ∧
        window (R.length - 16) 12 R = img.footer.take 12) ∧
    ∀ (erased boot_pending : Bool) (rsp_cap : UInt8) (n c : UInt32), rsp_cap ≠ 0 →
      (upd_handle (arrayPort info store) { info, erased, boot_pending } (verifyFrame n c) rsp_cap f).1.2 =
        if R.length - 16 < n.toNat then [UPD_ST_OUT_OF_RANGE]
        else if c = crc32 (R.take n.toNat) then [UPD_ST_OK]
        else [UPD_ST_BAD_CRC] := by
  intro info bytes f
  refine ⟨?_, gate_and_verify_agree store info (by decide) (by decide) (by decide) f⟩
  rw [upd_app_valid_array, decide_eq_true_iff]
  decide +kernel

end OtaUpdater.Agreement
