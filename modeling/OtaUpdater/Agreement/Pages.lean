import OtaUpdater.Agreement.Gate
import OtaUpdater.Device.Repeat

/-!
# Pages of an image, in any order

What the device's region holds between the erase and the last page depends on which
pages were written, not on when or how often.
-/

open OtaUpdater.Lib.Bytes OtaUpdater.Lib.Repeat OtaUpdater.Device OtaUpdater.Host

namespace OtaUpdater.Agreement

section Update

variable (img : Image)

/-! ## Offsets of the region -/

theorem page_size_pos : 0 < img.page_size.toNat := by
  have hlow : 16 ≤ img.page_size.toNat := img.footer_fits
  omega

theorem page_of_offset (off : Nat) (hoff : off < img.region) :
    off / img.page_size.toNat < img.app_pages.toNat := by
  rw [Nat.div_lt_iff_lt_mul (page_size_pos img), Nat.mul_comm]
  exact hoff

theorem page_of_offset_toNat (off : Nat) (hoff : off < img.region) :
    (UInt16.ofNat (off / img.page_size.toNat)).toNat = off / img.page_size.toNat :=
  (img.index_lt (page_of_offset img off hoff)).2

theorem inPage_iff (p off : Nat) :
    InPage img.page_size.toNat p off ↔ off / img.page_size.toNat = p := by
  have hpos := page_size_pos img
  unfold InPage
  rw [Nat.div_eq_iff hpos]
  constructor
  · rintro ⟨hlow, hhigh⟩
    exact ⟨hlow, by omega⟩
  · rintro ⟨hlow, hhigh⟩
    exact ⟨hlow, by omega⟩

theorem content_getD (p off : Nat) (hp : InPage img.page_size.toNat p off) :
    (img.page p).getD (off - p * img.page_size.toNat) 0 = img.content.getD off 0 := by
  obtain ⟨hlow, hhigh⟩ := hp
  unfold Image.page
  rw [List.getD_eq_getElem?_getD, List.getD_eq_getElem?_getD, List.getElem?_take,
    if_pos (by omega), List.getElem?_drop]
  congr 2
  omega

/-! ## The region on the way -/

def Holds (written : List UInt16) (f : Flash) : Prop :=
  ∀ off < img.region, f off =
    if UInt16.ofNat (off / img.page_size.toNat) ∈ written then img.content.getD off 0 else 0xFF

variable {img}

theorem holds_congr {written written' : List UInt16} {f : Flash}
    (hsame : ∀ i, i ∈ written ↔ i ∈ written') (h : Holds img written f) : Holds img written' f := by
  intro off hoff
  rw [h off hoff]
  simp only [hsame]

theorem holds_erased (info : PortInfo) (hregion : info.region = img.region) (f : Flash) :
    Holds img [] (eraseAll info f) := by
  intro off hoff
  unfold eraseAll
  rw [hregion, if_pos hoff, if_neg List.not_mem_nil]

theorem holds_write {program : Program} (hblank : program.Fills) (hagain : program.Repeats)
    {written : List UInt16} (index : UInt16) {f : Flash} (h : Holds img written f) :
    Holds img (index :: written)
      (writePage program img.page_size.toNat index.toNat (img.page index.toNat) f) := by
  have htwice : ∀ b, program b b = b := by
    intro b
    have hb := hagain 0xFF b
    rw [hblank] at hb
    exact hb
  intro off hoff
  have hpage := page_of_offset_toNat img off hoff
  unfold writePage
  split
  · rename_i hin
    have hindex : UInt16.ofNat (off / img.page_size.toNat) = index := by
      rw [← UInt16.toNat_inj, hpage, (inPage_iff img _ _).mp hin]
    rw [h off hoff, content_getD img _ off hin, hindex, if_pos List.mem_cons_self]
    split
    · exact htwice _
    · exact hblank _
  · rename_i hout
    have hindex : UInt16.ofNat (off / img.page_size.toNat) ≠ index := by
      intro heq
      apply hout
      rw [inPage_iff, ← hpage, heq]
    rw [h off hoff]
    simp only [List.mem_cons, hindex, false_or]

theorem region_of_holds (info : PortInfo) (hregion : info.region = img.region)
    {written : List UInt16} (hall : ∀ i ∈ img.pages, i ∈ written) {f : Flash}
    (h : Holds img written f) : region info f = img.content := by
  apply List.ext_getElem
  · rw [length_region, img.length_content, hregion]
  intro off hleft hright
  have hoff : off < img.region := by
    rw [← img.length_content]
    exact hright
  obtain ⟨hlt, hpage⟩ := img.index_lt (page_of_offset img off hoff)
  have hshown : f off = img.content.getD off 0 := by
    rw [h off hoff]
    split
    · rfl
    · rename_i hskipped
      have hblank : img.must_write (UInt16.ofNat (off / img.page_size.toNat)) = false := by
        rw [Bool.eq_false_iff]
        intro hwrite
        apply hskipped
        exact hall _ ((img.mem_pages_iff _).mpr ⟨hlt, hwrite⟩)
      have hin : InPage img.page_size.toNat (off / img.page_size.toNat) off :=
        (inPage_iff img _ _).mpr rfl
      have hfilled := img.page_of_not_must_write _ hlt hblank
      rw [hpage] at hfilled
      rw [← content_getD img _ off hin, hfilled, List.getD_eq_getElem?_getD,
        List.getElem?_replicate, if_pos (by unfold InPage at hin; omega), Option.getD_some]
  have hbyte : (region info f)[off] = f off := by simp [region]
  rw [hbyte, hshown, List.getD_eq_getElem?_getD, List.getElem?_eq_getElem hright, Option.getD_some]

/-! ## The frames of an update -/

def eraseFrame : UpdFrame where
  cmd := UPD_CMD_ERASE_APP
  len := 4
  payload := eraseMagic
  payload_length := rfl

variable (img)

theorem length_rendered (index : UInt16) : (img.rendered index).length = img.page_size.toNat := by
  rcases UInt16.lt_or_le index img.app_pages with hlt | hge
  · rw [img.rendered_eq index hlt, img.length_page _ (UInt16.lt_iff_toNat_lt.mp hlt)]
  · unfold Image.rendered Image.page_into
    rw [if_pos hge, List.length_replicate]

/-- WRITE_PAGE with the page as `page_into` renders it. -/
def writeFrame (index : UInt16) : UpdFrame where
  cmd := UPD_CMD_WRITE_PAGE
  len := UInt8.ofNat (img.page_size.toNat + 2)
  payload := leBytes 2 index.toNat ++ img.rendered index
  payload_length := by
    have hfits : img.page_size.toNat ≤ 250 := img.page_fits
    rw [List.length_append, length_leBytes, length_rendered, UInt8.toNat_ofNat_of_lt' (by
      unfold UInt8.size
      omega), Nat.add_comm]

def bootFrame : UpdFrame where
  cmd := UPD_CMD_BOOT
  len := 0
  payload := []
  payload_length := rfl

variable {img}

theorem write_fields {req : UpdFrame} (index : UInt16) (hindex : index.toNat < img.app_pages.toNat)
    (hpayload : req.payload = leBytes 2 index.toNat ++ img.page index.toNat) :
    req.len.toNat = img.page_size.toNat + 2 ∧ (write_index req).toNat = index.toNat ∧
      req.payload.drop 2 = img.page index.toNat := by
  have hfront : window 0 2 req.payload = leBytes 2 index.toNat := by
    rw [hpayload]
    exact window_left _ _ _ (length_leBytes _ _)
  refine ⟨?_, ?_, ?_⟩
  · rw [← req.payload_length, hpayload, List.length_append, length_leBytes,
      img.length_page _ hindex, Nat.add_comm]
  · have hpair : [req.payload.getD 0 0, req.payload.getD 1 0] = window 0 2 req.payload := rfl
    rw [write_index_toNat, hpair, hfront, ofLe_leBytes]
    exact Nat.mod_eq_of_lt index.toNat_lt
  · rw [hpayload]
    exact List.drop_left' (length_leBytes _ _)

/-! ## The writes, one after the other -/

section Writes

variable {program : Program} {rsp_cap : UInt8} (hcap : rsp_cap ≠ 0) {s : UpdSession}
  (hps : s.info.page_size = img.page_size) (hap : s.info.app_pages = img.app_pages)
include hcap hps hap

theorem handleStep_write (hlatch : s.erased = true) (index : UInt16) (hindex : index < img.app_pages)
    (f : Flash) :
    handleStep program rsp_cap (s, f) (writeFrame img index) =
      ([UPD_ST_OK], s, writePage program img.page_size.toNat index.toNat (img.page index.toNat) f) := by
  have hlt := UInt16.lt_iff_toNat_lt.mp hindex
  have hpayload : (writeFrame img index).payload = leBytes 2 index.toNat ++ img.page index.toNat := by
    rw [← img.rendered_eq index hindex]
    rfl
  obtain ⟨hlen, hidx, hdata⟩ := write_fields index hlt hpayload
  have hrange : ¬ s.info.app_pages ≤ write_index (writeFrame img index) := by
    rw [UInt16.not_le, UInt16.lt_iff_toNat_lt, hidx, hap]
    exact hlt
  have hcmd : (writeFrame img index).cmd = UPD_CMD_WRITE_PAGE := rfl
  have hwrite := upd_handle_write program s f rsp_cap hcmd hcap
  rw [handle_write_array, hlatch, if_neg Bool.noConfusion, hps, if_neg (not_not.mpr hlen),
    if_neg hrange, hidx, hdata] at hwrite
  unfold handleStep
  dsimp only
  rw [hwrite]

theorem runAll_writes (hblank : program.Fills) (hagain : program.Repeats) (hlatch : s.erased = true)
    (indices : List UInt16) (hrange : ∀ i ∈ indices, i < img.app_pages) (written : List UInt16)
    (f : Flash) (h : Holds img written f) :
    let r := runAll (handleStep program rsp_cap) (s, f) (indices.map (writeFrame img))
    r.1 = List.replicate indices.length [UPD_ST_OK] ∧ r.2.1 = s ∧ Holds img (indices ++ written) r.2.2 := by
  induction indices generalizing written f with
  | nil => exact ⟨rfl, rfl, h⟩
  | cons index indices ih =>
    have hstep : handleStep program rsp_cap (s, f) (writeFrame img index) = _ :=
      handleStep_write hcap hps hap hlatch index (hrange index List.mem_cons_self) f
    obtain ⟨hanswers, hs, hholds⟩ := ih (fun i hi => hrange i (List.mem_cons_of_mem _ hi))
      (index :: written) _ (holds_write hblank hagain index h)
    dsimp only
    rw [List.map_cons, runAll_cons, hstep]
    refine ⟨?_, hs, ?_⟩
    · rw [hanswers]
      rfl
    · refine holds_congr ?_ hholds
      intro i
      simp only [List.mem_append, List.mem_cons, List.cons_append]
      exact or_left_comm

end Writes

/-! ## Before and after the writes -/

section Others

variable {program : Program} {rsp_cap : UInt8} (hcap : rsp_cap ≠ 0) (s : UpdSession) (f : Flash)
include hcap

theorem handleStep_erase :
    handleStep program rsp_cap (s, f) eraseFrame =
      ([UPD_ST_OK], { s with erased := true }, eraseAll s.info f) := by
  have hmagic : eraseFrame.payload = eraseMagic := rfl
  have hcmd : eraseFrame.cmd = UPD_CMD_ERASE_APP := rfl
  have herase := upd_handle_erase program s f rsp_cap hcmd hcap
  rw [if_pos hmagic] at herase
  unfold handleStep
  dsimp only
  rw [herase]

variable {s f} (hcontent : region s.info f = img.content)
include hcontent

theorem handleStep_verify :
    handleStep program rsp_cap (s, f) (verifyFrame img.len img.crc) = ([UPD_ST_OK], s, f) := by
  have hfits : img.data.length + 16 ≤ img.region := img.data_fits
  have hregion : s.info.region = img.region := by
    rw [← length_region s.info f, hcontent, img.length_content]
  have hlen : ¬ s.info.region - 16 < img.len.toNat := by
    rw [img.len_eq, hregion]
    omega
  have htake : img.content.take img.data.length = img.data := by
    rw [Image.content, List.append_assoc, List.take_left]
  have hcrc : img.crc = crc32 ((region s.info f).take img.len.toNat) := by
    rw [hcontent, img.len_eq, htake, img.crc_eq]
  have hcmd : (verifyFrame img.len img.crc).cmd = UPD_CMD_VERIFY := rfl
  have hverify := upd_handle_verify program s f rsp_cap hcmd hcap
  rw [handle_verify_answer program s f img.len img.crc (by omega), if_neg hlen, if_pos hcrc] at hverify
  unfold handleStep
  dsimp only
  rw [hverify]

theorem handleStep_boot :
    handleStep program rsp_cap (s, f) bootFrame = ([UPD_ST_OK], { s with boot_pending := true }, f) := by
  have hvalid : AppValid (region s.info f) := by
    rw [hcontent]
    exact appValid_content img
  have hcmd : bootFrame.cmd = UPD_CMD_BOOT := rfl
  have hboot := upd_handle_boot program s f rsp_cap hcmd hcap
  rw [if_pos hvalid] at hboot
  unfold handleStep
  dsimp only
  rw [hboot]

end Others

end Update

/-! ## Any order -/

/-- The writes of an image may come in any order, and any of them again, or of pages that were
not asked for: the region holds the image, VERIFY confirms it and BOOT is accepted. -/
theorem pages_in_any_order (program : Program) (hprogram : program = store ∨ program = nor)
    (data : List UInt8) (page_size app_pages : UInt16) (img : Image)
    (himg : Image.from_bin data page_size app_pages = .ok img) (s : UpdSession)
    (hps : s.info.page_size = page_size) (hap : s.info.app_pages = app_pages) (rsp_cap : UInt8)
    (hcap : rsp_cap ≠ 0) (f : Flash) (indices : List UInt16) (hrange : ∀ i ∈ indices, i < app_pages)
    (hall : ∀ i ∈ img.pages, i ∈ indices) :
    let step := handleStep program rsp_cap
    let erase := step (s, f) eraseFrame
    let writes := runAll step erase.2 (indices.map (writeFrame img))
    let verify := step writes.2 (verifyFrame img.len img.crc)
    let boot := step verify.2 bootFrame
    erase.1 = [UPD_ST_OK] ∧
    writes.1 = List.replicate indices.length [UPD_ST_OK] ∧
    region s.info writes.2.2 =
      (List.range app_pages.toNat).flatMap (fun i => img.rendered (UInt16.ofNat i)) ∧
    verify.1 = [UPD_ST_OK] ∧
    boot.1 = [UPD_ST_OK] ∧ boot.2.1.boot_pending = true ∧ boot.2.2 = writes.2.2 := by
  obtain ⟨rfl, rfl, rfl⟩ := from_bin_fields himg
  have hagain := program_repeats hprogram
  have hblank := program_fills hprogram
  have hregion : s.info.region = img.region := by
    unfold PortInfo.region Image.region
    rw [hps, hap]
  intro step erase writes verify boot
  have herase : erase = ([UPD_ST_OK], { s with erased := true }, eraseAll s.info f) :=
    handleStep_erase hcap s f
  have hwrites : writes.1 = List.replicate indices.length [UPD_ST_OK] ∧
      writes.2.1 = { s with erased := true } ∧ Holds img (indices ++ []) writes.2.2 := by
    unfold writes
    rw [herase]
    exact runAll_writes (s := { s with erased := true }) hcap hps hap hblank hagain rfl indices
      hrange [] (eraseAll s.info f) (holds_erased s.info hregion f)
  obtain ⟨hanswers, hs, hholds⟩ := hwrites
  rw [List.append_nil] at hholds
  have hcontent : region writes.2.1.info writes.2.2 = img.content := by
    rw [hs]
    exact region_of_holds s.info hregion hall hholds
  have hverify : verify = ([UPD_ST_OK], writes.2) := handleStep_verify hcap hcontent
  have hboot : boot = ([UPD_ST_OK], { writes.2.1 with boot_pending := true }, writes.2.2) := by
    unfold boot
    rw [hverify]
    exact handleStep_boot hcap hcontent
  have hinfo : writes.2.1.info = s.info := by rw [hs]
  rw [hinfo] at hcontent
  refine ⟨by rw [herase], hanswers, hcontent.trans img.flatMap_rendered.symm, by rw [hverify], ?_⟩
  rw [hboot]
  exact ⟨rfl, rfl, rfl⟩

theorem pages_in_any_order_nor :
    let s := upd_init
      { page_size := 16, app_pages := 2, device_id := #v[0, 0, 0, 0], bl_version := 0 }
    ∃ img, Image.from_bin [1, 2, 3] 16 2 = .ok img ∧
      let step := handleStep nor 17
      let erase := step (s, fun _ => 0x55) eraseFrame
      let writes := runAll step erase.2 ([1, 0, 1].map (writeFrame img))
      let verify := step writes.2 (verifyFrame img.len img.crc)
      let boot := step verify.2 bootFrame
      erase.1 = [UPD_ST_OK] ∧
      writes.1 = List.replicate [1, 0, 1].length [UPD_ST_OK] ∧
      region s.info writes.2.2 =
        (List.range (2 : UInt16).toNat).flatMap (fun i => img.rendered (UInt16.ofNat i)) ∧
      verify.1 = [UPD_ST_OK] ∧
      boot.1 = [UPD_ST_OK] ∧ boot.2.1.boot_pending = true ∧ boot.2.2 = writes.2.2 := by
  intro s
  obtain ⟨img, himg, -⟩ := from_bin_eq_ok [1, 2, 3] 16 2 (by decide) (by decide) (by decide) (by decide)
  refine ⟨img, himg, ?_⟩
  refine pages_in_any_order nor (Or.inr rfl) [1, 2, 3] 16 2 img himg s rfl rfl 17 (by decide)
    (fun _ => 0x55) [1, 0, 1] (by simp) ?_
  intro i hi
  have hlt : i < 2 := by
    have hmem := ((img.mem_pages_iff i).mp hi).1
    rw [(from_bin_fields himg).2.2] at hmem
    exact hmem
  have hcases : i = 0 ∨ i = 1 := by
    rw [UInt16.lt_iff_toNat_lt] at hlt
    rw [← UInt16.toNat_inj, ← UInt16.toNat_inj]
    have htwo : (2 : UInt16).toNat = 2 := rfl
    have hone : (1 : UInt16).toNat = 1 := rfl
    have hzero : (0 : UInt16).toNat = 0 := rfl
    omega
  rcases hcases with rfl | rfl
  · decide
  · decide

end OtaUpdater.Agreement
