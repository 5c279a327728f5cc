import Mathlib.Data.List.GetD
import Mathlib.Data.List.Induction
import OtaUpdater.Device.Repeat
import OtaUpdater.Device.Rp2350Flash

/-!
# The holdback does not show

Whatever the order of erases, writes and reads, the RP2350 flash layer answers as a
plain array of pages does.
-/

open OtaUpdater.Lib.Bytes OtaUpdater.Lib.State OtaUpdater.Lib.Repeat

namespace OtaUpdater.Device.Rp2350

/-! ## Addresses -/

def appOffset (off : Nat) : Nat := UPDATER_APP_FLASH_OFFSET.toNat + off

theorem region_eq : port_info.region = 0x100000 := by decide

theorem page_address (page : UInt16) (hpage : page.toNat < 8192) :
    (UPDATER_APP_FLASH_OFFSET + page.toUInt32 * UPDATER_PAGE_SIZE).toNat = appOffset (page.toNat * 128) := by
  have hoffset : UPDATER_APP_FLASH_OFFSET.toNat = 0x10000 := rfl
  have hsize : UPDATER_PAGE_SIZE.toNat = 128 := rfl
  unfold appOffset
  rw [UInt32.toNat_add, UInt32.toNat_mul, UInt16.toNat_toUInt32, hoffset, hsize,
    Nat.mod_eq_of_lt (by omega), Nat.mod_eq_of_lt (by omega)]

/-! ## One flash page -/

def halfByte (data : Option (List UInt8)) (i : Nat) : UInt8 :=
  match data with
  | some data => data.getD i 0
  | none => 0xFF

theorem length_half (data : Option (List UInt8)) (hdata : ∀ d, data = some d → d.length = 128) :
    (half data).length = 128 := by
  have hsize : UPDATER_PAGE_SIZE.toNat = 128 := rfl
  unfold half
  rw [hsize]
  rcases data with _ | d
  · exact List.length_replicate
  · exact List.length_take_of_le (Nat.le_of_eq (hdata d rfl).symm)

theorem getD_half (data : Option (List UInt8)) (i : Nat) (hi : i < 128) :
    (half data).getD i 0 = halfByte data i := by
  have hsize : UPDATER_PAGE_SIZE.toNat = 128 := rfl
  unfold half halfByte
  rw [hsize]
  rcases data with _ | d
  · simp only [List.getD_eq_getElem?_getD, List.getElem?_replicate, hi, if_true, Option.getD_some]
  · simp only [List.getD_eq_getElem?_getD, List.getElem?_take, hi, if_true]

theorem prog_flash_page_flash (page : UInt16) (hpage : page.toNat < 8192) (lo hi : Option (List UInt8))
    (hlo : ∀ d, lo = some d → d.length = 128) (b : Board) (off : Nat) :
    (prog_flash_page page lo hi b).2.flash (appOffset off) =
      if InPage 128 page.toNat off then
        nor (b.flash (appOffset off)) (halfByte lo (off - page.toNat * 128))
      else if InPage 128 (page.toNat + 1) off then
        nor (b.flash (appOffset off)) (halfByte hi (off - (page.toNat + 1) * 128))
      else b.flash (appOffset off) := by
  have hcount : FLASH_PAGE_SIZE.toNat = 256 := rfl
  have haddress := page_address page hpage
  have hnext : (page.toNat + 1) * 128 = page.toNat * 128 + 128 := by omega
  have hinside : appOffset off - appOffset (page.toNat * 128) = off - page.toNat * 128 := by
    unfold appOffset
    omega
  have hrange : (appOffset (page.toNat * 128) ≤ appOffset off ∧
      appOffset off < appOffset (page.toNat * 128) + 256) ↔
      InPage 128 page.toNat off ∨ InPage 128 (page.toNat + 1) off := by
    unfold appOffset InPage
    rw [hnext]
    omega
  have hlength := length_half lo hlo
  change (if (UPDATER_APP_FLASH_OFFSET + page.toUInt32 * UPDATER_PAGE_SIZE).toNat ≤ appOffset off ∧
      appOffset off < (UPDATER_APP_FLASH_OFFSET + page.toUInt32 * UPDATER_PAGE_SIZE).toNat +
        FLASH_PAGE_SIZE.toNat then
      nor (b.flash (appOffset off)) ((half lo ++ half hi).getD
        (appOffset off - (UPDATER_APP_FLASH_OFFSET + page.toUInt32 * UPDATER_PAGE_SIZE).toNat) 0)
      else b.flash (appOffset off)) = _
  rw [haddress, hcount, hinside]
  simp only [hrange]
  split_ifs with hin hfirst hsecond hfirst hsecond
  · have hi : off - page.toNat * 128 < 128 := by
      unfold InPage at hfirst
      omega
    rw [List.getD_append _ _ _ _ (by omega), getD_half lo _ hi]
  · have hsome : off - (page.toNat + 1) * 128 < 128 ∧ page.toNat * 128 + 128 ≤ off := by
      unfold InPage at hsecond
      omega
    have hskip : off - page.toNat * 128 - (half lo).length = off - (page.toNat + 1) * 128 := by
      omega
    rw [List.getD_append_right _ _ _ _ (by omega), hskip, getD_half hi _ hsome.1]
  · exact absurd hin (not_or.mpr ⟨hfirst, hsecond⟩)
  · exact absurd (Or.inl hfirst) hin
  · exact absurd (Or.inr hsecond) hin
  · rfl

/-! ## The calls -/

/-- Aligned to what the flash programs or erases at once, and inside the app region. -/
def FlashCall.InApp : FlashCall → Prop
  | .flash_range_erase offs count =>
    offs.toNat % 4096 = 0 ∧ count.toNat % 4096 = 0 ∧ 0x10000 ≤ offs.toNat ∧
      offs.toNat + count.toNat ≤ 0x110000
  | .flash_range_program offs count =>
    offs.toNat % 256 = 0 ∧ count.toNat % 256 = 0 ∧ 0x10000 ≤ offs.toNat ∧
      offs.toNat + count.toNat ≤ 0x110000

theorem prog_flash_page_calls (page : UInt16) (hpage : page.toNat < 8192) (heven : page.toNat % 2 = 0)
    (lo hi : Option (List UInt8)) (b : Board) (h : ∀ call ∈ b.calls, call.InApp) :
    ∀ call ∈ (prog_flash_page page lo hi b).2.calls, call.InApp := by
  have hcount : FLASH_PAGE_SIZE.toNat = 256 := rfl
  have hoffset : UPDATER_APP_FLASH_OFFSET.toNat = 0x10000 := rfl
  have haddress := page_address page hpage
  unfold appOffset at haddress
  intro call hcall
  rcases List.mem_append.mp hcall with hold | hnew
  · exact h call hold
  · rw [List.mem_singleton.mp hnew]
    unfold FlashCall.InApp
    omega

/-! ## What the board shows -/

/-- What the layer keeps whatever is asked of it: a held page is an even one of the region, with all
its bytes, and the ROM was called inside the app region only. -/
structure Kept (b : Board) : Prop where
  page : b.hold_valid = true →
    b.hold_page.toNat < 8192 ∧ b.hold_page.toNat % 2 = 0 ∧ b.hold.length = 128
  calls : ∀ call ∈ b.calls, call.InApp

theorem kept_programmed {b : Board} (hvalid : b.hold_valid = false) (hcalls : ∀ call ∈ b.calls, call.InApp)
    (page : UInt16) (hpage : page.toNat < 8192) (heven : page.toNat % 2 = 0) (lo hi : Option (List UInt8)) :
    Kept (prog_flash_page page lo hi b).2 where
  page htrue := by
    have hkept : (prog_flash_page page lo hi b).2.hold_valid = false := hvalid
    rw [hkept] at htrue
    cases htrue
  calls := prog_flash_page_calls page hpage heven lo hi b hcalls

/-- The board stands for the plain array `f`: outside the held page the flash is `f`, and the held
page is what programming it would make it. -/
structure Shows (b : Board) (f : Flash) : Prop extends Kept b where
  flash : ∀ off, (b.hold_valid = true → ¬ InPage 128 b.hold_page.toNat off) →
    b.flash (appOffset off) = f off
  held : b.hold_valid = true → ∀ off, InPage 128 b.hold_page.toNat off →
    f off = nor (b.flash (appOffset off)) (b.hold.getD (off - b.hold_page.toNat * 128) 0)

/-- The array that reads would find, had the held page gone out. -/
def shown (b : Board) : Flash := fun off =>
  if b.hold_valid = true ∧ InPage 128 b.hold_page.toNat off then
    nor (b.flash (appOffset off)) (b.hold.getD (off - b.hold_page.toNat * 128) 0)
  else b.flash (appOffset off)

/-- Every board stands for an array, also one whose held page will not go in over what is there. -/
theorem Kept.shows {b : Board} (h : Kept b) : Shows b (shown b) where
  toKept := h
  flash _ hout := (if_neg (fun hin => hout hin.1 hin.2)).symm
  held hvalid _ hin := if_pos ⟨hvalid, hin⟩

/-- Page `p` is blank or holds `data`, byte by byte. -/
def Takes (f : Flash) (p : Nat) (data : List UInt8) : Prop :=
  ∀ off, InPage 128 p off → f off = 0xFF ∨ f off = data.getD (off - p * 128) 0

theorem nor_of_takes {old new : UInt8} (h : old = 0xFF ∨ old = new) : nor old new = new := by
  rcases h with rfl | rfl
  · exact nor_fills new
  · exact UInt8.and_self

theorem nor_blank (old : UInt8) : nor old 0xFF = old := UInt8.and_neg_one

theorem nor_again {flash hold new : UInt8} (h : nor flash hold = 0xFF ∨ nor flash hold = new) :
    nor flash new = new := by
  have hmore : nor flash (nor flash hold) = nor flash hold := by
    unfold nor
    rw [← UInt8.and_assoc, UInt8.and_self]
  rcases h with hblank | hnew
  · rw [hblank, nor_blank] at hmore
    rw [hmore]
    exact nor_fills new
  · rw [hnew] at hmore
    exact hmore

theorem inPage_unique {p q off : Nat} (hp : InPage 128 p off) (hq : InPage 128 q off) : p = q := by
  unfold InPage at hp hq
  omega

theorem prog_flash_page_shows {b : Board} {f : Flash} (hvalid : b.hold_valid = false)
    (hcalls : ∀ call ∈ b.calls, call.InApp) (page : UInt16) (hpage : page.toNat < 8192)
    (heven : page.toNat % 2 = 0) (lo hi : Option (List UInt8)) (hlo : ∀ d, lo = some d → d.length = 128)
    (hlow : ∀ off, InPage 128 page.toNat off →
      nor (b.flash (appOffset off)) (halfByte lo (off - page.toNat * 128)) = f off)
    (hhigh : ∀ off, InPage 128 (page.toNat + 1) off →
      nor (b.flash (appOffset off)) (halfByte hi (off - (page.toNat + 1) * 128)) = f off)
    (hrest : ∀ off, ¬ InPage 128 page.toNat off → ¬ InPage 128 (page.toNat + 1) off →
      b.flash (appOffset off) = f off) :
    Shows (prog_flash_page page lo hi b).2 f := by
  have hkept : (prog_flash_page page lo hi b).2.hold_valid = false := hvalid
  refine ⟨kept_programmed hvalid hcalls page hpage heven lo hi, ?_, ?_⟩
  · intro off _
    rw [prog_flash_page_flash page hpage lo hi hlo]
    split
    · exact hlow off ‹_›
    · split
      · exact hhigh off ‹_›
      · exact hrest off ‹_› ‹_›
  · intro htrue
    rw [hkept] at htrue
    cases htrue

theorem hold_flush_shows {b : Board} {f : Flash} (h : Shows b f) :
    Shows (hold_flush b).2 f ∧ (hold_flush b).2.hold_valid = false := by
  unfold hold_flush
  split
  · rename_i hvalid
    rw [Bool.not_eq_true'] at hvalid
    exact ⟨h, hvalid⟩
  · rename_i hvalid
    rw [Bool.not_eq_true', Bool.not_eq_false] at hvalid
    obtain ⟨hpage, heven, hlength⟩ := h.page hvalid
    refine ⟨?_, rfl⟩
    apply prog_flash_page_shows (b := { b with hold_valid := false }) rfl h.calls b.hold_page hpage heven
    · intro d hd
      rw [← Option.some.inj hd]
      exact hlength
    · intro off hin
      exact (h.held hvalid off hin).symm
    · intro off hin
      rw [← h.flash off (fun _ hheld => absurd (inPage_unique hheld hin) (by omega))]
      exact nor_blank _
    · intro off hout _
      exact h.flash off (fun _ => hout)

theorem low_bit (page : UInt16) : page &&& 1 = 0 ↔ page.toNat % 2 = 0 := by
  rw [← UInt16.toNat_inj, UInt16.toNat_and]
  have hone : (1 : UInt16).toNat = 1 := rfl
  rw [hone, Nat.and_one_is_mod]
  rfl

theorem pred_toNat (page : UInt16) (hpos : 0 < page.toNat) : (page - 1).toNat = page.toNat - 1 :=
  UInt16.toNat_sub_of_le _ _ (UInt16.le_iff_toNat_le.mpr hpos)

theorem writePage_in {page off : Nat} (data : List UInt8) (f : Flash) (h : InPage 128 page off) :
    writePage store 128 page data f off = data.getD (off - page * 128) 0 := if_pos h

theorem writePage_out {page off : Nat} (data : List UInt8) (f : Flash) (h : ¬ InPage 128 page off) :
    writePage store 128 page data f off = f off := if_neg h

section Write

variable {b : Board} {f : Flash} {page : UInt16} {data : List UInt8}

theorem Shows.flash_of_flushed (h : Shows b f) (hvalid : b.hold_valid = false) (off : Nat) :
    b.flash (appOffset off) = f off := by
  apply h.flash off
  intro htrue
  rw [hvalid] at htrue
  cases htrue

theorem hold_again_shows (h : Shows b f) (hvalid : b.hold_valid = true)
    (hdata : data.length = 128) (htakes : Takes f b.hold_page.toNat data) :
    Shows { b with hold := data } (writePage store 128 b.hold_page.toNat data f) := by
  obtain ⟨hpage, heven, -⟩ := h.page hvalid
  refine ⟨⟨fun _ => ⟨hpage, heven, hdata⟩, h.calls⟩, ?_, ?_⟩
  · intro off hout
    rw [writePage_out _ _ (hout hvalid)]
    exact h.flash off hout
  · intro _ off hin
    have hbyte := htakes off hin
    rw [h.held hvalid off hin] at hbyte
    rw [writePage_in _ _ hin]
    exact (nor_again hbyte).symm

theorem partner_shows (h : Shows b f) (hvalid : b.hold_valid = true)
    (hpartner : page = b.hold_page + 1) (htakes : Takes f page.toNat data) :
    Shows (prog_flash_page b.hold_page (some b.hold) (some data) { b with hold_valid := false }).2
      (writePage store 128 page.toNat data f) := by
  obtain ⟨hheld, heven, hlength⟩ := h.page hvalid
  have hnext : page.toNat = b.hold_page.toNat + 1 := by
    rw [hpartner, succ_toNat16 (by omega)]
  rw [hnext] at htakes ⊢
  apply prog_flash_page_shows (b := { b with hold_valid := false }) rfl h.calls b.hold_page hheld heven
  · intro d hd
    rw [← Option.some.inj hd]
    exact hlength
  · intro off hin
    rw [writePage_out _ _ (fun hnot => absurd (inPage_unique hin hnot) (by omega))]
    exact (h.held hvalid off hin).symm
  · intro off hin
    rw [writePage_in _ _ hin]
    apply nor_of_takes
    rw [h.flash off (fun _ hnot => absurd (inPage_unique hin hnot) (by omega))]
    exact htakes off hin
  · intro off hlow hhigh
    rw [writePage_out _ _ hhigh]
    exact h.flash off (fun _ => hlow)

theorem hold_shows (h : Shows b f) (hvalid : b.hold_valid = false) (hpage : page.toNat < 8192)
    (heven : page.toNat % 2 = 0) (hdata : data.length = 128) (htakes : Takes f page.toNat data) :
    Shows { b with hold := data, hold_page := page, hold_valid := true }
      (writePage store 128 page.toNat data f) := by
  refine ⟨⟨fun _ => ⟨hpage, heven, hdata⟩, h.calls⟩, ?_, ?_⟩
  · intro off hout
    rw [writePage_out _ _ (hout rfl)]
    exact h.flash_of_flushed hvalid off
  · intro _ off hin
    rw [writePage_in _ _ hin]
    symm
    apply nor_of_takes
    dsimp only
    rw [h.flash_of_flushed hvalid off]
    exact htakes off hin

theorem odd_shows (h : Shows b f) (hvalid : b.hold_valid = false) (hpage : page.toNat < 8192)
    (hodd : page.toNat % 2 ≠ 0) (htakes : Takes f page.toNat data) :
    Shows (prog_flash_page (page - 1) none (some data) b).2 (writePage store 128 page.toNat data f) := by
  have hprev := pred_toNat page (by omega)
  have hback : (page - 1).toNat + 1 = page.toNat := by omega
  have hflash := h.flash_of_flushed hvalid
  apply prog_flash_page_shows hvalid h.calls (page - 1) (by omega) (by omega)
  · intro d hd
    cases hd
  · intro off hin
    rw [writePage_out _ _ (fun hnot => absurd (inPage_unique hin hnot) (by omega)), ← hflash off]
    exact nor_blank _
  · intro off hin
    rw [hback] at hin ⊢
    rw [writePage_in _ _ hin, hflash off]
    exact nor_of_takes (htakes off hin)
  · intro off _ hhigh
    rw [hback] at hhigh
    rw [writePage_out _ _ hhigh]
    exact hflash off

theorem write_shows (h : Shows b f) (hpage : page.toNat < 8192) (hdata : data.length = 128)
    (htakes : Takes f page.toNat data) :
    Shows (port_flash_write_page page data b).2 (writePage store 128 page.toNat data f) := by
  have hsize : UPDATER_PAGE_SIZE.toNat = 128 := rfl
  have htake : data.take UPDATER_PAGE_SIZE.toNat = data :=
    List.take_of_length_le (by rw [hsize]; exact Nat.le_of_eq hdata)
  obtain ⟨hflushed, hnone⟩ := hold_flush_shows h
  unfold port_flash_write_page
  rw [htake]
  generalize hold_flush b = flushed at hflushed hnone ⊢
  obtain ⟨⟨⟩, b'⟩ := flushed
  split_ifs with hretry hpartner heven
  · obtain ⟨hvalid, rfl⟩ := hretry
    exact hold_again_shows h hvalid hdata htakes
  · exact partner_shows h hpartner.1 hpartner.2 htakes
  · exact hold_shows hflushed hnone hpage ((low_bit page).mp heven) hdata htakes
  · rw [low_bit] at heven
    exact odd_shows hflushed hnone hpage heven htakes

end Write

/-! ## Erasing -/

def sectorPage (off : Nat) : Nat := off / 4096 * 32

theorem sector_start (page : UInt16) :
    page.toUInt32 % PAGES_PER_SECTOR = 0 ↔ page.toNat % 32 = 0 := by
  have hpages : PAGES_PER_SECTOR.toNat = 32 := rfl
  rw [← UInt32.toNat_inj, UInt32.toNat_mod, UInt16.toNat_toUInt32, hpages]
  rfl

/-- Of the pages of a sector only the first does something, and it erases them all. -/
theorem port_flash_erase_page_flash (page : UInt16) (hpage : page.toNat < 8192) (b : Board) (off : Nat) :
    (port_flash_erase_page page b).2.flash (appOffset off) =
      if sectorPage off = page.toNat then 0xFF else b.flash (appOffset off) := by
  have hcount : FLASH_SECTOR_SIZE.toNat = 4096 := rfl
  have haddress := page_address page hpage
  unfold port_flash_erase_page
  dsimp only
  split
  · rename_i hinside
    rw [Ne, sector_start] at hinside
    rw [if_neg (by unfold sectorPage; omega)]
  · rename_i hstart
    rw [Ne, not_not, sector_start] at hstart
    have hsector : (appOffset (page.toNat * 128) ≤ appOffset off ∧
        appOffset off < appOffset (page.toNat * 128) + 4096) ↔ sectorPage off = page.toNat := by
      unfold appOffset sectorPage
      omega
    unfold flash_range_erase
    rw [modify_apply, haddress, hcount]
    simp only [hsector]

theorem port_flash_erase_page_calls (page : UInt16) (hpage : page.toNat < 8192) (b : Board)
    (h : ∀ call ∈ b.calls, call.InApp) :
    ∀ call ∈ (port_flash_erase_page page b).2.calls, call.InApp := by
  have hcount : FLASH_SECTOR_SIZE.toNat = 4096 := rfl
  have hoffset : UPDATER_APP_FLASH_OFFSET.toNat = 0x10000 := rfl
  have haddress := page_address page hpage
  unfold appOffset at haddress
  unfold port_flash_erase_page
  dsimp only
  split
  · exact h
  · rename_i hstart
    rw [Ne, not_not, sector_start] at hstart
    intro call hcall
    rcases List.mem_append.mp hcall with hold | hnew
    · exact h call hold
    · rw [List.mem_singleton.mp hnew]
      unfold FlashCall.InApp
      omega

theorem port_flash_erase_page_drops (page : UInt16) (b : Board) :
    (port_flash_erase_page page b).2.hold_valid = false := by
  unfold port_flash_erase_page
  dsimp only
  split <;> rfl

theorem erase_pages_board (k : Nat) (page : UInt16) (hpage : page.toNat + k ≤ 8192) (b : Board)
    (hcalls : ∀ call ∈ b.calls, call.InApp) :
    let b' := (erase_pages rp2350Port k page b).2
    (0 < k → b'.hold_valid = false) ∧
    (b.hold_valid = false → b'.hold_valid = false) ∧
    (∀ off, b'.flash (appOffset off) =
      if page.toNat ≤ sectorPage off ∧ sectorPage off < page.toNat + k then 0xFF
      else b.flash (appOffset off)) ∧
    ∀ call ∈ b'.calls, call.InApp := by
  induction k generalizing page b with
  | zero =>
    refine ⟨fun h => absurd h (by omega), fun h => h, ?_, hcalls⟩
    intro off
    rw [if_neg (by omega)]
    rfl
  | succ k ih =>
    have hnext : (page + 1).toNat = page.toNat + 1 := succ_toNat16 (by omega)
    have hdropped := port_flash_erase_page_drops page b
    obtain ⟨-, hkept, hflash, hlater⟩ := ih (page + 1) (by omega) (port_flash_erase_page page b).2
      (port_flash_erase_page_calls page (by omega) b hcalls)
    have hstep : erase_pages rp2350Port (k + 1) page b =
        erase_pages rp2350Port k (page + 1) (port_flash_erase_page page b).2 := rfl
    rw [hstep]
    refine ⟨fun _ => hkept hdropped, fun _ => hkept hdropped, ?_, hlater⟩
    intro off
    rw [hflash off, port_flash_erase_page_flash page (by omega) b off, hnext]
    split_ifs <;> first | rfl | omega

theorem erase_shows {b : Board} {f : Flash} (h : Shows b f) :
    Shows (erase_pages rp2350Port port_info.app_pages.toNat 0 b).2
      (erase_pages (arrayPort port_info store) port_info.app_pages.toNat 0 f).2 := by
  have hpages : port_info.app_pages.toNat = 8192 := rfl
  have hsize : port_info.page_size.toNat = 128 := rfl
  have hzero : (0 : UInt16).toNat = 0 := rfl
  obtain ⟨hdropped, -, hflash, hcalls⟩ := erase_pages_board 8192 0 (Nat.le_refl _) b h.calls
  have hnone := hdropped (by omega)
  rw [erase_pages_array store f port_info _ 0 (by rw [hzero]; omega), hpages, hsize, hzero]
  refine ⟨⟨?_, hcalls⟩, ?_, ?_⟩
  · intro hvalid
    rw [hnone] at hvalid
    cases hvalid
  · intro off _
    rw [hflash off, hzero]
    unfold sectorPage
    dsimp only
    split_ifs with hsector hregion hregion
    · rfl
    · omega
    · omega
    · apply h.flash
      intro hvalid hheld
      have hrange := (h.page hvalid).1
      unfold InPage at hheld
      omega
  · intro hvalid
    rw [hnone] at hvalid
    cases hvalid

/-! ## Reading -/

theorem read_address (offset : UInt32) (hoffset : offset.toNat < port_info.region) :
    (UPDATER_APP_BASE + offset - XIP_BASE).toNat = appOffset offset.toNat := by
  rw [region_eq] at hoffset
  have hbase : UPDATER_APP_BASE.toNat = 0x10010000 := rfl
  have hxip : XIP_BASE.toNat = 0x10000000 := rfl
  have happ : UPDATER_APP_FLASH_OFFSET.toNat = 0x10000 := rfl
  have hsum : (UPDATER_APP_BASE + offset).toNat = 0x10010000 + offset.toNat := by
    rw [UInt32.toNat_add, hbase, Nat.mod_eq_of_lt (by omega)]
  unfold appOffset
  rw [UInt32.toNat_sub_of_le _ _ (by rw [UInt32.le_iff_toNat_le]; omega)]
  omega

theorem read_shows {b : Board} {f : Flash} (h : Shows b f) (offset : UInt32)
    (hoffset : offset.toNat < port_info.region) :
    (port_flash_read_byte offset b).1 = f offset.toNat ∧ Shows (port_flash_read_byte offset b).2 f := by
  obtain ⟨hflushed, hnone⟩ := hold_flush_shows h
  unfold port_flash_read_byte
  generalize hold_flush b = flushed at hflushed hnone ⊢
  obtain ⟨⟨⟩, b'⟩ := flushed
  dsimp only at hflushed hnone ⊢
  refine ⟨?_, hflushed⟩
  rw [read_address offset hoffset]
  exact hflushed.flash_of_flushed hnone _

/-! ## Runs -/

inductive FlashOp where
  | erase_app
  | write_page (page : UInt16) (data : List UInt8)
  | read_byte (offset : UInt32)
deriving DecidableEq

/-- What the core asks of a port, and what a read returns. -/
def flashStep {σ : Type} (info : PortInfo) (P : Port σ) (s : σ) : FlashOp → Option UInt8 × σ
  | .erase_app => (none, (erase_pages P info.app_pages.toNat 0 s).2)
  | .write_page page data => (none, (P.port_flash_write_page page data s).2)
  | .read_byte offset =>
    let (byte, s) := P.port_flash_read_byte offset s
    (some byte, s)

theorem flashStep_erase {σ τ : Type} (info : PortInfo) (P : Port σ) (Q : Port τ) (rel : σ → τ → Prop)
    (s : σ) (t : τ)
    (h : rel (erase_pages P info.app_pages.toNat 0 s).2 (erase_pages Q info.app_pages.toNat 0 t).2) :
    (flashStep info P s .erase_app).1 = (flashStep info Q t .erase_app).1 ∧
      rel (flashStep info P s .erase_app).2 (flashStep info Q t .erase_app).2 :=
  ⟨rfl, h⟩

/-- What the core promises: it stays inside the app region, writes only after an erase, and writes
a page again, before the next erase, only with the same data. -/
structure Promised (ops : List FlashOp) : Prop where
  page : ∀ page data, .write_page page data ∈ ops → page < port_info.app_pages ∧ data.length = 128
  offset : ∀ offset, .read_byte offset ∈ ops → offset.toNat < port_info.region
  erased : ∀ before page data after, ops = before ++ .write_page page data :: after →
    .erase_app ∈ before
  same : ∀ before page data between data' after,
    ops = before ++ .write_page page data :: between ++ .write_page page data' :: after →
    .erase_app ∉ between → data' = data

theorem Promised.of_append {ops more : List FlashOp} (h : Promised (ops ++ more)) : Promised ops := by
  refine ⟨?_, ?_, ?_, ?_⟩
  · intro page data hmem
    exact h.page page data (List.mem_append_left _ hmem)
  · intro offset hmem
    exact h.offset offset (List.mem_append_left _ hmem)
  · rintro before page data after rfl
    exact h.erased before page data (after ++ more) (by simp)
  · rintro before page data between data' after rfl hbetween
    exact h.same before page data between data' (after ++ more) (by simp) hbetween

/-- Where a byte of the array comes from, once there was an erase: it is blank, or it was written,
and not erased since. -/
theorem array_provenance (f : Flash) (ops : List FlashOp) (herase : .erase_app ∈ ops) (off : Nat)
    (hoff : off < port_info.region) :
    let f' := (runAll (flashStep port_info (arrayPort port_info store)) f ops).2
    f' off = 0xFF ∨ ∃ before page data after, ops = before ++ .write_page page data :: after ∧
      .erase_app ∉ after ∧ InPage 128 page.toNat off ∧ f' off = data.getD (off - page.toNat * 128) 0 := by
  induction ops using List.reverseRecOn with
  | nil => cases herase
  | append_singleton ops op ih =>
    dsimp only at ih ⊢
    rw [runAll_concat]
    dsimp only
    generalize (runAll (flashStep port_info (arrayPort port_info store)) f ops).2 = g at ih ⊢
    -- An operation that is no erase leaves what was there, or writes the byte.
    have hkept : op ≠ .erase_app → (flashStep port_info (arrayPort port_info store) g op).2 off = g off →
        (flashStep port_info (arrayPort port_info store) g op).2 off = 0xFF ∨
          ∃ before page data after, ops ++ [op] = before ++ .write_page page data :: after ∧
            .erase_app ∉ after ∧ InPage 128 page.toNat off ∧
            (flashStep port_info (arrayPort port_info store) g op).2 off = data.getD (off - page.toNat * 128) 0 := by
      intro hop hsame
      have hbefore : .erase_app ∈ ops := by
        rcases List.mem_append.mp herase with h | h
        · exact h
        · exact absurd (List.mem_singleton.mp h).symm hop
      rw [hsame]
      rcases ih hbefore with hblank | ⟨before, page, data, after, rfl, hafter, hin, hbyte⟩
      · exact Or.inl hblank
      · refine Or.inr ⟨before, page, data, after ++ [op], by simp, ?_, hin, hbyte⟩
        rw [List.mem_append, List.mem_singleton, not_or]
        exact ⟨hafter, fun h => hop h.symm⟩
    rcases op with _ | ⟨page, data⟩ | offset
    · left
      have hzero : (0 : UInt16).toNat = 0 := rfl
      have hpages : port_info.app_pages.toNat = 8192 := rfl
      have hsize : port_info.page_size.toNat = 128 := rfl
      rw [region_eq] at hoff
      unfold flashStep
      rw [erase_pages_array store g port_info _ 0 (by rw [hzero]; omega), hpages, hsize, hzero]
      exact if_pos ⟨by omega, by omega⟩
    · have hstep : (flashStep port_info (arrayPort port_info store) g (.write_page page data)).2 =
          writePage store 128 page.toNat data g := rfl
      rw [hstep] at hkept ⊢
      rcases Classical.em (InPage 128 page.toNat off) with hin | hout
      · right
        exact ⟨ops, page, data, [], rfl, List.not_mem_nil, hin, writePage_in data g hin⟩
      · exact hkept (by simp) (writePage_out data g hout)
    · exact hkept (by simp) rfl

theorem flashStep_shows {b : Board} {f : Flash} (h : Shows b f) (op : FlashOp)
    (hwrite : ∀ page data, op = .write_page page data →
      page.toNat < 8192 ∧ data.length = 128 ∧ Takes f page.toNat data)
    (hread : ∀ offset, op = .read_byte offset → offset.toNat < port_info.region) :
    (flashStep port_info rp2350Port b op).1 = (flashStep port_info (arrayPort port_info store) f op).1 ∧
      Shows (flashStep port_info rp2350Port b op).2 (flashStep port_info (arrayPort port_info store) f op).2 := by
  rcases op with _ | ⟨page, data⟩ | offset
  · exact flashStep_erase port_info rp2350Port (arrayPort port_info store) Shows b f (erase_shows h)
  · obtain ⟨hpage, hdata, htakes⟩ := hwrite page data rfl
    exact ⟨rfl, write_shows h hpage hdata htakes⟩
  · obtain ⟨hbyte, hshows⟩ := read_shows h offset (hread offset rfl)
    exact ⟨congrArg some hbyte, hshows⟩

theorem runAll_shows {b : Board} {f : Flash} (h : Shows b f) (ops : List FlashOp) (hops : Promised ops) :
    let board := runAll (flashStep port_info rp2350Port) b ops
    let plain := runAll (flashStep port_info (arrayPort port_info store)) f ops
    board.1 = plain.1 ∧ Shows board.2 plain.2 := by
  induction ops using List.reverseRecOn with
  | nil => exact ⟨rfl, h⟩
  | append_singleton ops op ih =>
    obtain ⟨hanswers, hshows⟩ := ih hops.of_append
    have hstep := flashStep_shows hshows op ?_ ?_
    · dsimp only
      rw [runAll_append, runAll_append, hanswers]
      refine ⟨?_, hstep.2⟩
      rw [runAll_cons, runAll_cons, hstep.1]
      rfl
    · rintro page data rfl
      have hmem : .write_page page data ∈ ops ++ [.write_page page data] :=
        List.mem_append_right _ (List.mem_singleton_self _)
      obtain ⟨hpage, hdata⟩ := hops.page page data hmem
      have hrange : page.toNat < 8192 := UInt16.lt_iff_toNat_lt.mp hpage
      refine ⟨hrange, hdata, ?_⟩
      intro off hin
      have hoff : off < port_info.region := by
        rw [region_eq]
        unfold InPage at hin
        omega
      have herase := hops.erased ops page data [] rfl
      rcases array_provenance f ops herase off hoff with
        hblank | ⟨before, page', data', after, hsplit, hafter, hin', hbyte⟩
      · exact Or.inl hblank
      · have hsame : page' = page := UInt16.toNat_inj.mp (inPage_unique hin' hin)
        subst hsame
        have hdata' := hops.same before page' data' after data [] (by rw [hsplit]) hafter
        rw [hdata']
        exact Or.inr hbyte
    · rintro offset rfl
      exact hops.offset offset (List.mem_append_right _ (List.mem_singleton_self _))

/-- The coalescing layer answers as a plain array does, and calls the ROM with aligned ranges of
the app region only. -/
theorem rp2350_flash_refines (hold : List UInt8) (hold_page : UInt16) (flash : Flash)
    (ops : List FlashOp) (hops : Promised ops) :
    let b : Board := { hold, hold_page, hold_valid := false, flash, calls := [] }
    let board := runAll (flashStep port_info rp2350Port) b ops
    let plain := runAll (flashStep port_info (arrayPort port_info store))
      (fun off => flash (0x10000 + off)) ops
    board.1 = plain.1 ∧ ∀ call ∈ board.2.calls, call.InApp := by
  intro b
  have hshows : Shows b (fun off => flash (0x10000 + off)) := by
    refine ⟨⟨?_, fun _ hcall => nomatch hcall⟩, fun off _ => rfl, ?_⟩
    · intro hvalid
      cases hvalid
    · intro hvalid
      cases hvalid
  obtain ⟨hanswers, hend⟩ := runAll_shows hshows ops hops
  exact ⟨hanswers, hend.calls⟩

theorem rp2350_flash_refines_retry :
    let d := List.replicate 128 0x5A
    let ops : List FlashOp := [.erase_app, .write_page 0 d, .read_byte 5, .write_page 1 d,
      .write_page 0 d, .read_byte 130]
    let b : Board :=
      { hold := [], hold_page := 0, hold_valid := false, flash := fun _ => 0, calls := [] }
    let board := runAll (flashStep port_info rp2350Port) b ops
    let plain := runAll (flashStep port_info (arrayPort port_info store)) (fun _ => 0) ops
    board.1 = plain.1 ∧ ∀ call ∈ board.2.calls, call.InApp := by
  intro d ops
  have hdata : ∀ page data, .write_page page data ∈ ops →
      (page < port_info.app_pages ∧ data.length = 128) ∧ data = d := by
    intro page data hmem
    simp only [ops, List.mem_cons, FlashOp.write_page.injEq, reduceCtorEq, false_or, or_false,
      List.not_mem_nil] at hmem
    rcases hmem with ⟨rfl, rfl⟩ | ⟨rfl, rfl⟩ | ⟨rfl, rfl⟩
    · exact ⟨⟨by decide, List.length_replicate⟩, rfl⟩
    · exact ⟨⟨by decide, List.length_replicate⟩, rfl⟩
    · exact ⟨⟨by decide, List.length_replicate⟩, rfl⟩
  refine rp2350_flash_refines [] 0 (fun _ => 0) ops ⟨fun page data h => (hdata page data h).1, ?_, ?_, ?_⟩
  · intro offset hmem
    simp only [ops, List.mem_cons, FlashOp.read_byte.injEq, reduceCtorEq, false_or, or_false,
      List.not_mem_nil] at hmem
    rcases hmem with rfl | rfl
    · decide
    · decide
  · intro before page data after hsplit
    rcases before with _ | ⟨op, before⟩
    · exact absurd (List.cons.inj hsplit).1 (by simp)
    · rw [← (List.cons.inj hsplit).1]
      exact List.mem_cons_self
  · intro before page data between data' after hsplit _
    have hfirst := (hdata page data (by rw [hsplit]; simp)).2
    have hsecond := (hdata page data' (by rw [hsplit]; simp)).2
    rw [hfirst, hsecond]

end OtaUpdater.Device.Rp2350
