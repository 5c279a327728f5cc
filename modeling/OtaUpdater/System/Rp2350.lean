import OtaUpdater.Device.Confinement
import OtaUpdater.Device.Rp2350FlashRules
import OtaUpdater.System.Boards

/-!
# An update of the RP2350

The page that is held back lives in RAM, and a page that is held back is acknowledged. An
update all the same ends with everything in the flash.
-/

open OtaUpdater.Lib.Bytes OtaUpdater.Lib.State OtaUpdater.Wire OtaUpdater.Device OtaUpdater.Host
open OtaUpdater.Agreement

namespace OtaUpdater.Device.Rp2350

/-! ## Where the flash changes -/

def FlashCall.Covers (x : Nat) : FlashCall → Bool
  | .flash_range_erase offs count | .flash_range_program offs count =>
    offs.toNat ≤ x && x < offs.toNat + count.toNat

def Touches (b b' : Board) : Prop :=
  ∃ new, b'.calls = b.calls ++ new ∧
    ∀ x, new.any (FlashCall.Covers x) = false → b'.flash x = b.flash x

theorem Touches.refl (b : Board) : Touches b b := ⟨[], (List.append_nil _).symm, fun _ _ => rfl⟩

theorem Touches.call {b0 b b' : Board} (h : Touches b0 b) (call : FlashCall)
    (hcalls : b'.calls = b.calls ++ [call])
    (hflash : ∀ x, call.Covers x = false → b'.flash x = b.flash x) : Touches b0 b' := by
  obtain ⟨new, hnew, hsame⟩ := h
  refine ⟨new ++ [call], by rw [hcalls, hnew, List.append_assoc], ?_⟩
  intro x hx
  rw [List.any_append, Bool.or_eq_false_iff] at hx
  rw [hflash x (by simpa using hx.2), hsame x hx.1]

theorem Touches.erase {b0 b : Board} (h : Touches b0 b) (offs count : UInt32) :
    Touches b0 (flash_range_erase offs count b).2 := by
  refine h.call (.flash_range_erase offs count) rfl ?_
  intro x hx
  apply if_neg
  simpa [FlashCall.Covers] using hx

theorem Touches.program {b0 b : Board} (h : Touches b0 b) (offs : UInt32) (data : List UInt8)
    (count : UInt32) : Touches b0 (flash_range_program offs data count b).2 := by
  refine h.call (.flash_range_program offs count) rfl ?_
  intro x hx
  apply if_neg
  simpa [FlashCall.Covers] using hx

theorem Touches.flush {b0 b : Board} (h : Touches b0 b) : Touches b0 (hold_flush b).2 := by
  unfold hold_flush
  split
  · exact h
  · exact Touches.program (b := { b with hold_valid := false }) h _ _ _

theorem rp2350_confined (b0 : Board) : Confined rp2350Port port_info (Touches b0) where
  read := by
    intro off _ b h
    exact h.flush
  erase := by
    intro page _ b h
    change Touches b0 (port_flash_erase_page page b).2
    unfold port_flash_erase_page
    dsimp only
    split
    · exact h
    · exact Touches.erase (b := { b with hold_valid := false }) h _ _
  write := by
    intro page data _ _ b h
    have hflushed := h.flush
    change Touches b0 (port_flash_write_page page data b).2
    unfold port_flash_write_page
    generalize hold_flush b = flushed at hflushed ⊢
    obtain ⟨⟨⟩, b'⟩ := flushed
    split_ifs
    · exact h
    · exact Touches.program (b := { b with hold_valid := false }) h _ _ _
    · exact hflushed
    · exact hflushed.program _ _ _

/-! ## What the layer keeps -/

theorem Kept.flush {b : Board} (h : Kept b) : Kept (hold_flush b).2 ∧ (hold_flush b).2.hold_valid = false :=
  ⟨(hold_flush_shows h.shows).1.toKept, (hold_flush_shows h.shows).2⟩

theorem kept_written {b : Board} (h : Kept b) (page : UInt16) (hpage : page.toNat < 8192)
    (data : List UInt8) (hdata : data.length = 128) : Kept (port_flash_write_page page data b).2 := by
  have hsize : UPDATER_PAGE_SIZE.toNat = 128 := rfl
  have hheld : (data.take UPDATER_PAGE_SIZE.toNat).length = 128 := by
    rw [List.length_take, hsize, hdata, Nat.min_self]
  obtain ⟨hflushed, hnone⟩ := h.flush
  unfold port_flash_write_page
  generalize hold_flush b = flushed at hflushed hnone ⊢
  obtain ⟨⟨⟩, b'⟩ := flushed
  split_ifs with hretry hpartner heven
  · obtain ⟨hrange, heven, -⟩ := h.page hretry.1
    exact ⟨fun _ => ⟨hrange, heven, hheld⟩, h.calls⟩
  · obtain ⟨hrange, heven, -⟩ := h.page hpartner.1
    exact kept_programmed (b := { b with hold_valid := false }) rfl h.calls _ hrange heven _ _
  · exact ⟨fun _ => ⟨hpage, (low_bit page).mp heven, hheld⟩, hflushed.calls⟩
  · rw [low_bit] at heven
    have hprev := pred_toNat page (by omega)
    exact kept_programmed hnone hflushed.calls _ (by omega) (by omega) _ _

theorem kept_confined : Confined rp2350Port port_info Kept where
  read := by
    intro off _ b h
    exact h.flush.1
  erase := by
    intro page hpage b h
    refine ⟨?_, port_flash_erase_page_calls page (UInt16.lt_iff_toNat_lt.mp hpage) b h.calls⟩
    intro htrue
    have hdropped : ((rp2350Port.port_flash_erase_page page) b).2.hold_valid = false :=
      port_flash_erase_page_drops page b
    rw [hdropped] at htrue
    cases htrue
  write := by
    intro page data hpage hdata b h
    exact kept_written h page (UInt16.lt_iff_toNat_lt.mp hpage) data hdata

/-! ## The core on this flash -/

theorem rp2350_reads : ReadsAgree rp2350Port (arrayPort port_info store) port_info Shows := by
  intro off hoff b f h
  exact read_shows h off hoff

theorem rp2350_handles {s : UpdSession} (hs : s.info = port_info) {b : Board} {f : Flash}
    (h : Shows b f) {req : UpdFrame} (hwritable : System.Writable port_info s req f) (rsp_cap : UInt8) :
    let board := upd_handle rp2350Port s req rsp_cap b
    let plain := upd_handle (arrayPort port_info store) s req rsp_cap f
    board.1 = plain.1 ∧ Shows board.2 plain.2 := by
  dsimp only
  by_cases hcap : rsp_cap = 0
  · subst hcap
    exact ⟨rfl, h⟩
  by_cases herase : req.cmd = UPD_CMD_ERASE_APP
  · have hne : UPD_CMD_ERASE_APP ≠ UPD_CMD_INFO := by decide
    have hloop : Agree Shows (erase_pages rp2350Port s.info.app_pages.toNat 0)
        (erase_pages (arrayPort port_info store) s.info.app_pages.toNat 0) := by
      rw [hs]
      intro b f h
      exact ⟨Subsingleton.elim _ _, erase_shows h⟩
    have hagree := handle_erase_agree_of_loop hloop req b f h
    unfold upd_handle
    simp only [hcap, herase, hne, if_false, if_true]
    exact hagree
  by_cases hwrite : req.cmd = UPD_CMD_WRITE_PAGE
  · rw [upd_handle_write_run _ s req rsp_cap b hwrite hcap, upd_handle_write_run _ s req rsp_cap f hwrite hcap,
      handle_write_run, handle_write_run]
    split_ifs with herased hlen hidx
    · exact ⟨rfl, h⟩
    · exact ⟨rfl, h⟩
    · exact ⟨rfl, h⟩
    · have hpages : s.info.app_pages.toNat = 8192 := by rw [hs]; rfl
      have hsize : s.info.page_size.toNat = 128 := by rw [hs]; rfl
      rw [UInt16.not_le, UInt16.lt_iff_toNat_lt, hpages] at hidx
      rw [Bool.not_eq_false] at herased
      rw [not_not] at hlen
      refine ⟨rfl, write_shows h hidx ?_ ?_⟩
      · rw [List.length_drop, req.payload_length, hlen, hsize]
      · rw [hs] at hlen
        exact hwritable hwrite herased hlen (UInt16.lt_iff_toNat_lt.mpr hidx)
  · have hreads : ReadsAgree rp2350Port (arrayPort port_info store) s.info Shows := by
      rw [hs]
      exact rp2350_reads
    exact upd_handle_agree_of_reads hreads req rsp_cap herase hwrite b f h

theorem rp2350_quiet {s : UpdSession} {req : UpdFrame} (herase : req.cmd ≠ UPD_CMD_ERASE_APP)
    (hwrite : req.cmd ≠ UPD_CMD_WRITE_PAGE) (rsp_cap : UInt8) {b : Board} (hflushed : b.hold_valid = false) :
    (upd_handle rp2350Port s req rsp_cap b).2 = b := by
  have hkeeps : Keeps (fun b' => b' = b) (upd_handle rp2350Port s req rsp_cap) := by
    refine upd_handle_keeps_of_reads (fun off _ => ?_) req rsp_cap herase hwrite
    rintro b' rfl
    change (hold_flush b').2 = b'
    unfold hold_flush
    rw [hflushed]
    rfl
  exact hkeeps b rfl

/-- The last page of the region is odd: it goes out at once, with its partner or without. -/
theorem odd_flushes {b : Board} {f : Flash} (h : Shows b f) (page : UInt16) (hodd : page.toNat % 2 = 1)
    (data : List UInt8) : (port_flash_write_page page data b).2.hold_valid = false := by
  have hnone := (hold_flush_shows h).2
  unfold port_flash_write_page
  generalize hold_flush b = flushed at hnone ⊢
  obtain ⟨⟨⟩, b'⟩ := flushed
  split_ifs with hretry hpartner heven
  · obtain ⟨hvalid, rfl⟩ := hretry
    have heven := (h.page hvalid).2.1
    omega
  · rfl
  · rw [low_bit] at heven
    omega
  · exact hnone

/-! ## Losing the RAM -/

inductive Loss where
  /-- Power lost: of what the ROM calls were at, anything may be left. -/
  | power (tear : Nat → UInt8)
  /-- A new session without a reset, which does not clear the holdback. -/
  | session

def lost (b b' : Board) : Loss → Board
  | .power tear =>
    let new := b'.calls.drop b.calls.length
    { b' with
      hold_valid := false
      flash := fun x => if new.any (FlashCall.Covers x) then tear x else b.flash x }
  | .session => b'

/-- What is not the app region. -/
def Outside (x : Nat) : Prop := x < 0x10000 ∨ 0x110000 ≤ x

theorem FlashCall.InApp.covers {call : FlashCall} (h : call.InApp) {x : Nat} (hx : Outside x) :
    call.Covers x = false := by
  unfold Outside at hx
  rcases call with ⟨offs, count⟩ | ⟨offs, count⟩ <;>
  · unfold FlashCall.InApp at h
    simp only [FlashCall.Covers, Bool.and_eq_false_iff, decide_eq_false_iff_not]
    omega

theorem Touches.outside {b b' : Board} (h : Touches b b') (hcalls : ∀ call ∈ b'.calls, call.InApp)
    {x : Nat} (hx : Outside x) : b'.flash x = b.flash x := by
  obtain ⟨new, hnew, hsame⟩ := h
  apply hsame
  rw [List.any_eq_false]
  intro call hcall
  rw [(hcalls call (by rw [hnew]; exact List.mem_append_right _ hcall)).covers hx]
  decide

/-- Losing the power takes nothing but the holdback, and what the ROM calls were at. -/
theorem lost_power {b b' : Board} (tear : Nat → UInt8) (hcalls : ∀ call ∈ b'.calls, call.InApp) :
    Shows (lost b b' (.power tear)) (fun off => (lost b b' (.power tear)).flash (appOffset off)) ∧
      ∀ x, Outside x → (lost b b' (.power tear)).flash x = b.flash x := by
  refine ⟨⟨⟨fun h => (nomatch h), hcalls⟩, fun _ _ => rfl, fun h => (nomatch h)⟩, ?_⟩
  intro x hx
  have hnone : (b'.calls.drop b.calls.length).any (FlashCall.Covers x) = false := by
    rw [List.any_eq_false]
    intro call hcall
    rw [(hcalls call (List.mem_of_mem_drop hcall)).covers hx]
    decide
  unfold lost
  dsimp only
  rw [hnone]
  rfl

theorem kept_lost (b b' : Board) (how : Loss) (h' : Kept b') : Kept (lost b b' how) := by
  cases how with
  | session => exact h'
  | power tear => exact (lost_power (b := b) tear h'.calls).1.toKept

end OtaUpdater.Device.Rp2350

namespace OtaUpdater.System

open Rp2350 (Loss Outside Touches rp2350Port)

/-! ## The port stands for an array -/

def Rp2350Shows (before : Flash) (b : Rp2350.Board) (f : Flash) : Prop :=
  Rp2350.Shows b f ∧ ∀ x, Outside x → b.flash x = before x

def Flushed (b : Rp2350.Board) : Prop := b.hold_valid = false

section Stands

variable (before : Flash) {s : UpdSession} (hs : s.info = Rp2350.port_info) {b : Rp2350.Board} {f : Flash}
  (h : Rp2350Shows before b f) {req : UpdFrame}

include h in
theorem rp2350Shows_lost (b' : Rp2350.Board) (hcalls : ∀ call ∈ b'.calls, call.InApp) (tear : Nat → UInt8) :
    ∃ f', Rp2350Shows before (Rp2350.lost b b' (.power tear)) f' ∧
      (Flushed b → b' = b → f' = f ∧ Flushed (Rp2350.lost b b' (.power tear))) := by
  obtain ⟨hshows, houtside⟩ := Rp2350.lost_power (b := b) tear hcalls
  refine ⟨_, ⟨hshows, fun x hx => (houtside x hx).trans (h.2 x hx)⟩, ?_⟩
  rintro hflushed rfl
  refine ⟨?_, rfl⟩
  funext off
  rw [← h.1.flash_of_flushed hflushed off]
  unfold Rp2350.lost
  rw [List.drop_length]
  rfl

include hs h in
theorem rp2350Shows_handled (hwritable : Writable Rp2350.port_info s req f) (rsp_cap : UInt8) :
    let board := upd_handle rp2350Port s req rsp_cap b
    let plain := upd_handle (arrayPort Rp2350.port_info store) s req rsp_cap f
    board.1 = plain.1 ∧ Rp2350Shows before board.2 plain.2 := by
  obtain ⟨hsame, hshows⟩ := Rp2350.rp2350_handles hs h.1 hwritable rsp_cap
  have hconfined := Rp2350.rp2350_confined b
  rw [← hs] at hconfined
  have htouches := upd_handle_keeps hconfined req rsp_cap b (Touches.refl b)
  exact ⟨hsame, hshows, fun x hx => (htouches.outside hshows.calls hx).trans (h.2 x hx)⟩

end Stands

theorem rp2350_stands (before : Flash) :
    Stands rp2350Port Rp2350.port_info Rp2350.lost (Rp2350Shows before) Flushed where
  handles s b f req hs h hwritable := rp2350Shows_handled before hs h hwritable _
  reads s b f req hs h herase hwrite hflushed := by
    rw [Rp2350.rp2350_quiet herase hwrite _ hflushed]
    exact hflushed
  last s b f req hs h hwrite herased hlen hlast := by
    have hpages : Rp2350.port_info.app_pages.toNat = 8192 := rfl
    have hidx : ¬ s.info.app_pages ≤ write_index req := by
      rw [UInt16.not_le, UInt16.lt_iff_toNat_lt, hs]
      omega
    rw [hpages] at hlast
    rw [upd_handle_write_run _ s req _ b hwrite (by decide), handle_write_run, if_neg (by rw [herased]; decide),
      if_neg (by rw [hlen, hs, ne_eq, not_not]), if_neg hidx]
    exact Rp2350.odd_flushes h.1 _ (by omega) _
  reset b f how h := by
    cases how with
    | session => exact ⟨f, h, fun hflushed => ⟨rfl, hflushed⟩⟩
    | power tear =>
      obtain ⟨f', hshows, hquiet⟩ := rp2350Shows_lost before h b h.1.calls tear
      exact ⟨f', hshows, fun hflushed => hquiet hflushed rfl⟩
  cut s b f req how hs h hwritable := by
    obtain ⟨-, hhandled⟩ := rp2350Shows_handled before hs h hwritable UPDATER_RSP_PAYLOAD_MAX
    cases how with
    | session =>
      refine ⟨_, hhandled, fun herase hwrite hflushed => ⟨?_, ?_⟩⟩
      · have hkeeps : Keeps (fun g : Flash => g = f)
            (upd_handle (arrayPort Rp2350.port_info store) s req UPDATER_RSP_PAYLOAD_MAX) :=
          upd_handle_keeps_of_reads (fun off _ g hg => hg) req _ herase hwrite
        exact hkeeps f rfl
      · have hquiet := Rp2350.rp2350_quiet (s := s) herase hwrite UPDATER_RSP_PAYLOAD_MAX hflushed
        unfold Rp2350.lost
        dsimp only
        rw [hquiet]
        exact hflushed
    | power tear =>
      obtain ⟨f', hshows, hquiet⟩ := rp2350Shows_lost before h _ hhandled.1.calls tear
      refine ⟨f', hshows, fun herase hwrite hflushed => ?_⟩
      exact hquiet hflushed (Rp2350.rp2350_quiet herase hwrite _ hflushed)

/-! ## Updates -/

/-- The image is in the QSPI flash, all of it, the gate lets it through, and nothing but the app
region was touched. -/
structure Rp2350Installed (img : Image) (before : Flash) (d : UpdSession × Rp2350.Board) : Prop where
  fits : img.page_size = 128 ∧ img.app_pages = 8192
  region : ∀ off < 0x100000, d.2.flash (0x10000 + off) = img.content.getD off 0
  flushed : d.2.hold_valid = false
  gate : (upd_app_valid rp2350Port Rp2350.port_info d.2).1 = true
  outside : ∀ x, Outside x → d.2.flash x = before x
  calls : ∀ call ∈ d.2.calls, call.InApp

theorem rp2350Installed_of_shows {img : Image} {before : Flash} {d : UpdSession × Rp2350.Board}
    (hfits : Fits img Rp2350.port_info) (hflushed : Flushed d.2) {f : Flash}
    (hshows : Rp2350Shows before d.2 f) (hregion : region Rp2350.port_info f = img.content) :
    Rp2350Installed img before d where
  fits := ⟨hfits.1.symm, hfits.2.symm⟩
  region off hoff := by
    have hflash := hshows.1.flash_of_flushed hflushed off
    have happ : Rp2350.appOffset off = 0x10000 + off := rfl
    rw [happ] at hflash
    rw [hflash, ← hregion]
    exact (region_getD Rp2350.port_info f off (by rw [Rp2350.region_eq]; exact hoff)).symm
  flushed := hflushed
  gate := by
    obtain ⟨hsame, -⟩ := upd_app_valid_agree Rp2350.rp2350_reads d.2 f hshows.1
    rw [hsame, upd_app_valid_array, hregion, decide_eq_true_iff]
    exact appValid_content img
  outside := hshows.2
  calls := hshows.1.calls

/-- Requests and answers lost, resets between requests and power cuts within: when the host says
it is done, no page it wrote is still waiting in RAM. -/
theorem rp2350_flash_sound {ε : Type} (img : Image) (schedule : Nat → Plant.Attempt (Mishap Loss) ε)
    (s : UpdSession) (hs : s.info = Rp2350.port_info) (b : Rp2350.Board) (hkept : Rp2350.Kept b)
    (buf : List UInt8)
    (hok : (flash ((boardPlant rp2350Port Rp2350.port_info Rp2350.lost).link schedule) img
      (boardSession (s, b) buf)).1 = .ok ()) :
    Rp2350Installed img b.flash (flash ((boardPlant rp2350Port Rp2350.port_info Rp2350.lost).link schedule) img
      (boardSession (s, b) buf)).2.transport.dev := by
  obtain ⟨hfits, -, hflushed, f', hshows', hregion⟩ := board_flash_sound (rp2350_stands b.flash)
    (by decide) schedule hs ⟨hkept.shows, fun _ _ => rfl⟩ buf hok
  exact rp2350Installed_of_shows hfits hflushed hshows' hregion

def rp2350Reset (flash : Flash) : Rp2350.Board :=
  { hold := [], hold_page := 0, hold_valid := false, flash, calls := [] }

theorem rp2350Reset_kept (flash : Flash) : Rp2350.Kept (rp2350Reset flash) where
  page h := nomatch h
  calls _ h := nomatch h

/-- So what an update takes for granted of the board it finds, no earlier life can have undone. -/
theorem rp2350_life_kept (life : List (List UInt8 × Mishap Loss)) (flash : Flash) :
    let d := boardLife rp2350Port Rp2350.port_info Rp2350.lost life
      (upd_init Rp2350.port_info, rp2350Reset flash)
    d.1.info = Rp2350.port_info ∧ Rp2350.Kept d.2 :=
  boardLife_keeps Rp2350.kept_confined (fun b b' how _ h' => Rp2350.kept_lost b b' how h') life _ rfl
    (rp2350Reset_kept flash)

/-- A page, its partner, and the first page again with other bytes, which will not go in over what is
there. -/
def earlierHost : List (List UInt8 × Mishap Loss) :=
  [(wire CMD_ERASE_APP ERASE_MAGIC, .unheard),
    (wire CMD_WRITE_PAGE (0 :: 0 :: List.replicate 128 0x00), .unheard),
    (wire CMD_WRITE_PAGE (1 :: 0 :: List.replicate 128 0x00), .unheard),
    (wire CMD_WRITE_PAGE (0 :: 0 :: List.replicate 128 0x5A), .reset .session)]

/-- Three bytes, to a board that was left so. -/
theorem rp2350_flash_sound_patchy : ∃ img, Image.from_bin [1, 2, 3] 128 8192 = .ok img ∧
    let d := boardLife rp2350Port Rp2350.port_info Rp2350.lost earlierHost
      (upd_init Rp2350.port_info, rp2350Reset (fun _ => 0x55))
    Rp2350Installed img d.2.flash (flash ((boardPlant rp2350Port Rp2350.port_info Rp2350.lost).link
      (patchyAttempts Loss)) img (boardSession d (List.replicate 148 0))).2.transport.dev := by
  obtain ⟨img, himg, -⟩ :=
    from_bin_eq_ok [1, 2, 3] 128 8192 (by decide) (by decide) (by decide) (by decide)
  obtain ⟨-, hps, hap⟩ := from_bin_fields himg
  refine ⟨img, himg, ?_⟩
  obtain ⟨hinfo, hkept⟩ := rp2350_life_kept earlierHost (fun _ => 0x55)
  generalize boardLife rp2350Port Rp2350.port_info Rp2350.lost earlierHost
    (upd_init Rp2350.port_info, rp2350Reset (fun _ => 0x55)) = d at hinfo hkept ⊢
  obtain ⟨s, b⟩ := d
  apply rp2350_flash_sound img (patchyAttempts Loss) s hinfo b hkept
  refine board_flash_recovers (rp2350_stands b.flash) (by decide) (patchyAttempts_calm Loss)
    ⟨hps.symm, hap.symm⟩ hinfo ⟨hkept.shows, fun _ _ => rfl⟩ _ ?_
  rw [hps, List.length_replicate]
  decide

/-- Over a link that is calm the host does get done, whatever the last update left behind, in the
flash or in RAM, and BOOT is granted. -/
theorem rp2350_flash_recovers {ε : Type} (img : Image) (schedule : Nat → Plant.Attempt (Mishap Loss) ε)
    (hcalm : Plant.Calm Mishap.Unheard schedule) (hps : img.page_size = 128) (hap : img.app_pages = 8192)
    (s : UpdSession) (hs : s.info = Rp2350.port_info) (b : Rp2350.Board) (hkept : Rp2350.Kept b)
    (buf : List UInt8) (hbuf : 148 ≤ buf.length) :
    let r := flash ((boardPlant rp2350Port Rp2350.port_info Rp2350.lost).link schedule) img
      (boardSession (s, b) buf)
    r.1 = .ok () ∧ Rp2350Installed img b.flash r.2.transport.dev ∧
      (serveFrame rp2350Port (wire CMD_BOOT []) r.2.transport.dev).1 =
        wire (CMD_BOOT ||| RSP_FLAG) [ST_OK] := by
  have hstart : Rp2350Shows b.flash b (Rp2350.shown b) := ⟨hkept.shows, fun _ _ => rfl⟩
  have hok := board_flash_recovers (rp2350_stands b.flash) (by decide) hcalm ⟨hps.symm, hap.symm⟩ hs hstart
    buf (by rw [hps]; exact hbuf)
  obtain ⟨hfits, hinfo, hflushed, f', hshows', hregion⟩ := board_flash_sound (rp2350_stands b.flash)
    (by decide) schedule hs hstart buf hok
  dsimp only at hok hinfo hflushed hshows' ⊢
  refine ⟨hok, rp2350Installed_of_shows hfits hflushed hshows' hregion, ?_⟩
  generalize (flash ((boardPlant rp2350Port Rp2350.port_info Rp2350.lost).link schedule) img
    (boardSession (s, b) buf)).2.transport.dev = d at hinfo hshows' ⊢
  obtain ⟨req, hreceive, hcmd, -⟩ := receiveFrame_wire CMD_BOOT [] (Nat.zero_le _)
  obtain ⟨hserve, -⟩ := serveFrame_eq rp2350Port hreceive d
  have hboot : req.cmd = UPD_CMD_BOOT := hcmd
  have hwritable : Writable Rp2350.port_info d.1 req f' := by
    intro hwrite
    rw [hboot] at hwrite
    exact absurd hwrite (by decide)
  obtain ⟨hsame, -⟩ := Rp2350.rp2350_handles hinfo hshows'.1 hwritable UPDATER_RSP_PAYLOAD_MAX
  have hgranted := upd_handle_boot store d.1 f' UPDATER_RSP_PAYLOAD_MAX hboot (by decide)
  rw [hinfo, hregion, if_pos (appValid_content img)] at hgranted
  rw [hserve, hsame, hgranted, hcmd]
  rfl

/-- Upon an update that stopped halfway, with a page in RAM that will not go in over what is there. -/
theorem rp2350_flash_recovers_held : ∃ img, Image.from_bin [1, 2, 3] 128 8192 = .ok img ∧
    let b : Rp2350.Board := { hold := List.replicate 128 0x5A, hold_page := 6, hold_valid := true
                              flash := fun _ => 0x00, calls := [] }
    let r := flash ((boardPlant rp2350Port Rp2350.port_info Rp2350.lost).link (patchyAttempts Loss)) img
      (boardSession ({ upd_init Rp2350.port_info with erased := true }, b) (List.replicate 148 0))
    r.1 = .ok () ∧ Rp2350Installed img (fun _ => 0x00) r.2.transport.dev ∧
      (serveFrame rp2350Port (wire CMD_BOOT []) r.2.transport.dev).1 =
        wire (CMD_BOOT ||| RSP_FLAG) [ST_OK] := by
  obtain ⟨img, himg, -⟩ :=
    from_bin_eq_ok [1, 2, 3] 128 8192 (by decide) (by decide) (by decide) (by decide)
  obtain ⟨-, hps, hap⟩ := from_bin_fields himg
  exact ⟨img, himg, rp2350_flash_recovers img (patchyAttempts Loss) (patchyAttempts_calm Loss) hps hap
    { upd_init Rp2350.port_info with erased := true } rfl
    { hold := List.replicate 128 0x5A, hold_page := 6, hold_valid := true, flash := fun _ => 0x00
      calls := [] }
    ⟨fun _ => ⟨by decide, by decide, rfl⟩, fun _ hcall => nomatch hcall⟩
    (List.replicate 148 0) (Nat.le_of_eq List.length_replicate.symm)⟩

end OtaUpdater.System
