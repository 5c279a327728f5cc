import OtaUpdater.Device.AvrFlashRules
import OtaUpdater.System.Boards

/-!
# An update of the AVR-EA

A power cut can stop NVMCTRL in any of its operations, of which an erase takes hundreds.
-/

open OtaUpdater.Lib.Bytes OtaUpdater.Lib.State OtaUpdater.Wire OtaUpdater.Device OtaUpdater.Host
open OtaUpdater.Agreement

namespace OtaUpdater.System

open Avr (Mcu NvmOp avrPort crashed replay Mirrors)

/-- What is left of a reset or a power cut: of the operations of the request the first `k` were
carried out, and of the page of the next one `tear` says what is in it. -/
structure AvrLoss where
  k : Nat
  tear : UInt8 → UInt8 → Nat → UInt8

/-- The board out of the reset. `error`, which no code reads, stays: it tells of a command refused at
any time. -/
def avrLost (m m' : Mcu) (how : AvrLoss) : Mcu :=
  { Mcu.powerUp (crashed how.tear m.flash (m'.ops.drop m.ops.length) how.k) with error := m'.error }

theorem avrLost_atRest {m m' : Mcu} (how : AvrLoss) (herror : m'.error = false) :
    (avrLost m m' how).AtRest := ⟨rfl, herror, fun _ => rfl⟩

/-- NVMCTRL is at rest, the app region is `f`, and the boot section as in `before`. -/
structure AvrShows (before : Flash) (m : Mcu) (f : Flash) : Prop where
  rest : m.AtRest
  app : ∀ off < Avr.port_info.region, m.flash (0x1000 + off) = f off
  boot : ∀ x < 0x1000, m.flash x = before x

/-! ## The port stands for an array -/

section Stands

variable (before : Flash) (slow : Nat → Nat) {s : UpdSession} (hs : s.info = Avr.port_info) {m : Mcu}
  {f : Flash} (h : AvrShows before m f) {req : UpdFrame}

include hs h in
theorem avrShows_handled (hwritable : Writable Avr.port_info s req f) (rsp_cap : UInt8) :
    let board := upd_handle (avrPort slow) s req rsp_cap m
    let plain := upd_handle (arrayPort Avr.port_info store) s req rsp_cap f
    board.1 = plain.1 ∧ AvrShows before board.2 plain.2 ∧
      ∃ done, Mirrors m done board.2 plain.2 := by
  have hagree := Avr.avrPort_agree slow m
  rw [← hs] at hagree
  obtain ⟨hret, hmirrors⟩ := upd_handle_agree hagree req rsp_cap m (f, []) (Mirrors.refl h.rest h.app)
  obtain ⟨htraced, hplain⟩ := upd_handle_agree (tracedPort_agree (arrayPort s.info nor) s.info) (s := s)
    req rsp_cap (f, []) f rfl
  rw [hs] at htraced hplain hmirrors hret
  rw [hplain, program_as_store nor_fills nor_repeats hs hwritable] at hmirrors
  rw [htraced, program_as_store nor_fills nor_repeats hs hwritable] at hret
  refine ⟨hret, ⟨hmirrors.rest, hmirrors.app, ?_⟩, _, hmirrors⟩
  intro x hx
  rw [hmirrors.flash, Avr.replay_boot _ hmirrors.inApp m.flash x hx]
  exact h.boot x hx

theorem avr_quiet (hs : s.info = Avr.port_info) (herase : req.cmd ≠ UPD_CMD_ERASE_APP)
    (hwrite : req.cmd ≠ UPD_CMD_WRITE_PAGE) (rsp_cap : UInt8) (m : Mcu) :
    (upd_handle (avrPort slow) s req rsp_cap m).2.ops = m.ops := by
  have hkeeps : Keeps (fun m' : Mcu => m'.ops = m.ops) (upd_handle (avrPort slow) s req rsp_cap) := by
    refine upd_handle_keeps_of_reads (fun off hoff => ?_) req rsp_cap herase hwrite
    intro m' hm'
    rw [hs, Avr.region_eq] at hoff
    have hread : (avrPort slow).port_flash_read_byte off m' = _ := Avr.read_byte_eq off hoff m'
    rw [hread]
    exact hm'
  exact hkeeps m rfl

theorem crashed_idle (tear : UInt8 → UInt8 → Nat → UInt8) (g : Flash) (k : Nat) :
    crashed tear g [] k = g := by
  unfold crashed
  rw [List.take_nil, List.getElem?_nil]
  rfl

include h in
theorem avrShows_idle (m' : Mcu) (hops : m'.ops = m.ops) (herror : m'.error = false) (how : AvrLoss) :
    AvrShows before (avrLost m m' how) f := by
  have hflash : (avrLost m m' how).flash = m.flash := by
    unfold avrLost
    rw [hops, List.drop_length, crashed_idle]
    rfl
  refine ⟨avrLost_atRest how herror, ?_, ?_⟩
  · rw [hflash]
    exact h.app
  · rw [hflash]
    exact h.boot

include h in
theorem avrShows_lost {m' : Mcu} {done : List NvmOp} {f' : Flash} (hmirrors : Mirrors m done m' f')
    (how : AvrLoss) :
    AvrShows before (avrLost m m' how) (fun off => (avrLost m m' how).flash (0x1000 + off)) := by
  refine ⟨avrLost_atRest how hmirrors.rest.error, fun _ _ => rfl, ?_⟩
  intro x hx
  unfold avrLost
  rw [hmirrors.log, List.drop_left]
  exact (Avr.crashed_boot how.tear m.flash done hmirrors.inApp how.k x hx).trans (h.boot x hx)

end Stands

theorem avr_stands (before : Flash) (slow : Nat → Nat) :
    Stands (avrPort slow) Avr.port_info avrLost (AvrShows before) (fun _ => True) where
  handles s m f req hs h hwritable := by
    obtain ⟨hsame, hshows, -⟩ := avrShows_handled before slow hs h hwritable UPDATER_RSP_PAYLOAD_MAX
    exact ⟨hsame, hshows⟩
  reads := by
    intros
    trivial
  last := by
    intros
    trivial
  reset m f how h := ⟨f, avrShows_idle before h m rfl h.rest.error how, fun _ => ⟨rfl, trivial⟩⟩
  cut s m f req how hs h hwritable := by
    obtain ⟨-, hshows, done, hmirrors⟩ :=
      avrShows_handled before slow hs h hwritable UPDATER_RSP_PAYLOAD_MAX
    by_cases hreads : req.cmd ≠ UPD_CMD_ERASE_APP ∧ req.cmd ≠ UPD_CMD_WRITE_PAGE
    · have hops := avr_quiet slow hs hreads.1 hreads.2 UPDATER_RSP_PAYLOAD_MAX m
      exact ⟨f, avrShows_idle before h _ hops hshows.rest.error how, fun _ _ _ => ⟨rfl, trivial⟩⟩
    · exact ⟨_, avrShows_lost before h hmirrors how,
        fun herase hwrite => absurd ⟨herase, hwrite⟩ hreads⟩

/-! ## Updates -/

theorem avrShows_image {before : Flash} (slow : Nat → Nat) {m : Mcu} {f : Flash} (h : AvrShows before m f)
    {img : Image} (hregion : region Avr.port_info f = img.content) :
    (∀ off < 0xF000, m.flash (0x1000 + off) = img.content.getD off 0) ∧
      (upd_app_valid (avrPort slow) Avr.port_info m).1 = true ∧
      m.error = false ∧ ∀ x < 0x1000, m.flash x = before x := by
  refine ⟨?_, ?_, h.rest.error, h.boot⟩
  · intro off hoff
    rw [← Avr.region_eq] at hoff
    rw [h.app off hoff, ← hregion]
    exact (region_getD Avr.port_info f off hoff).symm
  · obtain ⟨hboard, -⟩ := upd_app_valid_agree (Avr.avrPort_agree slow _).read _ (f, [])
      (Mirrors.refl h.rest h.app)
    obtain ⟨htraced, -⟩ := upd_app_valid_agree
      (tracedPort_agree (arrayPort Avr.port_info nor) Avr.port_info).read (f, []) f rfl
    rw [hboard, htraced, upd_app_valid_array, hregion, decide_eq_true_iff]
    exact appValid_content img

/-- Whatever befell the board on the way, and in whichever operation of NVMCTRL: an update that says
it is done leaves the image in the flash, and the bootloader where it was. No command was refused
on the way, before a reset or after it. -/
theorem avr_flash_sound {ε : Type} (img : Image) (slow : Nat → Nat)
    (schedule : Nat → Plant.Attempt (Mishap AvrLoss) ε) (s : UpdSession) (hs : s.info = Avr.port_info)
    (m : Mcu) (hrest : m.AtRest) (buf : List UInt8)
    (hok : (flash ((boardPlant (avrPort slow) Avr.port_info avrLost).link schedule) img
      (boardSession (s, m) buf)).1 = .ok ()) :
    let m' := (flash ((boardPlant (avrPort slow) Avr.port_info avrLost).link schedule) img
      (boardSession (s, m) buf)).2.transport.dev.2
    img.page_size = 128 ∧ img.app_pages = 480 ∧
      (∀ off < 0xF000, m'.flash (0x1000 + off) = img.content.getD off 0) ∧
      (upd_app_valid (avrPort slow) Avr.port_info m').1 = true ∧
      m'.error = false ∧ ∀ x < 0x1000, m'.flash x = m.flash x := by
  have hstart : AvrShows m.flash m (fun off => m.flash (0x1000 + off)) :=
    ⟨hrest, fun _ _ => rfl, fun _ _ => rfl⟩
  obtain ⟨hfits, -, -, f, hshows, hregion⟩ := board_flash_sound (avr_stands m.flash slow) (by decide)
    schedule hs hstart buf hok
  exact ⟨hfits.1.symm, hfits.2.symm, avrShows_image slow hshows hregion⟩

theorem avr_flash_sound_patchy : ∃ img, Image.from_bin [1, 2, 3] 128 480 = .ok img ∧
    let m' := (flash ((boardPlant (avrPort (fun _ => 5)) Avr.port_info avrLost).link
      (patchyAttempts AvrLoss)) img (boardSession (upd_init Avr.port_info, Mcu.powerUp (fun _ => 0x55))
        (List.replicate 148 0))).2.transport.dev.2
    img.page_size = 128 ∧ img.app_pages = 480 ∧
      (∀ off < 0xF000, m'.flash (0x1000 + off) = img.content.getD off 0) ∧
      (upd_app_valid (avrPort (fun _ => 5)) Avr.port_info m').1 = true ∧
      m'.error = false ∧ ∀ x < 0x1000, m'.flash x = (Mcu.powerUp (fun _ => 0x55)).flash x := by
  obtain ⟨img, himg, -⟩ :=
    from_bin_eq_ok [1, 2, 3] 128 480 (by decide) (by decide) (by decide) (by decide)
  obtain ⟨-, hps, hap⟩ := from_bin_fields himg
  refine ⟨img, himg, avr_flash_sound img (fun _ => 5) (patchyAttempts AvrLoss) (upd_init Avr.port_info) rfl
    (Mcu.powerUp (fun _ => 0x55)) (Avr.powerUp_atRest _) (List.replicate 148 0) ?_⟩
  refine board_flash_recovers (avr_stands (fun _ => 0x55) (fun _ => 5)) (by decide)
    (patchyAttempts_calm AvrLoss) ⟨hps.symm, hap.symm⟩ rfl (f := fun _ => 0x55)
    ⟨Avr.powerUp_atRest _, fun _ _ => rfl, fun _ _ => rfl⟩ _ ?_
  rw [hps, List.length_replicate]
  decide

end OtaUpdater.System
