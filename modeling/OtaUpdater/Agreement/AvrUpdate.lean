import OtaUpdater.Agreement.Pages
import OtaUpdater.Device.AvrFlashRules

/-!
# An update of an AVR

The host's update, whatever a lost one left in the flash.
-/

open OtaUpdater.Lib.Repeat OtaUpdater.Device OtaUpdater.Host

namespace OtaUpdater.Agreement

section Update

variable (img : Image)

def updateFrames (indices : List UInt16) : List UpdFrame :=
  eraseFrame :: indices.map (writeFrame img) ++ [verifyFrame img.len img.crc, bootFrame]

variable {img} {program : Program} (hblank : program.Fills) (hagain : program.Repeats) {rsp_cap : UInt8}
  (hcap : rsp_cap ≠ 0) {s : UpdSession} (hps : s.info.page_size = img.page_size)
  (hap : s.info.app_pages = img.app_pages) {indices : List UInt16}
  (hrange : ∀ i ∈ indices, i < img.app_pages) (hall : ∀ i ∈ img.pages, i ∈ indices)

include hblank hagain hcap hps hap hrange hall in
theorem update_granted (f : Flash) :
    let r := runAll (handleStep program rsp_cap) (s, f) (updateFrames img indices)
    r.1 = List.replicate (indices.length + 3) [UPD_ST_OK] ∧ r.2.1.info = s.info ∧
      region s.info r.2.2 = img.content := by
  have hregion : s.info.region = img.region := by
    unfold PortInfo.region Image.region
    rw [hps, hap]
  obtain ⟨hanswers, hs, hholds⟩ := runAll_writes (s := { s with erased := true }) hcap hps hap hblank
    hagain rfl indices hrange [] (eraseAll s.info f) (holds_erased s.info hregion f)
  rw [List.append_nil] at hholds
  have hcontent := region_of_holds s.info hregion hall hholds
  have herase : handleStep program rsp_cap (s, f) eraseFrame = _ := handleStep_erase hcap s f
  unfold updateFrames
  dsimp only
  rw [List.cons_append, runAll_cons, herase, runAll_append]
  generalize runAll (handleStep program rsp_cap) ({ s with erased := true }, eraseAll s.info f)
    (indices.map (writeFrame img)) = w at *
  obtain ⟨answers, s', g⟩ := w
  dsimp only at hanswers hs hcontent ⊢
  subst hanswers hs
  have hverify : handleStep program rsp_cap ({ s with erased := true }, g) (verifyFrame img.len img.crc) = _ :=
    handleStep_verify hcap hcontent
  have hboot : handleStep program rsp_cap ({ s with erased := true }, g) bootFrame = _ :=
    handleStep_boot hcap hcontent
  rw [runAll_cons, hverify, runAll_cons, hboot]
  refine ⟨?_, rfl, hcontent⟩
  have hlast : [UPD_ST_OK] :: [UPD_ST_OK] :: (runAll (handleStep program rsp_cap)
      ({ s with erased := true, boot_pending := true }, g) []).1 = List.replicate 2 [UPD_ST_OK] := rfl
  dsimp only
  rw [hlast, List.replicate_append_replicate, ← List.replicate_succ]

end Update

/-! ## On the AVR -/

theorem runAll_handleLogged (program : Program) (rsp_cap : UInt8) (reqs : List UpdFrame)
    (st : UpdSession × Flash) :
    let r := runAll (handleLogged program) st (reqs.map (fun req => (req, rsp_cap)))
    (r.1.map Prod.fst, r.2) = runAll (handleStep program rsp_cap) st reqs := by
  induction reqs generalizing st with
  | nil => rfl
  | cons req reqs ih =>
    obtain ⟨s, f⟩ := st
    have hstep : handleStep program rsp_cap (s, f) req =
        ((handleLogged program (s, f) (req, rsp_cap)).1.1,
          (handleLogged program (s, f) (req, rsp_cap)).2) := by
      rw [handleLogged_eq]
      rfl
    dsimp only at ih ⊢
    rw [List.map_cons, runAll_cons, runAll_cons, hstep, ← ih, List.map_cons]

open Avr in
/-- Whatever the core was asked for, and wherever in it the power went: the next update succeeds in
full, and the boot section is as it was. -/
theorem avr_recovers (slow slow' : Nat → Nat) (m : Mcu) (hrest : m.AtRest) (s : UpdSession)
    (hs : s.info = port_info) (inputs : List (UpdFrame × UInt8))
    (tear : UInt8 → UInt8 → Nat → UInt8) (k : Nat) (data : List UInt8) (img : Image)
    (himg : Image.from_bin data 128 480 = .ok img) (indices : List UInt16)
    (hrange : ∀ i ∈ indices, i < 480) (hall : ∀ i ∈ img.pages, i ∈ indices) (rsp_cap : UInt8)
    (hcap : rsp_cap ≠ 0) :
    let done := (runAll (boardStep slow) (s, m) inputs).2.2.ops.drop m.ops.length
    let lost := Mcu.powerUp (crashed tear m.flash done k)
    let r := runAll (boardStep slow') (upd_init port_info, lost)
      ((updateFrames img indices).map (fun req => (req, rsp_cap)))
    r.1 = List.replicate (indices.length + 3) [UPD_ST_OK] ∧
      (∀ off < port_info.region, r.2.2.flash (0x1000 + off) = img.content.getD off 0) ∧
      (upd_app_valid (avrPort slow') port_info r.2.2).1 = true ∧
      ∀ x < 0x1000, r.2.2.flash x = m.flash x := by
  obtain ⟨-, hps, hap⟩ := from_bin_fields himg
  intro done lost r
  obtain ⟨-, -, hbefore⟩ := runAll_mirrors slow m hrest s hs inputs
  obtain ⟨hanswers, hsession, hafter⟩ := runAll_mirrors slow' lost (powerUp_atRest _)
    (upd_init port_info) rfl ((updateFrames img indices).map (fun req => (req, rsp_cap)))
  have hplain := runAll_handleLogged nor rsp_cap (updateFrames img indices)
    (upd_init port_info, fun off => lost.flash (0x1000 + off))
  obtain ⟨hgranted, hinfo, hcontent⟩ := update_granted (s := upd_init port_info) nor_fills nor_repeats
    hcap hps.symm hap.symm (by rw [hap]; exact hrange) hall (fun off => lost.flash (0x1000 + off))
  rw [← hplain] at hgranted hinfo hcontent
  have hregion : ∀ off < port_info.region, r.2.2.flash (0x1000 + off) = img.content.getD off 0 := by
    intro off hoff
    rw [hafter.app off hoff, ← hcontent]
    exact (region_getD port_info _ off hoff).symm
  refine ⟨hanswers.trans hgranted, hregion, ?_, ?_⟩
  · obtain ⟨hboard, -⟩ := upd_app_valid_agree (avrPort_agree slow' r.2.2).read r.2.2
      (_, []) (Mirrors.refl hafter.rest hafter.app)
    obtain ⟨htraced, -⟩ := upd_app_valid_agree (tracedPort_agree (arrayPort port_info nor) port_info).read
      (_, []) _ rfl
    have hvalid : AppValid (region port_info (runAll (handleLogged nor) (upd_init port_info,
        fun off => lost.flash (0x1000 + off)) ((updateFrames img indices).map
          (fun req => (req, rsp_cap)))).2.2) := by
      have hsame : region port_info _ = img.content := hcontent
      rw [hsame]
      exact appValid_content img
    rw [hboard, htraced, upd_app_valid_array, decide_eq_true hvalid]
  · intro x hx
    have hdone : ∀ op ∈ done, op.InApp := by
      unfold done
      rw [hbefore.log, List.drop_left]
      exact hbefore.inApp
    rw [hafter.flash, replay_boot _ hafter.inApp lost.flash x hx]
    exact crashed_boot tear m.flash done hdone k x hx

open Avr in
/-- A cut in the eighth page of an erase, and a small image after it. -/
theorem avr_recovers_erase : ∃ img, Image.from_bin [1, 2, 3] 128 480 = .ok img ∧
    let m := Mcu.powerUp (fun _ => 0x55)
    let done := (runAll (boardStep (fun _ => 9)) (upd_init port_info, m)
      [(eraseFrame, 17)]).2.2.ops.drop m.ops.length
    let lost := Mcu.powerUp (crashed (fun old _ x => if x % 2 = 0 then old else 0xFF) m.flash done 7)
    let r := runAll (boardStep (fun _ => 2)) (upd_init port_info, lost)
      ((updateFrames img img.pages).map (fun req => (req, 17)))
    r.1 = List.replicate (img.pages.length + 3) [UPD_ST_OK] ∧
      (∀ off < port_info.region, r.2.2.flash (0x1000 + off) = img.content.getD off 0) ∧
      (upd_app_valid (avrPort (fun _ => 2)) port_info r.2.2).1 = true ∧
      ∀ x < 0x1000, r.2.2.flash x = m.flash x := by
  obtain ⟨img, himg, -⟩ :=
    from_bin_eq_ok [1, 2, 3] 128 480 (by decide) (by decide) (by decide) (by decide)
  have hrange : ∀ i ∈ img.pages, i < 480 := by
    intro i hi
    have hmem := ((img.mem_pages_iff i).mp hi).1
    rw [(from_bin_fields himg).2.2] at hmem
    exact hmem
  exact ⟨img, himg, avr_recovers (fun _ => 9) (fun _ => 2) (Mcu.powerUp (fun _ => 0x55))
    (powerUp_atRest _) (upd_init port_info) rfl [(eraseFrame, 17)]
    (fun old _ x => if x % 2 = 0 then old else 0xFF) 7 [1, 2, 3] img himg img.pages hrange
    (fun i hi => hi) 17 (by decide)⟩

end OtaUpdater.Agreement
