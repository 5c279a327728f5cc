import OtaUpdater.Lib.Cut
import OtaUpdater.Device.FlashOps
import OtaUpdater.Conformance.Sim
import OtaUpdater.System.Boards

/-!
# What the simulated device does

A request does to the simulated flash what its operations do to a plain array, up to the one
that the power goes in, and nothing in the port is ever asked to abort.
-/

open OtaUpdater.Lib.State OtaUpdater.Lib.Cut OtaUpdater.Wire OtaUpdater.Device OtaUpdater.System

namespace OtaUpdater.Conformance

/-! ## One operation -/

/-- The first `n` bytes of what an operation does to its page. -/
def apply (n : Nat) (f : Flash) : PortCall → Flash
  | .erase_page page => memset f (page.toNat * 128) 0xFF n
  | .write_page page data => memcpy f (page.toNat * 128) data n
  | .read_byte _ | .jump_to_app => f

abbrev whole : Flash → PortCall → Flash := apply 128
abbrev torn : Flash → PortCall → Flash := apply 64

theorem whole_eq (f : Flash) (op : PortCall) : whole f op = (arrayPort port_info store).call f op := by
  cases op <;> rfl

def fuse (ops cut_at : UInt32) : Option Nat :=
  if ops.toNat < cut_at.toNat then some (cut_at.toNat - ops.toNat - 1) else none

def Statics.powered (g : Statics) : Powered Flash where
  store := g.flash
  left := fuse g.ops g.cut_at
  dead := g.dead

section Fuse

variable {ops cut_at : UInt32} (hops : ops.toNat + 1 < 2 ^ 32)

include hops in
theorem fuse_cut (h : ops + 1 = cut_at) : fuse ops cut_at = some 0 ∧ fuse (ops + 1) cut_at = none := by
  have hnext : (ops + 1).toNat = ops.toNat + 1 := Lib.Bytes.succ_toNat32 hops
  unfold fuse
  rw [← h, hnext, if_pos (by omega), if_neg (by omega)]
  exact ⟨congrArg some (by omega), rfl⟩

include hops in
theorem fuse_burns (h : ¬ (cut_at ≠ 0 ∧ ops + 1 = cut_at)) :
    fuse ops cut_at = (fuse (ops + 1) cut_at).map (· + 1) := by
  have hnext : (ops + 1).toNat = ops.toNat + 1 := Lib.Bytes.succ_toNat32 hops
  have hlater : ops.toNat < cut_at.toNat → ops.toNat + 1 < cut_at.toNat := by
    intro hlt
    by_contra hlast
    apply h
    refine ⟨?_, ?_⟩
    · rintro rfl
      exact absurd hlt (Nat.not_lt_zero _)
    · rw [← UInt32.toNat_inj, hnext]
      omega
  unfold fuse
  rw [hnext]
  by_cases hlt : ops.toNat < cut_at.toNat
  · rw [if_pos hlt, if_pos (hlater hlt), Option.map_some]
    exact congrArg some (by have := hlater hlt; omega)
  · rw [if_neg hlt, if_neg (by omega), Option.map_none]

end Fuse

/-- What an operation leaves alone, and that only a cut kills the device. -/
structure Statics.Continues (g g' : Statics) (k : Nat) : Prop where
  jumped : g'.jumped = g.jumped
  aborted : g'.aborted = g.aborted
  cut_at : g'.cut_at = g.cut_at
  hit : g'.cut_hit = g'.dead
  counted : g'.ops.toNat ≤ g.ops.toNat + k
  alive : g'.dead = false → g.dead = false ∧ g'.ops.toNat = g.ops.toNat + k

theorem page_start (page : UInt16) (hpage : page < SIM_APP_PAGES) :
    (page.toUInt32 * SIM_PAGE_SIZE.toUInt32).toNat = page.toNat * 128 := by
  have h32 : SIM_APP_PAGES.toNat = 32 := rfl
  have h128 : SIM_PAGE_SIZE.toUInt32.toNat = 128 := rfl
  rw [UInt16.lt_iff_toNat_lt, h32] at hpage
  rw [UInt32.toNat_mul, UInt16.toNat_toUInt32, h128]
  omega

theorem call_eq (g : Statics) (op : PortCall) (hop : op.Inside port_info) (hchanges : op.Changes) :
    simPort.call g op =
      if g.dead then g
      else if g.cut_at ≠ 0 ∧ g.ops + 1 = g.cut_at then
        { g with flash := torn g.flash op, ops := g.ops + 1, cut_hit := true, dead := true }
      else { g with flash := whole g.flash op, ops := g.ops + 1 } := by
  have hcount : op_tears g =
      if g.cut_at ≠ 0 ∧ g.ops + 1 = g.cut_at then
        (true, { g with ops := g.ops + 1, cut_hit := true, dead := true })
      else (false, { g with ops := g.ops + 1 }) := rfl
  cases op with
  | erase_page page =>
    have hpage : page < SIM_APP_PAGES := hop
    change port_flash_erase_page page g = _
    unfold port_flash_erase_page
    rw [if_neg (UInt16.not_le.mpr hpage), page_start page hpage, hcount]
    split_ifs
    · rfl
    · rfl
    · rfl
  | write_page page data =>
    have hpage : page < SIM_APP_PAGES := hop.1
    change port_flash_write_page page data g = _
    unfold port_flash_write_page
    rw [if_neg (UInt16.not_le.mpr hpage), page_start page hpage, hcount]
    split_ifs
    · rfl
    · rfl
    · rfl
  | read_byte off => cases hchanges
  | jump_to_app => cases hchanges

/-- The armed operation number is a fuse. -/
theorem call_powered (g : Statics) (op : PortCall) (hop : op.Inside port_info) (hchanges : op.Changes)
    (hops : g.ops.toNat + 1 < 2 ^ 32) (hhit : g.cut_hit = g.dead) :
    (simPort.call g op).powered = g.powered.perform whole torn op ∧
      g.Continues (simPort.call g op) 1 := by
  have hnext : (g.ops + 1).toNat = g.ops.toNat + 1 := Lib.Bytes.succ_toNat32 hops
  rw [call_eq g op hop hchanges]
  split_ifs with hdead hcut
  · refine ⟨?_, rfl, rfl, rfl, hhit, Nat.le_succ _, fun halive => ?_⟩
    · unfold Powered.perform
      rw [if_pos (show g.powered.dead = true from hdead)]
    · rw [hdead] at halive
      cases halive
  · obtain ⟨hnow, hafter⟩ := fuse_cut hops hcut.2
    refine ⟨?_, rfl, rfl, rfl, rfl, Nat.le_of_eq hnext, fun halive => by cases halive⟩
    unfold Powered.perform Statics.powered
    simp only [hnow, hafter, hdead, Bool.false_eq_true, if_false]
  · refine ⟨?_, rfl, rfl, rfl, hhit, Nat.le_of_eq hnext, fun halive => ⟨halive, hnext⟩⟩
    unfold Powered.perform Statics.powered
    rw [fuse_burns hops hcut]
    rcases fuse (g.ops + 1) g.cut_at with _ | k
    · simp only [hdead, Option.map_none, Bool.false_eq_true, if_false]
    · simp only [hdead, Option.map_some, Bool.false_eq_true, if_false]

theorem calls_powered (calls : List PortCall) (hcalls : ∀ op ∈ calls, op.Inside port_info ∧ op.Changes)
    (g : Statics) (hops : g.ops.toNat + calls.length < 2 ^ 32) (hhit : g.cut_hit = g.dead) :
    (calls.foldl simPort.call g).powered = calls.foldl (Powered.perform whole torn) g.powered ∧
      g.Continues (calls.foldl simPort.call g) calls.length := by
  induction calls generalizing g with
  | nil => exact ⟨rfl, rfl, rfl, rfl, hhit, Nat.le_refl _, fun halive => ⟨halive, rfl⟩⟩
  | cons op calls ih =>
    rw [List.length_cons] at hops
    obtain ⟨hop, hchanges⟩ := hcalls op List.mem_cons_self
    obtain ⟨hpowered, hnow⟩ := call_powered g op hop hchanges (by omega) hhit
    have hcounted := hnow.counted
    obtain ⟨hrest, hlater⟩ := ih (fun c hc => hcalls c (List.mem_cons_of_mem op hc)) _ (by omega) hnow.hit
    have hlater_counted := hlater.counted
    rw [List.foldl_cons, List.foldl_cons, ← hpowered, List.length_cons]
    refine ⟨hrest, hlater.jumped.trans hnow.jumped, hlater.aborted.trans hnow.aborted,
      hlater.cut_at.trans hnow.cut_at, hlater.hit, by omega, ?_⟩
    intro halive
    obtain ⟨hlived, hops'⟩ := hlater.alive halive
    obtain ⟨hstart, hfirst⟩ := hnow.alive hlived
    exact ⟨hstart, by omega⟩

theorem calls_frame (calls : List PortCall) (hcalls : ∀ op ∈ calls, op.Inside port_info ∧ op.Changes)
    (g : Statics) : (calls.foldl simPort.call g).aborted = g.aborted ∧
      (calls.foldl simPort.call g).jumped = g.jumped := by
  induction calls generalizing g with
  | nil => exact ⟨rfl, rfl⟩
  | cons op calls ih =>
    obtain ⟨hop, hchanges⟩ := hcalls op List.mem_cons_self
    obtain ⟨haborted, hjumped⟩ := ih (fun c hc => hcalls c (List.mem_cons_of_mem op hc)) (simPort.call g op)
    rw [List.foldl_cons, haborted, hjumped, call_eq g op hop hchanges]
    split_ifs
    · exact ⟨rfl, rfl⟩
    · exact ⟨rfl, rfl⟩
    · exact ⟨rfl, rfl⟩

theorem calls_dead (calls : List PortCall) (hcalls : ∀ op ∈ calls, op.Inside port_info ∧ op.Changes)
    {g : Statics} (h : g.dead = true) : calls.foldl simPort.call g = g := by
  induction calls with
  | nil => rfl
  | cons op calls ih =>
    obtain ⟨hop, hchanges⟩ := hcalls op List.mem_cons_self
    rw [List.foldl_cons, call_eq g op hop hchanges, if_pos h]
    exact ih (fun c hc => hcalls c (List.mem_cons_of_mem op hc))

theorem calls_alive (calls : List PortCall) (hcalls : ∀ op ∈ calls, op.Inside port_info ∧ op.Changes)
    (g : Statics) (h : (calls.foldl simPort.call g).dead = false) :
    g.dead = false ∧ (calls.foldl simPort.call g).flash = calls.foldl whole g.flash := by
  induction calls generalizing g with
  | nil => exact ⟨h, rfl⟩
  | cons op calls ih =>
    obtain ⟨hop, hchanges⟩ := hcalls op List.mem_cons_self
    obtain ⟨hnow, hflash⟩ := ih (fun c hc => hcalls c (List.mem_cons_of_mem op hc)) (simPort.call g op) h
    rw [List.foldl_cons, List.foldl_cons, hflash]
    rw [call_eq g op hop hchanges] at hnow ⊢
    split_ifs at hnow ⊢ with hdead hcut
    · rw [hdead] at hnow
      cases hnow
    · exact ⟨hnow, rfl⟩

/-! ## One request -/

variable {s : UpdSession} (hinfo : s.info = port_info)

include hinfo in
theorem flashOps_sound (req : UpdFrame) (op : PortCall) (hop : op ∈ flashOps s req) :
    op.Inside port_info ∧ op.Changes :=
  ⟨hinfo ▸ flashOps_inside s req op hop, flashOps_changes s req op hop⟩

theorem sim_read (off : UInt32) (hoff : off.toNat < port_info.region) (g : Statics) :
    simPort.port_flash_read_byte off g = (g.flash off.toNat, g) := by
  have hregion : port_info.region = SIM_REGION.toNat := rfl
  rw [hregion] at hoff
  change port_flash_read_byte off g = _
  unfold port_flash_read_byte
  rw [if_neg (UInt32.not_le.mpr (UInt32.lt_iff_toNat_lt.mpr hoff))]

theorem sim_reads_agree :
    ReadsAgree simPort (arrayPort port_info store) port_info (fun g f => g.flash = f) := by
  rintro off hoff g _ rfl
  rw [sim_read off hoff]
  exact ⟨rfl, rfl⟩

include hinfo in
theorem upd_handle_sim (req : UpdFrame) (g : Statics) :
    upd_handle simPort s req rspCap g =
      ((upd_handle (arrayPort port_info store) s req rspCap g.flash).1,
        (flashOps s req).foldl simPort.call g) := by
  have hcap : rspCap ≠ 0 := by decide
  refine Prod.ext ?_ ?_
  · exact upd_handle_answer_agree simPort (hinfo ▸ sim_reads_agree) req rspCap hcap rfl
  · apply upd_handle_ops simPort _ req rspCap hcap g
    intro off hoff g
    rw [hinfo] at hoff
    rw [sim_read off hoff]

theorem upd_handle_whole (s : UpdSession) (req : UpdFrame) (f : Flash) :
    (upd_handle (arrayPort port_info store) s req rspCap f).2 = (flashOps s req).foldl whole f := by
  have hcall : (arrayPort port_info store).call = whole := by
    funext f op
    exact (whole_eq f op).symm
  rw [← hcall]
  exact upd_handle_ops _ (fun _ _ _ => rfl) req rspCap (by decide) f

theorem boot_sim (g : Statics) :
    upd_boot_if_valid simPort port_info g =
      if AppValid (region port_info g.flash) then (true, { g with jumped := true }) else (false, g) := by
  have hreads : ReadsAgree simPort (arrayPort port_info store) port_info
      (fun g' f => g' = g ∧ g.flash = f) := by
    rintro off hoff _ _ ⟨rfl, rfl⟩
    rw [sim_read off hoff]
    exact ⟨rfl, rfl, rfl⟩
  obtain ⟨hret, hafter, -⟩ := upd_app_valid_agree hreads g g.flash ⟨rfl, rfl⟩
  rw [upd_app_valid_array] at hret
  unfold upd_boot_if_valid
  simp only [bind_apply, hret, hafter]
  by_cases hvalid : AppValid (region port_info g.flash)
  · simp [hvalid, simPort, port_jump_to_app]
  · simp [hvalid]

structure Sim.Live (d : Sim) : Prop where
  powered : d.g.dead = false
  here : d.g.jumped = false
  info : d.session.info = port_info
  no_boot : d.session.boot_pending = false

theorem sim_request_gone {d : Sim} (h : d.g.dead = true ∨ d.g.jumped = true) (frame : List UInt8) :
    sim_request frame d = ([], d) := by
  unfold sim_request
  rw [if_pos (by simpa using h)]

theorem take_gate_settled {d : Sim} (h : d.session.boot_pending = false) : take_gate d = d := by
  unfold take_gate
  rw [h]
  rfl

theorem take_gate_run {d : Sim} (hinfo : d.session.info = port_info) :
    take_gate d =
      if d.session.boot_pending then
        { d with
          session := { d.session with boot_pending := false }
          g := if AppValid (region port_info d.g.flash) then { d.g with jumped := true } else d.g }
      else d := by
  unfold take_gate
  dsimp only
  rw [hinfo, boot_sim]
  split_ifs
  · rfl
  · rfl
  · rfl

theorem take_gate_aborted {d : Sim} (hinfo : d.session.info = port_info) :
    (take_gate d).g.aborted = d.g.aborted := by
  rw [take_gate_run hinfo]
  split_ifs
  · rfl
  · rfl
  · rfl

theorem take_gate_dead {d : Sim} (hinfo : d.session.info = port_info) :
    (take_gate d).g.dead = d.g.dead := by
  rw [take_gate_run hinfo]
  split_ifs
  · rfl
  · rfl
  · rfl

theorem take_gate_session {d : Sim} (hinfo : d.session.info = port_info) :
    (take_gate d).session.info = port_info ∧ (take_gate d).session.boot_pending = false := by
  rw [take_gate_run hinfo]
  by_cases hpending : d.session.boot_pending
  · rw [if_pos hpending]
    exact ⟨hinfo, rfl⟩
  · rw [if_neg hpending]
    exact ⟨hinfo, Bool.eq_false_iff.mpr hpending⟩

section Request

variable {d : Sim} (h : d.Live) {frame : List UInt8}
include h

theorem sim_request_cycle (frame : List UInt8) :
    let r := answer_request simPort d.session rspCap frame (parseFrame frame) d.g
    let d' : Sim := { d with g := r.2, session := r.1.2.2 }
    sim_request frame d =
      if r.2.dead then ([], d') else (wire (r.1.1 ||| UPD_RSP_FLAG) r.1.2.1, take_gate d') := by
  unfold sim_request
  rw [if_neg (by simp [h.powered, h.here]),
    request_cycle_run simPort d.session d.g rspCap 255 (List.replicate 255 0) frame (by decide)
      (by decide) List.length_replicate]

theorem sim_request_bad (hbad : parseFrame frame = none) :
    sim_request frame d = (wire (frame.getD 0 0 ||| UPD_RSP_FLAG) [UPD_ST_BAD_FRAME], d) := by
  have hrun := sim_request_cycle h frame
  rw [hbad] at hrun
  have hanswer : answer_request simPort d.session rspCap frame none d.g =
      ((frame.getD 0 0, [UPD_ST_BAD_FRAME], d.session), d.g) := rfl
  rw [hanswer] at hrun
  dsimp only at hrun
  rw [hrun, if_neg (by rw [h.powered]; decide), take_gate_settled h.no_boot]

theorem sim_request_run {req : UpdFrame} (hreq : parseFrame frame = some req) :
    let plain := upd_handle (arrayPort port_info store) d.session req rspCap d.g.flash
    let d' : Sim :=
      { d with g := (flashOps d.session req).foldl simPort.call d.g, session := plain.1.1 }
    sim_request frame d =
      if d'.g.dead then ([], d') else (wire (req.cmd ||| UPD_RSP_FLAG) plain.1.2, take_gate d') := by
  have hrun := sim_request_cycle h frame
  rw [hreq] at hrun
  have hanswer : answer_request simPort d.session rspCap frame (some req) d.g =
      let r := upd_handle simPort d.session req rspCap d.g
      ((req.cmd, r.1.2, r.1.1), r.2) := rfl
  rw [hanswer, upd_handle_sim h.info] at hrun
  exact hrun

theorem sim_request_aborted (frame : List UInt8) : (sim_request frame d).2.g.aborted = d.g.aborted := by
  rcases hparse : parseFrame frame with _ | req
  · rw [sim_request_bad h hparse]
  · have hrun := sim_request_run h hparse
    have hinfo := upd_handle_info_eq (arrayPort d.session.info store) d.session req d.g.flash rspCap
    rw [h.info] at hinfo
    have hcalls := (calls_frame (flashOps d.session req) (flashOps_sound h.info req) d.g).1
    dsimp only at hrun
    rw [hrun]
    split_ifs
    · exact hcalls
    · rw [take_gate_aborted hinfo]
      exact hcalls

end Request

end OtaUpdater.Conformance
