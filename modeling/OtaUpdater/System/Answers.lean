import OtaUpdater.Device.TwiBoot
import OtaUpdater.Host.FrameRules
import OtaUpdater.System.Bench

/-!
# An answer to every input

The request cycle of the transactional ports: parse, handle, build. Whatever
bytes come in, one frame goes out, and the host's decoders accept it.
-/

open OtaUpdater.Lib.State OtaUpdater.Wire OtaUpdater.Device OtaUpdater.Host OtaUpdater.Agreement

namespace OtaUpdater.System

/-! ## The cycle -/

section Cycle

variable {σ : Type} (P : Port σ)

/-- The command that the answer names, its payload, and the session behind it. -/
def answer_request (s : UpdSession) (payload_cap : UInt8) (rx : List UInt8) :
    Option UpdFrame → StateM σ (UInt8 × List UInt8 × UpdSession)
  | some req => do
    let (s, payload) ← upd_handle P s req payload_cap
    return (req.cmd, payload, s)
  | none => return (rx.getD 0 0, [UPD_ST_BAD_FRAME], s)

/-- `payload_cap` is `sizeof payload`, `tx_cap` what the builder may fill of `tx`. -/
def request_cycle (s : UpdSession) (payload_cap : UInt8) (tx : List UInt8) (tx_cap : UInt8)
    (rx : List UInt8) : StateM σ (List UInt8 × UpdSession) := do
  let (cmd, payload, s) ← answer_request P s payload_cap rx (parseFrame rx)
  let (n, tx) := upd_frame_build tx tx_cap (cmd ||| UPD_RSP_FLAG) (.apart payload)
    (UInt8.ofNat payload.length)
  return (tx.take n.toNat, s)

/-! ## The shape of an answer -/

/-- What stands behind the status: only accepted INFO and ECHO have something to say. -/
def answerTail (status cmd : UInt8) (payload : List UInt8) : Nat :=
  if status = UPD_ST_OK ∧ cmd = UPD_CMD_INFO then 11
  else if status = UPD_ST_OK ∧ cmd = UPD_CMD_ECHO then payload.length
  else 0

/-- A known status, and behind it what the command calls for. -/
def Shaped (cmd : UInt8) (payload answer : List UInt8) : Prop :=
  ∃ status rest, answer = status :: rest ∧ status ≤ 7 ∧
    rest.length = answerTail status cmd payload ∧ rest.length ≤ 16

theorem shaped_status {cmd status : UInt8} (payload : List UInt8) (hstatus : status ≤ 7)
    (hinfo : cmd ≠ UPD_CMD_INFO) (hecho : cmd ≠ UPD_CMD_ECHO) : Shaped cmd payload [status] := by
  refine ⟨status, [], rfl, hstatus, ?_, Nat.zero_le _⟩
  unfold answerTail
  simp [hinfo, hecho]

variable (s : UpdSession) (req : UpdFrame) (st : σ)

theorem handle_erase_status :
    ∃ status, (handle_erase P s req st).1.2 = [status] ∧ status ≤ 7 := by
  unfold handle_erase
  simp only [ite_run, bind_apply, pure_apply]
  split_ifs
  · exact ⟨_, rfl, by decide⟩
  · exact ⟨_, rfl, by decide⟩

theorem handle_write_status : ∃ status, (handle_write P s req st).1 = [status] ∧ status ≤ 7 := by
  unfold handle_write
  simp only [ite_run, bind_apply, pure_apply]
  split_ifs
  · exact ⟨_, rfl, by decide⟩
  · exact ⟨_, rfl, by decide⟩
  · exact ⟨_, rfl, by decide⟩
  · exact ⟨_, rfl, by decide⟩

theorem handle_verify_status : ∃ status, (handle_verify P s req st).1 = [status] ∧ status ≤ 7 := by
  unfold handle_verify
  simp only [ite_run, bind_apply, pure_apply]
  split_ifs
  · exact ⟨_, rfl, by decide⟩
  · exact ⟨_, rfl, by decide⟩
  · exact ⟨_, rfl, by decide⟩
  · exact ⟨_, rfl, by decide⟩

theorem handle_info_shaped (rsp_cap : UInt8) (hcap : 17 ≤ rsp_cap.toNat) (payload : List UInt8) :
    Shaped UPD_CMD_INFO payload (handle_info P s rsp_cap st).1 := by
  have hroom : ¬ rsp_cap < 12 := by
    have h12 : (12 : UInt8).toNat = 12 := rfl
    rw [UInt8.lt_iff_toNat_lt]
    omega
  unfold handle_info
  rw [if_neg hroom]
  simp only [bind_apply, pure_apply]
  exact ⟨UPD_ST_OK, _, rfl, by decide, rfl, by simp⟩

theorem handle_echo_shaped (rsp_cap : UInt8) : Shaped UPD_CMD_ECHO req.payload (handle_echo req rsp_cap) := by
  unfold handle_echo
  split_ifs with hlong
  · exact ⟨UPD_ST_BAD_FRAME, [], rfl, by decide, rfl, Nat.zero_le _⟩
  · have hmax : UPD_ECHO_MAX.toNat = 16 := rfl
    rw [not_or, gt_iff_lt, UInt8.lt_iff_toNat_lt, Nat.not_lt] at hlong
    exact ⟨UPD_ST_OK, req.payload, rfl, by decide, rfl, by rw [req.payload_length, ← hmax]; exact hlong.1⟩

theorem upd_handle_shaped (rsp_cap : UInt8) (hcap : 17 ≤ rsp_cap.toNat) :
    Shaped req.cmd req.payload (upd_handle P s req rsp_cap st).1.2 := by
  have hpos : rsp_cap ≠ 0 := by
    rintro rfl
    exact absurd hcap (by decide)
  unfold upd_handle
  simp only [hpos, if_false, ite_run, bind_apply, pure_apply]
  split_ifs with hinfo herase hwrite hverify hboot hvalid hecho
  · rw [hinfo]
    exact handle_info_shaped P s st rsp_cap hcap _
  · obtain ⟨status, hanswer, hstatus⟩ := handle_erase_status P s req st
    rw [hanswer, herase]
    exact shaped_status _ hstatus (by decide) (by decide)
  · obtain ⟨status, hanswer, hstatus⟩ := handle_write_status P s req st
    rw [hanswer, hwrite]
    exact shaped_status _ hstatus (by decide) (by decide)
  · obtain ⟨status, hanswer, hstatus⟩ := handle_verify_status P s req st
    rw [hanswer, hverify]
    exact shaped_status _ hstatus (by decide) (by decide)
  · rw [hboot]
    exact shaped_status _ (by decide) (by decide) (by decide)
  · rw [hboot]
    exact shaped_status _ (by decide) (by decide) (by decide)
  · rw [hecho]
    exact handle_echo_shaped req rsp_cap
  · exact shaped_status _ (by decide) hinfo hecho

theorem answer_request_shaped (payload_cap : UInt8) (hcap : 17 ≤ payload_cap.toNat) (rx : List UInt8)
    (req : Option UpdFrame) :
    ∃ status rest, (answer_request P s payload_cap rx req st).1.2.1 = status :: rest ∧ status ≤ 7 ∧
      rest.length ≤ 16 ∧
      match req with
      | some req => rest.length = answerTail status req.cmd req.payload
      | none => status = UPD_ST_BAD_FRAME ∧ rest = [] := by
  unfold answer_request
  rcases req with _ | req
  · exact ⟨UPD_ST_BAD_FRAME, [], rfl, by decide, Nat.zero_le _, rfl, rfl⟩
  · obtain ⟨status, rest, hanswer, hstatus, htail, hmax⟩ := upd_handle_shaped P s req st payload_cap hcap
    exact ⟨status, rest, hanswer, hstatus, hmax, htail⟩

theorem request_cycle_run (payload_cap tx_cap : UInt8) (tx rx : List UInt8)
    (hcap : 17 ≤ payload_cap.toNat) (htx_cap : 20 ≤ tx_cap.toNat) (htx : tx.length = tx_cap.toNat) :
    let r := answer_request P s payload_cap rx (parseFrame rx) st
    request_cycle P s payload_cap tx tx_cap rx st =
      ((wire (r.1.1 ||| UPD_RSP_FLAG) r.1.2.1, r.1.2.2), r.2) := by
  intro r
  obtain ⟨status, rest, hanswer, -, hmax, -⟩ :=
    answer_request_shaped P s st payload_cap hcap rx (parseFrame rx)
  obtain ⟨hshows, -, -⟩ := upd_frame_build_shows tx tx_cap (r.1.1 ||| UPD_RSP_FLAG) r.1.2.1 htx
    (by unfold r; rw [hanswer, List.length_cons]; omega)
  unfold request_cycle
  simp only [bind_apply, pure_apply]
  rw [hshows]

/-! ## The two callers -/

theorem answer_frame_cycle (m : Twi.Main) (rx : List UInt8) (hrx : rx.length ≤ 255)
    (htx : m.tx.length = Twi.UPDATER_TX_BUF_SIZE) :
    let r := request_cycle P m.s UPDATER_RSP_PAYLOAD_MAX m.tx 20 rx st
    ∃ payload tx, Twi.answer_frame P m rx st =
      (([.handled (parseFrame rx) payload, .call (.port_send r.1.1)],
        { t := Twi.port_send r.1.1 m.t, s := r.1.2, resident := m.resident || (parseFrame rx).isSome,
          tx }), r.2) := by
  obtain ⟨tx, -, hrun⟩ := Twi.answer_frame_run P m rx st htx
  have hparse : upd_frame_parse rx (UInt8.ofNat rx.length) = parseFrame rx := by
    unfold parseFrame
    rw [if_pos hrx]
  have hrx_handled : ∀ req, Twi.handle_rx P m.s rx req st =
      answer_request P m.s UPDATER_RSP_PAYLOAD_MAX rx req st := by
    rintro (_ | req)
    · rfl
    · rfl
  rw [hparse, hrx_handled] at hrun
  rw [request_cycle_run P m.s st UPDATER_RSP_PAYLOAD_MAX 20 m.tx rx (by decide) (by decide) htx]
  exact ⟨_, tx, hrun⟩

theorem transaction_cycle (frame : List UInt8) (d : Dev) :
    let r := request_cycle (rigPort d.s.info) d.s rspCap (List.replicate 255 0) 255 frame
      { f := d.f, fuse := none, dead := false, log := d.log }
    (transaction frame d).1 = r.1.1 ∧ (transaction frame d).2.s = r.1.2 ∧
      (transaction frame d).2.f = r.2.f := by
  unfold transaction request_cycle answer_request
  rcases parseFrame frame with _ | req
  · exact ⟨rfl, rfl, rfl⟩
  · exact ⟨rfl, rfl, rfl⟩

end Cycle

/-! ## Every input -/

theorem parseFrame_iff_decode (rx : List UInt8) (fr : Frame) :
    decode rx = .ok fr ↔ ∃ req, parseFrame rx = some req ∧ req.cmd = fr.cmd ∧ req.payload = fr.payload := by
  rw [decode_iff_upd_frame_parse]
  unfold parseFrame
  split_ifs with hrx
  · simp [hrx]
  · simp [hrx]

theorem parseFrame_cmd {rx : List UInt8} {req : UpdFrame} (h : parseFrame rx = some req) :
    req.cmd = rx.getD 0 0 := by
  obtain ⟨-, hwire⟩ := (decode_iff rx ⟨req.cmd, req.payload⟩).mp
    ((parseFrame_iff_decode rx _).mpr ⟨req, h, rfl, rfl⟩)
  rw [hwire]
  rfl

/-- One decodable frame for every input, from whatever state, and no harm done by a bad one. -/
theorem every_input_answered {σ : Type} (P : Port σ) (s : UpdSession) (st : σ) (rx tx : List UInt8)
    (payload_cap tx_cap : UInt8) (hcap : 17 ≤ payload_cap.toNat) (htx_cap : 20 ≤ tx_cap.toNat)
    (htx : tx.length = tx_cap.toNat) :
    let r := request_cycle P s payload_cap tx tx_cap rx st
    ∃ fr status rest, r.1.1 ≠ [] ∧ r.1.1.length ≤ 20 ∧ decode r.1.1 = .ok fr ∧
      (∀ k, decode_padded (r.1.1 ++ List.replicate k 0xFF) = .ok fr) ∧
      fr.cmd = rx.getD 0 0 ||| 0x80 ∧ fr.payload = status :: rest ∧ status ≤ 7 ∧
      (∀ req, decode rx = .ok req → rest.length = answerTail status req.cmd req.payload) ∧
      ((∀ req, decode rx ≠ .ok req) →
        status = UPD_ST_BAD_FRAME ∧ rest = [] ∧ r.1.2 = s ∧ r.2 = st) := by
  intro r
  obtain ⟨status, rest, hanswer, hstatus, hmax, htail⟩ :=
    answer_request_shaped P s st payload_cap hcap rx (parseFrame rx)
  have hrun : r = _ := request_cycle_run P s st payload_cap tx_cap tx rx hcap htx_cap htx
  have hcmd : (answer_request P s payload_cap rx (parseFrame rx) st).1.1 = rx.getD 0 0 := by
    rcases hparse : parseFrame rx with _ | req
    · rfl
    · exact parseFrame_cmd hparse
  have hlength : (status :: rest).length ≤ payloadMax := by
    unfold payloadMax
    rw [List.length_cons]
    omega
  have hframe : r.1.1 = wire (rx.getD 0 0 ||| UPD_RSP_FLAG) (status :: rest) := by
    rw [hrun, hcmd, hanswer]
  refine ⟨⟨rx.getD 0 0 ||| UPD_RSP_FLAG, status :: rest⟩, status, rest, ?_, ?_, ?_, ?_, rfl, rfl,
    hstatus, ?_, ?_⟩
  · rw [hframe]
    simp [wire]
  · rw [hframe, length_wire, List.length_cons]
    omega
  · rw [decode_iff]
    exact ⟨hlength, hframe⟩
  · intro k
    rw [hframe]
    exact decode_padded_wire _ _ k hlength
  · intro req hdecode
    obtain ⟨parsed, hparse, hsame, hpayload⟩ := (parseFrame_iff_decode rx req).mp hdecode
    rw [hparse] at htail
    rw [← hsame, ← hpayload]
    exact htail
  · intro hinvalid
    have hparse : parseFrame rx = none := by
      rcases hparse : parseFrame rx with _ | req
      · rfl
      · exact absurd ((parseFrame_iff_decode rx _).mpr ⟨req, hparse, rfl, rfl⟩)
          (hinvalid ⟨req.cmd, req.payload⟩)
    rw [hparse] at htail
    refine ⟨htail.1, htail.2, ?_, ?_⟩
    · rw [hrun, hparse]
      rfl
    · rw [hrun, hparse]
      rfl

theorem every_input_answered_info :
    let info : PortInfo :=
      { page_size := 16, app_pages := 1, device_id := #v[0, 0, 0, 0], bl_version := 0 }
    let rx : List UInt8 := [0x01, 0x00, 0x15]
    let r := request_cycle (arrayPort info store) (upd_init info) 17 (List.replicate 20 0) 20 rx
      (fun _ => 0xFF)
    decode rx = .ok ⟨CMD_INFO, []⟩ ∧
    ∃ fr status rest, r.1.1 ≠ [] ∧ r.1.1.length ≤ 20 ∧ decode r.1.1 = .ok fr ∧
      (∀ k, decode_padded (r.1.1 ++ List.replicate k 0xFF) = .ok fr) ∧
      fr.cmd = 0x01 ||| 0x80 ∧ fr.payload = status :: rest ∧ status ≤ 7 ∧
      (∀ req, decode rx = .ok req → rest.length = answerTail status req.cmd req.payload) ∧
      ((∀ req, decode rx ≠ .ok req) →
        status = UPD_ST_BAD_FRAME ∧ rest = [] ∧ r.1.2 = upd_init info ∧ r.2 = (fun _ => 0xFF)) := by
  intro info rx
  exact ⟨by decide +kernel, every_input_answered (arrayPort info store) (upd_init info) (fun _ => 0xFF) rx
    (List.replicate 20 0) 17 20 (by decide) (by decide) rfl⟩

end OtaUpdater.System
