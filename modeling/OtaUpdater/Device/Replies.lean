import OtaUpdater.Device.LinkFrames
import OtaUpdater.Device.MainLoop

/-!
# What a lap puts on the line

At most one answer a lap, to the frame that the lap's poll delivered, and never
longer than its command calls for.
-/

open OtaUpdater.Lib.State OtaUpdater.Wire

namespace OtaUpdater.Device

/-- The worst-case answer to a request, by its command. -/
def answerRoom (cmd : UInt8) (payload : List UInt8) : Nat :=
  if cmd = UPD_CMD_INFO then 12 else if cmd = UPD_CMD_ECHO then payload.length + 1 else 1

theorem upd_handle_answer_room {σ : Type} (P : Port σ) (s : UpdSession) (req : UpdFrame) (st : σ)
    (rsp_cap : UInt8) :
    (upd_handle P s req rsp_cap st).1.2.length ≤ answerRoom req.cmd req.payload := by
  have hinfo := handle_info_length P s st rsp_cap
  have hecho : (handle_echo req rsp_cap).length ≤ req.payload.length + 1 := by
    unfold handle_echo
    split
    · exact Nat.le_add_left _ _
    · exact Nat.le_refl _
  have hdistinct : UPD_CMD_ECHO ≠ UPD_CMD_INFO := by decide
  have hone : 1 ≤ answerRoom req.cmd req.payload := by
    unfold answerRoom
    split_ifs <;> omega
  unfold upd_handle
  simp only [ite_run, bind_apply, pure_apply]
  split_ifs with hcap hcmd herase hwrite hverify hboot hvalid hecho_cmd
  · exact Nat.zero_le _
  · rw [hinfo]
    unfold answerRoom
    rw [if_pos hcmd]
    split <;> omega
  · rw [handle_erase_length]
    exact hone
  · rw [handle_write_length]
    exact hone
  · rw [handle_verify_length]
    exact hone
  · exact hone
  · exact hone
  · unfold answerRoom
    rw [if_neg hcmd, if_pos hecho_cmd]
    exact hecho
  · exact hone

def sentBytes (events : List Event) : List UInt8 :=
  events.flatMap (fun
    | .sent bytes => bytes
    | _ => [])

section Lap

variable {info : PortInfo} (program : Program) (t_entry tick : UInt16)

theorem boot_after_reply_line {m : Main} (hinfo : m.s.info = info) (b : Board) :
    let r := boot_after_reply (boardPort info program) m b
    r.1.lnk = m.lnk ∧ r.1.fifo = m.fifo ∧ sentBytes r.2.2 = sentBytes b.2 := by
  obtain ⟨f, log⟩ := b
  dsimp only
  rw [boot_after_reply_board program hinfo]
  split_ifs
  · simp [sentBytes]
  · simp [sentBytes]
  · exact ⟨rfl, rfl, rfl⟩

theorem entry_window_line {m : Main} (hinfo : m.s.info = info) (b : Board) :
    let r := entry_window (boardPort info program) t_entry m tick b
    r.1.lnk = m.lnk ∧ r.1.fifo = m.fifo ∧ sentBytes r.2.2 = sentBytes b.2 := by
  obtain ⟨f, log⟩ := b
  dsimp only
  rw [entry_window_board program t_entry tick hinfo]
  split_ifs
  · simp [sentBytes]
  · simp [sentBytes]
  · exact ⟨rfl, rfl, rfl⟩

theorem lapStep_line (st : Main × Flash) (arrived : List UInt8) (h : st.1.Settled info) :
    let polled := link_poll st.1.lnk (st.1.fifo ++ arrived)
    let r := lapStep program t_entry st (arrived, tick)
    r.2.1.lnk = polled.2.1 ∧ r.2.1.fifo = polled.2.2 ∧
      match polled.1 with
      | none => sentBytes r.1 = []
      | some req => ∃ answer, sentBytes r.1 = UPD_LINK_SYNC :: wire (req.cmd ||| UPD_RSP_FLAG) answer ∧
          answer.length ≤ answerRoom req.cmd req.payload ∧ answer.length ≤ payloadMax := by
  obtain ⟨m, f⟩ := st
  unfold lapStep lap
  dsimp only
  generalize link_poll m.lnk (m.fifo ++ arrived) = polled
  obtain ⟨out, lnk, fifo⟩ := polled
  have hpolled : ({ m with lnk, fifo } : Main).Settled info := ⟨h.geometry, h.no_boot, h.tx_size⟩
  dsimp only
  rw [h.geometry]
  cases out with
  | none =>
    simp only [bind_apply, pure_apply, boot_after_reply_settled hpolled]
    exact entry_window_line program t_entry tick hpolled.geometry (f, [])
  | some req =>
    obtain ⟨answer, m', f', hrun, hanswer, hlnk, hfifo, hinfo, -⟩ :=
      answer_frame_board program hpolled req f
    have hroom := upd_handle_answer_room (arrayPort info program) m.s req f UPDATER_RSP_PAYLOAD_MAX
    have hmax := (upd_handle_answer_length (arrayPort info program) m.s req f
      UPDATER_RSP_PAYLOAD_MAX).1
    have hcap : UPDATER_RSP_PAYLOAD_MAX.toNat = 17 := rfl
    rw [← hanswer] at hroom hmax
    simp only [bind_apply, hrun]
    generalize hlog : [Event.handled req answer,
      .sent (UPD_LINK_SYNC :: wire (req.cmd ||| UPD_RSP_FLAG) answer)] = log
    obtain ⟨hboot_lnk, hboot_fifo, hboot_sent⟩ := boot_after_reply_line program hinfo (f', log)
    have hboot_info : (boot_after_reply (boardPort info program) m' (f', log)).1.s.info = info := by
      unfold boot_after_reply
      split <;> exact hinfo
    obtain ⟨hend_lnk, hend_fifo, hend_sent⟩ := entry_window_line program t_entry tick hboot_info
      (boot_after_reply (boardPort info program) m' (f', log)).2
    refine ⟨(hend_lnk.trans hboot_lnk).trans hlnk, (hend_fifo.trans hboot_fifo).trans hfifo, answer,
      ?_, hroom, ?_⟩
    · rw [hend_sent, hboot_sent, ← hlog]
      simp [sentBytes]
    · simp only [payloadMax]
      omega

theorem answer_frame_session {m : Main} (h : m.Settled info) (req : UpdFrame) (f : Flash) :
    let handled := upd_handle (arrayPort info program) m.s req UPDATER_RSP_PAYLOAD_MAX f
    let r := answer_frame (boardPort info program) m req (f, [])
    r.1.s = handled.1.1 ∧ r.2.1 = handled.2 := by
  obtain ⟨hgeometry, -, -⟩ := h
  subst hgeometry
  have hrun := upd_handle_board program m.s req UPDATER_RSP_PAYLOAD_MAX f []
  dsimp only at hrun ⊢
  unfold answer_frame
  simp only [bind_apply, pure_apply, hrun, emit, and_self]

/-- In update mode a lap does what its poll says: nothing, or the one frame, unless that is BOOT. -/
theorem lapStep_resident (st : Main × Flash) (arrived : List UInt8) (h : st.1.Settled info)
    (hresident : st.1.resident = true) :
    let r := lapStep program t_entry st (arrived, tick)
    match (link_poll st.1.lnk (st.1.fifo ++ arrived)).1 with
    | none => r.2.1.s = st.1.s ∧ r.2.1.resident = true ∧ r.2.2 = st.2
    | some req => req.cmd ≠ UPD_CMD_BOOT →
      let handled := upd_handle (arrayPort info program) st.1.s req UPDATER_RSP_PAYLOAD_MAX st.2
      r.2.1.s = handled.1.1 ∧ r.2.1.resident = true ∧ r.2.2 = handled.2 ∧
        sentBytes r.1 = UPD_LINK_SYNC :: wire (req.cmd ||| UPD_RSP_FLAG) handled.1.2 := by
  obtain ⟨m, f⟩ := st
  unfold lapStep lap
  dsimp only at h hresident ⊢
  generalize link_poll m.lnk (m.fifo ++ arrived) = polled
  obtain ⟨out, lnk, fifo⟩ := polled
  have hpolled : ({ m with lnk, fifo } : Main).Settled info := ⟨h.geometry, h.no_boot, h.tx_size⟩
  dsimp only
  rw [h.geometry]
  cases out with
  | none =>
    simp only [bind_apply, pure_apply, boot_after_reply_settled hpolled]
    rw [entry_window_resident program t_entry tick (m := { m with lnk, fifo }) hresident]
    exact ⟨rfl, hresident, rfl⟩
  | some req =>
    intro hcmd
    obtain ⟨answer, m', f', hrun, hanswer, -, -, hinfo, hlatched, htx, hboot⟩ :=
      answer_frame_board program hpolled req f
    obtain ⟨hsession, hflash⟩ := answer_frame_session program hpolled req f
    rw [hrun] at hsession hflash
    have hsettled : m'.Settled info := by
      refine ⟨hinfo, ?_, htx⟩
      rw [Bool.eq_false_iff]
      intro hpending
      exact hcmd (hboot hpending).1
    simp only [bind_apply, hrun]
    rw [boot_after_reply_settled hsettled, entry_window_resident program t_entry tick hlatched]
    refine ⟨hsession, hlatched, hflash, ?_⟩
    rw [hanswer]
    simp [sentBytes]

end Lap

end OtaUpdater.Device
