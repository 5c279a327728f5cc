import OtaUpdater.Device.Confinement

/-!
# The flash operations of a request

Which pages a request erases or programs is decided before the first of them, and is the same
for every port. So a port's state after a request is what these operations make of it.
-/

open OtaUpdater.Lib.State

namespace OtaUpdater.Device

variable {σ : Type} (P : Port σ)

def Port.call (st : σ) : PortCall → σ
  | .erase_page page => (P.port_flash_erase_page page st).2
  | .write_page page data => (P.port_flash_write_page page data st).2
  | .read_byte off => (P.port_flash_read_byte off st).2
  | .jump_to_app => (P.port_jump_to_app st).2

/-- An accepted ERASE_APP erases every page, an accepted WRITE_PAGE programs one. -/
def flashOps (s : UpdSession) (req : UpdFrame) : List PortCall :=
  if req.cmd = UPD_CMD_ERASE_APP ∧ req.payload = eraseMagic then
    (List.range s.info.app_pages.toNat).map (fun i => .erase_page (UInt16.ofNat i))
  else if req.cmd = UPD_CMD_WRITE_PAGE ∧ s.erased = true ∧
      req.len.toNat = s.info.page_size.toNat + 2 ∧ write_index req < s.info.app_pages then
    [.write_page (write_index req) (req.payload.drop 2)]
  else []

theorem flashOps_inside (s : UpdSession) (req : UpdFrame) (op : PortCall) (h : op ∈ flashOps s req) :
    op.Inside s.info := by
  have hpages := s.info.app_pages.toNat_lt
  unfold flashOps at h
  split_ifs at h with herase hwrite
  · obtain ⟨i, hi, rfl⟩ := List.mem_map.mp h
    have hlt := List.mem_range.mp hi
    change UInt16.ofNat i < s.info.app_pages
    rw [UInt16.lt_iff_toNat_lt, UInt16.toNat_ofNat', Nat.mod_eq_of_lt (by omega)]
    exact hlt
  · rw [List.mem_singleton.mp h]
    refine ⟨hwrite.2.2.2, ?_⟩
    rw [List.length_drop, req.payload_length, hwrite.2.2.1]
    omega
  · cases h

theorem flashOps_changes (s : UpdSession) (req : UpdFrame) (op : PortCall) (h : op ∈ flashOps s req) :
    op.Changes = true := by
  unfold flashOps at h
  split_ifs at h
  · obtain ⟨i, -, rfl⟩ := List.mem_map.mp h
    rfl
  · rw [List.mem_singleton.mp h]
    rfl
  · cases h

theorem traced_changes (s : UpdSession) (req : UpdFrame) (rsp_cap : UInt8) (hcap : rsp_cap ≠ 0) (st : σ) :
    changes (upd_handle (tracedPort P) s req rsp_cap (st, [])).2.2 = flashOps s req := by
  have herase_write : UPD_CMD_ERASE_APP ≠ UPD_CMD_WRITE_PAGE := by decide
  unfold flashOps
  by_cases herase : req.cmd = UPD_CMD_ERASE_APP
  · rw [upd_handle_erase_run (tracedPort P) s req rsp_cap (st, []) herase hcap, handle_erase_calls]
    simp only [herase, true_and, herase_write, false_and, if_false]
    split_ifs with hmagic
    · unfold changes
      rw [List.filter_eq_self]
      intro op hop
      obtain ⟨i, -, rfl⟩ := List.mem_map.mp hop
      rfl
    · rfl
  rw [if_neg (fun h => herase h.1)]
  by_cases hwrite : req.cmd = UPD_CMD_WRITE_PAGE
  · rw [upd_handle_write_run (tracedPort P) s req rsp_cap (st, []) hwrite hcap]
    simp only [handle_write_calls, hwrite, true_and]
    split_ifs
    · rfl
    · rfl
  · rw [if_neg (fun h => hwrite h.1)]
    exact upd_handle_no_changes P s req rsp_cap st herase hwrite

/-- The calls of a request, one after the other, are all that happens to the port. -/
theorem upd_handle_replay (s : UpdSession) (req : UpdFrame) (rsp_cap : UInt8) (st : σ) :
    (upd_handle P s req rsp_cap st).2 =
      (upd_handle (tracedPort P) s req rsp_cap (st, [])).2.2.foldl P.call st := by
  have hreplay : ∀ (call : PortCall) (t : σ × List PortCall), t.1 = t.2.foldl P.call st →
      P.call t.1 call = (t.2 ++ [call]).foldl P.call st := by
    intro call t ht
    rw [List.foldl_append, ← ht]
    rfl
  have hconfined : Confined (tracedPort P) s.info (fun t => t.1 = t.2.foldl P.call st) := {
    read := fun off _ t ht => hreplay (.read_byte off) t ht
    erase := fun p _ t ht => hreplay (.erase_page p) t ht
    write := fun p data _ _ t ht => hreplay (.write_page p data) t ht }
  have hrun := upd_handle_keeps hconfined req rsp_cap (st, []) rfl
  have hsame := (upd_handle_agree (tracedPort_agree P s.info) req rsp_cap (st, []) st rfl).2
  rw [← hsame]
  exact hrun

theorem upd_handle_ops {s : UpdSession}
    (hreads : ∀ off : UInt32, off.toNat < s.info.region → ∀ st, (P.port_flash_read_byte off st).2 = st)
    (req : UpdFrame) (rsp_cap : UInt8) (hcap : rsp_cap ≠ 0) (st : σ) :
    (upd_handle P s req rsp_cap st).2 = (flashOps s req).foldl P.call st := by
  have hinside := upd_handle_calls_inside P s req rsp_cap st
  rw [upd_handle_replay, ← traced_changes P s req rsp_cap hcap st]
  generalize (upd_handle (tracedPort P) s req rsp_cap (st, [])).2.2 = calls at hinside
  induction calls generalizing st with
  | nil => rfl
  | cons call calls ih =>
    have hrest := fun st => ih st (fun c hc => hinside c (List.mem_cons_of_mem call hc))
    have hcall := hinside call List.mem_cons_self
    cases call with
    | erase_page page => exact hrest (P.call st (.erase_page page))
    | write_page page data => exact hrest (P.call st (.write_page page data))
    | read_byte off =>
      have hread : P.call st (.read_byte off) = st := hreads off hcall st
      rw [List.foldl_cons, hread]
      exact hrest st
    | jump_to_app => exact hcall.elim

theorem upd_handle_answer_agree {τ : Type} {Q : Port τ} {s : UpdSession} {rel : σ → τ → Prop}
    (hreads : ReadsAgree P Q s.info rel) (req : UpdFrame) (rsp_cap : UInt8) (hcap : rsp_cap ≠ 0)
    {st : σ} {st' : τ} (hst : rel st st') :
    (upd_handle P s req rsp_cap st).1 = (upd_handle Q s req rsp_cap st').1 := by
  by_cases herase : req.cmd = UPD_CMD_ERASE_APP
  · rw [upd_handle_erase_run P s req rsp_cap st herase hcap,
      upd_handle_erase_run Q s req rsp_cap st' herase hcap]
    have hagree : Agree (fun _ _ => True) (handle_erase P s req) (handle_erase Q s req) :=
      handle_erase_agree (fun _ _ _ _ _ => ⟨rfl, trivial⟩) req
    exact (hagree st st' trivial).1
  by_cases hwrite : req.cmd = UPD_CMD_WRITE_PAGE
  · rw [upd_handle_write_run P s req rsp_cap st hwrite hcap,
      upd_handle_write_run Q s req rsp_cap st' hwrite hcap, handle_write_run, handle_write_run]
    split_ifs
    · rfl
    · rfl
    · rfl
    · rfl
  · exact (upd_handle_agree_of_reads hreads req rsp_cap herase hwrite st st' hst).1

end OtaUpdater.Device
