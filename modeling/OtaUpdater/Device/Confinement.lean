import OtaUpdater.Lib.Run
import OtaUpdater.Device.Flash

/-!
# Confinement

A port that logs every call the core makes on it, and what the log of a run of
the FSM can hold.
-/

open OtaUpdater.Lib.Bytes OtaUpdater.Lib.Run OtaUpdater.Lib.State

namespace OtaUpdater.Device

/-! ## The log -/

inductive PortCall where
  | erase_page (page : UInt16)
  | write_page (page : UInt16) (data : List UInt8)
  | read_byte (off : UInt32)
  | jump_to_app
deriving DecidableEq

section Traced

variable {σ : Type} (P : Port σ)

def logged {α : Type} (call : PortCall) (op : StateM σ α) : StateM (σ × List PortCall) α :=
  fun t => ((op t.1).1, (op t.1).2, t.2 ++ [call])

def tracedPort : Port (σ × List PortCall) where
  port_flash_erase_page p := logged (.erase_page p) (P.port_flash_erase_page p)
  port_flash_write_page p data := logged (.write_page p data) (P.port_flash_write_page p data)
  port_flash_read_byte off := logged (.read_byte off) (P.port_flash_read_byte off)
  port_jump_to_app := logged .jump_to_app P.port_jump_to_app

theorem tracedPort_agree (info : PortInfo) :
    CallsAgree (tracedPort P) P info (fun t s => t.1 = s) where
  read := by rintro off _ ⟨s, calls⟩ _ rfl; exact ⟨rfl, rfl⟩
  erase := by rintro p _ ⟨s, calls⟩ _ rfl; exact ⟨rfl, rfl⟩
  write := by rintro p data _ _ ⟨s, calls⟩ _ rfl; exact ⟨rfl, rfl⟩

/-- Inside the app region; the core makes no jump of its own. -/
def PortCall.Inside (info : PortInfo) : PortCall → Prop
  | erase_page page => page < info.app_pages
  | write_page page data => page < info.app_pages ∧ data.length = info.page_size.toNat
  | read_byte off => off.toNat < info.page_size.toNat * info.app_pages.toNat
  | jump_to_app => False

theorem upd_handle_calls_inside (s : UpdSession) (req : UpdFrame) (rsp_cap : UInt8) (st : σ) :
    ∀ call ∈ (upd_handle (tracedPort P) s req rsp_cap (st, [])).2.2, call.Inside s.info := by
  have hlog : ∀ (calls : List PortCall) (call : PortCall), call.Inside s.info →
      (∀ c ∈ calls, c.Inside s.info) → ∀ c ∈ calls ++ [call], c.Inside s.info := by
    intro calls call hcall hcalls c hc
    rw [List.mem_append, List.mem_singleton] at hc
    rcases hc with hc | rfl
    · exact hcalls c hc
    · exact hcall
  have hconfined : Confined (tracedPort P) s.info (fun t => ∀ c ∈ t.2, c.Inside s.info) := {
    read := fun off hoff t ht => hlog _ _ hoff ht
    erase := fun p hp t ht => hlog _ _ hp ht
    write := fun p data hp hdata t ht => hlog _ _ ⟨hp, hdata⟩ ht }
  apply upd_handle_keeps hconfined
  simp

/-! ## Calls that change flash -/

def PortCall.Changes : PortCall → Bool
  | erase_page _ | write_page _ _ => true
  | read_byte _ | jump_to_app => false

def changes (calls : List PortCall) : List PortCall := calls.filter PortCall.Changes

theorem upd_handle_no_changes (s : UpdSession) (req : UpdFrame) (rsp_cap : UInt8) (st : σ)
    (herase : req.cmd ≠ UPD_CMD_ERASE_APP) (hwrite : req.cmd ≠ UPD_CMD_WRITE_PAGE) :
    changes (upd_handle (tracedPort P) s req rsp_cap (st, [])).2.2 = [] := by
  have hkeeps : Keeps (fun t => changes t.2 = []) (upd_handle (tracedPort P) s req rsp_cap) := by
    refine upd_handle_keeps_of_reads ?_ req rsp_cap herase hwrite
    intro off _ t ht
    simp only [tracedPort, logged, changes, List.filter_append] at ht ⊢
    rw [ht]
    rfl
  exact hkeeps (st, []) rfl

theorem erase_pages_calls (k : Nat) (p : UInt16) (st : σ) (calls : List PortCall)
    (hp : p.toNat + k < 2 ^ 16) :
    (erase_pages (tracedPort P) k p (st, calls)).2.2 =
      calls ++ (List.range' p.toNat k).map (fun i => .erase_page (UInt16.ofNat i)) := by
  induction k generalizing p st calls with
  | zero => simp [erase_pages]
  | succ k ih =>
    have hnext : (p + 1).toNat = p.toNat + 1 := succ_toNat16 (by omega)
    simp only [erase_pages, bind_apply]
    rw [List.range'_succ, List.map_cons, UInt16.ofNat_toNat, ← hnext, List.append_cons]
    exact ih (p + 1) _ _ (by omega)

theorem handle_erase_calls (s : UpdSession) (req : UpdFrame) (st : σ) :
    (handle_erase (tracedPort P) s req (st, [])).2.2 =
      if req.payload = eraseMagic then
        (List.range s.info.app_pages.toNat).map (fun i => .erase_page (UInt16.ofNat i))
      else [] := by
  have hlt := s.info.app_pages.toNat_lt
  unfold handle_erase
  by_cases hmagic : req.payload = eraseMagic
  · rw [if_neg (by rw [eraseMagic_iff]; exact not_not.mpr hmagic), if_pos hmagic]
    simp only [bind_apply, pure_apply]
    rw [erase_pages_calls _ _ _ _ _ (by simpa using hlt), List.nil_append, List.range_eq_range']
    rfl
  · rw [if_pos (by rw [eraseMagic_iff]; exact hmagic), if_neg hmagic]
    rfl

theorem handle_write_calls (s : UpdSession) (req : UpdFrame) (st : σ) :
    (handle_write (tracedPort P) s req (st, [])).2.2 =
      if s.erased = true ∧ req.len.toNat = s.info.page_size.toNat + 2 ∧
          write_index req < s.info.app_pages then
        [.write_page (write_index req) (req.payload.drop 2)]
      else [] := by
  unfold handle_write
  simp only [ite_run, bind_apply, pure_apply, ne_eq, write_length_iff, Bool.not_eq_true', ge_iff_le]
  by_cases hlatch : s.erased = false
  · simp [hlatch]
  by_cases hlen : req.len.toNat = s.info.page_size.toNat + 2
  · by_cases hidx : s.info.app_pages ≤ write_index req
    · have hnot : ¬ write_index req < s.info.app_pages := UInt16.not_lt.mpr hidx
      simp [hlatch, hlen, hidx, hnot]
    · have hok : write_index req < s.info.app_pages := UInt16.not_le.mp hidx
      simp [hlatch, hlen, hidx, hok, tracedPort, logged]
  · simp [hlatch, hlen]

theorem upd_handle_erase_run (s : UpdSession) (req : UpdFrame) (rsp_cap : UInt8) (st : σ)
    (hcmd : req.cmd = UPD_CMD_ERASE_APP) (hcap : rsp_cap ≠ 0) :
    upd_handle P s req rsp_cap st = handle_erase P s req st := by
  have h1 : UPD_CMD_ERASE_APP ≠ UPD_CMD_INFO := by decide
  simp [upd_handle, hcap, hcmd, h1]

theorem upd_handle_write_run (s : UpdSession) (req : UpdFrame) (rsp_cap : UInt8) (st : σ)
    (hcmd : req.cmd = UPD_CMD_WRITE_PAGE) (hcap : rsp_cap ≠ 0) :
    upd_handle P s req rsp_cap st = ((s, (handle_write P s req st).1), (handle_write P s req st).2) := by
  have h1 : UPD_CMD_WRITE_PAGE ≠ UPD_CMD_INFO := by decide
  have h2 : UPD_CMD_WRITE_PAGE ≠ UPD_CMD_ERASE_APP := by decide
  simp [upd_handle, hcap, hcmd, h1, h2]

end Traced

/-! ## One frame -/

def handleLogged (program : Program) (st : UpdSession × Flash) (input : UpdFrame × UInt8) :
    (List UInt8 × List PortCall) × (UpdSession × Flash) :=
  let r := upd_handle (tracedPort (arrayPort st.1.info program)) st.1 input.1 input.2 (st.2, [])
  ((r.1.2, r.2.2), (r.1.1, r.2.1))

abbrev HandleRecord := Record (UpdSession × Flash) (UpdFrame × UInt8) (List UInt8 × List PortCall)

/-- An erase command that was carried out. -/
def ErasedHere (r : HandleRecord) : Prop :=
  r.input.1.cmd = UPD_CMD_ERASE_APP ∧ r.input.1.payload = eraseMagic ∧ r.output.1 = [UPD_ST_OK] ∧
    changes r.output.2 =
      (List.range r.before.1.info.app_pages.toNat).map (fun i => .erase_page (UInt16.ofNat i)) ∧
    r.after = ({ r.before.1 with erased := true }, eraseAll r.before.1.info r.before.2)

/-- A page write that was carried out. -/
def WroteHere (program : Program) (r : HandleRecord) : Prop :=
  r.input.1.cmd = UPD_CMD_WRITE_PAGE ∧ r.before.1.erased = true ∧ r.output.1 = [UPD_ST_OK] ∧
    write_index r.input.1 < r.before.1.info.app_pages ∧
    changes r.output.2 = [.write_page (write_index r.input.1) (r.input.1.payload.drop 2)] ∧
    r.after = (r.before.1, writePage program r.before.1.info.page_size.toNat
      (write_index r.input.1).toNat (r.input.1.payload.drop 2) r.before.2)

/-- No change of flash; only an accepted BOOT touches the session. -/
def QuietHere (r : HandleRecord) : Prop :=
  changes r.output.2 = [] ∧ r.after.2 = r.before.2 ∧
    (r.after.1 = r.before.1 ∨
      r.output.1 = [UPD_ST_OK] ∧ r.after.1 = { r.before.1 with boot_pending := true })

theorem handleLogged_eq (program : Program) (s : UpdSession) (f : Flash) (req : UpdFrame)
    (rsp_cap : UInt8) :
    let r := upd_handle (arrayPort s.info program) s req rsp_cap f
    handleLogged program (s, f) (req, rsp_cap) =
      ((r.1.2, (upd_handle (tracedPort (arrayPort s.info program)) s req rsp_cap (f, [])).2.2),
        (r.1.1, r.2)) := by
  obtain ⟨hret, hflash⟩ := upd_handle_agree (tracedPort_agree (arrayPort s.info program) s.info)
    (s := s) req rsp_cap (f, []) f rfl
  simp only [handleLogged, hret, hflash]

theorem handleLogged_cases (program : Program) (st : UpdSession × Flash) (input : UpdFrame × UInt8) :
    QuietHere (record (handleLogged program) st input) ∨
      ErasedHere (record (handleLogged program) st input) ∨
      WroteHere program (record (handleLogged program) st input) := by
  obtain ⟨s, f⟩ := st
  obtain ⟨req, rsp_cap⟩ := input
  simp only [record, handleLogged_eq, QuietHere, ErasedHere, WroteHere]
  by_cases hcap : rsp_cap = 0
  · subst hcap
    left
    simp [upd_handle, changes]
  by_cases herase : req.cmd = UPD_CMD_ERASE_APP
  · rw [upd_handle_erase program s f rsp_cap herase hcap,
      upd_handle_erase_run _ s req rsp_cap _ herase hcap, handle_erase_calls]
    by_cases hmagic : req.payload = eraseMagic
    · right; left
      simp only [if_pos hmagic]
      refine ⟨herase, hmagic, trivial, ?_, trivial⟩
      unfold changes
      rw [List.filter_eq_self]
      intro call hcall
      rw [List.mem_map] at hcall
      obtain ⟨i, -, rfl⟩ := hcall
      rfl
    · left
      simp [hmagic, changes]
  by_cases hwrite : req.cmd = UPD_CMD_WRITE_PAGE
  · rw [upd_handle_write program s f rsp_cap hwrite hcap,
      upd_handle_write_run _ s req rsp_cap _ hwrite hcap, handle_write_calls, handle_write_array]
    by_cases hlatch : s.erased = false
    · left
      simp [hlatch, changes]
    by_cases hlen : req.len.toNat = s.info.page_size.toNat + 2
    · by_cases hidx : s.info.app_pages ≤ write_index req
      · have hnot : ¬ write_index req < s.info.app_pages := UInt16.not_lt.mpr hidx
        left
        simp [hlatch, hlen, hidx, hnot, changes]
      · have hok : write_index req < s.info.app_pages := UInt16.not_le.mp hidx
        right; right
        simp [hlatch, hlen, hidx, hok, hwrite, changes, PortCall.Changes]
    · left
      simp [hlatch, hlen, changes]
  · left
    refine ⟨upd_handle_no_changes _ s req rsp_cap f herase hwrite, ?_⟩
    rcases upd_handle_cases program s req f rsp_cap with
      ⟨hs, hf⟩ | ⟨hcmd, -⟩ | ⟨hcmd, -⟩ | ⟨-, -, hr⟩
    · exact ⟨hf, Or.inl hs⟩
    · exact absurd hcmd herase
    · exact absurd hcmd hwrite
    · rw [hr]
      exact ⟨rfl, Or.inr ⟨rfl, rfl⟩⟩

/-! ## Whole runs -/

/-- Any frames, each with any response room, handled one after the other from `upd_init`. -/
def handleRun (program : Program) (info : PortInfo) (f : Flash)
    (inputs : List (UpdFrame × UInt8)) : List HandleRecord :=
  records (handleLogged program) (upd_init info, f) inputs

def LatchInv (info : PortInfo) (past : List HandleRecord) (st : UpdSession × Flash) : Prop :=
  st.1.info = info ∧ (st.1.erased = true → ∃ e ∈ past, ErasedHere e)

theorem latchInv_step (program : Program) (info : PortInfo) (past : List HandleRecord)
    (st : UpdSession × Flash) (input : UpdFrame × UInt8) (h : LatchInv info past st) :
    LatchInv info (past ++ [record (handleLogged program) st input])
      (handleLogged program st input).2 := by
  obtain ⟨hinfo, hlatch⟩ := h
  have hearlier : st.1.erased = true →
      ∃ e ∈ past ++ [record (handleLogged program) st input], ErasedHere e := by
    intro herased
    obtain ⟨e, he, hdone⟩ := hlatch herased
    exact ⟨e, List.mem_append_left _ he, hdone⟩
  change LatchInv info _ (record (handleLogged program) st input).after
  rcases handleLogged_cases program st input with ⟨-, -, hs | ⟨-, hs⟩⟩ | herased | ⟨-, -, -, -, -, hs⟩
  · rw [LatchInv, hs]
    exact ⟨hinfo, hearlier⟩
  · rw [LatchInv, hs]
    exact ⟨hinfo, hearlier⟩
  · have hs := herased.2.2.2.2
    refine ⟨?_, fun _ => ⟨_, List.mem_append_right _ List.mem_cons_self, herased⟩⟩
    rw [hs]
    exact hinfo
  · rw [LatchInv, hs]
    exact ⟨hinfo, hearlier⟩

theorem handleRun_inv (program : Program) (info : PortInfo) (f : Flash)
    (inputs : List (UpdFrame × UInt8)) (pre post : List HandleRecord) (r : HandleRecord)
    (hrun : handleRun program info f inputs = pre ++ r :: post) :
    LatchInv info pre r.before ∧ r = record (handleLogged program) r.before r.input := by
  have hinit : LatchInv info [] (upd_init info, f) := by
    refine ⟨rfl, ?_⟩
    intro h
    cases h
  exact records_history _ _ (latchInv_step program info) [] _ hinit inputs pre post r hrun

/-- What any frame of any run may do to the flash and to the session. -/
theorem handleRun_confined (program : Program) (info : PortInfo) (f : Flash)
    (inputs : List (UpdFrame × UInt8)) (pre post : List HandleRecord) (r : HandleRecord)
    (hrun : handleRun program info f inputs = pre ++ r :: post) :
    (∀ call ∈ r.output.2, call.Inside info) ∧
    (region_bytes info).toNat = info.page_size.toNat * info.app_pages.toNat ∧
    (changes r.output.2 ≠ [] ∨ r.after.2 ≠ r.before.2 →
      ErasedHere r ∨ WroteHere program r ∧ ∃ e ∈ pre, ErasedHere e) ∧
    (r.output.1.head? ≠ some UPD_ST_OK ∨ r.input.2 = 0 →
      changes r.output.2 = [] ∧ r.after = r.before) := by
  obtain ⟨⟨hinfo, hlatch⟩, hr⟩ := handleRun_inv program info f inputs pre post r hrun
  have hcases := handleLogged_cases program r.before r.input
  rw [← hr] at hcases
  have hinside : ∀ call ∈ r.output.2, call.Inside info := by
    rw [hr, ← hinfo]
    exact upd_handle_calls_inside _ r.before.1 r.input.1 r.input.2 r.before.2
  refine ⟨hinside, region_bytes_toNat info, ?_, ?_⟩
  · intro hchange
    rcases hcases with ⟨hnone, hflash, -⟩ | herased | hwrote
    · rcases hchange with h | h
      · exact absurd hnone h
      · exact absurd hflash h
    · exact Or.inl herased
    · exact Or.inr ⟨hwrote, hlatch hwrote.2.1⟩
  · intro hrefused
    -- Without room there is no answer, so no ST_OK either.
    have hstatus : r.output.1 ≠ [UPD_ST_OK] := by
      intro hok
      rcases hrefused with h | h
      · rw [hok] at h
        exact h rfl
      · rw [hr] at hok
        simp only [record, handleLogged, h] at hok
        simp [upd_handle] at hok
    rcases hcases with ⟨hnone, hflash, hs | ⟨hok, -⟩⟩ | ⟨-, -, hok, -⟩ | ⟨-, -, hok, -⟩
    · exact ⟨hnone, Prod.ext hs hflash⟩
    · exact absurd hok hstatus
    · exact absurd hok hstatus
    · exact absurd hok hstatus

theorem handleRun_confined_write :
    let info : PortInfo :=
      { page_size := 2, app_pages := 1, device_id := #v[0, 0, 0, 0], bl_version := 0 }
    let erase : UpdFrame × UInt8 := (⟨UPD_CMD_ERASE_APP, 4, eraseMagic, rfl⟩, 17)
    let write : UpdFrame × UInt8 := (⟨UPD_CMD_WRITE_PAGE, 4, [0, 0, 0xA5, 0x5A], rfl⟩, 17)
    let first := record (handleLogged store) (upd_init info, fun _ => 0) erase
    let r := record (handleLogged store) first.after write
    (∀ call ∈ r.output.2, call.Inside info) ∧
    (region_bytes info).toNat = info.page_size.toNat * info.app_pages.toNat ∧
    (changes r.output.2 ≠ [] ∨ r.after.2 ≠ r.before.2 →
      ErasedHere r ∨ WroteHere store r ∧ ∃ e ∈ [first], ErasedHere e) ∧
    (r.output.1.head? ≠ some UPD_ST_OK ∨ r.input.2 = 0 →
      changes r.output.2 = [] ∧ r.after = r.before) := by
  intro info erase write first r
  exact handleRun_confined store info (fun _ => 0) [erase, write] [first] [] r rfl

end OtaUpdater.Device
