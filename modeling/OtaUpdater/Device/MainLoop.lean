import OtaUpdater.Agreement.Codec
import OtaUpdater.Device.Flash
import OtaUpdater.Device.LinkStream
import OtaUpdater.Lib.Run

/-!
# The stream main loop (`avr_ea_uart/main.c`, `rp2350_uart/main.c`)

One lap of the `for (;;)` is one step. What the environment decides in a lap is
its input: the bytes that arrived since the last one, and the tick it reads.
-/

open OtaUpdater.Lib.Run OtaUpdater.Lib.State OtaUpdater.Wire

namespace OtaUpdater.Device

def UPDATER_RSP_PAYLOAD_MAX : UInt8 := UPD_RSP_MAX
def UPDATER_TX_BUF_SIZE : UInt8 := 20

/-! ## The board -/

/-- What can be seen of a lap from outside, in order. -/
inductive Event where
  | handled (req : UpdFrame) (answer : List UInt8)
  | sent (bytes : List UInt8)
  | drained
  | jumped (flash : Flash)
  | refused

abbrev Board := Flash × List Event

def emit (e : Event) : StateM Board Unit := fun b => ((), b.1, b.2 ++ [e])

def onFlash {α : Type} (op : StateM Flash α) : StateM Board α :=
  fun b => ((op b.1).1, (op b.1).2, b.2)

def boardPort (info : PortInfo) (program : Program) : Port Board where
  port_flash_erase_page p := onFlash ((arrayPort info program).port_flash_erase_page p)
  port_flash_write_page p data := onFlash ((arrayPort info program).port_flash_write_page p data)
  port_flash_read_byte off := onFlash ((arrayPort info program).port_flash_read_byte off)
  port_jump_to_app := fun b => ((), b.1, b.2 ++ [.jumped b.1])

/-! ## The loop -/

/-- The statics and locals of `main`, and the receive FIFO. -/
structure Main where
  lnk : Link
  s : UpdSession
  resident : Bool
  tx : List UInt8
  fifo : List UInt8

/-- Everything before the loop; `entry` is `port_entry_requested`. -/
def main_init (info : PortInfo) (rx : List UInt8) (rx_size : UInt8) (entry : Bool) : Main where
  lnk := link_init rx rx_size
  s := upd_init info
  resident := entry
  tx := List.replicate UPDATER_TX_BUF_SIZE.toNat 0
  fifo := []

section Lap

variable (P : Port Board) (t_entry : UInt16)

def answer_frame (m : Main) (req : UpdFrame) : StateM Board Main := do
  let (s, payload) ← upd_handle P m.s req UPDATER_RSP_PAYLOAD_MAX
  emit (.handled req payload)
  let (n, tx) := upd_frame_build m.tx UPDATER_TX_BUF_SIZE (req.cmd ||| UPD_RSP_FLAG) (.apart payload)
    (UInt8.ofNat payload.length)
  emit (.sent (link_send tx n))
  return { m with s, tx, resident := true }

def boot_after_reply (m : Main) : StateM Board Main := do
  if m.s.boot_pending then
    emit .drained
    let _ ← upd_boot_if_valid P m.s.info
    return { m with s := { m.s with boot_pending := false } }
  else return m

def entry_window (m : Main) (tick : UInt16) : StateM Board Main := do
  if m.resident = false ∧ tick ≥ t_entry then
    if ← upd_boot_if_valid P m.s.info then return m
    else
      emit .refused
      return { m with resident := true }
  else return m

def lap (m : Main) (arrived : List UInt8) (tick : UInt16) : StateM Board Main := do
  let (out, lnk, fifo) := link_poll m.lnk (m.fifo ++ arrived)
  let m := { m with lnk, fifo }
  let m ← match out with
    | some req => answer_frame P m req
    | none => pure m
  let m ← boot_after_reply P m
  entry_window P t_entry m tick

end Lap

/-- One lap on a plain flash array: the lap's events, and the state after it. -/
def lapStep (program : Program) (t_entry : UInt16) (st : Main × Flash)
    (input : List UInt8 × UInt16) : List Event × (Main × Flash) :=
  let r := lap (boardPort st.1.s.info program) t_entry st.1 input.1 input.2 (st.2, [])
  (r.2.2, (r.1, r.2.1))

/-! ## What a lap does -/

section Board

variable (info : PortInfo) (program : Program)

theorem boardPort_agree (log : List Event) :
    CallsAgree (boardPort info program) (arrayPort info program) info (fun b f => b = (f, log)) where
  read := by rintro off _ _ f rfl; exact ⟨rfl, rfl⟩
  erase := by rintro p _ _ f rfl; exact ⟨rfl, rfl⟩
  write := by rintro p data _ _ _ f rfl; exact ⟨rfl, rfl⟩

theorem upd_handle_board (s : UpdSession) (req : UpdFrame) (rsp_cap : UInt8) (f : Flash)
    (log : List Event) :
    let r := upd_handle (arrayPort s.info program) s req rsp_cap f
    upd_handle (boardPort s.info program) s req rsp_cap (f, log) = (r.1, r.2, log) := by
  obtain ⟨hret, hboard⟩ := upd_handle_agree (boardPort_agree s.info program log) (s := s) req rsp_cap
    (f, log) f rfl
  exact Prod.ext hret hboard

theorem upd_boot_if_valid_board (f : Flash) (log : List Event) :
    upd_boot_if_valid (boardPort info program) info (f, log) =
      if AppValid (region info f) then (true, f, log ++ [.jumped f]) else (false, f, log) := by
  obtain ⟨hret, hboard⟩ := upd_app_valid_agree (boardPort_agree info program log).read (f, log) f rfl
  rw [upd_app_valid_array] at hret hboard
  unfold upd_boot_if_valid
  simp only [bind_apply, hret, hboard]
  by_cases hvalid : AppValid (region info f)
  · simp [hvalid, boardPort]
  · simp [hvalid]

theorem reply_bytes (tx : List UInt8) (cmd : UInt8) (payload : List UInt8)
    (htx : tx.length = UPDATER_TX_BUF_SIZE.toNat) (hpayload : payload.length ≤ 17) :
    let built := upd_frame_build tx UPDATER_TX_BUF_SIZE cmd (.apart payload)
      (UInt8.ofNat payload.length)
    link_send built.2 built.1 = UPD_LINK_SYNC :: wire cmd payload ∧
      built.2.length = UPDATER_TX_BUF_SIZE.toNat := by
  have h20 : UPDATER_TX_BUF_SIZE.toNat = 20 := rfl
  obtain ⟨hshows, hfits, hsize⟩ :=
    upd_frame_build_shows tx UPDATER_TX_BUF_SIZE cmd payload htx (by omega)
  intro built
  have hwindow := Lib.Bytes.window_eq_take_drop 0 built.1.toNat built.2 (by
    rw [Nat.zero_add]
    exact Nat.le_trans hfits (Nat.le_of_eq hsize.symm))
  refine ⟨?_, hsize⟩
  rw [List.drop_zero, hshows] at hwindow
  rw [link_send, ← hwindow]
  simp [Lib.Bytes.window]

end Board

structure Main.Settled (info : PortInfo) (m : Main) : Prop where
  geometry : m.s.info = info
  no_boot : m.s.boot_pending = false
  tx_size : m.tx.length = UPDATER_TX_BUF_SIZE.toNat

section Cases

variable {info : PortInfo} (program : Program) {m : Main}

theorem answer_frame_board (h : m.Settled info) (req : UpdFrame) (f : Flash) :
    ∃ answer m' f', answer_frame (boardPort info program) m req (f, []) =
        (m', f', [.handled req answer, .sent (UPD_LINK_SYNC :: wire (req.cmd ||| UPD_RSP_FLAG) answer)]) ∧
      answer = (upd_handle (arrayPort info program) m.s req UPDATER_RSP_PAYLOAD_MAX f).1.2 ∧
      m'.lnk = m.lnk ∧ m'.fifo = m.fifo ∧
      m'.s.info = info ∧ m'.resident = true ∧ m'.tx.length = UPDATER_TX_BUF_SIZE.toNat ∧
      (m'.s.boot_pending = true →
        req.cmd = UPD_CMD_BOOT ∧ answer = [UPD_ST_OK] ∧ AppValid (region info f')) := by
  obtain ⟨hgeometry, hno_boot, htx⟩ := h
  subst hgeometry
  have hrun := upd_handle_board program m.s req UPDATER_RSP_PAYLOAD_MAX f []
  have hinfo := upd_handle_info_eq (arrayPort m.s.info program) m.s req f UPDATER_RSP_PAYLOAD_MAX
  have hlength := (upd_handle_answer_length (arrayPort m.s.info program) m.s req f
    UPDATER_RSP_PAYLOAD_MAX).1
  have hcases := upd_handle_cases program m.s req f UPDATER_RSP_PAYLOAD_MAX
  generalize upd_handle (arrayPort m.s.info program) m.s req UPDATER_RSP_PAYLOAD_MAX f = r at *
  obtain ⟨⟨s, answer⟩, f'⟩ := r
  obtain ⟨hbytes, hsize⟩ := reply_bytes m.tx (req.cmd ||| UPD_RSP_FLAG) answer htx hlength
  refine ⟨answer, { m with s, tx := (upd_frame_build m.tx UPDATER_TX_BUF_SIZE
    (req.cmd ||| UPD_RSP_FLAG) (.apart answer) (UInt8.ofNat answer.length)).2, resident := true }, f',
    ?_, rfl, rfl, rfl, hinfo, rfl, hsize, ?_⟩
  · unfold answer_frame
    simp only [bind_apply, pure_apply, hrun, emit, hbytes]
    rfl
  · intro hpending
    dsimp only at hpending hcases
    rcases hcases with ⟨hs, -⟩ | ⟨-, -, hr⟩ | ⟨-, -, -, -, hr⟩ | ⟨hcmd, hvalid, hr⟩
    · rw [hs, hno_boot] at hpending
      cases hpending
    · rw [Prod.mk.injEq, Prod.mk.injEq] at hr
      rw [hr.1.1, hno_boot] at hpending
      cases hpending
    · rw [Prod.mk.injEq, Prod.mk.injEq] at hr
      rw [hr.1.1, hno_boot] at hpending
      cases hpending
    · rw [Prod.mk.injEq, Prod.mk.injEq] at hr
      rw [hr.2]
      exact ⟨hcmd, hr.1.2, hvalid⟩

theorem boot_after_reply_settled (h : m.Settled info) (P : Port Board) (b : Board) :
    boot_after_reply P m b = (m, b) := by
  unfold boot_after_reply
  simp [h.no_boot]

theorem boot_after_reply_board (hinfo : m.s.info = info) (f : Flash) (log : List Event) :
    boot_after_reply (boardPort info program) m (f, log) =
      if m.s.boot_pending then
        ({ m with s := { m.s with boot_pending := false } }, f,
          log ++ .drained :: if AppValid (region info f) then [.jumped f] else [])
      else (m, f, log) := by
  unfold boot_after_reply
  simp only [ite_run, bind_apply, pure_apply, emit, hinfo, upd_boot_if_valid_board]
  split_ifs <;> simp

theorem entry_window_board (t_entry tick : UInt16) (hinfo : m.s.info = info) (f : Flash)
    (log : List Event) :
    entry_window (boardPort info program) t_entry m tick (f, log) =
      if m.resident = false ∧ tick ≥ t_entry then
        if AppValid (region info f) then (m, f, log ++ [.jumped f])
        else ({ m with resident := true }, f, log ++ [.refused])
      else (m, f, log) := by
  unfold entry_window
  simp only [ite_run, bind_apply, pure_apply, emit, hinfo, upd_boot_if_valid_board]
  by_cases hvalid : AppValid (region info f)
  · simp [hvalid]
  · simp [hvalid]

theorem entry_window_resident (t_entry tick : UInt16) (hresident : m.resident = true) (b : Board) :
    entry_window (boardPort info program) t_entry m tick b = (m, b) := by
  unfold entry_window
  simp [hresident]

end Cases

inductive LapCase (info : PortInfo) (t_entry tick : UInt16) (st : Main × Flash) :
    List Event → Main × Flash → Prop where
  | idle (m' : Main) (hresident : m'.resident = st.1.resident) :
      LapCase info t_entry tick st [] (m', st.2)
  | autoboot (m' : Main) (hresident : st.1.resident = false) (htick : t_entry ≤ tick)
      (hvalid : AppValid (region info st.2)) (hsame : m'.resident = st.1.resident) :
      LapCase info t_entry tick st [.jumped st.2] (m', st.2)
  | refuse (m' : Main) (hlatched : m'.resident = true) :
      LapCase info t_entry tick st [.refused] (m', st.2)
  | answer (req : UpdFrame) (answer : List UInt8) (m' : Main) (f' : Flash)
      (hlatched : m'.resident = true) :
      LapCase info t_entry tick st [.handled req answer,
        .sent (UPD_LINK_SYNC :: wire (req.cmd ||| UPD_RSP_FLAG) answer)] (m', f')
  | boot (req : UpdFrame) (m' : Main) (f' : Flash) (hcmd : req.cmd = UPD_CMD_BOOT)
      (hvalid : AppValid (region info f')) (hlatched : m'.resident = true) :
      LapCase info t_entry tick st [.handled req [UPD_ST_OK],
        .sent (UPD_LINK_SYNC :: wire (req.cmd ||| UPD_RSP_FLAG) [UPD_ST_OK]), .drained, .jumped f']
        (m', f')

theorem entry_window_case {info : PortInfo} (program : Program) (t_entry tick : UInt16)
    (st : Main × Flash) {m : Main} (h : m.Settled info) (hsame : m.resident = st.1.resident) :
    let r := entry_window (boardPort info program) t_entry m tick (st.2, [])
    r.1.Settled info ∧ LapCase info t_entry tick st r.2.2 (r.1, r.2.1) := by
  dsimp only
  rw [entry_window_board program t_entry tick h.geometry]
  split_ifs with hopen hvalid
  · exact ⟨h, .autoboot m (hsame.symm.trans hopen.1) hopen.2 hvalid hsame⟩
  · exact ⟨⟨h.geometry, h.no_boot, h.tx_size⟩, .refuse _ rfl⟩
  · exact ⟨h, .idle m hsame⟩

theorem lapStep_cases {info : PortInfo} (program : Program) (t_entry : UInt16) (st : Main × Flash)
    (input : List UInt8 × UInt16) (h : st.1.Settled info) :
    (lapStep program t_entry st input).2.1.Settled info ∧
      LapCase info t_entry input.2 st (lapStep program t_entry st input).1
        (lapStep program t_entry st input).2 := by
  obtain ⟨m, f⟩ := st
  obtain ⟨arrived, tick⟩ := input
  unfold lapStep lap
  generalize link_poll m.lnk (m.fifo ++ arrived) = polled
  obtain ⟨out, lnk, fifo⟩ := polled
  have hpolled : ({ m with lnk, fifo } : Main).Settled info := ⟨h.geometry, h.no_boot, h.tx_size⟩
  dsimp only
  rw [h.geometry]
  cases out with
  | none =>
    simp only [bind_apply, pure_apply, boot_after_reply_settled hpolled]
    exact entry_window_case program t_entry tick (m, f) hpolled rfl
  | some req =>
    obtain ⟨answer, m', f', hrun, -, -, -, hinfo, hresident, htx, hboot⟩ :=
      answer_frame_board program hpolled req f
    simp only [bind_apply, hrun]
    by_cases hpending : m'.s.boot_pending = true
    · obtain ⟨hcmd, hanswer, hvalid⟩ := hboot hpending
      rw [boot_after_reply_board program hinfo, if_pos hpending, if_pos hvalid, hanswer]
      rw [entry_window_resident program t_entry tick
        (m := { m' with s := { m'.s with boot_pending := false } }) hresident]
      exact ⟨⟨hinfo, rfl, htx⟩, .boot req _ f' hcmd hvalid hresident⟩
    · have hsettled : m'.Settled info := ⟨hinfo, by simpa using hpending, htx⟩
      rw [boot_after_reply_settled hsettled, entry_window_resident program t_entry tick hresident]
      exact ⟨hsettled, .answer req answer m' f' hresident⟩

/-! ## Whole runs -/

abbrev LapRecord := Record (Main × Flash) (List UInt8 × UInt16) (List Event)

def mainRun (program : Program) (t_entry : UInt16) (info : PortInfo) (rx : List UInt8)
    (rx_size : UInt8) (entry : Bool) (f : Flash) (laps : List (List UInt8 × UInt16)) :
    List LapRecord :=
  records (lapStep program t_entry) (main_init info rx rx_size entry, f) laps

/-- What keeps the bootloader resident: a valid frame, or a window expiry that was refused. -/
def Event.Latches : Event → Prop
  | handled _ _ | refused => True
  | sent _ | drained | jumped _ => False

structure ResidentInv (info : PortInfo) (entry : Bool) (past : List LapRecord) (st : Main × Flash) :
    Prop where
  settled : st.1.Settled info
  entry_latches : entry = true → st.1.resident = true
  past_latches : ∀ q ∈ past, ∀ e ∈ q.output, e.Latches → st.1.resident = true

theorem LapCase.resident_mono {info : PortInfo} {t_entry tick : UInt16} {st st' : Main × Flash}
    {events : List Event} (h : LapCase info t_entry tick st events st')
    (hresident : st.1.resident = true) : st'.1.resident = true := by
  cases h with
  | idle m' hsame => exact hsame.trans hresident
  | autoboot m' _ _ _ hsame => exact hsame.trans hresident
  | refuse m' hlatched => exact hlatched
  | answer req answer m' f' hlatched => exact hlatched
  | boot req m' f' _ _ hlatched => exact hlatched

theorem LapCase.resident_of_latches {info : PortInfo} {t_entry tick : UInt16} {st st' : Main × Flash}
    {events : List Event} (h : LapCase info t_entry tick st events st') (e : Event) (he : e ∈ events)
    (hlatches : e.Latches) : st'.1.resident = true := by
  cases h with
  | idle m' hsame => simp at he
  | autoboot m' _ _ _ hsame =>
    rw [List.mem_singleton] at he
    subst he
    exact hlatches.elim
  | refuse m' hlatched => exact hlatched
  | answer req answer m' f' hlatched => exact hlatched
  | boot req m' f' _ _ hlatched => exact hlatched

theorem residentInv_step (program : Program) (t_entry : UInt16) (info : PortInfo) (entry : Bool)
    (past : List LapRecord) (st : Main × Flash) (input : List UInt8 × UInt16)
    (h : ResidentInv info entry past st) :
    ResidentInv info entry (past ++ [record (lapStep program t_entry) st input])
      (lapStep program t_entry st input).2 := by
  obtain ⟨hsettled, hcase⟩ := lapStep_cases program t_entry st input h.settled
  refine ⟨hsettled, fun hentry => hcase.resident_mono (h.entry_latches hentry), ?_⟩
  intro q hq e he hlatches
  rw [List.mem_append, List.mem_singleton] at hq
  rcases hq with hq | rfl
  · exact hcase.resident_mono (h.past_latches q hq e he hlatches)
  · exact hcase.resident_of_latches e he hlatches

theorem main_init_inv (info : PortInfo) (rx : List UInt8) (rx_size : UInt8) (entry : Bool)
    (f : Flash) : ResidentInv info entry [] (main_init info rx rx_size entry, f) where
  settled := ⟨rfl, rfl, List.length_replicate⟩
  entry_latches := fun h => h
  past_latches := by simp

/-- The jump of a lap that answered an accepted BOOT, after the reply and the drain. -/
def BootedByCommand (r : LapRecord) (f : Flash) : Prop :=
  ∃ req : UpdFrame, req.cmd = UPD_CMD_BOOT ∧ r.output = [.handled req [UPD_ST_OK],
    .sent (UPD_LINK_SYNC :: wire (UPD_CMD_BOOT ||| UPD_RSP_FLAG) [UPD_ST_OK]), .drained, .jumped f]

/-- The jump of an entry window that nothing has cancelled. -/
def BootedByWindow (t_entry : UInt16) (entry : Bool) (pre : List LapRecord) (r : LapRecord)
    (f : Flash) : Prop :=
  r.output = [.jumped f] ∧ entry = false ∧ t_entry ≤ r.input.2 ∧
    ∀ q ∈ pre, ∀ e ∈ q.output, ¬ e.Latches

theorem LapCase.jumps {info : PortInfo} {t_entry tick : UInt16} {st st' : Main × Flash}
    {events : List Event} (h : LapCase info t_entry tick st events st') {g : Flash}
    (hg : .jumped g ∈ events) :
    g = st'.2 ∧ AppValid (region info g) ∧
      ((∃ req : UpdFrame, req.cmd = UPD_CMD_BOOT ∧ events = [.handled req [UPD_ST_OK],
          .sent (UPD_LINK_SYNC :: wire (UPD_CMD_BOOT ||| UPD_RSP_FLAG) [UPD_ST_OK]), .drained, .jumped g]) ∨
        st.1.resident = false ∧ t_entry ≤ tick ∧ events = [.jumped g]) := by
  cases h with
  | idle m' hsame => simp at hg
  | autoboot m' hresident htick hvalid hsame =>
    simp only [List.mem_singleton, Event.jumped.injEq] at hg
    subst hg
    exact ⟨rfl, hvalid, Or.inr ⟨hresident, htick, rfl⟩⟩
  | refuse m' hlatched => simp at hg
  | answer req answer m' f' hlatched => simp at hg
  | boot req m' f' hcmd hvalid hlatched =>
    simp only [List.mem_cons, reduceCtorEq, Event.jumped.injEq, List.not_mem_nil, or_false,
      false_or] at hg
    subst hg
    exact ⟨rfl, hvalid, Or.inl ⟨req, hcmd, by rw [hcmd]⟩⟩

theorem ResidentInv.fresh {info : PortInfo} {entry : Bool} {past : List LapRecord} {st : Main × Flash}
    (h : ResidentInv info entry past st) (hresident : st.1.resident = false) :
    entry = false ∧ ∀ q ∈ past, ∀ e ∈ q.output, ¬ e.Latches := by
  constructor
  · rw [Bool.eq_false_iff]
    intro hentry
    rw [h.entry_latches hentry] at hresident
    cases hresident
  · intro q hq e he hlatches
    rw [h.past_latches q hq e he hlatches] at hresident
    cases hresident

/-- The boot policy, over every run from reset. -/
theorem mainRun_jumps (program : Program) (t_entry : UInt16) (info : PortInfo) (rx : List UInt8)
    (rx_size : UInt8) (entry : Bool) (f : Flash) (laps : List (List UInt8 × UInt16))
    (pre post : List LapRecord) (r : LapRecord)
    (hrun : mainRun program t_entry info rx rx_size entry f laps = pre ++ r :: post) :
    (∀ g, .jumped g ∈ r.output →
      g = r.after.2 ∧ (upd_app_valid (arrayPort info program) info g).1 = true ∧
        (BootedByCommand r g ∨ BootedByWindow t_entry entry pre r g)) ∧
    (entry = true ∨ (∃ q ∈ pre, ∃ e ∈ q.output, e.Latches) →
      ∀ g, .jumped g ∈ r.output → BootedByCommand r g) := by
  obtain ⟨hinv, hr⟩ := records_history _ _ (residentInv_step program t_entry info entry) [] _
    (main_init_inv info rx rx_size entry f) laps pre post r hrun
  rw [List.nil_append] at hinv
  obtain ⟨-, hcase⟩ := lapStep_cases program t_entry r.before r.input hinv.settled
  have hout : (lapStep program t_entry r.before r.input).1 = r.output := by rw [hr]; rfl
  have hafter : (lapStep program t_entry r.before r.input).2 = r.after := by rw [hr]; rfl
  rw [hout, hafter] at hcase
  constructor
  · intro g hg
    obtain ⟨hflash, hvalid, hhow⟩ := hcase.jumps hg
    rw [upd_app_valid_array]
    refine ⟨hflash, decide_eq_true hvalid, ?_⟩
    rcases hhow with hcommand | ⟨hresident, htick, hevents⟩
    · exact Or.inl hcommand
    · exact Or.inr ⟨hevents, (hinv.fresh hresident).1, htick, (hinv.fresh hresident).2⟩
  · intro hlatched g hg
    obtain ⟨-, -, hcommand | ⟨hresident, -⟩⟩ := hcase.jumps hg
    · exact hcommand
    · obtain ⟨hentry, hpast⟩ := hinv.fresh hresident
      rcases hlatched with hlatched | ⟨q, hq, e, he, hlatches⟩
      · rw [hentry] at hlatched
        cases hlatched
      · exact absurd hlatches (hpast q hq e he)

def emptyApp : Flash := fun off =>
  [0x4F, 0x54, 0x41, 0x55, 0, 0, 0, 0, 0, 0, 0, 0].getD off 0xFF

theorem mainRun_jumps_empty_app :
    let info : PortInfo :=
      { page_size := 16, app_pages := 1, device_id := #v[0, 0, 0, 0], bl_version := 0 }
    let st := (main_init info [0, 0, 0, 0] 4 false, emptyApp)
    let first := record (lapStep store 300) st ([0x55], 299)
    let r := record (lapStep store 300) first.after ([], 300)
    r.output = [.jumped emptyApp] ∧
    (∀ g, .jumped g ∈ r.output →
      g = r.after.2 ∧ (upd_app_valid (arrayPort info store) info g).1 = true ∧
        (BootedByCommand r g ∨ BootedByWindow 300 false [first] r g)) ∧
    (false = true ∨ (∃ q ∈ [first], ∃ e ∈ q.output, e.Latches) →
      ∀ g, .jumped g ∈ r.output → BootedByCommand r g) := by
  intro info st first r
  have hvalid : AppValid (region info emptyApp) := by decide +kernel
  have hfirst : first.after = st := by
    simp [first, record, lapStep, lap, st, main_init, link_init, link_poll, link_byte,
      boot_after_reply, upd_init, entry_window, UPD_LINK_SYNC]
  have hjumped : r.output = [.jumped emptyApp] := by
    simp only [r, record, hfirst]
    simp [lapStep, lap, st, main_init, link_init, link_poll, boot_after_reply, upd_init,
      entry_window, upd_boot_if_valid_board, hvalid]
  exact ⟨hjumped, mainRun_jumps store 300 info [0, 0, 0, 0] 4 false emptyApp
    [([0x55], 299), ([], 300)] [first] [] r rfl⟩

end OtaUpdater.Device
