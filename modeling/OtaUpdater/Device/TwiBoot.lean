import Mathlib.Data.List.Induction
import OtaUpdater.Device.TwiMain

/-!
# The reply to BOOT, and the jump

The loop jumps once the armed response has been read. It is the reply to BOOT as long
as no other request comes before that reply is read.
-/

open OtaUpdater.Lib.Run OtaUpdater.Lib.State OtaUpdater.Wire

namespace OtaUpdater.Device.Twi

/-! ## What the host has read -/

def Event.twi_call : Event → Option Call
  | call c => some c
  | handled _ _ | booted _ | entered _ => none

def calls (events : List Event) : List Call := events.filterMap Event.twi_call

/-- The read transaction that is open, from its address match to a Stop, a repeated start, a NACK
or a fault, and what it has carried. A response that is armed starts over. -/
def readTxn (txn : Option (List UInt8)) (c : Call) : Option (List UInt8) :=
  match c with
  | .port_send _ => none
  | .port_recv seen _ _ =>
    if c.acked = some true then some []
    else match seen with
      | .fault | .stop | .address _ => none
      | .want _ => if c.loaded = [] then none else txn.map (· ++ c.loaded)
      | .byte _ | .idle => txn

def Carried (rsp : List UInt8) (log : List Call) : Prop :=
  ∃ before after txn, log = before ++ after ∧ before.foldl readTxn none = some txn ∧ rsp <+: txn

def reading (past : List Event) : Option (List UInt8) := (calls past).foldl readTxn none

def told (past : List Event) : Told := (calls past).foldl tell told_init

/-- A BOOT request that sets `boot_pending`. -/
def Event.Accepts : Event → Prop
  | handled (some req) answer => req.cmd = UPD_CMD_BOOT ∧ answer = [UPD_ST_OK]
  | handled none _ | call _ | booted _ | entered _ => False

def boot_reply : List UInt8 := wire (UPD_CMD_BOOT ||| UPD_RSP_FLAG) [UPD_ST_OK]

/-- The last BOOT that was accepted, its reply, and what came since. -/
def SinceBoot (past : List Event) (since : List Event) : Prop :=
  ∃ before boot, past = before ++ boot :: .call (.port_send boot_reply) :: since ∧ boot.Accepts ∧
    ∀ e ∈ since, ¬ e.Accepts

/-- The host has been sent the reply to the BOOT that set `boot_pending`. -/
def BootReplySent (past : List Event) : Prop :=
  ∃ since, SinceBoot past since ∧ Carried boot_reply (calls since)

section Logs

variable (past : List Event)

theorem calls_append (more : List Event) : calls (past ++ more) = calls past ++ calls more :=
  List.filterMap_append

theorem told_call (c : Call) : told (past ++ [.call c]) = tell (told past) c := by
  unfold told
  rw [calls_append, List.foldl_append]
  rfl

theorem reading_call (c : Call) : reading (past ++ [.call c]) = readTxn (reading past) c := by
  unfold reading
  rw [calls_append, List.foldl_append]
  rfl

theorem calls_quiet {e : Event} (he : e.twi_call = none) : calls (past ++ [e]) = calls past := by
  rw [calls_append, calls, calls, List.filterMap_cons_none he]
  exact List.append_nil _

theorem told_quiet {e : Event} (he : e.twi_call = none) : told (past ++ [e]) = told past :=
  congrArg (List.foldl tell told_init) (calls_quiet past he)

theorem reading_quiet {e : Event} (he : e.twi_call = none) : reading (past ++ [e]) = reading past :=
  congrArg (List.foldl readTxn none) (calls_quiet past he)

end Logs

theorem SinceBoot.append {past since : List Event} {e : Event} (h : SinceBoot past since)
    (he : ¬ e.Accepts) : SinceBoot (past ++ [e]) (since ++ [e]) := by
  obtain ⟨before, boot, hpast, hboot, hsince⟩ := h
  refine ⟨before, boot, by rw [hpast]; simp, hboot, ?_⟩
  intro later hlater
  rw [List.mem_append, List.mem_singleton] at hlater
  rcases hlater with hlater | rfl
  · exact hsince later hlater
  · exact he

theorem SinceBoot.reading {past since : List Event} (h : SinceBoot past since) :
    Twi.reading past = Twi.reading since := by
  obtain ⟨before, boot, hpast, hboot, -⟩ := h
  have hquiet : boot.twi_call = none := by
    cases boot with
    | call c => exact hboot.elim
    | handled | booted | entered => rfl
  unfold Twi.reading
  rw [hpast, calls_append, calls, calls, List.filterMap_cons_none hquiet, List.foldl_append]
  rfl

theorem BootReplySent.append {past : List Event} {e : Event} (h : BootReplySent past)
    (he : ¬ e.Accepts) : BootReplySent (past ++ [e]) := by
  obtain ⟨since, hsince, before, after, txn, hsplit, hread, hcarried⟩ := h
  refine ⟨since ++ [e], hsince.append he, before, after ++ calls [e], txn, ?_, hread, hcarried⟩
  rw [calls_append, hsplit, List.append_assoc]

/-! ## One call -/

theorem want_of_loaded (e : BusEvent) (t : Statics)
    (h : (received e (hand_over (poll e t))).loaded ≠ []) : ∃ nack, e = .want nack := by
  rw [received_loaded] at h
  cases e with
  | want nack => exact ⟨nack, rfl⟩
  | address read =>
    unfold poll match_address at h
    dsimp only at h
    split_ifs at h
    all_goals exact absurd rfl h
  | byte d =>
    unfold poll store at h
    dsimp only at h
    split_ifs at h
    all_goals exact absurd rfl h
  | fault | stop | idle => exact absurd rfl h

theorem hand_over_consumed (e : BusEvent) (t : Statics)
    (h : (hand_over (poll e t)).2.tx_consumed = true) :
    t.tx_consumed = true ∨ t.tx_len ≠ 0 ∧ t.tx_len ≤ t.tx_idx := by
  have hpolled : (poll e t).2.tx_consumed = true := by
    unfold hand_over at h
    split_ifs at h
    exact h
  unfold poll at hpolled
  cases e with
  | fault => exact Or.inl hpolled
  | idle => exact Or.inl hpolled
  | address read =>
    unfold match_address end_write_txn at hpolled
    dsimp only at hpolled
    split_ifs at hpolled
    all_goals exact Or.inl hpolled
  | byte d =>
    unfold store at hpolled
    dsimp only at hpolled
    split_ifs at hpolled
    all_goals exact Or.inl hpolled
  | stop =>
    dsimp only at hpolled
    rw [end_read_txn_eq] at hpolled
    unfold end_write_txn at hpolled
    dsimp only at hpolled
    split_ifs at hpolled
    all_goals grind
  | want nack =>
    dsimp only at hpolled
    rw [end_read_txn_eq, load_eq] at hpolled
    split_ifs at hpolled
    all_goals grind

/-- The reply to BOOT is armed or lost, and not all of it has gone out in one read transaction. -/
structure Unread (t : Statics) (told : Told) (txn : Option (List UInt8)) : Prop where
  unconsumed : t.tx_consumed = false
  armed : told.rsp = [] ∨ told.rsp = boot_reply ∧ told.next < boot_reply.length ∧
    ∀ bytes ∈ txn, bytes = boot_reply.take told.next

theorem Unread.stays_unconsumed {t : Statics} {told : Told} {txn : Option (List UInt8)}
    (h : Unread t told txn) (harmed : Armed t told) (e : BusEvent) :
    (hand_over (poll e t)).2.tx_consumed = false := by
  rw [Bool.eq_false_iff]
  intro hconsumed
  rcases hand_over_consumed e t hconsumed with hold | ⟨hany, hall⟩
  · rw [h.unconsumed] at hold
    cases hold
  · have hlen := harmed.tx_len
    have hidx := harmed.tx_idx
    rcases h.armed with hgone | ⟨hrsp, hnext, -⟩
    · rw [hgone] at hlen
      exact hany hlen
    · rw [hrsp] at hlen
      omega

theorem readTxn_quiet {txn : Option (List UInt8)} {seen : BusEvent} {accesses : List Access}
    {frame : Option (List UInt8)}
    (hacked : (Call.port_recv seen accesses frame).acked ≠ some true)
    (hloaded : (Call.port_recv seen accesses frame).loaded = []) :
    ∀ bytes ∈ readTxn txn (.port_recv seen accesses frame), bytes ∈ txn := by
  intro bytes hbytes
  unfold readTxn at hbytes
  dsimp only at hbytes
  rw [if_neg hacked, if_pos hloaded] at hbytes
  cases seen with
  | byte _ | idle => exact hbytes
  | fault | stop | address _ | want _ => cases hbytes

section Unread

variable {t t' : Statics} {told : Told} {txn : Option (List UInt8)} {accesses : List Access}
  {frame : Option (List UInt8)}

theorem Unread.quiet (h : Unread t told txn) {seen : BusEvent} (hunconsumed : t'.tx_consumed = false)
    (hnothing : (Call.port_recv seen accesses frame).loaded = []) :
    Unread t' (tell told (.port_recv seen accesses frame))
      (readTxn txn (.port_recv seen accesses frame)) := by
  refine ⟨hunconsumed, ?_⟩
  rcases h.armed with hgone | ⟨hrsp, hnext, htxn⟩
  · left
    simp [tell, hgone]
  · rcases hacked : (Call.port_recv seen accesses frame).acked with _ | _ | _
    · right
      refine ⟨by simp [tell, hacked, hrsp], by simpa [tell, hacked, hnothing], ?_⟩
      intro bytes hbytes
      have hsame := readTxn_quiet (by simp [hacked]) hnothing bytes hbytes
      simpa [tell, hacked, hnothing] using htxn bytes hsame
    · left
      simp [tell, hacked]
    · right
      refine ⟨by simp [tell, hacked, hrsp], by simp [tell, hacked, boot_reply], ?_⟩
      intro bytes hbytes
      simp [readTxn, hacked] at hbytes
      simp [tell, hacked, ← hbytes]

theorem Unread.loads {bytes : List UInt8} (h : Unread t told (some bytes)) {nack : Bool}
    (hunconsumed : t'.tx_consumed = false)
    (hone : (Call.port_recv (.want nack) accesses frame).loaded = [told.rsp.getD told.next 0xFF]) :
    Unread t' (tell told (.port_recv (.want nack) accesses frame))
        (readTxn (some bytes) (.port_recv (.want nack) accesses frame)) ∨
      ∃ grown, readTxn (some bytes) (.port_recv (.want nack) accesses frame) = some grown ∧
        boot_reply <+: grown := by
  have hacked : (Call.port_recv (.want nack) accesses frame).acked = none := rfl
  rcases h.armed with hgone | ⟨hrsp, hnext, htxn⟩
  · left
    refine ⟨hunconsumed, Or.inl ?_⟩
    simp [tell, hgone]
  · have hread : readTxn (some bytes) (.port_recv (.want nack) accesses frame) =
        some (boot_reply.take (told.next + 1)) := by
      rw [List.take_succ_eq_append_getElem hnext, ← htxn bytes rfl]
      simp [readTxn, hacked, hone, hrsp, List.getElem?_eq_getElem hnext]
    rcases Nat.lt_or_ge (told.next + 1) boot_reply.length with hmore | hlast
    · left
      refine ⟨hunconsumed, Or.inr ⟨by simp [tell, hacked, hrsp], by simpa [tell, hacked, hone], ?_⟩⟩
      intro grown hgrown
      rw [hread] at hgrown
      simp [tell, hacked, hone, ← Option.some.inj hgrown]
    · right
      have hwhole : boot_reply.take (told.next + 1) = boot_reply := List.take_of_length_le hlast
      exact ⟨_, hread, [], by rw [List.append_nil, hwhole]⟩

theorem Unread.port_recv (h : Unread t told txn) (hserving : Serving t told) (st : Sstatus)
    (sdata : UInt8) (hasked : ∀ nack, st.event sdata = .want nack → txn ≠ none) :
    let r := Twi.port_recv st sdata t
    let c := received (st.event sdata) r
    Unread r.2 (tell told c) (readTxn txn c) ∨
      ∃ bytes, readTxn txn c = some bytes ∧ boot_reply <+: bytes := by
  have hserved := port_recv_serves st sdata hserving
  have hunconsumed := h.stays_unconsumed hserving.armed (st.event sdata)
  have hwant := want_of_loaded (st.event sdata) t
  rw [← port_recv_event] at hunconsumed hwant
  generalize Twi.port_recv st sdata t = r at *
  generalize st.event sdata = seen at *
  rcases hserved.loaded with hnothing | hone
  · exact Or.inl (h.quiet hunconsumed hnothing)
  · obtain ⟨nack, rfl⟩ := hwant (by simp [hone])
    obtain ⟨bytes, rfl⟩ := Option.ne_none_iff_exists'.mp (hasked nack rfl)
    exact h.loads hunconsumed hone

end Unread

/-! ## One lap -/

theorem upd_handle_boot_pending {σ : Type} (P : Port σ) (s : UpdSession) (req : UpdFrame)
    (rsp_cap : UInt8) (st : σ)
    (h : (upd_handle P s req rsp_cap st).1.1.boot_pending = true) :
    s.boot_pending = true ∨
      req.cmd = UPD_CMD_BOOT ∧ (upd_handle P s req rsp_cap st).1.2 = [UPD_ST_OK] := by
  unfold upd_handle at h ⊢
  simp only [ite_run, bind_apply, pure_apply] at h ⊢
  split_ifs at h ⊢ with hcap hinfo herase hwrite hverify hboot hvalid hecho
  · exact Or.inl h
  · exact Or.inl h
  · left
    unfold handle_erase at h
    simp only [ite_run, bind_apply, pure_apply] at h
    split_ifs at h
    · exact h
    · exact h
  · exact Or.inl h
  · exact Or.inl h
  · exact Or.inr ⟨hboot, rfl⟩
  · exact Or.inl h
  · exact Or.inl h
  · exact Or.inl h

theorem upd_handle_boot_accepted {σ : Type} (P : Port σ) (s : UpdSession) (req : UpdFrame)
    (rsp_cap : UInt8) (st : σ) (hcap : rsp_cap ≠ 0) (hboot : req.cmd = UPD_CMD_BOOT)
    (hvalid : (upd_app_valid P s.info st).1 = true) :
    (upd_handle P s req rsp_cap st).1.2 = [UPD_ST_OK] := by
  unfold upd_handle
  simp only [ite_run, bind_apply, pure_apply, if_neg hcap, hboot, hvalid]
  rfl

def ReplyDue (past : List Event) (t : Statics) : Prop :=
  ∃ since, SinceBoot past since ∧ Unread t (told past) (reading past)

def Gated (past : List Event) : Prop :=
  ∀ before valid after, past = before ++ .booted valid :: after → BootReplySent before

theorem Gated.append {past : List Event} {e : Event} (h : Gated past)
    (he : ∀ valid, e = .booted valid → BootReplySent past) : Gated (past ++ [e]) := by
  intro before valid after hsplit
  rcases List.eq_nil_or_concat after with rfl | ⟨after, last, rfl⟩
  · obtain ⟨rfl, hlast⟩ := List.append_inj' hsplit rfl
    exact he valid (List.cons.inj hlast).1
  · rw [List.concat_eq_append, ← List.cons_append, ← List.append_assoc] at hsplit
    exact h before valid after (List.append_inj' hsplit rfl).1

structure BootInv (past : List Event) (m : Main) : Prop where
  serving : Serving m.t (told past)
  tx_size : m.tx.length = UPDATER_TX_BUF_SIZE
  gated : Gated past
  pending : m.s.boot_pending = true → BootReplySent past ∨ ReplyDue past m.t

section Stages

variable {σ : Type} (P : Port σ) {past : List Event} {m : Main}

def BootRequest (s : UpdSession) (rx : List UInt8) (st : σ) : Prop :=
  ∃ req, upd_frame_parse rx (UInt8.ofNat rx.length) = some req ∧ req.cmd = UPD_CMD_BOOT ∧
    (upd_app_valid P s.info st).1 = true

/-- What a lap must not do while a boot is pending: take another request, or let a byte be asked for
outside a read transaction. -/
structure Undisturbed (past : List Event) (m : Main) (st : σ) (input : Sstatus × UInt8 × UInt16) :
    Prop where
  request : ∀ rx, (port_recv input.1 input.2.1 m.t).1.1 = some rx →
    BootRequest P m.s rx st
  asked : ∀ nack, input.1.event input.2.1 = .want nack → reading past ≠ none

/-! ### A call of `port_recv` -/

theorem recv_keeps (h : BootInv past m) (st : Sstatus) (sdata : UInt8)
    (hasked : m.s.boot_pending = true → BootReplySent past ∨
      ∀ nack, st.event sdata = .want nack → reading past ≠ none) :
    BootInv (past ++ [.call (received (st.event sdata) (port_recv st sdata m.t))])
      { m with t := (port_recv st sdata m.t).2 } where
  serving := by
    rw [told_call]
    exact (port_recv_serves st sdata h.serving).after
  tx_size := h.tx_size
  gated := h.gated.append (by simp)
  pending := by
    intro hpending
    rcases h.pending hpending with hsent | ⟨since, hsince, hunread⟩
    · exact Or.inl (hsent.append id)
    · rcases hasked hpending with hsent | hasked
      · exact Or.inl (hsent.append id)
      · have hafter := hsince.append
          (e := .call (received (st.event sdata) (port_recv st sdata m.t))) id
        rcases hunread.port_recv h.serving st sdata hasked with hstill | ⟨bytes, hread, hcarried⟩
        · right
          refine ⟨_, hafter, ?_⟩
          rw [told_call, reading_call]
          exact hstill
        · left
          refine ⟨_, hafter, _, [], bytes, (List.append_nil _).symm, ?_, hcarried⟩
          rw [← hread, ← reading_call, hafter.reading]
          rfl

/-! ### An answer -/

theorem handle_rx_length (s : UpdSession) (rx : List UInt8) (req : Option UpdFrame) (st : σ) :
    (handle_rx P s rx req st).1.2.1.length ≤ 17 := by
  unfold handle_rx
  cases req with
  | some req => exact (upd_handle_answer_length P s req st UPDATER_RSP_PAYLOAD_MAX).1
  | none => exact Nat.le_add_left 1 16

theorem handle_rx_boot_pending (s : UpdSession) (rx : List UInt8) (req : Option UpdFrame) (st : σ)
    (h : (handle_rx P s rx req st).1.2.2.boot_pending = true) :
    s.boot_pending = true ∨ (Event.handled req (handle_rx P s rx req st).1.2.1).Accepts := by
  unfold handle_rx at h ⊢
  cases req with
  | some req => exact upd_handle_boot_pending P s req UPDATER_RSP_PAYLOAD_MAX st h
  | none => exact Or.inl h

theorem answer_frame_run (m : Main) (rx : List UInt8) (st : σ)
    (htx : m.tx.length = UPDATER_TX_BUF_SIZE) :
    let req := upd_frame_parse rx (UInt8.ofNat rx.length)
    let r := handle_rx P m.s rx req st
    let rsp := wire (r.1.1 ||| UPD_RSP_FLAG) r.1.2.1
    ∃ tx, tx.length = UPDATER_TX_BUF_SIZE ∧ answer_frame P m rx st =
      (([.handled req r.1.2.1, .call (.port_send rsp)],
        { t := port_send rsp m.t, s := r.1.2.2, resident := m.resident || req.isSome, tx }), r.2) := by
  intro req r rsp
  have hlength := handle_rx_length P m.s rx req st
  obtain ⟨hshows, -, hsize⟩ := upd_frame_build_shows m.tx (UInt8.ofNat UPDATER_TX_BUF_SIZE)
    (r.1.1 ||| UPD_RSP_FLAG) r.1.2.1 htx (Nat.add_le_add_right hlength 3)
  refine ⟨_, hsize, ?_⟩
  unfold answer_frame
  simp only [bind_apply, pure_apply]
  rw [hshows]

theorem BootRequest.accepts {s : UpdSession} {rx : List UInt8} {st : σ}
    (h : BootRequest P s rx st) :
    (Event.handled (upd_frame_parse rx (UInt8.ofNat rx.length))
      (handle_rx P s rx (upd_frame_parse rx (UInt8.ofNat rx.length)) st).1.2.1).Accepts := by
  obtain ⟨req, hreq, hboot, hvalid⟩ := h
  rw [hreq]
  exact ⟨hboot, upd_handle_boot_accepted P s req UPDATER_RSP_PAYLOAD_MAX st (by decide) hboot hvalid⟩

theorem handle_rx_reply (s : UpdSession) (rx : List UInt8) (req : Option UpdFrame) (st : σ)
    (h : (Event.handled req (handle_rx P s rx req st).1.2.1).Accepts) :
    wire ((handle_rx P s rx req st).1.1 ||| UPD_RSP_FLAG) (handle_rx P s rx req st).1.2.1 =
      boot_reply := by
  cases req with
  | none => exact h.elim
  | some req =>
    obtain ⟨hboot, hanswer⟩ := h
    have hcmd : (handle_rx P s rx (some req) st).1.1 = req.cmd := rfl
    rw [hanswer, hcmd, hboot]
    rfl

theorem answer_keeps (h : BootInv past m) (howed : (told past).owed = true) (rx : List UInt8)
    (st : σ)
    (hrequest : m.s.boot_pending = true → BootReplySent past ∨ BootRequest P m.s rx st) :
    let r := answer_frame P m rx st
    BootInv (past ++ r.1.1) r.1.2 ∧ (told (past ++ r.1.1)).owed = false := by
  intro r
  obtain ⟨tx, htx, hrun⟩ := answer_frame_run P m rx st h.tx_size
  have hpending := handle_rx_boot_pending P m.s rx (upd_frame_parse rx (UInt8.ofNat rx.length)) st
  have haccepted := fun hboot : BootRequest P m.s rx st => hboot.accepts
  have hreply := handle_rx_reply P m.s rx (upd_frame_parse rx (UInt8.ofNat rx.length)) st
  have hr : r = _ := hrun
  rw [hr]
  generalize upd_frame_parse rx (UInt8.ofNat rx.length) = req at *
  generalize handle_rx P m.s rx req st = handled at *
  generalize wire (handled.1.1 ||| UPD_RSP_FLAG) handled.1.2.1 = rsp at *
  dsimp only
  have htold : told (past ++ [.handled req handled.1.2.1, .call (.port_send rsp)]) =
      tell (told past) (.port_send rsp) := by
    rw [List.append_cons, told_call, told_quiet _ rfl]
  rw [htold]
  refine ⟨⟨?_, htx, ?_, ?_⟩, rfl⟩
  · rw [htold]
    exact port_send_serves rsp h.serving howed
  · rw [List.append_cons]
    exact (h.gated.append (by simp)).append (by simp)
  · intro hnow
    rcases Classical.em (Event.handled req handled.1.2.1).Accepts with haccepts | hother
    · right
      rw [hreply haccepts] at htold ⊢
      refine ⟨[], ⟨past, _, rfl, haccepts, by simp⟩, rfl, Or.inr ?_⟩
      rw [htold, List.append_cons, reading_call]
      refine ⟨rfl, Nat.zero_lt_succ _, ?_⟩
      intro bytes hbytes
      cases hbytes
    · left
      have hsent : BootReplySent past := by
        rcases hpending hnow with hbefore | haccepts
        · rcases hrequest hbefore with hsent | hboot
          · exact hsent
          · exact absurd (haccepted hboot) hother
        · exact absurd haccepts hother
      rw [List.append_cons]
      exact (hsent.append hother).append id

/-! ### The gates -/

theorem boot_keeps (h : BootInv past m) (st : σ) :
    let r := boot_after_reply P m st
    BootInv (past ++ r.1.1) r.1.2 ∧ told (past ++ r.1.1) = told past := by
  unfold boot_after_reply
  simp only [ite_run, bind_apply, pure_apply]
  rcases hgate : (m.s.boot_pending && twi_response_consumed m.t)
  · simp only [Bool.false_eq_true, if_false, List.append_nil]
    exact ⟨h, trivial⟩
  · obtain ⟨hpending, hconsumed⟩ := Bool.and_eq_true_iff.mp hgate
    have hsent : BootReplySent past := by
      rcases h.pending hpending with hsent | ⟨since, -, hunread⟩
      · exact hsent
      · rw [twi_response_consumed, hunread.unconsumed] at hconsumed
        cases hconsumed
    simp only [if_true]
    rw [told_quiet _ rfl]
    refine ⟨⟨?_, h.tx_size, h.gated.append (fun _ _ => hsent), by simp⟩, rfl⟩
    rw [told_quiet _ rfl]
    exact h.serving

theorem entry_keeps (t_entry : UInt16) (h : BootInv past m) (tick : UInt16) (st : σ) :
    let r := entry_window P t_entry m tick st
    BootInv (past ++ r.1.1) r.1.2 ∧ told (past ++ r.1.1) = told past := by
  have hentered : ∀ valid m', m'.t = m.t → m'.tx = m.tx → m'.s = m.s →
      BootInv (past ++ [.entered valid]) m' := by
    intro valid m' ht htx hs
    refine ⟨?_, htx ▸ h.tx_size, h.gated.append (by simp), ?_⟩
    · rw [told_quiet _ rfl, ht]
      exact h.serving
    · intro hpending
      rw [hs] at hpending
      rw [ht]
      rcases h.pending hpending with hsent | ⟨since, hsince, hunread⟩
      · exact Or.inl (hsent.append id)
      · right
        refine ⟨_, hsince.append id, ?_⟩
        rw [told_quiet _ rfl, reading_quiet _ rfl]
        exact hunread
  unfold entry_window
  rw [ite_run]
  rcases Decidable.em (m.resident = false ∧ tick ≥ t_entry) with hopen | hclosed
  · rw [if_pos hopen]
    simp only [bind_apply, pure_apply]
    refine ⟨?_, told_quiet _ rfl⟩
    split_ifs
    · exact hentered _ _ rfl rfl rfl
    · exact hentered _ _ rfl rfl rfl
  · rw [if_neg hclosed]
    simp only [pure_apply, List.append_nil]
    exact ⟨h, trivial⟩

theorem gates_keep (t_entry : UInt16) (h : BootInv past m) (hfree : (told past).owed = false)
    (tick : UInt16) (st : σ) :
    let booted := boot_after_reply P m st
    let entered := entry_window P t_entry booted.1.2 tick booted.2
    BootInv (past ++ booted.1.1 ++ entered.1.1) entered.1.2 ∧
      (told (past ++ booted.1.1 ++ entered.1.1)).owed = false := by
  intro booted entered
  obtain ⟨hbooted, htold⟩ := boot_keeps P h st
  obtain ⟨hentered, htold'⟩ := entry_keeps P t_entry hbooted tick booted.2
  refine ⟨hentered, ?_⟩
  rw [htold', htold]
  exact hfree

theorem lapStep_keeps (t_entry : UInt16) (st : σ) (input : Sstatus × UInt8 × UInt16)
    (h : BootInv past m) (hfree : (told past).owed = false)
    (hcalm : m.s.boot_pending = true → BootReplySent past ∨ Undisturbed P past m st input) :
    let r := lapStep P t_entry (m, st) input
    BootInv (past ++ r.1) r.2.1 ∧ (told (past ++ r.1)).owed = false := by
  obtain ⟨status, sdata, tick⟩ := input
  have hrecv := recv_keeps h status sdata (by
    intro hpending
    rcases hcalm hpending with hsent | hundisturbed
    · exact Or.inl hsent
    · exact Or.inr hundisturbed.asked)
  have hrequest : ∀ rx, (port_recv status sdata m.t).1.1 = some rx → m.s.boot_pending = true →
      BootReplySent past ∨ BootRequest P m.s rx st := by
    intro rx hrx hpending
    rcases hcalm hpending with hsent | hundisturbed
    · exact Or.inl hsent
    · exact Or.inr (hundisturbed.request rx hrx)
  have howed : (told (past ++ [.call (received (status.event sdata) (port_recv status sdata m.t))])).owed =
      (port_recv status sdata m.t).1.1.isSome := by
    rw [told_call]
    unfold tell received
    dsimp only
    rw [hfree]
    rfl
  unfold lapStep lap
  unfold received at hrecv howed
  generalize port_recv status sdata m.t = polled at *
  obtain ⟨⟨frame, accesses⟩, t⟩ := polled
  cases frame with
  | none =>
    have hgates := gates_keep P t_entry hrecv howed tick st
    simpa using hgates
  | some rx =>
    obtain ⟨hanswered, hanswered_free⟩ := answer_keeps P hrecv howed rx st (by
      intro hpending
      rcases hrequest rx rfl hpending with hsent | hboot
      · exact Or.inl (hsent.append id)
      · exact Or.inr hboot)
    have hgates := gates_keep P t_entry hanswered hanswered_free tick
      (answer_frame P { m with t } rx st).2
    simpa using hgates

end Stages

/-! ## Whole runs -/

theorem main_init_keeps (info : PortInfo) (entry : Bool) : BootInv [] (main_init info entry) where
  serving := caller_init_serving
  tx_size := List.length_replicate
  gated := by
    intro before valid after hsplit
    exact absurd hsplit.symm (by simp)
  pending := by
    intro hpending
    cases hpending

/-- With no other request and no stray byte before the reply to BOOT has gone out, the jump comes after it. -/
theorem mainRun_boots_after_reply {σ : Type} (P : Port σ) (t_entry : UInt16) (info : PortInfo)
    (entry : Bool) (st : σ) (laps : List (Sstatus × UInt8 × UInt16))
    (hcalm : ∀ pre r post, mainRun P t_entry info entry st laps = pre ++ r :: post →
      r.before.1.s.boot_pending = true →
        BootReplySent (logged pre) ∨ Undisturbed P (logged pre) r.before.1 r.before.2 r.input) :
    ∀ before valid after,
      logged (mainRun P t_entry info entry st laps) = before ++ .booted valid :: after →
        BootReplySent before := by
  obtain ⟨last, hlast, -⟩ := records_guarded (lapStep P t_entry)
    (fun past st => BootInv (logged past) st.1 ∧ (told (logged past)).owed = false)
    (fun past st input => st.1.s.boot_pending = true →
      BootReplySent (logged past) ∨ Undisturbed P (logged past) st.1 st.2 input) (by
      intro past st input h hcalm
      unfold logged
      rw [List.flatMap_append, List.flatMap_singleton]
      exact lapStep_keeps P t_entry st.2 input h.1 h.2 hcalm)
    [] (main_init info entry, st) ⟨main_init_keeps info entry, rfl⟩ laps hcalm
  exact hlast.gated

/-! ## Two runs -/

def avr_ea_info : PortInfo :=
  { page_size := 128, app_pages := 480, device_id := #v[0x41, 0x45, 0x36, 0x34], bl_version := 1 }

/-- A valid app without a byte of payload: its footer, in the last 16 bytes of the region. -/
def avr_ea_app : Flash := fun off => if off < 61424 then 0xFF else emptyApp (off - 61424)

def polls (events : List BusEvent) : List (Sstatus × UInt8 × UInt16) :=
  events.map (fun e => (e.registers.1, e.registers.2, 0))

def hostWrite (bytes : List UInt8) : List BusEvent := .address false :: bytes.map .byte ++ [.stop]

def hostRead (n : Nat) : List BusEvent :=
  .address true :: List.replicate n (.want false) ++ [.want true, .stop]

def avr_ea_run (events : List BusEvent) : List (LapRecord Flash) :=
  mainRun (arrayPort avr_ea_info Device.store) 300 avr_ea_info false avr_ea_app (polls events)

theorem mem_readTxn {before : Option (List UInt8)} {c : Call} {txn : List UInt8} {b : UInt8}
    (h : readTxn before c = some txn) (hb : b ∈ txn) :
    (∃ bytes, before = some bytes ∧ b ∈ bytes) ∨ b ∈ c.loaded := by
  cases c with
  | port_send rsp => cases h
  | port_recv seen accesses frame =>
    unfold readTxn at h
    dsimp only at h
    rcases Decidable.em ((Call.port_recv seen accesses frame).acked = some true) with hacked | hacked
    · rw [if_pos hacked] at h
      rw [← Option.some.inj h] at hb
      cases hb
    · rw [if_neg hacked] at h
      cases seen with
      | fault | stop | address _ => cases h
      | byte _ | idle => exact Or.inl ⟨txn, h, hb⟩
      | want nack =>
        dsimp only at h
        split_ifs at h
        obtain ⟨bytes, hbefore, rfl⟩ := Option.map_eq_some_iff.mp h
        rcases List.mem_append.mp hb with hb | hb
        · exact Or.inl ⟨bytes, hbefore, hb⟩
        · exact Or.inr hb

theorem mem_reading (log : List Call) (txn : List UInt8) (h : log.foldl readTxn none = some txn)
    (b : UInt8) (hb : b ∈ txn) : ∃ c ∈ log, b ∈ c.loaded := by
  induction log using List.reverseRecOn generalizing txn with
  | nil => cases h
  | append_singleton log c ih =>
    rw [List.foldl_append, List.foldl_cons, List.foldl_nil] at h
    rcases mem_readTxn h hb with ⟨bytes, hbefore, hb⟩ | hb
    · obtain ⟨d, hd, hloaded⟩ := ih bytes hbefore hb
      exact ⟨d, List.mem_append_left _ hd, hloaded⟩
    · exact ⟨c, List.mem_append_right _ List.mem_cons_self, hb⟩

theorem BootReplySent.first_byte {past : List Event} (h : BootReplySent past) :
    ∃ c ∈ calls past, UPD_CMD_BOOT ||| UPD_RSP_FLAG ∈ c.loaded := by
  obtain ⟨since, ⟨earlier, boot, hpast, -⟩, before, after, txn, hsplit, hread, hcarried⟩ := h
  obtain ⟨c, hc, hloaded⟩ := mem_reading before txn hread (UPD_CMD_BOOT ||| UPD_RSP_FLAG)
    (hcarried.subset List.mem_cons_self)
  refine ⟨c, ?_, hloaded⟩
  rw [hpast, List.append_cons, List.append_cons, calls_append, hsplit]
  simp [hc]

theorem split_at_event {log : List Event} {k : Nat} {e : Event} (h : log[k]? = some e) :
    log = log.take k ++ e :: log.drop (k + 1) := by
  obtain ⟨hlt, rfl⟩ := List.getElem?_eq_some_iff.mp h
  rw [← List.drop_eq_getElem_cons hlt, List.take_append_drop]

/-- BOOT is written, and its reply not read; ECHO is written, and its reply read: the app boots. -/
theorem echo_reply_boots :
    ∃ before after, logged (avr_ea_run (hostWrite (wire UPD_CMD_BOOT []) ++
      hostWrite (wire UPD_CMD_ECHO []) ++ hostRead 4)) = before ++ .booted true :: after ∧
        ¬ BootReplySent before := by
  refine ⟨_, _, split_at_event (k := 20) (by decide +kernel), ?_⟩
  intro hsent
  obtain ⟨c, hc, hloaded⟩ := hsent.first_byte
  revert c
  decide +kernel

/-- In this lap no frame is handed over, and no byte is asked for outside a read transaction. -/
def CalmLap (past : List Event) (m : Main) (input : Sstatus × UInt8 × UInt16) : Prop :=
  (port_recv input.1 input.2.1 m.t).1.1 = none ∧
    match input.1.event input.2.1 with
    | .want _ => reading past ≠ none
    | _ => True

instance (past : List Event) (m : Main) (input : Sstatus × UInt8 × UInt16) :
    Decidable (CalmLap past m input) := by
  unfold CalmLap
  cases input.1.event input.2.1 <;> infer_instance

theorem CalmLap.undisturbed {σ : Type} {P : Port σ} {past : List Event} {m : Main} {st : σ}
    {input : Sstatus × UInt8 × UInt16} (h : CalmLap past m input) : Undisturbed P past m st input where
  request := by
    intro rx hrx
    rw [h.1] at hrx
    cases hrx
  asked := by
    intro nack hwant
    have hasked := h.2
    rw [hwant] at hasked
    exact hasked

theorem boot_reply_boots :
    ∃ before after, logged (avr_ea_run (hostWrite (wire UPD_CMD_BOOT []) ++ hostRead 4)) =
      before ++ .booted true :: after ∧ BootReplySent before := by
  have hat : (logged (avr_ea_run (hostWrite (wire UPD_CMD_BOOT []) ++ hostRead 4)))[13]? =
      some (.booted true) := by
    decide +kernel
  refine ⟨_, _, split_at_event hat, ?_⟩
  refine mainRun_boots_after_reply (arrayPort avr_ea_info Device.store) 300 avr_ea_info false
    avr_ea_app _ ?_ _ _ _ (split_at_event hat)
  have hlength : (avr_ea_run (hostWrite (wire UPD_CMD_BOOT []) ++ hostRead 4)).length = 12 := by
    decide +kernel
  have hcalm : ∀ k < 12, ∀ r ∈ (avr_ea_run (hostWrite (wire UPD_CMD_BOOT []) ++ hostRead 4))[k]?,
      r.before.1.s.boot_pending = true → CalmLap
        (logged ((avr_ea_run (hostWrite (wire UPD_CMD_BOOT []) ++ hostRead 4)).take k))
        r.before.1 r.input := by
    decide +kernel
  intro pre r post hrun hpending
  change avr_ea_run _ = pre ++ r :: post at hrun
  rw [hrun] at hlength hcalm
  right
  apply CalmLap.undisturbed
  have hlap := hcalm pre.length (by simp at hlength; omega) r (by simp) hpending
  rw [List.take_left] at hlap
  exact hlap

end OtaUpdater.Device.Twi
