import Mathlib.Data.List.GetD
import OtaUpdater.Device.TwiLink

/-!
# What goes out over the bus

A read transaction carries the response to the last request, and nothing once another
request has begun.
-/

open OtaUpdater.Lib.Mealy

namespace OtaUpdater.Device.Twi

/-- What the host has been told it may read: the response, how far it is read, and whether one is due. -/
structure Told where
  rsp : List UInt8
  next : Nat
  owed : Bool
deriving DecidableEq, Repr

def told_init : Told where
  rsp := []
  next := 0
  owed := false

/-- A new response starts over, a read starts it over, and a write leaves nothing of it. -/
def tell (told : Told) (c : Call) : Told :=
  match c with
  | .port_send rsp => { rsp := rsp.take UPDATER_TX_BUF_SIZE, next := 0, owed := false }
  | .port_recv _ _ frame =>
    { rsp := if c.acked = some false then [] else told.rsp
      next := if c.acked = some true then 0 else told.next + c.loaded.length
      owed := told.owed || frame.isSome }

structure Armed (t : Statics) (told : Told) : Prop where
  tx_size : t.tx_buf.length = UPDATER_TX_BUF_SIZE
  tx_len : t.tx_len = told.rsp.length
  held : t.tx_buf.take t.tx_len = told.rsp
  tx_idx : min t.tx_idx t.tx_len = min told.next t.tx_len
  awaiting : t.awaiting = told.owed

/-- Between two calls: nothing is parked, and in a write transaction nothing is armed or due. -/
structure Serving (t : Statics) (told : Told) : Prop where
  armed : Armed t told
  rx_done : t.rx_done = false
  writing : t.in_write = true → told.rsp = [] ∧ told.owed = false

structure Closing (t : Statics) (told : Told) : Prop where
  armed : Armed t told
  in_write : t.in_write = false
  parked : t.rx_done = true → told.rsp = [] ∧ told.owed = false

theorem Serving.closes {t : Statics} {told : Told} (h : Serving t told) :
    Closing (if t.in_write then end_write_txn t else t) told := by
  obtain ⟨⟨hsize, hlen, hheld, hidx, hawaiting⟩, hdone, hwriting⟩ := h
  rcases hin : t.in_write
  · rw [if_neg Bool.false_ne_true]
    refine ⟨⟨hsize, hlen, hheld, hidx, hawaiting⟩, hin, ?_⟩
    intro hparked
    rw [hdone] at hparked
    cases hparked
  · rw [if_pos rfl]
    unfold end_write_txn
    dsimp only
    split_ifs
    · exact ⟨⟨hsize, hlen, hheld, hidx, hawaiting⟩, rfl, fun _ => hwriting hin⟩
    · exact ⟨⟨hsize, hlen, hheld, hidx, hawaiting⟩, rfl, fun _ => hwriting hin⟩

theorem hand_over_closing {r : List Access × Statics} {told : Told} (h : Closing r.2 told) :
    Serving (hand_over r).2 { told with owed := told.owed || (hand_over r).1.1.isSome } := by
  obtain ⟨⟨hsize, hlen, hheld, hidx, hawaiting⟩, hin, hparked⟩ := h
  rcases hdone : r.2.rx_done
  · rw [hand_over_none hdone]
    refine ⟨⟨hsize, hlen, hheld, hidx, by simp [hawaiting]⟩, hdone, ?_⟩
    intro hwriting
    rw [hin] at hwriting
    cases hwriting
  · obtain ⟨hrsp, -⟩ := hparked hdone
    rw [hand_over_some hdone]
    refine ⟨⟨hsize, by simp [hrsp], by simp [hrsp], by simp, by simp⟩, rfl, ?_⟩
    intro hwriting
    rw [hin] at hwriting
    cases hwriting

/-- What one call makes of the transmit side. -/
structure Served (told : Told) (c : Call) (t : Statics) : Prop where
  loaded : c.loaded = [] ∨ c.loaded = [told.rsp.getD told.next 0xFF]
  held_back : told.owed = true → c.acked = none
  after : Serving t (tell told c)

def received (seen : BusEvent) (r : (Option (List UInt8) × List Access) × Statics) : Call :=
  .port_recv seen r.1.2 r.1.1

theorem received_loaded (seen : BusEvent) (r : List Access × Statics) :
    (received seen (hand_over r)).loaded = (Call.port_recv seen r.1 none).loaded := by
  unfold hand_over received Call.loaded
  split_ifs
  · rfl
  · simp

theorem received_acked (seen : BusEvent) (r : List Access × Statics) :
    (received seen (hand_over r)).acked = (Call.port_recv seen r.1 none).acked := by
  unfold hand_over received Call.acked
  split_ifs
  · rfl
  · cases seen with
    | address read => simp
    | fault | stop | want _ | byte _ | idle => rfl

section Serves

variable {t : Statics} {told : Told}

theorem quiet_serves (seen : BusEvent) {r : List Access × Statics} (h : Closing r.2 told)
    (hloaded : (Call.port_recv seen r.1 none).loaded = [])
    (hacked : (Call.port_recv seen r.1 none).acked = none) :
    Served told (received seen (hand_over r)) (hand_over r).2 := by
  have hcall_loaded := (received_loaded seen r).trans hloaded
  have hcall_acked := (received_acked seen r).trans hacked
  refine ⟨Or.inl hcall_loaded, fun _ => hcall_acked, ?_⟩
  have htold : tell told (received seen (hand_over r)) =
      { told with owed := told.owed || (hand_over r).1.1.isSome } := by
    unfold received at hcall_loaded hcall_acked ⊢
    unfold tell
    simp [hcall_loaded, hcall_acked]
  rw [htold]
  exact hand_over_closing h

theorem open_serves (seen : BusEvent) {r : List Access × Statics}
    (hloaded : (Call.port_recv seen r.1 none).loaded = [] ∨
      (Call.port_recv seen r.1 none).loaded = [told.rsp.getD told.next 0xFF])
    (hacked : told.owed = true → (Call.port_recv seen r.1 none).acked = none)
    (hafter : Serving r.2 (tell told (.port_recv seen r.1 none))) :
    Served told (received seen (hand_over r)) (hand_over r).2 := by
  rw [hand_over_none hafter.rx_done]
  exact ⟨hloaded, hacked, hafter⟩

theorem fault_serves (h : Serving t told) :
    Served told (received .fault (hand_over (poll .fault t))) (hand_over (poll .fault t)).2 := by
  obtain ⟨⟨hsize, hlen, hheld, hidx, howed⟩, hdone, -⟩ := h
  unfold poll
  apply open_serves
  · exact Or.inl rfl
  · intro _
    rfl
  · exact ⟨⟨hsize, hlen, hheld, hidx, by simp [tell, howed]⟩, hdone, by simp⟩

theorem stop_serves (h : Serving t told) :
    Served told (received .stop (hand_over (poll .stop t))) (hand_over (poll .stop t)).2 := by
  have hread : Serving (if t.tx_active then end_read_txn t else t) told := by
    obtain ⟨⟨hsize, hlen, hheld, hidx, howed⟩, hdone, hwriting⟩ := h
    rw [end_read_txn_eq]
    split_ifs
    · exact ⟨⟨hsize, hlen, hheld, hidx, howed⟩, hdone, hwriting⟩
    · exact ⟨⟨hsize, hlen, hheld, hidx, howed⟩, hdone, hwriting⟩
  apply quiet_serves
  · exact hread.closes
  · rfl
  · rfl

theorem address_serves (read : Bool) (h : Serving t told) :
    Served told (received (.address read) (hand_over (poll (.address read) t)))
      (hand_over (poll (.address read) t)).2 := by
  have hclosed := h.closes
  unfold poll
  dsimp only
  generalize (if t.in_write then end_write_txn t else t) = u at hclosed
  unfold match_address
  rcases hwait : (u.rx_done || u.awaiting)
  · obtain ⟨hdone, hawaiting⟩ := Bool.or_eq_false_iff.mp hwait
    obtain ⟨⟨hsize, hlen, hheld, hidx, howed⟩, hin, -⟩ := hclosed
    have hfree : told.owed = false := howed.symm.trans hawaiting
    rw [if_neg Bool.false_ne_true]
    cases read with
    | true =>
      rw [if_pos rfl]
      apply open_serves
      · exact Or.inl rfl
      · intro hdue
        rw [hfree] at hdue
        cases hdue
      · refine ⟨⟨hsize, hlen, hheld, ?_, ?_⟩, hdone, ?_⟩
        · simp [tell, Call.acked]
        · simp [tell, howed]
        · simp [hin]
    | false =>
      rw [if_neg Bool.false_ne_true]
      apply open_serves
      · exact Or.inl rfl
      · intro hdue
        rw [hfree] at hdue
        cases hdue
      · refine ⟨⟨hsize, ?_, ?_, ?_, ?_⟩, hdone, ?_⟩
        · simp [tell, Call.acked]
        · simp [tell, Call.acked]
        · simp
        · simp [tell, howed]
        · simp [tell, Call.acked, hfree]
  · rw [if_pos rfl]
    apply quiet_serves
    · exact hclosed
    · rfl
    · simp [Call.acked]

theorem Armed.next_byte (h : Armed t told) :
    (if t.tx_idx < t.tx_len then t.tx_buf.getD t.tx_idx 0 else 0xFF) =
      told.rsp.getD told.next 0xFF := by
  have hlen := h.tx_len
  have hidx := h.tx_idx
  split_ifs with hmore
  · have hnext : told.next = t.tx_idx := by omega
    have hroom : t.tx_idx < t.tx_buf.length := by
      have htake := congrArg List.length h.held
      rw [List.length_take] at htake
      omega
    rw [hnext, ← h.held, List.getD_eq_getElem _ _ hroom,
      List.getD_eq_getElem _ _ (by rw [List.length_take]; omega), List.getElem_take]
  · rw [List.getD_eq_default _ _ (by omega)]

theorem want_serves (nack : Bool) (h : Serving t told) :
    Served told (received (.want nack) (hand_over (poll (.want nack) t)))
      (hand_over (poll (.want nack) t)).2 := by
  have harmed := h.armed
  obtain ⟨⟨hsize, hlen, hheld, hidx, howed⟩, hdone, hwriting⟩ := h
  unfold poll
  dsimp only
  split_ifs with hend
  · rw [end_read_txn_eq]
    apply open_serves
    · exact Or.inl rfl
    · intro _
      rfl
    · exact ⟨⟨hsize, hlen, hheld, hidx, by simp [tell, howed]⟩, hdone, by simpa [tell, Call.acked]⟩
  · rw [load_eq]
    apply open_serves
    · right
      rw [← harmed.next_byte]
      rfl
    · intro _
      rfl
    · refine ⟨⟨hsize, hlen, hheld, ?_, by simp [tell, howed]⟩, hdone, by simpa [tell, Call.acked]⟩
      simp [tell, Call.acked, Call.loaded]
      split_ifs
      · omega
      · omega

theorem byte_serves (d : UInt8) (h : Serving t told) :
    Served told (received (.byte d) (hand_over (poll (.byte d) t)))
      (hand_over (poll (.byte d) t)).2 := by
  unfold poll store
  dsimp only
  obtain ⟨⟨hsize, hlen, hheld, hidx, howed⟩, hdone, hwriting⟩ := h
  split_ifs
  all_goals
    apply open_serves
    · exact Or.inl rfl
    · intro _
      rfl
    · exact ⟨⟨hsize, hlen, hheld, hidx, by simp [tell, howed]⟩, hdone, by simpa [tell, Call.acked]⟩

theorem idle_serves (h : Serving t told) :
    Served told (received .idle (hand_over (poll .idle t))) (hand_over (poll .idle t)).2 := by
  obtain ⟨⟨hsize, hlen, hheld, hidx, howed⟩, hdone, hwriting⟩ := h
  unfold poll
  apply open_serves
  · exact Or.inl rfl
  · intro _
    rfl
  · exact ⟨⟨hsize, hlen, hheld, hidx, by simp [tell, howed]⟩, hdone, by simpa [tell, Call.acked]⟩

end Serves

theorem port_recv_serves (st : Sstatus) (sdata : UInt8) {t : Statics} {told : Told}
    (h : Serving t told) :
    Served told (received (st.event sdata) (port_recv st sdata t)) (port_recv st sdata t).2 := by
  rw [port_recv_event]
  cases st.event sdata with
  | fault => exact fault_serves h
  | address read => exact address_serves read h
  | stop => exact stop_serves h
  | want nack => exact want_serves nack h
  | byte d => exact byte_serves d h
  | idle => exact idle_serves h

theorem port_send_serves (rsp : List UInt8) {t : Statics} {told : Told} (h : Serving t told)
    (howed : told.owed = true) : Serving (port_send rsp t) (tell told (.port_send rsp)) := by
  have hlen : (if rsp.length > UPDATER_TX_BUF_SIZE then UPDATER_TX_BUF_SIZE else rsp.length) =
      (rsp.take UPDATER_TX_BUF_SIZE).length := by
    rw [List.length_take]
    split_ifs
    · omega
    · omega
  have htake : rsp.take (rsp.take UPDATER_TX_BUF_SIZE).length = rsp.take UPDATER_TX_BUF_SIZE := by
    rw [List.length_take, List.take_eq_take_iff]
    omega
  have hsize := h.armed.tx_size
  unfold port_send
  dsimp only
  rw [hlen, htake]
  refine ⟨⟨?_, rfl, ?_, rfl, rfl⟩, h.rx_done, ?_⟩
  · simp
    omega
  · simp [tell]
  · intro hin
    rw [(h.writing hin).2] at howed
    cases howed

theorem callStep_recv (s : Caller) (st : Sstatus) (sdata : UInt8) :
    callStep s (.recv st sdata) =
      ({ t := (port_recv st sdata s.t).2, owed := s.owed || (port_recv st sdata s.t).1.1.isSome },
        some (received (st.event sdata) (port_recv st sdata s.t))) := rfl

theorem callStep_serves (s : Caller) (told : Told) (input : Input)
    (h : Serving s.t told ∧ s.owed = told.owed) :
    Judged (fun s told => Serving s.t told ∧ s.owed = told.owed) tell
      (fun told c => (c.loaded = [] ∨ c.loaded = [told.rsp.getD told.next 0xFF]) ∧
        (told.owed = true → c.acked = none)) told (callStep s input) := by
  obtain ⟨hserving, howed⟩ := h
  cases input with
  | recv st sdata =>
    obtain ⟨hloaded, hheld_back, hafter⟩ := port_recv_serves st sdata hserving
    rw [callStep_recv]
    refine ⟨⟨hloaded, hheld_back⟩, hafter, ?_⟩
    dsimp only
    rw [howed]
    rfl
  | send rsp =>
    unfold callStep
    rcases hdue : s.owed
    · exact ⟨hserving, hdue.trans (hdue.symm.trans howed)⟩
    · exact ⟨⟨Or.inl rfl, fun _ => rfl⟩, port_send_serves rsp hserving (howed.symm.trans hdue), rfl⟩

theorem caller_init_serving : Serving caller_init.t told_init where
  armed := ⟨rfl, rfl, rfl, rfl, rfl⟩
  rx_done := rfl
  writing := by simp [caller_init, statics_init]

/-! ## Until the next response -/

def Call.Sends : Call → Prop
  | .port_send _ => True
  | .port_recv _ _ _ => False

theorem tell_until_send (told : Told) (calls : List Call) (hquiet : ∀ c ∈ calls, ¬ c.Sends) :
    (told.rsp = [] → (calls.foldl tell told).rsp = []) ∧
      (told.owed = true → (calls.foldl tell told).owed = true) := by
  induction calls generalizing told with
  | nil => exact ⟨id, id⟩
  | cons c calls ih =>
    obtain ⟨hrsp, howed⟩ := ih (tell told c) (fun d hd => hquiet d (List.mem_cons_of_mem _ hd))
    cases c with
    | port_send rsp => exact absurd trivial (hquiet _ List.mem_cons_self)
    | port_recv seen accesses frame =>
      constructor
      · intro hgone
        apply hrsp
        simp [tell, hgone]
      · intro hdue
        apply howed
        simp [tell, hdue]

/-- Every byte for the host is of the last response, and filler once another request has begun. -/
theorem twi_transmit_freshness (inputs : List Input) (before : List Call) (c : Call)
    (after : List Call) (hlog : (feed callStep caller_init inputs).1 = before ++ c :: after) :
    (c.loaded = [] ∨ c.loaded =
      [(before.foldl tell told_init).rsp.getD (before.foldl tell told_init).next 0xFF]) ∧
    ∀ earlier w mid, before = earlier ++ w :: mid → (∀ d ∈ mid, ¬ d.Sends) →
      (w.acked = some false → ∀ b ∈ c.loaded, b = 0xFF) ∧
      (w.frame.isSome = true → c.acked = none) := by
  obtain ⟨-, hall⟩ := feed_judged callStep (fun s told => Serving s.t told ∧ s.owed = told.owed)
    tell (fun told c => (c.loaded = [] ∨ c.loaded = [told.rsp.getD told.next 0xFF]) ∧
      (told.owed = true → c.acked = none)) callStep_serves caller_init told_init inputs
      ⟨caller_init_serving, rfl⟩
  obtain ⟨hloaded, hheld_back⟩ := hall before c after hlog
  refine ⟨hloaded, ?_⟩
  rintro earlier w mid rfl hquiet
  rw [List.foldl_append, List.foldl_cons] at hloaded hheld_back
  obtain ⟨hgone, hdue⟩ := tell_until_send (tell (earlier.foldl tell told_init) w) mid hquiet
  constructor
  · intro hacked b hb
    have hrsp := hgone (by
      cases w with
      | port_send rsp => cases hacked
      | port_recv seen accesses frame => simp [tell, hacked])
    rcases hloaded with hnothing | hone
    · rw [hnothing] at hb
      cases hb
    · rw [hone, hrsp] at hb
      simpa using hb
  · intro hframe
    apply hheld_back
    apply hdue
    cases w with
    | port_send rsp => cases hframe
    | port_recv seen accesses frame => simp [tell, show frame.isSome = true from hframe]

theorem twi_transmit_freshness_reply :
    let seen (e : BusEvent) : Input := .recv e.registers.1 e.registers.2
    let inputs : List Input := [seen (.address false), seen (.byte 7), seen .stop, .send [1, 2],
      seen (.address true), seen (.want false)]
    let before : List Call := [.port_recv (.address false) [.SCMD_RESPONSE] none,
      .port_recv (.byte 7) [.rx_buf 0, .SCMD_RESPONSE] none,
      .port_recv .stop [.SCMD_COMPTRANS, .rx_buf 0] (some [7]), .port_send [1, 2],
      .port_recv (.address true) [.SCMD_RESPONSE] none]
    let c : Call := .port_recv (.want false) [.SDATA 1, .SCMD_RESPONSE] none
    (feed callStep caller_init inputs).1 = before ++ c :: [] ∧
    (c.loaded = [] ∨ c.loaded =
      [(before.foldl tell told_init).rsp.getD (before.foldl tell told_init).next 0xFF]) ∧
    ∀ earlier w mid, before = earlier ++ w :: mid → (∀ d ∈ mid, ¬ d.Sends) →
      (w.acked = some false → ∀ b ∈ c.loaded, b = 0xFF) ∧
      (w.frame.isSome = true → c.acked = none) := by
  intro seen inputs before c
  have hlog : (feed callStep caller_init inputs).1 = before ++ c :: [] := by decide
  exact ⟨hlog, twi_transmit_freshness inputs before c [] hlog⟩

end OtaUpdater.Device.Twi
