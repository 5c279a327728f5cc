import OtaUpdater.Device.Twi
import OtaUpdater.Lib.Bytes
import OtaUpdater.Lib.Mealy

/-!
# What comes in over the bus

The calls of the main loop against what the host sees of them: the write transactions
that it ends come out as frames.
-/

open OtaUpdater.Lib.Bytes OtaUpdater.Lib.Mealy

namespace OtaUpdater.Device.Twi

/-! ## Calls -/

/-- A lap sees the bus once, in `port_recv`; a frame that it was handed it answers, then or later. -/
inductive Input where
  | recv (st : Sstatus) (sdata : UInt8)
  | send (rsp : List UInt8)
deriving DecidableEq, Repr

inductive Call where
  | port_recv (seen : BusEvent) (accesses : List Access) (frame : Option (List UInt8))
  | port_send (rsp : List UInt8)
deriving DecidableEq, Repr

structure Caller where
  t : Statics
  owed : Bool

def caller_init : Caller where
  t := statics_init
  owed := false

/-- `port_send` is called once for each frame, so with nothing owed it is not called. -/
def callStep (s : Caller) : Input → Caller × Option Call
  | .recv st sdata =>
    let ((frame, accesses), t) := port_recv st sdata s.t
    ({ t, owed := s.owed || frame.isSome }, some (.port_recv (st.event sdata) accesses frame))
  | .send rsp =>
    if s.owed then ({ t := port_send rsp s.t, owed := false }, some (.port_send rsp)) else (s, none)

def Call.frame : Call → Option (List UInt8)
  | .port_recv _ _ frame => frame
  | .port_send _ => none

/-- An address match that was acknowledged: of a read, or of a write. -/
def Call.acked : Call → Option Bool
  | .port_recv (.address read) accesses _ => if .SCMD_RESPONSE ∈ accesses then some read else none
  | _ => none

def Call.loaded : Call → List UInt8
  | .port_recv _ accesses _ => accesses.filterMap (fun
    | .SDATA b => some b
    | _ => none)
  | .port_send _ => []

/-- Where `rx_buf` was indexed. -/
def Call.indices : Call → List Nat
  | .port_recv _ accesses _ => accesses.filterMap (fun
    | .rx_buf i => some i
    | _ => none)
  | .port_send _ => []

/-! ## Handing over -/

def hand_over (r : List Access × Statics) : (Option (List UInt8) × List Access) × Statics :=
  if !r.2.rx_done then ((none, r.1), r.2)
  else
    ((some (r.2.rx_buf.take r.2.rx_frame), r.1 ++ (List.range r.2.rx_frame).map .rx_buf),
      { r.2 with rx_done := false, awaiting := true, tx_len := 0, tx_consumed := false })

theorem port_recv_event (st : Sstatus) (sdata : UInt8) (t : Statics) :
    port_recv st sdata t = hand_over (poll (st.event sdata) t) := by
  unfold port_recv
  rw [twi_poll_event]
  rfl

theorem hand_over_none {r : List Access × Statics} (h : r.2.rx_done = false) :
    hand_over r = ((none, r.1), r.2) := by
  unfold hand_over
  rw [h]
  rfl

theorem hand_over_some {r : List Access × Statics} (h : r.2.rx_done = true) :
    hand_over r = ((some (r.2.rx_buf.take r.2.rx_frame), r.1 ++ (List.range r.2.rx_frame).map .rx_buf),
      { r.2 with rx_done := false, awaiting := true, tx_len := 0, tx_consumed := false }) := by
  unfold hand_over
  rw [h]
  rfl

/-! ## The receive side -/

/-- A write transaction as the host sees it: open since its address match, or just ended. -/
def writeTxn (txn : Option (List UInt8)) : Call → Option (List UInt8) × Option (List UInt8)
  | .port_recv seen accesses frame => match seen with
    | .fault => (none, none)
    | .stop => (none, txn)
    | .address _ =>
      (if (Call.port_recv seen accesses frame).acked = some false then some [] else none, txn)
    | .byte d => (txn.map (· ++ [d]), none)
    | .want _ | .idle => (txn, none)
  | .port_send _ => (txn, none)

/-- What is handed over of the transactions that ended: neither empty nor oversized. -/
def whole (bytes : List UInt8) : Bool :=
  decide (1 ≤ bytes.length ∧ bytes.length ≤ UPDATER_RX_BUF_SIZE)

/-- Between two calls nothing is parked, and `rx_buf` holds what the open transaction sent. -/
structure Receiving (t : Statics) (txn : Option (List UInt8)) : Prop where
  rx_done : t.rx_done = false
  rx_size : t.rx_buf.length = UPDATER_RX_BUF_SIZE
  in_write : t.in_write = txn.isSome
  rx_len : ∀ bytes ∈ txn, t.rx_len = min bytes.length UPDATER_RX_BUF_SIZE
  rx_over : ∀ bytes ∈ txn, t.rx_over = decide (UPDATER_RX_BUF_SIZE < bytes.length)
  held : ∀ bytes ∈ txn, t.rx_buf.take t.rx_len = bytes.take UPDATER_RX_BUF_SIZE

structure Ended (t : Statics) (sent : Option (List UInt8)) : Prop where
  in_write : t.in_write = false
  rx_size : t.rx_buf.length = UPDATER_RX_BUF_SIZE
  rx_done : t.rx_done = sent.isSome
  rx_frame : ∀ bytes ∈ sent, t.rx_frame ≤ UPDATER_RX_BUF_SIZE ∧ t.rx_buf.take t.rx_frame = bytes

theorem mem_indices (i : Nat) (seen : BusEvent) (accesses : List Access)
    (frame : Option (List UInt8)) :
    i ∈ (Call.port_recv seen accesses frame).indices ↔ .rx_buf i ∈ accesses := by
  unfold Call.indices
  rw [List.mem_filterMap]
  constructor
  · rintro ⟨a, ha, hi⟩
    cases a with
    | rx_buf j =>
      rw [← Option.some.inj hi]
      exact ha
    | SSTATUS | SCMD_RESPONSE | SCMD_COMPTRANS | SDATA b => cases hi
  · intro hi
    exact ⟨_, hi, rfl⟩

theorem Receiving.ends {t : Statics} {txn : Option (List UInt8)} (h : Receiving t txn) :
    Ended (if t.in_write then end_write_txn t else t) (txn.filter whole) := by
  rcases txn with _ | bytes
  · have hin := h.in_write
    rw [if_neg (by simp [hin])]
    exact ⟨hin, h.rx_size, h.rx_done, by simp⟩
  · have hlen := h.rx_len bytes rfl
    have hover := h.rx_over bytes rfl
    have hheld := h.held bytes rfl
    rw [if_pos (by simp [h.in_write])]
    unfold end_write_txn
    rcases hwhole : whole bytes
    · have hlost : ¬(t.rx_len ≠ 0 ∧ (!t.rx_over) = true) := by
        unfold whole at hwhole
        unfold UPDATER_RX_BUF_SIZE at *
        rw [hover]
        simp at hwhole ⊢
        omega
      dsimp only
      rw [if_neg hlost]
      exact ⟨rfl, h.rx_size, by simp [hwhole, h.rx_done], by simp [hwhole]⟩
    · unfold whole at hwhole
      have hfits := of_decide_eq_true hwhole
      have hkept : t.rx_len ≠ 0 ∧ (!t.rx_over) = true := by
        rw [hover]
        simp
        omega
      dsimp only
      rw [if_pos hkept]
      refine ⟨rfl, h.rx_size, by simp [whole, hfits], ?_⟩
      intro sent hsent
      simp [whole] at hsent
      rw [← hsent.1]
      refine ⟨by rw [hlen]; exact Nat.min_le_right _ _, ?_⟩
      rw [hheld]
      exact List.take_of_length_le hfits.2

theorem hand_over_ended {r : List Access × Statics} {sent : Option (List UInt8)}
    (h : Ended r.2 sent) :
    (hand_over r).1.1 = sent ∧ Receiving (hand_over r).2 none ∧
      ∀ i, .rx_buf i ∈ (hand_over r).1.2 → .rx_buf i ∈ r.1 ∨ i < UPDATER_RX_BUF_SIZE := by
  have hdone := h.rx_done
  rcases sent with _ | bytes
  · rw [hand_over_none hdone]
    refine ⟨rfl, ⟨hdone, h.rx_size, h.in_write, by simp, by simp, by simp⟩, ?_⟩
    intro i hi
    exact Or.inl hi
  · obtain ⟨hfits, hframe⟩ := h.rx_frame bytes rfl
    rw [hand_over_some hdone, hframe]
    refine ⟨rfl, ⟨rfl, h.rx_size, h.in_write, by simp, by simp, by simp⟩, ?_⟩
    intro i hi
    simp at hi
    rcases hi with hi | hi
    · exact Or.inl hi
    · exact Or.inr (by omega)

theorem end_read_txn_eq (t : Statics) :
    end_read_txn t = { t with
      tx_active := false
      tx_first := false
      tx_consumed := t.tx_consumed || (decide (t.tx_len ≠ 0) && decide (t.tx_len ≤ t.tx_idx)) } := by
  unfold end_read_txn
  rcases Decidable.em (t.tx_len ≠ 0 ∧ t.tx_idx ≥ t.tx_len) with h | h
  · dsimp only
    rw [if_pos h]
    simp [h.1, h.2]
  · dsimp only
    rw [if_neg h]
    rw [not_and_or] at h
    rcases h with h | h
    · simp [h]
    · simp [h]

theorem load_eq (t : Statics) :
    load t = ([.SDATA (if t.tx_idx < t.tx_len then t.tx_buf.getD t.tx_idx 0 else 0xFF), .SCMD_RESPONSE],
      { t with tx_first := false, tx_idx := if t.tx_idx < t.tx_len then t.tx_idx + 1 else t.tx_idx }) := by
  unfold load
  split <;> rfl

/-- What one call makes of the receive side. -/
structure Received (txn : Option (List UInt8)) (seen : BusEvent)
    (r : (Option (List UInt8) × List Access) × Statics) : Prop where
  frame : r.1.1 = (writeTxn txn (.port_recv seen r.1.2 r.1.1)).2.filter whole
  indices : ∀ i, .rx_buf i ∈ r.1.2 → i < UPDATER_RX_BUF_SIZE
  after : Receiving r.2 (writeTxn txn (.port_recv seen r.1.2 r.1.1)).1

section Receives

variable {t : Statics} {txn : Option (List UInt8)}

theorem open_receives (seen : BusEvent) {r : List Access × Statics}
    (hsent : (writeTxn txn (.port_recv seen r.1 none)).2.filter whole = none)
    (hindices : ∀ i, .rx_buf i ∈ r.1 → i < UPDATER_RX_BUF_SIZE)
    (hafter : Receiving r.2 (writeTxn txn (.port_recv seen r.1 none)).1) :
    Received txn seen (hand_over r) := by
  rw [hand_over_none hafter.rx_done]
  exact ⟨hsent.symm, hindices, hafter⟩

theorem ended_receives (seen : BusEvent) {r : List Access × Statics}
    (hended : Ended r.2 (txn.filter whole)) (hindices : ∀ i, .rx_buf i ∉ r.1)
    (hwatched : writeTxn txn (.port_recv seen (hand_over r).1.2 (hand_over r).1.1) = (none, txn)) :
    Received txn seen (hand_over r) := by
  obtain ⟨hframe, hafter, hreads⟩ := hand_over_ended hended
  refine ⟨?_, ?_, ?_⟩
  · rw [hwatched]
    exact hframe
  · intro i hi
    rcases hreads i hi with hold | hnew
    · exact absurd hold (hindices i)
    · exact hnew
  · rw [hwatched]
    exact hafter

theorem fault_receives (h : Receiving t txn) : Received txn .fault (hand_over (poll .fault t)) := by
  unfold poll
  apply open_receives
  · rfl
  · simp
  · exact ⟨h.rx_done, h.rx_size, rfl, by simp [writeTxn], by simp [writeTxn], by simp [writeTxn]⟩

theorem stop_receives (h : Receiving t txn) : Received txn .stop (hand_over (poll .stop t)) := by
  unfold poll
  have hread : Receiving (if t.tx_active then end_read_txn t else t) txn := by
    rw [end_read_txn_eq]
    split_ifs
    · exact ⟨h.rx_done, h.rx_size, h.in_write, h.rx_len, h.rx_over, h.held⟩
    · exact h
  apply ended_receives
  · exact hread.ends
  · simp
  · rfl

theorem address_receives (read : Bool) (h : Receiving t txn) :
    Received txn (.address read) (hand_over (poll (.address read) t)) := by
  unfold poll
  have hended := h.ends
  dsimp only
  generalize (if t.in_write then end_write_txn t else t) = u at hended
  unfold match_address
  rcases hwait : (u.rx_done || u.awaiting)
  · have hdone : u.rx_done = false := (Bool.or_eq_false_iff.mp hwait).1
    have hnone : txn.filter whole = none := by
      rw [← Option.not_isSome_iff_eq_none, ← hended.rx_done, hdone]
      simp
    rw [if_neg Bool.false_ne_true]
    cases read with
    | true =>
      rw [if_pos rfl]
      apply open_receives
      · exact hnone
      · simp
      · refine ⟨hdone, hended.rx_size, hended.in_write, ?_, ?_, ?_⟩
        · simp [writeTxn, Call.acked]
        · simp [writeTxn, Call.acked]
        · simp [writeTxn, Call.acked]
    | false =>
      rw [if_neg Bool.false_ne_true]
      apply open_receives
      · exact hnone
      · simp
      · refine ⟨hdone, hended.rx_size, rfl, ?_, ?_, ?_⟩
        · simp [writeTxn, Call.acked]
        · simp [writeTxn, Call.acked]
        · simp [writeTxn, Call.acked]
  · rw [if_pos rfl]
    have hunacked : Access.SCMD_RESPONSE ∉ (hand_over ([], u)).1.2 := by
      unfold hand_over
      split_ifs
      · simp
      · simp
    apply ended_receives
    · exact hended
    · simp
    · simp [writeTxn, Call.acked, hunacked]

theorem want_receives (nack : Bool) (h : Receiving t txn) :
    Received txn (.want nack) (hand_over (poll (.want nack) t)) := by
  unfold poll
  dsimp only
  rw [end_read_txn_eq, load_eq]
  split_ifs
  all_goals
    apply open_receives
    · rfl
    · simp
    · exact ⟨h.rx_done, h.rx_size, h.in_write, h.rx_len, h.rx_over, h.held⟩

theorem Receiving.stores {bytes : List UInt8} (h : Receiving t (some bytes)) (d : UInt8)
    (hroom : t.rx_len < UPDATER_RX_BUF_SIZE) :
    Receiving { t with rx_buf := t.rx_buf.set t.rx_len d, rx_len := t.rx_len + 1 }
      (some (bytes ++ [d])) := by
  have hlen := h.rx_len bytes rfl
  have hover := h.rx_over bytes rfl
  have hheld := h.held bytes rfl
  have hsize := h.rx_size
  refine ⟨h.rx_done, ?_, h.in_write, ?_, ?_, ?_⟩
  · rw [List.length_set]
    exact hsize
  · intro grown hgrown
    rw [← Option.some.inj hgrown]
    simp
    omega
  · intro grown hgrown
    rw [← Option.some.inj hgrown]
    simp [hover]
    omega
  · intro grown hgrown
    rw [← Option.some.inj hgrown]
    dsimp only
    rw [take_set_succ _ _ _ (by omega), hheld, List.take_of_length_le (by omega),
      List.take_of_length_le (by simp; omega)]

theorem Receiving.overflows {bytes : List UInt8} (h : Receiving t (some bytes)) (d : UInt8)
    (hfull : UPDATER_RX_BUF_SIZE ≤ t.rx_len) :
    Receiving { t with rx_over := true } (some (bytes ++ [d])) := by
  have hlen := h.rx_len bytes rfl
  refine ⟨h.rx_done, h.rx_size, h.in_write, ?_, ?_, ?_⟩
  · intro grown hgrown
    rw [← Option.some.inj hgrown]
    simp
    omega
  · intro grown hgrown
    rw [← Option.some.inj hgrown]
    simp
    omega
  · intro grown hgrown
    rw [← Option.some.inj hgrown]
    rw [List.take_append_of_le_length (by omega)]
    exact h.held bytes rfl

theorem byte_receives (d : UInt8) (h : Receiving t txn) :
    Received txn (.byte d) (hand_over (poll (.byte d) t)) := by
  unfold poll store
  dsimp only
  rcases txn with _ | bytes
  · have hstray : t.in_write = false := h.in_write
    rw [hstray, if_neg Bool.false_ne_true]
    apply open_receives
    · rfl
    · simp
    · exact h
  · have hin : t.in_write = true := h.in_write
    rw [if_pos hin]
    rcases Nat.lt_or_ge t.rx_len UPDATER_RX_BUF_SIZE with hroom | hfull
    · rw [if_pos hroom]
      apply open_receives
      · rfl
      · simp [hroom]
      · exact h.stores d hroom
    · rw [if_neg (by omega)]
      apply open_receives
      · rfl
      · simp
      · exact h.overflows d hfull

theorem idle_receives (h : Receiving t txn) : Received txn .idle (hand_over (poll .idle t)) := by
  unfold poll
  apply open_receives
  · rfl
  · simp
  · exact h

end Receives

theorem port_recv_receives (st : Sstatus) (sdata : UInt8) {t : Statics} {txn : Option (List UInt8)}
    (h : Receiving t txn) : Received txn (st.event sdata) (port_recv st sdata t) := by
  rw [port_recv_event]
  cases st.event sdata with
  | fault => exact fault_receives h
  | address read => exact address_receives read h
  | stop => exact stop_receives h
  | want nack => exact want_receives nack h
  | byte d => exact byte_receives d h
  | idle => exact idle_receives h

theorem callStep_receives (s : Caller) (txn : Option (List UInt8)) (input : Input)
    (h : Receiving s.t txn) :
    Judged (fun s txn => Receiving s.t txn) (fun txn c => (writeTxn txn c).1)
      (fun txn c => c.frame = (writeTxn txn c).2.filter whole ∧
        ∀ i ∈ c.indices, i < UPDATER_RX_BUF_SIZE) txn (callStep s input) := by
  cases input with
  | recv st sdata =>
    obtain ⟨hframe, hindices, hafter⟩ := port_recv_receives st sdata h
    refine ⟨⟨hframe, ?_⟩, hafter⟩
    intro i hi
    exact hindices i ((mem_indices i _ _ _).mp hi)
  | send rsp =>
    unfold callStep
    rcases s.owed
    · exact h
    · refine ⟨⟨rfl, ?_⟩, h.rx_done, h.rx_size, h.in_write, h.rx_len, h.rx_over, h.held⟩
      intro i hi
      simp [Call.indices] at hi

theorem caller_init_receiving : Receiving caller_init.t none where
  rx_done := rfl
  rx_size := rfl
  in_write := rfl
  rx_len := by simp
  rx_over := by simp
  held := by simp

/-- The frames handed over are the whole write transactions, over every sequence of polls and answers. -/
theorem twi_receive_fidelity (inputs : List Input) :
    let r := feed callStep caller_init inputs
    r.1.filterMap Call.frame = (feed writeTxn none r.1).1.filter whole ∧
      r.2.t.rx_done = false ∧ ∀ c ∈ r.1, ∀ i ∈ c.indices, i < UPDATER_RX_BUF_SIZE := by
  intro r
  have hcascade := feed_cascade callStep (fun s txn => Receiving s.t txn) writeTxn Call.frame whole
    (fun s txn input h => (callStep_receives s txn input h).mono (fun _ _ hok => hok.1))
    caller_init none inputs caller_init_receiving
  obtain ⟨hlast, hall⟩ := feed_judged callStep (fun s txn => Receiving s.t txn)
    (fun txn c => (writeTxn txn c).1) (fun _ c => ∀ i ∈ c.indices, i < UPDATER_RX_BUF_SIZE)
    (fun s txn input h => (callStep_receives s txn input h).mono (fun _ _ hok => hok.2))
    caller_init none inputs caller_init_receiving
  refine ⟨hcascade, hlast.rx_done, ?_⟩
  intro c hc
  obtain ⟨before, after, hsplit⟩ := List.append_of_mem hc
  exact hall before c after hsplit

end OtaUpdater.Device.Twi
