import OtaUpdater.Device.TwiBoot
import OtaUpdater.Host.I2c
import OtaUpdater.System.Boards

/-!
# The TWI board on its bus

An event of a bus transaction takes a lap of the main loop, and an address match that
finds a frame parked takes one more. How a transaction is cut short does not matter to
the next one.
-/

open OtaUpdater.Lib.Bytes OtaUpdater.Lib.State OtaUpdater.Wire OtaUpdater.Device OtaUpdater.Host
open OtaUpdater.Device.Twi (BusEvent Told Call)

namespace OtaUpdater.System

variable {β : Type}

/-! ## Transactions -/

section Bus

variable (port : Port β) (t_entry : UInt16)

def busLap (e : BusEvent) (tick : UInt16) (d : Twi.Main × β) : Call × (Twi.Main × β) :=
  (Twi.received e (Twi.port_recv e.registers.1 e.registers.2 d.1.t),
    (Twi.lapStep port t_entry d (e.registers.1, e.registers.2, tick)).2)

/-- The ticks of the laps before an event, and in its own. -/
structure Timing where
  idle : List UInt16
  tick : UInt16

/-- SCL is held low from an address match until it is acknowledged. -/
def stretched (e : BusEvent) (c : Call) : Bool :=
  match e with
  | .address _ => c.acked.isNone
  | .fault | .stop | .want _ | .byte _ | .idle => false

/-- The bytes that an event brings the host, and the board after it. -/
def busEvent (timing : Timing) (e : BusEvent) (d : Twi.Main × β) : List UInt8 × (Twi.Main × β) :=
  let d := timing.idle.foldl (fun d tick => (busLap port t_entry .idle tick d).2) d
  let (c, d) := busLap port t_entry e timing.tick d
  let (c, d) := if stretched e c then busLap port t_entry e timing.tick d else (c, d)
  (c.loaded, d)

def transact : (Nat → Timing) → List BusEvent → Twi.Main × β → List UInt8 × (Twi.Main × β)
  | _, [], d => ([], d)
  | timing, e :: events, d =>
    let first := busEvent port t_entry (timing 0) e d
    let rest := transact (fun i => timing (i + 1)) events first.2
    (first.1 ++ rest.1, rest.2)

end Bus

/-- How the host leaves a transaction that it does not finish. -/
inductive Halt where
  | hang
  | stop
  | fault

def Halt.events : Halt → List BusEvent
  | .hang => []
  | .stop => [.stop]
  | .fault => [.fault]

/-- `stale` is RXACK at the first byte of a read. A transaction that is `cut` fails for the host,
after this many events. -/
structure Fate where
  timing : Nat → Timing
  stale : Bool
  cut : Option (Nat × Halt)

def Fate.seen (fate : Fate) (events : List BusEvent) : List BusEvent :=
  match fate.cut with
  | none => events
  | some (k, halt) => events.take k ++ halt.events

def wants (stale : Bool) : Nat → List BusEvent
  | 0 => []
  | n + 1 => .want stale :: List.replicate n (.want false)

/-- The host acknowledges all bytes but the last. -/
def readEvents (stale : Bool) (n : Nat) : List BusEvent :=
  .address true :: (wants stale n ++ [.want true, .stop])

structure BusWorld (β : Type) where
  board : Twi.Main × β
  writes : Nat
  reads : Nat

/-- What becomes of the transactions: of write `i`, and of read `k` after `i` writes. -/
structure Weather where
  write : Nat → Fate
  read : Nat → Nat → Fate

section Bus

variable (port : Port β) (t_entry : UInt16)

/-- The laps during a delay are those before the next event. -/
def twiBus (weather : Weather) : I2cBus (BusWorld β) Unit where
  write w req :=
    let fate := weather.write w.writes
    let r := transact port t_entry fate.timing (fate.seen (Twi.hostWrite req)) w.board
    (if fate.cut.isNone then .ok () else .error (), { board := r.2, writes := w.writes + 1, reads := 0 })
  read w rsp :=
    let fate := weather.read w.writes w.reads
    let r := transact port t_entry fate.timing (fate.seen (readEvents fate.stale rsp.length)) w.board
    ((if fate.cut.isNone then .ok () else .error (), fill rsp r.1),
      { board := r.2, writes := w.writes, reads := w.reads + 1 })
  delay_ns w _ := w
  length_read _ _ := length_fill _ _

end Bus

/-! ## Laps -/

/-- Between two laps: `txn` is what an open write transaction sent, `told` what a read would get. -/
structure Listening (d : Twi.Main × β) (txn : Option (List UInt8)) (told : Told) : Prop where
  receiving : Twi.Receiving d.1.t txn
  serving : Twi.Serving d.1.t told
  free : told.owed = false
  tx_size : d.1.tx.length = Twi.UPDATER_TX_BUF_SIZE
  resident : d.1.resident = true
  pending : d.1.s.boot_pending = false

def boardState (d : Twi.Main × β) : UpdSession × β := (d.1.s, d.2)

section Laps

variable (port : Port β) (t_entry : UInt16)

theorem gates_closed (m : Twi.Main) (b : β) (tick : UInt16) (hresident : m.resident = true)
    (hpending : m.s.boot_pending = false) :
    (Twi.boot_after_reply port m b).1.2 = m ∧ (Twi.boot_after_reply port m b).2 = b ∧
      (Twi.entry_window port t_entry m tick b).1.2 = m ∧ (Twi.entry_window port t_entry m tick b).2 = b := by
  unfold Twi.boot_after_reply Twi.entry_window
  rw [hpending, hresident]
  exact ⟨rfl, rfl, rfl, rfl⟩

theorem lap_none {d : Twi.Main × β} (st : Twi.Sstatus) (sdata : UInt8) (tick : UInt16)
    (hresident : d.1.resident = true) (hpending : d.1.s.boot_pending = false)
    (hnone : (Twi.port_recv st sdata d.1.t).1.1 = none) :
    (Twi.lapStep port t_entry d (st, sdata, tick)).2 =
      ({ d.1 with t := (Twi.port_recv st sdata d.1.t).2 }, d.2) := by
  unfold Twi.lapStep Twi.lap
  generalize Twi.port_recv st sdata d.1.t = polled at hnone ⊢
  obtain ⟨⟨frame, accesses⟩, t⟩ := polled
  dsimp only at hnone
  subst hnone
  obtain ⟨hboot, hflash, hentry, hflash'⟩ := gates_closed port t_entry { d.1 with t } d.2 tick hresident hpending
  simp only [bind_apply, pure_apply]
  rw [hboot, hflash, hentry, hflash']

theorem handle_rx_serve (s : UpdSession) (b : β) {rx : List UInt8} (hrx : rx.length ≤ 136) :
    let r := Twi.handle_rx port s rx (upd_frame_parse rx (UInt8.ofNat rx.length)) b
    (r.1.2.2, r.2) = (serveFrame port rx (s, b)).2 ∧
      ∀ req, receiveFrame rx = some req →
        wire (r.1.1 ||| UPD_RSP_FLAG) r.1.2.1 = (serveFrame port rx (s, b)).1 := by
  have hreceive : receiveFrame rx = upd_frame_parse rx (UInt8.ofNat rx.length) := if_pos hrx
  rw [← hreceive]
  rcases hparse : receiveFrame rx with _ | req
  · refine ⟨?_, fun req hreq => by cases hreq⟩
    unfold serveFrame
    rw [hparse]
    rfl
  · obtain ⟨hserve, -⟩ := serveFrame_eq port hparse (s, b)
    rw [hserve]
    exact ⟨rfl, fun _ _ => rfl⟩

theorem lap_some {d : Twi.Main × β} (st : Twi.Sstatus) (sdata : UInt8) (tick : UInt16)
    (hresident : d.1.resident = true) (htx : d.1.tx.length = Twi.UPDATER_TX_BUF_SIZE) (rx : List UInt8)
    (hsome : (Twi.port_recv st sdata d.1.t).1.1 = some rx) (hrx : rx.length ≤ 136)
    (hpending : (serveFrame port rx (boardState d)).2.1.boot_pending = false) :
    ∃ rsp tx, tx.length = Twi.UPDATER_TX_BUF_SIZE ∧
      (Twi.lapStep port t_entry d (st, sdata, tick)).2 =
        ({ t := Twi.port_send rsp (Twi.port_recv st sdata d.1.t).2
           s := (serveFrame port rx (boardState d)).2.1, resident := true, tx },
          (serveFrame port rx (boardState d)).2.2) ∧
      ∀ req, receiveFrame rx = some req → rsp = (serveFrame port rx (boardState d)).1 := by
  unfold Twi.lapStep Twi.lap
  generalize Twi.port_recv st sdata d.1.t = polled at hsome ⊢
  obtain ⟨⟨frame, accesses⟩, t⟩ := polled
  dsimp only at hsome
  subst hsome
  obtain ⟨tx, htx', hrun⟩ := Twi.answer_frame_run port { d.1 with t } rx d.2 htx
  obtain ⟨hstate, hreply⟩ := handle_rx_serve port d.1.s d.2 hrx
  unfold boardState at hpending ⊢
  dsimp only at hrun hstate hreply ⊢
  simp only [bind_apply, pure_apply]
  rw [hrun]
  generalize Twi.handle_rx port d.1.s rx (upd_frame_parse rx (UInt8.ofNat rx.length)) d.2 = handled at *
  obtain ⟨hs, hb⟩ := Prod.mk.inj hstate
  rw [← hs] at hpending
  dsimp only
  rw [hresident, Bool.true_or]
  obtain ⟨hboot, hflash, hentry, hflash'⟩ := gates_closed port t_entry
    { t := Twi.port_send (wire (handled.1.1 ||| UPD_RSP_FLAG) handled.1.2.1) t, s := handled.1.2.2
      resident := true, tx } handled.2 tick rfl hpending
  refine ⟨_, tx, htx', ?_, hreply⟩
  rw [hboot, hflash, hentry, hflash', hs, hb]

theorem busLap_idle {d : Twi.Main × β} {txn : Option (List UInt8)} {told : Told}
    (h : Listening d txn told) (tick : UInt16) : (busLap port t_entry .idle tick d).2 = d := by
  have hrecv : Twi.port_recv BusEvent.idle.registers.1 BusEvent.idle.registers.2 d.1.t =
      ((none, []), d.1.t) := by
    rw [Twi.port_recv_event, BusEvent.registers_event]
    exact Twi.hand_over_none h.receiving.rx_done
  have hlap := lap_none port t_entry BusEvent.idle.registers.1 BusEvent.idle.registers.2 tick h.resident
    h.pending (by rw [hrecv])
  rw [hrecv] at hlap
  exact hlap

theorem receiving_sent {t : Twi.Statics} {txn : Option (List UInt8)} (h : Twi.Receiving t txn)
    (rsp : List UInt8) : Twi.Receiving (Twi.port_send rsp t) txn :=
  ⟨h.rx_done, h.rx_size, h.in_write, h.rx_len, h.rx_over, h.held⟩

theorem busLap_listening {d : Twi.Main × β} {txn : Option (List UInt8)} {told : Told}
    (h : Listening d txn told) (e : BusEvent) (tick : UInt16)
    (hboot : ∀ rx ∈ (Twi.writeTxn txn (busLap port t_entry e tick d).1).2.filter Twi.whole,
      (serveFrame port rx (boardState d)).2.1.boot_pending = false) :
    let r := busLap port t_entry e tick d
    match (Twi.writeTxn txn r.1).2.filter Twi.whole with
    | none => boardState r.2 = boardState d ∧ r.2.1.t = (Twi.hand_over (Twi.poll e d.1.t)).2 ∧
        Listening r.2 (Twi.writeTxn txn r.1).1 (Twi.tell told r.1)
    | some rx => boardState r.2 = (serveFrame port rx (boardState d)).2 ∧ ∃ rsp,
        Listening r.2 (Twi.writeTxn txn r.1).1 (Twi.tell (Twi.tell told r.1) (.port_send rsp)) ∧
        ∀ req, receiveFrame rx = some req → rsp = (serveFrame port rx (boardState d)).1 := by
  have hrecv := Twi.port_recv_event e.registers.1 e.registers.2 d.1.t
  have hreceived := Twi.port_recv_receives e.registers.1 e.registers.2 h.receiving
  have hserved := Twi.port_recv_serves e.registers.1 e.registers.2 h.serving
  have hnone := lap_none port t_entry e.registers.1 e.registers.2 tick h.resident h.pending
  have hsome := lap_some port t_entry e.registers.1 e.registers.2 tick h.resident h.tx_size
  rw [BusEvent.registers_event] at hrecv hreceived hserved
  have hframe := hreceived.frame
  have hafter := hreceived.after
  have hserving := hserved.after
  unfold busLap at hboot ⊢
  dsimp only at hboot ⊢
  rw [← hrecv]
  unfold Twi.received at hserving hboot ⊢
  generalize Twi.lapStep port t_entry d (e.registers.1, e.registers.2, tick) = r at *
  generalize Twi.port_recv e.registers.1 e.registers.2 d.1.t = polled at *
  obtain ⟨⟨frame, accesses⟩, t⟩ := polled
  dsimp only at *
  rw [← hframe]
  have howed : (Twi.tell told (.port_recv e accesses frame)).owed = frame.isSome := by
    unfold Twi.tell
    dsimp only
    rw [h.free, Bool.false_or]
  cases frame with
  | none =>
    rw [hnone rfl]
    exact ⟨rfl, rfl, hafter, hserving, howed, h.tx_size, h.resident, h.pending⟩
  | some rx =>
    have hmem := hframe.symm
    have hwhole : Twi.whole rx = true := (Option.filter_eq_some_iff.mp hmem).2
    obtain ⟨rsp, tx, htx, hlap, hreply⟩ := hsome rx rfl (of_decide_eq_true hwhole).2 (hboot rx hmem)
    rw [hlap]
    exact ⟨rfl, rsp, ⟨receiving_sent hafter rsp, Twi.port_send_serves rsp hserving howed, rfl, htx, rfl,
      hboot rx hmem⟩, hreply⟩

end Laps

/-! ## Events -/

theorem address_acked {t : Twi.Statics} {txn : Option (List UInt8)} (h : Twi.Receiving t txn)
    (hfree : t.awaiting = false) (read : Bool) :
    (Twi.received (.address read) (Twi.hand_over (Twi.poll (.address read) t))).acked =
        (if (txn.filter Twi.whole).isSome then none else some read) ∧
      (txn.filter Twi.whole = none → read = true →
        (Twi.hand_over (Twi.poll (.address read) t)).2.tx_first = true) := by
  rw [Twi.received_acked]
  unfold Twi.poll
  dsimp only
  have hended := h.ends
  have hwaits : (if t.in_write then Twi.end_write_txn t else t).awaiting = false := by
    unfold Twi.end_write_txn
    dsimp only
    split_ifs <;> exact hfree
  generalize (if t.in_write then Twi.end_write_txn t else t) = u at hended hwaits ⊢
  have hdone := hended.rx_done
  unfold Twi.match_address
  rw [hwaits, Bool.or_false]
  rcases hparked : txn.filter Twi.whole with _ | rx
  · rw [hparked] at hdone
    have hdone : u.rx_done = false := hdone
    rw [hdone]
    cases read with
    | true =>
      rw [if_neg Bool.false_ne_true, if_pos rfl]
      refine ⟨rfl, fun _ _ => ?_⟩
      rw [Twi.hand_over_none rfl]
    | false =>
      rw [if_neg Bool.false_ne_true, if_neg Bool.false_ne_true]
      exact ⟨rfl, fun _ hread => by cases hread⟩
  · rw [hparked] at hdone
    have hdone : u.rx_done = true := hdone
    rw [hdone, if_pos rfl]
    exact ⟨rfl, fun hnone => by cases hnone⟩

section Events

variable (port : Port β) (t_entry : UInt16) {d : Twi.Main × β} {txn : Option (List UInt8)} {told : Told}

theorem idle_laps (h : Listening d txn told) (idle : List UInt16) :
    idle.foldl (fun d tick => (busLap port t_entry .idle tick d).2) d = d := by
  induction idle with
  | nil => rfl
  | cons tick idle ih =>
    rw [List.foldl_cons, busLap_idle port t_entry h]
    exact ih

theorem busEvent_eq (h : Listening d txn told) (timing : Timing) (e : BusEvent)
    (hfree : stretched e (busLap port t_entry e timing.tick d).1 = false) :
    busEvent port t_entry timing e d =
      ((busLap port t_entry e timing.tick d).1.loaded, (busLap port t_entry e timing.tick d).2) := by
  unfold busEvent
  dsimp only
  rw [idle_laps port t_entry h, hfree]
  rfl

theorem busEvent_stretched (h : Listening d txn told) (timing : Timing) (e : BusEvent)
    (hheld : stretched e (busLap port t_entry e timing.tick d).1 = true) :
    busEvent port t_entry timing e d =
      let d' := (busLap port t_entry e timing.tick d).2
      ((busLap port t_entry e timing.tick d').1.loaded, (busLap port t_entry e timing.tick d').2) := by
  unfold busEvent
  dsimp only
  rw [idle_laps port t_entry h, hheld]
  rfl

theorem busLap_call (e : BusEvent) (tick : UInt16) :
    (busLap port t_entry e tick d).1 = Twi.received e (Twi.hand_over (Twi.poll e d.1.t)) := by
  unfold busLap
  rw [Twi.port_recv_event, BusEvent.registers_event]

/-- Nothing is left of a write transaction that was handed over. -/
def settledState (txn : Option (List UInt8)) (st : UpdSession × β) : UpdSession × β :=
  match txn.filter Twi.whole with
  | none => st
  | some rx => (serveFrame port rx st).2

theorem address_lap (h : Listening d txn told) (tick : UInt16) (read : Bool)
    (hnone : txn.filter Twi.whole = none) :
    let r := busLap port t_entry (.address read) tick d
    r.1.acked = some read ∧ r.1.loaded = [] ∧ boardState r.2 = boardState d ∧
      (read = true → r.2.1.t.tx_first = true) ∧
      Listening r.2 (if read then none else some []) (Twi.tell told r.1) := by
  have hfree : d.1.t.awaiting = false := h.serving.armed.awaiting.trans h.free
  obtain ⟨hacked, hfirst⟩ := address_acked h.receiving hfree read
  rw [hnone, ← busLap_call port t_entry (.address read) tick] at hacked
  have hlap := busLap_listening port t_entry h (.address read) tick (by
    intro rx hrx
    have hrx : rx ∈ txn.filter Twi.whole := hrx
    rw [hnone] at hrx
    cases hrx)
  have hloaded : (busLap port t_entry (.address read) tick d).1.loaded = [] := by
    by_contra hsome
    rw [busLap_call] at hsome
    obtain ⟨nack, hwant⟩ := Twi.want_of_loaded _ _ hsome
    cases hwant
  have hwrite : Twi.writeTxn txn (busLap port t_entry (.address read) tick d).1 =
      (if read then none else some [], txn) := by
    have hcall : (busLap port t_entry (.address read) tick d).1 =
        .port_recv (.address read) (Twi.port_recv _ _ d.1.t).1.2 (Twi.port_recv _ _ d.1.t).1.1 := rfl
    unfold Twi.writeTxn
    rw [hcall] at hacked ⊢
    dsimp only
    rw [hacked]
    cases read <;> rfl
  dsimp only at hlap ⊢
  rw [hwrite] at hlap
  dsimp only at hlap
  rw [hnone] at hlap
  obtain ⟨hstate, ht, hnext⟩ := hlap
  exact ⟨hacked, hloaded, hstate, fun hread => by rw [ht]; exact hfirst hnone hread, hnext⟩

theorem address_writeTxn (tick : UInt16) (read : Bool) (txn : Option (List UInt8)) :
    Twi.writeTxn txn (busLap port t_entry (.address read) tick d).1 =
      (if (busLap port t_entry (.address read) tick d).1.acked = some false then some [] else none, txn) :=
  rfl

/-- An address match is acknowledged, at the latest in the second lap; then an open write transaction
has been handed over, and the new one is open. -/
theorem address_event (h : Listening d txn told) (timing : Timing) (read : Bool)
    (hboot : ∀ rx ∈ txn.filter Twi.whole, (serveFrame port rx (boardState d)).2.1.boot_pending = false) :
    let r := busEvent port t_entry timing (.address read) d
    r.1 = [] ∧ boardState r.2 = settledState port txn (boardState d) ∧
      (read = true → r.2.1.t.tx_first = true) ∧
      ∃ told', Listening r.2 (if read then none else some []) told' ∧
        (read = true → told'.next = 0 ∧ (txn = none → told'.rsp = told.rsp)) := by
  have hfree : d.1.t.awaiting = false := h.serving.armed.awaiting.trans h.free
  obtain ⟨hacked, -⟩ := address_acked h.receiving hfree read
  rw [← busLap_call port t_entry (.address read) timing.tick] at hacked
  have htold (told : Told) (c : Call) (hc : c.acked = some read) (hread : read = true) :
      (Twi.tell told c).next = 0 ∧ (Twi.tell told c).rsp = told.rsp := by
    subst hread
    cases c with
    | port_send rsp => cases hc
    | port_recv seen accesses frame =>
      unfold Twi.tell
      dsimp only
      rw [hc]
      exact ⟨rfl, rfl⟩
  unfold settledState
  rcases hparked : txn.filter Twi.whole with _ | rx
  · obtain ⟨hacked, hloaded, hstate, hfirst, hnext⟩ := address_lap port t_entry h timing.tick read hparked
    have hgoes : stretched (.address read) (busLap port t_entry (.address read) timing.tick d).1 = false := by
      unfold stretched
      rw [hacked]
      rfl
    dsimp only
    rw [busEvent_eq port t_entry h timing _ hgoes]
    exact ⟨hloaded, hstate, hfirst, _, hnext, fun hread =>
      ⟨(htold told _ hacked hread).1, fun _ => (htold told _ hacked hread).2⟩⟩
  · rw [hparked] at hacked
    have hacked : (busLap port t_entry (.address read) timing.tick d).1.acked = none := hacked
    have hlap := busLap_listening port t_entry h (.address read) timing.tick hboot
    have hheld : stretched (.address read) (busLap port t_entry (.address read) timing.tick d).1 = true := by
      unfold stretched
      rw [hacked]
      rfl
    dsimp only at hlap ⊢
    rw [address_writeTxn, hacked] at hlap
    dsimp only at hlap
    rw [hparked] at hlap
    obtain ⟨hstate, rsp, hnext, -⟩ := hlap
    rw [busEvent_stretched port t_entry h timing _ hheld]
    obtain ⟨hacked', hloaded, hstate', hfirst, hlast⟩ := address_lap port t_entry hnext timing.tick read rfl
    refine ⟨hloaded, hstate'.trans hstate, hfirst, _, hlast, fun hread => ?_⟩
    refine ⟨(htold _ _ hacked' hread).1, ?_⟩
    rintro rfl
    cases hparked

theorem byte_event (h : Listening d txn told) (timing : Timing) (b : UInt8) :
    let r := busEvent port t_entry timing (.byte b) d
    boardState r.2 = boardState d ∧ ∃ told', Listening r.2 (txn.map (· ++ [b])) told' := by
  dsimp only
  rw [busEvent_eq port t_entry h timing _ rfl]
  obtain ⟨hstate, -, hnext⟩ := busLap_listening port t_entry h (.byte b) timing.tick
    (fun rx hrx => by cases hrx)
  exact ⟨hstate, _, hnext⟩

theorem fault_event (h : Listening d txn told) (timing : Timing) :
    let r := busEvent port t_entry timing .fault d
    boardState r.2 = boardState d ∧ ∃ told', Listening r.2 none told' := by
  dsimp only
  rw [busEvent_eq port t_entry h timing _ rfl]
  obtain ⟨hstate, -, hnext⟩ := busLap_listening port t_entry h .fault timing.tick
    (fun rx hrx => by cases hrx)
  exact ⟨hstate, _, hnext⟩

theorem stop_event (h : Listening d txn told) (timing : Timing)
    (hboot : ∀ rx ∈ txn.filter Twi.whole, (serveFrame port rx (boardState d)).2.1.boot_pending = false) :
    let r := busEvent port t_entry timing .stop d
    boardState r.2 = settledState port txn (boardState d) ∧ ∃ told', Listening r.2 none told' ∧
      ∀ rx ∈ txn.filter Twi.whole, ∀ req, receiveFrame rx = some req →
        told'.rsp = (serveFrame port rx (boardState d)).1 := by
  have hlap := busLap_listening port t_entry h .stop timing.tick hboot
  have hwrite : Twi.writeTxn txn (busLap port t_entry .stop timing.tick d).1 = (none, txn) := rfl
  dsimp only at hlap ⊢
  rw [busEvent_eq port t_entry h timing _ rfl]
  rw [hwrite] at hlap
  unfold settledState
  rcases hparked : txn.filter Twi.whole with _ | rx
  · dsimp only at hlap
    rw [hparked] at hlap
    obtain ⟨hstate, -, hnext⟩ := hlap
    exact ⟨hstate, _, hnext, fun rx hrx => by cases hrx⟩
  · dsimp only at hlap
    rw [hparked] at hlap
    obtain ⟨hstate, rsp, hnext, hreply⟩ := hlap
    refine ⟨hstate, _, hnext, ?_⟩
    intro rx' hrx' req hreq
    obtain rfl : rx = rx' := Option.some.inj hrx'
    obtain ⟨hserve, hlength⟩ := serveFrame_eq port hreq (boardState d)
    have hfits : rsp.length ≤ Twi.UPDATER_TX_BUF_SIZE := by
      rw [hreply req hreq, hserve, length_wire]
      exact Nat.add_le_add_right hlength 3
    rw [← hreply req hreq]
    exact List.take_of_length_le hfits

structure Answering (d : Twi.Main × β) (st : UpdSession × β) (told : Told) : Prop where
  state : boardState d = st
  listening : Listening d none told

theorem want_event {st : UpdSession × β} (h : Answering d st told) (timing : Timing) (nack : Bool) :
    let r := busEvent port t_entry timing (.want nack) d
    ∃ told', Answering r.2 st told' ∧ told'.rsp = told.rsp ∧
      (d.1.t.tx_first = true ∨ nack = false →
        r.1 = [told.rsp.getD told.next 0xFF] ∧ told'.next = told.next + 1) := by
  have hlisten := h.listening
  dsimp only
  rw [busEvent_eq port t_entry hlisten timing _ rfl]
  obtain ⟨hstate, -, hnext⟩ := busLap_listening port t_entry hlisten (.want nack) timing.tick
    (fun rx hrx => by cases hrx)
  refine ⟨_, ⟨hstate.trans h.state, hnext⟩, rfl, ?_⟩
  intro hloads
  have hload : Twi.poll (.want nack) d.1.t = Twi.load d.1.t := by
    unfold Twi.poll
    dsimp only
    rw [if_neg]
    rcases hloads with hfirst | hack
    · rw [hfirst]
      exact Bool.false_ne_true
    · rw [hack, Bool.and_false]
      exact Bool.false_ne_true
  have hloaded : (busLap port t_entry (.want nack) timing.tick d).1.loaded =
      [told.rsp.getD told.next 0xFF] := by
    rw [busLap_call, hload, Twi.received_loaded, Twi.load_eq, ← hlisten.serving.armed.next_byte]
    rfl
  exact ⟨hloaded, congrArg (told.next + ·) (congrArg List.length hloaded)⟩

def OfRead : BusEvent → Prop
  | .address read => read = true
  | .fault | .stop | .want _ | .idle => True
  | .byte _ => False

theorem read_event {st : UpdSession × β} (h : Answering d st told) (timing : Timing) {e : BusEvent}
    (he : OfRead e) :
    ∃ told', Answering (busEvent port t_entry timing e d).2 st told' ∧ told'.rsp = told.rsp := by
  have hlisten := h.listening
  cases e with
  | address read =>
    obtain rfl : read = true := he
    obtain ⟨-, hstate, -, told', hnext, hsame⟩ := address_event port t_entry hlisten timing true
      (fun rx hrx => by cases hrx)
    exact ⟨told', ⟨hstate.trans h.state, hnext⟩, (hsame rfl).2 rfl⟩
  | byte b => exact he.elim
  | want nack =>
    obtain ⟨told', hnext, hsame, -⟩ := want_event port t_entry h timing nack
    exact ⟨told', hnext, hsame⟩
  | fault =>
    rw [busEvent_eq port t_entry hlisten timing _ rfl]
    obtain ⟨hstate, -, hnext⟩ := busLap_listening port t_entry hlisten .fault timing.tick
      (fun rx hrx => by cases hrx)
    exact ⟨_, ⟨hstate.trans h.state, hnext⟩, rfl⟩
  | stop =>
    rw [busEvent_eq port t_entry hlisten timing _ rfl]
    obtain ⟨hstate, -, hnext⟩ := busLap_listening port t_entry hlisten .stop timing.tick
      (fun rx hrx => by cases hrx)
    exact ⟨_, ⟨hstate.trans h.state, hnext⟩, rfl⟩
  | idle =>
    rw [busEvent_eq port t_entry hlisten timing _ rfl]
    obtain ⟨hstate, -, hnext⟩ := busLap_listening port t_entry hlisten .idle timing.tick
      (fun rx hrx => by cases hrx)
    exact ⟨_, ⟨hstate.trans h.state, hnext⟩, rfl⟩

end Events

end OtaUpdater.System
