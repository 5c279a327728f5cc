import OtaUpdater.System.Boards
import OtaUpdater.System.Freshness

/-!
# Requests under way

Whatever the timing, a line that loses nothing brings every request to the device, in
order. So where the device will be once it has caught up is settled as soon as a request
is written, however late the answer is.
-/

open OtaUpdater.Lib.Mealy OtaUpdater.Lib.Repeat OtaUpdater.Wire OtaUpdater.Device OtaUpdater.Host
open OtaUpdater.Agreement

namespace OtaUpdater.System

/-! ## What is under way -/

def Phase.left : Phase → List UInt8
  | .writing _ left _ => left
  | .idle | .reading _ _ => []

def Uart.coming (u : Uart) : List UInt8 := u.main.fifo ++ u.up ++ u.phase.left

def Uart.ahead (u : Uart) : List UpdFrame × Link := feed link_byte u.main.lnk u.coming

section Replies

variable (program : Program)

/-- One request on a plain array, with the frame of the answer. -/
def replyStep (st : UpdSession × Flash) (req : UpdFrame) : List UInt8 × (UpdSession × Flash) :=
  let r := upd_handle (arrayPort st.1.info program) st.1 req UPDATER_RSP_PAYLOAD_MAX st.2
  (wire (req.cmd ||| UPD_RSP_FLAG) r.1.2, (r.1.1, r.2))

def Uart.settled (u : Uart) : UpdSession × Flash :=
  (runAll (replyStep program) (u.main.s, u.flash) u.ahead.1).2

/-- From `u` to `u'` the device took in requests `done` that were under way, and answered them. -/
def Serving (u u' : Uart) : Prop :=
  ∃ done new, u.ahead = (done ++ u'.ahead.1, u'.ahead.2) ∧
    runAll (replyStep program) (u.main.s, u.flash) done =
      (new.map Reply.frame, (u'.main.s, u'.flash)) ∧
    u'.replies = u.replies ++ new

variable {program}

theorem Serving.refl (u : Uart) : Serving program u u := ⟨[], [], rfl, rfl, (List.append_nil _).symm⟩

theorem Serving.trans {u v w : Uart} (h : Serving program u v) (h' : Serving program v w) :
    Serving program u w := by
  obtain ⟨done, new, hahead, hrun, hreplies⟩ := h
  obtain ⟨done', new', hahead', hrun', hreplies'⟩ := h'
  refine ⟨done ++ done', new ++ new', ?_, ?_, ?_⟩
  · rw [hahead, hahead', List.append_assoc]
  · rw [runAll_append, hrun, hrun', List.map_append]
  · rw [hreplies', hreplies, List.append_assoc]

theorem Serving.settled {u u' : Uart} (h : Serving program u u') : u'.settled program = u.settled program := by
  obtain ⟨done, new, hahead, hrun, -⟩ := h
  unfold Uart.settled
  rw [hahead, runAll_append, hrun]

theorem serving_of_same {u u' : Uart} (hmain : u'.main = u.main) (hflash : u'.flash = u.flash)
    (hcoming : u'.coming = u.coming) (hreplies : u'.replies = u.replies) : Serving program u u' := by
  refine ⟨[], [], ?_, ?_, ?_⟩
  · unfold Uart.ahead
    rw [hcoming, hmain]
    rfl
  · rw [hmain, hflash]
    rfl
  · rw [hreplies, List.append_nil]

end Replies

/-! ## Laps -/

/-- The device is in update mode, and no request under way ends that. -/
structure Updating (info : PortInfo) (u : Uart) : Prop where
  settled : u.main.Settled info
  resident : u.main.resident = true
  no_boot : ∀ req ∈ u.ahead.1, req.cmd ≠ UPD_CMD_BOOT

theorem link_poll_none (l : Link) (xs : List UInt8) (h : (link_poll l xs).1 = none) :
    (link_poll l xs).2.2 = [] := by
  induction xs generalizing l with
  | nil => rfl
  | cons b xs ih =>
    unfold link_poll at h ⊢
    rcases hbyte : link_byte l b with ⟨l', _ | out⟩
    · rw [hbyte] at h
      exact ih l' h
    · rw [hbyte] at h
      cases h

section Moves

variable {info : PortInfo} (program : Program) (t_entry : UInt16)

theorem lap_serving {u : Uart} (hu : Updating info u) (n : Nat) (tick : UInt16) :
    Serving program u (u.lap program t_entry n tick) ∧
      (u.lap program t_entry n tick).main.Settled info ∧
      (u.lap program t_entry n tick).main.resident = true := by
  have hsettled := (lapStep_cases program t_entry (u.main, u.flash) (u.up.take n, tick) hu.settled).1
  obtain ⟨hlnk, hfifo, -⟩ := lapStep_line program t_entry tick (u.main, u.flash) (u.up.take n) hu.settled
  have hlap := lapStep_resident program t_entry tick (u.main, u.flash) (u.up.take n) hu.settled hu.resident
  have hpoll := feed_eq_link_poll u.main.lnk (u.main.fifo ++ u.up.take n)
  have hnone := link_poll_none u.main.lnk (u.main.fifo ++ u.up.take n)
  have hinfo := hu.settled.geometry
  have hahead : u.ahead = feed link_byte u.main.lnk
      ((u.main.fifo ++ u.up.take n) ++ (u.up.drop n ++ u.phase.left)) := by
    unfold Uart.ahead Uart.coming
    rw [line_split u u.phase.left n]
  have hno_boot := hu.no_boot
  rw [hahead, feed_append] at hno_boot
  unfold Serving
  rw [hahead, feed_append]
  unfold Uart.ahead Uart.coming Uart.lap
  dsimp only at hlnk hfifo hlap ⊢
  generalize link_poll u.main.lnk (u.main.fifo ++ u.up.take n) = polled at *
  generalize lapStep program t_entry (u.main, u.flash) (u.up.take n, tick) = r at *
  obtain ⟨out, lnk, rest⟩ := polled
  obtain ⟨events, main, flash⟩ := r
  dsimp only at hsettled hlnk hfifo hlap hpoll hnone ⊢
  subst hlnk hfifo
  cases out with
  | none =>
    obtain ⟨hs, hresident, hflash⟩ := hlap
    dsimp only at hpoll
    refine ⟨⟨[], [], ?_, ?_, ?_⟩, hsettled, hresident⟩
    · rw [hpoll, hnone rfl]
      simp
    · rw [hs, hflash]
      rfl
    · simp
  | some req =>
    dsimp only at hpoll
    rw [hpoll] at hno_boot
    obtain ⟨hs, hresident, hflash, hsent⟩ := hlap (hno_boot req (by simp))
    refine ⟨⟨[req], [{ sync := _, frame := (sentBytes events).drop 1, finish := _ }], ?_, ?_, rfl⟩,
      hsettled, hresident⟩
    · rw [hpoll]
      simp only [List.append_assoc, feed_append, List.cons_append, List.nil_append]
    · rw [hs, hflash, hsent]
      unfold runAll replyStep
      rw [hinfo]
      rfl

variable {E : Type}

/-- A move that neither begins a request nor breaks one off. -/
def Move.Patient : Move E → Prop
  | .call _ _ | .writeFails _ => False
  | .set_poll _ | .drain _ | .write _ | .read _ | .readFails _ | .lap _ _ => True

theorem left_written (started n : Nat) (left rsp : List UInt8) :
    (if left.drop n = [] then Phase.reading started (.new rsp)
      else .writing started (left.drop n) rsp).left = left.drop n := by
  split
  · rename_i hlast
    exact hlast.symm
  · rfl

theorem turn_serving (u : Uart) (started finish : Nat) (turn : Turn E) (r : Receiving)
    (hphase : u.phase.left = []) : Serving program u (Uart.turn u started finish turn r) := by
  cases turn with
  | again => exact serving_of_same rfl rfl (congrArg (u.main.fifo ++ u.up ++ ·) hphase.symm) rfl
  | fail e => exact serving_of_same rfl rfl (congrArg (u.main.fifo ++ u.up ++ ·) hphase.symm) rfl
  | done len => exact serving_of_same rfl rfl (congrArg (u.main.fifo ++ u.up ++ ·) hphase.symm) rfl

theorem turn_main (u : Uart) (started finish : Nat) (turn : Turn E) (r : Receiving) :
    (Uart.turn u started finish turn r).main = u.main := by
  cases turn <;> rfl

/-- Nothing but a lap touches the device, and what is under way only gets nearer to it. -/
theorem step_serving {u : Uart} (hu : Updating info u) (move : Move E) (hmove : move.Patient) :
    Serving program u (u.step program t_entry move) ∧
      Updating info (u.step program t_entry move) := by
  have hkept : Serving program u (u.step program t_entry move) ∧
      (u.step program t_entry move).main.Settled info ∧
      (u.step program t_entry move).main.resident = true := by
    have hsame : ∀ u' : Uart, u'.main = u.main → Serving program u u' →
        Serving program u u' ∧ u'.main.Settled info ∧ u'.main.resident = true := by
      intro u' hmain hserving
      rw [hmain]
      exact ⟨hserving, hu.settled, hu.resident⟩
    cases move with
    | lap n tick => exact lap_serving program t_entry hu n tick
    | call req rsp => exact hmove.elim
    | writeFails e => exact hmove.elim
    | set_poll attempts =>
      unfold Uart.step
      cases hp : u.phase with
      | idle => exact hsame _ rfl (serving_of_same rfl rfl (by unfold Uart.coming; rw [hp]) rfl)
      | writing started left rsp => exact hsame u rfl (.refl u)
      | reading started r => exact hsame u rfl (.refl u)
    | drain n =>
      unfold Uart.step
      cases hp : u.phase with
      | idle => exact hsame _ rfl (serving_of_same rfl rfl (by unfold Uart.coming; rw [hp]) rfl)
      | writing started left rsp => exact hsame u rfl (.refl u)
      | reading started r => exact hsame u rfl (.refl u)
    | write n =>
      unfold Uart.step
      cases hp : u.phase with
      | idle => exact hsame u rfl (.refl u)
      | reading started r => exact hsame u rfl (.refl u)
      | writing started left rsp =>
        refine hsame _ rfl (serving_of_same rfl rfl ?_ rfl)
        have hleft : u.phase.left = left := by rw [hp]; rfl
        unfold Uart.coming
        dsimp only
        rw [left_written, hleft]
        simp only [List.append_assoc, List.take_append_drop]
    | read n =>
      unfold Uart.step
      cases hp : u.phase with
      | idle => exact hsame u rfl (.refl u)
      | writing started left rsp => exact hsame u rfl (.refl u)
      | reading started r =>
        apply hsame
        · exact turn_main _ _ _ _ _
        · refine Serving.trans (v := { u with down := u.down.drop _, read := _ })
            (serving_of_same rfl rfl rfl rfl) (turn_serving program _ _ _ _ _ ?_)
          dsimp only
          rw [hp]
          rfl
    | readFails e =>
      unfold Uart.step
      cases hp : u.phase with
      | idle => exact hsame u rfl (.refl u)
      | writing started left rsp => exact hsame u rfl (.refl u)
      | reading started r =>
        apply hsame
        · exact turn_main _ _ _ _ _
        · refine turn_serving program _ _ _ _ _ ?_
          rw [hp]
          rfl
  obtain ⟨hserving, hsettled, hresident⟩ := hkept
  refine ⟨hserving, hsettled, hresident, ?_⟩
  obtain ⟨done, new, hahead, -⟩ := hserving
  intro req hreq
  apply hu.no_boot
  rw [hahead]
  exact List.mem_append_right _ hreq

theorem run_serving (moves : List (Move E)) (hmoves : ∀ move ∈ moves, move.Patient) {u : Uart}
    (hu : Updating info u) :
    Serving program u (u.run program t_entry moves) ∧ Updating info (u.run program t_entry moves) := by
  induction moves generalizing u with
  | nil => exact ⟨.refl u, hu⟩
  | cons move moves ih =>
    obtain ⟨hfirst, hnext⟩ := step_serving program t_entry hu move (hmoves move List.mem_cons_self)
    obtain ⟨hrest, hend⟩ := ih (fun m hm => hmoves m (List.mem_cons_of_mem _ hm)) hnext
    exact ⟨hfirst.trans hrest, hend⟩

end Moves

/-! ## A request over the line -/

section Request

variable {info : PortInfo} {B : Nat} (program : Program) (t_entry : UInt16)

/-- The end of a call that has gone on for long enough: what is left of the request is written, and
the wait is over. -/
def Uart.giveUp (u : Uart) : Uart :=
  let u := u.step program t_entry (.write u.phase.left.length : Move Unit)
  u.step program t_entry (.readFails () : Move Unit)

def Uart.request (u : Uart) (req rsp : List UInt8) (moves : List (Move Unit)) : Uart :=
  let u := u.step program t_entry (.call req rsp : Move Unit)
  (u.run program t_entry moves).giveUp program t_entry

theorem giveUp_idle (u : Uart) : (u.giveUp program t_entry).phase = .idle := by
  unfold Uart.giveUp Uart.step
  cases hp : u.phase with
  | idle => simp only [hp]
  | reading started r =>
    simp only [hp]
    rfl
  | writing started left rsp =>
    have hall : left.drop (Phase.writing started left rsp).left.length = [] := List.drop_length
    simp only [hall, if_true]
    rfl

theorem giveUp_serving {u : Uart} (hu : Updating info u) :
    Serving program u (u.giveUp program t_entry) ∧ Updating info (u.giveUp program t_entry) :=
  run_serving program t_entry [.write u.phase.left.length, .readFails ()] (by simp [Move.Patient]) hu

/-- Between two calls: the requests under way are whole ones. -/
structure Waiting (info : PortInfo) (B : Nat) (u : Uart) : Prop where
  idle : u.phase = .idle
  updating : Updating info u
  whole : u.ahead.2.Hunting B

theorem hunting_size_le {l : Link} (h : l.Hunting B) : B ≤ 255 := by
  have hlt := l.buf_len.toNat_lt
  have hsize := h.size
  omega

theorem call_ahead {u : Uart} (hu : Waiting info B u) (rsp : List UInt8) {cmd : UInt8} {payload : List UInt8}
    {req : UpdFrame} (hcmd : req.cmd = cmd) (hpayload : req.payload = payload) (hboot : cmd ≠ UPD_CMD_BOOT)
    (hfits : (wire cmd payload).length ≤ B) :
    let u' := u.step program t_entry (.call (wire cmd payload) rsp : Move Unit)
    u'.ahead.1 = u.ahead.1 ++ [req] ∧ u'.ahead.2.Hunting B ∧ Updating info u' ∧
      u'.settled program = (replyStep program (u.settled program) req).2 := by
  have hcall : u.step program t_entry (.call (wire cmd payload) rsp : Move Unit) =
      { u with phase := .writing u.written (request_bytes (wire cmd payload)) rsp } := by
    unfold Uart.step
    rw [hu.idle]
  have hcoming : u.coming = u.main.fifo ++ u.up := by
    unfold Uart.coming
    rw [hu.idle]
    exact List.append_nil _
  obtain ⟨l', req', hpoll, hhunting, hcmd', hpayload'⟩ := (link_poll_heard hfits (hunting_size_le hu.whole)
    (UPD_LINK_SYNC :: wire cmd payload) [] [] hu.whole (by simp)).2 rfl (List.cons_ne_nil _ _)
  obtain rfl : req' = req := frame_eq (hcmd'.trans hcmd.symm) (hpayload'.trans hpayload.symm)
  have hfeed := feed_eq_link_poll u.ahead.2 (UPD_LINK_SYNC :: wire cmd payload)
  rw [hpoll] at hfeed
  have hahead : (u.step program t_entry (.call (wire cmd payload) rsp : Move Unit)).ahead =
      (u.ahead.1 ++ [req'], l') := by
    rw [hcall]
    unfold Uart.ahead Uart.coming at hfeed hcoming ⊢
    rw [hcoming] at hfeed ⊢
    dsimp only [Phase.left, request_bytes] at hfeed ⊢
    have hsync : SYNC = UPD_LINK_SYNC := rfl
    rw [feed_append, hsync, hfeed]
    rfl
  have hmain : (u.step program t_entry (.call (wire cmd payload) rsp : Move Unit)).main = u.main := by
    rw [hcall]
  have hflash : (u.step program t_entry (.call (wire cmd payload) rsp : Move Unit)).flash = u.flash := by
    rw [hcall]
  dsimp only
  refine ⟨by rw [hahead], by rw [hahead]; exact hhunting, ⟨?_, ?_, ?_⟩, ?_⟩
  · rw [hmain]
    exact hu.updating.settled
  · rw [hmain]
    exact hu.updating.resident
  · rw [hahead]
    intro r hr
    rcases List.mem_append.mp hr with hold | hnew
    · exact hu.updating.no_boot r hold
    · rw [List.mem_singleton.mp hnew, hcmd]
      exact hboot
  · unfold Uart.settled
    rw [hahead, hmain, hflash, runAll_concat]

theorem request_serving {u : Uart} (hu : Waiting info B u) {cmd : UInt8} {payload : List UInt8}
    (rsp : List UInt8) {req : UpdFrame} (hcmd : req.cmd = cmd) (hpayload : req.payload = payload)
    (hboot : cmd ≠ UPD_CMD_BOOT) (hfits : (wire cmd payload).length ≤ B) (moves : List (Move Unit))
    (hmoves : ∀ move ∈ moves, move.Patient) :
    let u' := u.request program t_entry (wire cmd payload) rsp moves
    Waiting info B u' ∧ u'.settled program = (replyStep program (u.settled program) req).2 := by
  obtain ⟨-, hwhole, hupdating, hsettled⟩ := call_ahead program t_entry hu rsp hcmd hpayload
    hboot hfits
  obtain ⟨hrun, hran⟩ := run_serving program t_entry moves hmoves hupdating
  obtain ⟨hend, hended⟩ := giveUp_serving program t_entry hran
  have hserving := hrun.trans hend
  refine ⟨⟨giveUp_idle program t_entry _, hended, ?_⟩, hserving.settled.trans hsettled⟩
  obtain ⟨done, new, hahead, -⟩ := hserving
  have hlast := congrArg Prod.snd hahead
  dsimp only at hlast hwhole
  rw [hlast] at hwhole
  exact hwhole

end Request

end OtaUpdater.System
