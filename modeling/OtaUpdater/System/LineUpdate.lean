import OtaUpdater.System.Line

/-!
# Updates over a UART line

The host's session on its own UART transport, byte by byte, and at the other end the
main loop. The line is slow but loses nothing.
-/

open OtaUpdater.Lib.Mealy OtaUpdater.Lib.Repeat OtaUpdater.Lib.State OtaUpdater.Wire OtaUpdater.Device
open OtaUpdater.Host OtaUpdater.Agreement

namespace OtaUpdater.System

/-! ## The transport -/

structure LineWorld where
  u : Uart
  calls : Nat
  failures : Nat

section Transport

variable (program : Program) (t_entry : UInt16)

/-- In call `i` of `request` the moves `schedule i` happen; it returns the frame that it received, if
it did. -/
def lineTransport (schedule : Nat → List (Move Unit)) : Transport LineWorld Unit where
  request w req rsp :=
    let u := w.u.request program t_entry req rsp (schedule w.calls)
    match u.receipts.drop w.u.receipts.length with
    | [] => ((.error (), rsp), { u, calls := w.calls + 1, failures := w.failures + 1 })
    | receipt :: _ =>
      ((.ok (min receipt.frame.length rsp.length), fill rsp receipt.frame),
        { u, calls := w.calls + 1, failures := w.failures })
  length_rsp := by
    intro w req rsp
    dsimp only
    split
    · rfl
    · exact length_fill _ _

theorem lineTransport_u (schedule : Nat → List (Move Unit)) (w : LineWorld) (req rsp : List UInt8) :
    ((lineTransport program t_entry schedule).request w req rsp).2.u =
      w.u.request program t_entry req rsp (schedule w.calls) := by
  unfold lineTransport
  dsimp only
  split <;> rfl

end Transport

def lineSession (u : Uart) (buf : List UInt8) : Session LineWorld :=
  { transport := { u, calls := 0, failures := 0 }, buf, progress := [] }

/-! ## The plain array as a board -/

section Update

variable {program : Program} (hblank : program.Fills) (hagain : program.Repeats) {info : PortInfo}
  {img : Image}

include hblank hagain in
theorem array_stands : Stands (κ := Unit) (arrayPort info program) info (fun b _ _ => b) Eq
    (fun _ => True) where
  handles := by
    rintro s f _ req hs rfl hwritable
    have hsame := program_as_store hblank hagain hs hwritable UPDATER_RSP_PAYLOAD_MAX
    exact ⟨congrArg Prod.fst hsame, congrArg Prod.snd hsame⟩
  reads := by
    intros
    trivial
  last := by
    intros
    trivial
  reset := by
    rintro f _ how rfl
    exact ⟨f, rfl, fun _ => ⟨rfl, trivial⟩⟩
  cut := by
    rintro s f _ req how hs rfl hwritable
    exact ⟨f, rfl, fun _ _ _ => ⟨rfl, trivial⟩⟩

abbrev ArrayReady (img : Image) (info : PortInfo) (n : Nat) (d : UpdSession × Flash) : Prop :=
  BoardReady img info Eq (fun _ : Flash => True) n d

variable (hpage : info.page_size.toNat ≤ 131)

include hblank hagain hpage in
theorem replyStep_ready {n : Nat} {d : UpdSession × Flash} (h : ArrayReady img info n d)
    {req : UpdFrame} (hreceive : receiveFrame (requestFrame img n) = some req) :
    let d' := (replyStep program d req).2
    ArrayReady img info n d' ∧ ArrayReady img info (n + 1) d' ∧
      ∃ rest, (replyStep program d req).1 = wire ((request img n).1 ||| RSP_FLAG) (ST_OK :: rest) ∧
        rest.length + 4 ≤ responseRoom n ∧ (n = 0 → InfoMatches (ε := Unit) img rest) := by
  have hstands : Stands (κ := Unit) (arrayPort info program) info (fun b _ _ => b) Eq (fun _ => True) :=
    array_stands hblank hagain
  obtain ⟨f, -, hready⟩ := h.ready
  have hinfo : d.1.info = info := hready.stage.info
  have hserve : serveFrame (arrayPort info program) (requestFrame img n) d = replyStep program d req := by
    obtain ⟨hframe, -⟩ := serveFrame_eq (arrayPort info program) hreceive d
    rw [hframe]
    unfold replyStep
    rw [hinfo]
  obtain ⟨rest, hgranted, hroom, hmatch⟩ := boardReady_willing (ε := Unit) hstands hpage n d h
  have hgranted : (serveFrame (arrayPort info program) (requestFrame img n) d).1 = _ := hgranted
  dsimp only
  rw [← hserve]
  refine ⟨boardReady_served hstands hpage n d h, ?_, rest, hgranted, hroom, hmatch⟩
  apply boardReady_granted (ε := Unit) hstands hpage n d rest h hgranted
  rcases Nat.eq_zero_or_pos n with hzero | hpos
  · exact Or.inl (hmatch hzero)
  · exact Or.inr (by omega)

theorem settled_info (u : Uart) : (u.settled program).1.info = u.main.s.info := by
  unfold Uart.settled
  generalize u.ahead.1 = reqs
  generalize u.main.s = s
  generalize u.flash = f
  induction reqs generalizing s f with
  | nil => rfl
  | cons req reqs ih =>
    rw [runAll_cons]
    exact (ih _ _).trans (upd_handle_info_eq (arrayPort s.info program) s req f UPDATER_RSP_PAYLOAD_MAX)

/-! ## However late the answers are -/

section Lands

variable {B : Nat} (t_entry : UInt16) {schedule : Nat → List (Move Unit)}
  (hmoves : ∀ i, ∀ move ∈ schedule i, move.Patient)

include hblank hagain hpage hmoves in
theorem line_serves (hB : 136 ≤ B) (n : Nat) :
    Serves (lineTransport program t_entry schedule) (requestFrame img n) (responseRoom n)
      ((request img n).1 ||| RSP_FLAG)
      (fun _ w => Waiting info B w.u ∧ ArrayReady img info n (w.u.settled program))
      (fun _ w => Waiting info B w.u ∧ ArrayReady img info (n + 1) (w.u.settled program))
      (fun _ => True) := by
  rintro k w rx ⟨hwaiting, hready⟩ hrx
  obtain ⟨req, hreceive, -, hcmd, hpayload⟩ := request_received_of_fits hpage n
    (fun _ => hready.fits)
  have hlength : (requestFrame img n).length ≤ B := Nat.le_trans (receiveFrame_length hreceive) hB
  obtain ⟨hnext, hsettled⟩ := request_serving program t_entry hwaiting rx hcmd hpayload (request_not_boot n) hlength
    (schedule w.calls) (hmoves w.calls)
  obtain ⟨hagain', hdone, -⟩ := replyStep_ready hblank hagain hpage hready hreceive
  have hu := lineTransport_u program t_entry schedule w (requestFrame img n) rx
  dsimp only at hnext hsettled hagain' hdone ⊢
  rw [← hsettled] at hagain' hdone
  rw [hu]
  exact ⟨fun _ _ => ⟨hnext, hdone⟩, fun _ => ⟨hnext, hagain'⟩, fun _ _ => trivial⟩

include hblank hagain hpage hmoves in
theorem line_update (hB : 136 ≤ B) (hfits : Fits img info) {u : Uart} (hu : Waiting info B u)
    (buf : List UInt8)
    (hok : (flash (lineTransport program t_entry schedule) img (lineSession u buf)).1 = .ok ()) :
    let u' := (flash (lineTransport program t_entry schedule) img (lineSession u buf)).2.transport.u
    Waiting info B u' ∧ ArrayReady img info (3 + img.pages.length) (u'.settled program) := by
  have hinfo : (u.settled program).1.info = info :=
    (settled_info u).trans hu.updating.settled.geometry
  have hstages := flash_stages img (lineTransport program t_entry schedule) buf.length
    (fun n _ w => Waiting info B w.u ∧ ArrayReady img info n (w.u.settled program)) (fun _ => True) []
    (fun _ _ _ => trivial) (fun _ _ _ _ => trivial) ?_
  · have hrun := hstages (lineSession u buf)
      ⟨⟨hu, boardStage_start hinfo rfl, hfits, fun h => by omega⟩, rfl, rfl⟩
    rcases hflash : flash (lineTransport program t_entry schedule) img (lineSession u buf) with
      ⟨e | _, session⟩
    · rw [hflash] at hok
      cases hok
    · rw [hflash] at hrun
      exact hrun.transport
  · intro n _
    refine (line_serves hblank hagain hpage t_entry hmoves hB n).weaken _ ?_ (fun _ _ => trivial)
    intro rest w hnext
    exact ⟨fun _ => hnext, fun _ => trivial⟩

end Lands

end Update

/-! ## Catching up -/

section Laps

variable (program : Program) (t_entry : UInt16)

theorem run_idle (moves : List (Move Unit)) (hmoves : ∀ move ∈ moves, move.Patient) {u : Uart}
    (hu : u.phase = .idle) : (u.run program t_entry moves).phase = .idle := by
  induction moves generalizing u with
  | nil => exact hu
  | cons move moves ih =>
    refine ih (fun m hm => hmoves m (List.mem_cons_of_mem _ hm)) ?_
    have hmove := hmoves move List.mem_cons_self
    cases move with
    | call req rsp => exact hmove.elim
    | writeFails e => exact hmove.elim
    | lap n tick => exact hu
    | set_poll attempts => simp only [Uart.step, hu]
    | drain n => simp only [Uart.step, hu]
    | write n => simp only [Uart.step, hu]
    | read n => simp only [Uart.step, hu]
    | readFails e => simp only [Uart.step, hu]

theorem lap_takes {info : PortInfo} {u : Uart} (hu : u.main.Settled info) (n : Nat) (tick : UInt16)
    (hn : u.up.length ≤ n) :
    (u.lap program t_entry n tick).up = [] ∧
      (u.lap program t_entry n tick).main.fifo.length ≤ u.main.fifo.length + u.up.length - 1 := by
  obtain ⟨-, hfifo, -⟩ := lapStep_line program t_entry tick (u.main, u.flash) (u.up.take n) hu
  have hless := link_poll_rest_length u.main.lnk (u.main.fifo ++ u.up.take n)
  have hnone := link_poll_none u.main.lnk (u.main.fifo ++ u.up.take n)
  have hlength : (u.main.fifo ++ u.up.take n).length = u.main.fifo.length + u.up.length := by
    rw [List.length_append, List.take_of_length_le hn]
  refine ⟨List.drop_of_length_le hn, ?_⟩
  have hrest : (u.lap program t_entry n tick).main.fifo =
      (link_poll u.main.lnk (u.main.fifo ++ u.up.take n)).2.2 := hfifo
  rw [hrest]
  rcases hout : (link_poll u.main.lnk (u.main.fifo ++ u.up.take n)).1 with _ | req
  · rw [hnone hout]
    exact Nat.zero_le _
  · have := hless (by rw [hout]; rfl)
    omega

theorem laps_catch_up {info : PortInfo} (k : Nat) {u : Uart} (hu : u.main.Settled info) (n : Nat)
    (tick : UInt16) (hn : u.up.length ≤ n) (hk : u.main.fifo.length + u.up.length ≤ k) :
    let v := u.run program t_entry (List.replicate k (.lap n tick : Move Unit))
    v.main.fifo = [] ∧ v.up = [] := by
  induction k generalizing u with
  | zero =>
    have hfifo : u.main.fifo = [] := List.length_eq_zero_iff.mp (by omega)
    have hup : u.up = [] := List.length_eq_zero_iff.mp (by omega)
    exact ⟨hfifo, hup⟩
  | succ k ih =>
    have hsettled : (u.lap program t_entry n tick).main.Settled info :=
      (lapStep_cases program t_entry (u.main, u.flash) (u.up.take n, tick) hu).1
    obtain ⟨hup, hfifo⟩ := lap_takes program t_entry hu n tick hn
    have hzero := congrArg List.length hup
    rw [List.length_nil] at hzero
    exact ih (u := u.lap program t_entry n tick) hsettled (by omega) (by omega)

end Laps

/-- However late the answers come, and however often the host gives up and asks again: an update that
says it is done will be in the flash, as soon as the device has read what was written to it. -/
theorem uart_flash_lands (program : Program) (hblank : program.Fills) (hagain : program.Repeats)
    (t_entry : UInt16) (img : Image) (info : PortInfo) (hpage : info.page_size.toNat ≤ 131)
    (hps : info.page_size = img.page_size) (hap : info.app_pages = img.app_pages) (B : Nat) (hB : 136 ≤ B)
    (u : Uart) (hu : Waiting info B u) (schedule : Nat → List (Move Unit))
    (hmoves : ∀ i, ∀ move ∈ schedule i, move.Patient) (buf : List UInt8)
    (hok : (flash (lineTransport program t_entry schedule) img (lineSession u buf)).1 = .ok ()) :
    let u' := (flash (lineTransport program t_entry schedule) img (lineSession u buf)).2.transport.u
    (∀ more : List (Move Unit), (∀ move ∈ more, move.Patient) →
      let v := u'.run program t_entry more
      v.main.fifo = [] → v.up = [] → region info v.flash = img.content ∧
        (upd_app_valid (arrayPort info program) info v.flash).1 = true) ∧
    ∀ n tick, u'.up.length ≤ n →
      let v := u'.run program t_entry
        (List.replicate (u'.main.fifo.length + u'.up.length) (.lap n tick : Move Unit))
      v.main.fifo = [] ∧ v.up = [] := by
  obtain ⟨hwaiting, hready⟩ := line_update hblank hagain hpage t_entry hmoves hB ⟨hps, hap⟩ hu buf hok
  dsimp only at hwaiting hready ⊢
  generalize (flash (lineTransport program t_entry schedule) img (lineSession u buf)).2.transport.u = u'
    at hwaiting hready ⊢
  constructor
  · intro more hmore hfifo hup
    obtain ⟨hserving, -⟩ := run_serving program t_entry more hmore hwaiting.updating
    have hidle := run_idle program t_entry more hmore hwaiting.idle
    generalize u'.run program t_entry more = v at hserving hidle hfifo hup ⊢
    have hcaught : v.settled program = (v.main.s, v.flash) := by
      unfold Uart.settled Uart.ahead Uart.coming
      rw [hfifo, hup, hidle]
      rfl
    rw [← hserving.settled, hcaught] at hready
    obtain ⟨-, -, -, f, hflash, hregion⟩ := boardStage_end hready.stage
    have hflash : v.flash = f := hflash
    rw [hflash]
    refine ⟨hregion, ?_⟩
    rw [upd_app_valid_array, hregion, decide_eq_true_iff]
    exact appValid_content img
  · intro n tick hn
    exact laps_catch_up program t_entry _ hwaiting.updating.settled n tick hn (Nat.le_refl _)

end OtaUpdater.System
