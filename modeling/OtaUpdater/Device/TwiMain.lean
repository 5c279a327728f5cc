import OtaUpdater.Device.MainLoop
import OtaUpdater.Device.TwiServe

/-!
# The TWI main loop (`avr_ea_twi/main.c`)

One lap of the `for (;;)` is one step, over any flash. What the environment decides in
a lap is its input: SSTATUS and SDATA, and the tick it reads.
-/

open OtaUpdater.Lib.Run OtaUpdater.Lib.State OtaUpdater.Wire

namespace OtaUpdater.Device.Twi

/-! ## The loop -/

/-- What can be seen of a lap from outside, in order. A request is `none` if it did not parse. -/
inductive Event where
  | call (c : Call)
  | handled (req : Option UpdFrame) (answer : List UInt8)
  | booted (valid : Bool)
  | entered (valid : Bool)
deriving DecidableEq

/-- The statics and locals of `main`, those of `twi.c` among them. -/
structure Main where
  t : Statics
  s : UpdSession
  resident : Bool
  tx : List UInt8

/-- Everything before the loop; `entry` is `port_entry_requested`. -/
def main_init (info : PortInfo) (entry : Bool) : Main where
  t := statics_init
  s := upd_init info
  resident := entry
  tx := List.replicate UPDATER_TX_BUF_SIZE 0

section Lap

variable {σ : Type} (P : Port σ) (t_entry : UInt16)

/-- The command that the reply names, its payload, and the session after it. -/
def handle_rx (s : UpdSession) (rx : List UInt8) : Option UpdFrame →
    StateM σ (UInt8 × List UInt8 × UpdSession)
  | some req => do
    let (s, payload) ← upd_handle P s req UPDATER_RSP_PAYLOAD_MAX
    return (req.cmd, payload, s)
  | none => return (rx.getD 0 0, [UPD_ST_BAD_FRAME], s)

def answer_frame (m : Main) (rx : List UInt8) : StateM σ (List Event × Main) := do
  let req := upd_frame_parse rx (UInt8.ofNat rx.length)
  let (cmd, payload, s) ← handle_rx P m.s rx req
  let (n, tx) := upd_frame_build m.tx (UInt8.ofNat UPDATER_TX_BUF_SIZE) (cmd ||| UPD_RSP_FLAG)
    (.apart payload) (UInt8.ofNat payload.length)
  let rsp := tx.take n.toNat
  return ([.handled req payload, .call (.port_send rsp)],
    { t := port_send rsp m.t, s, resident := m.resident || req.isSome, tx })

/-- A single attempt, whatever the gate says. -/
def boot_after_reply (m : Main) : StateM σ (List Event × Main) := do
  if m.s.boot_pending && twi_response_consumed m.t then
    let valid ← upd_boot_if_valid P m.s.info
    return ([.booted valid], { m with s := { m.s with boot_pending := false } })
  else return ([], m)

def entry_window (m : Main) (tick : UInt16) : StateM σ (List Event × Main) := do
  if m.resident = false ∧ tick ≥ t_entry then
    let valid ← upd_boot_if_valid P m.s.info
    return ([.entered valid], if valid then m else { m with resident := true })
  else return ([], m)

/-- A gate that holds does not return, so what follows a jump stands for nothing. -/
def lap (m : Main) (input : Sstatus × UInt8 × UInt16) : StateM σ (List Event × Main) := do
  let ((frame, accesses), t) := port_recv input.1 input.2.1 m.t
  let received := Event.call (.port_recv (input.1.event input.2.1) accesses frame)
  let m := { m with t }
  let (answered, m) ← match frame with
    | some rx => answer_frame P m rx
    | none => pure ([], m)
  let (booted, m) ← boot_after_reply P m
  let (entered, m) ← entry_window P t_entry m input.2.2
  return (received :: answered ++ booted ++ entered, m)

def lapStep (st : Main × σ) (input : Sstatus × UInt8 × UInt16) : List Event × (Main × σ) :=
  let r := lap P t_entry st.1 input st.2
  (r.1.1, (r.1.2, r.2))

abbrev LapRecord (σ : Type) := Record (Main × σ) (Sstatus × UInt8 × UInt16) (List Event)

def mainRun (info : PortInfo) (entry : Bool) (st : σ) (laps : List (Sstatus × UInt8 × UInt16)) :
    List (LapRecord σ) :=
  records (lapStep P t_entry) (main_init info entry, st) laps

def logged (laps : List (LapRecord σ)) : List Event := laps.flatMap (·.output)

end Lap

end OtaUpdater.Device.Twi
