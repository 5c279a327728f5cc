import Mathlib.Tactic.Common

/-!
# The polled TWI client (`avr_ea_twi/twi.c`)

One call of `twi_poll` sees one value of SSTATUS and at most one of SDATA. What it does
to the registers, and where it indexes `rx_buf`, comes back as a list of accesses.
-/

namespace OtaUpdater.Device.Twi

def UPDATER_RX_BUF_SIZE : Nat := 136
def UPDATER_TX_BUF_SIZE : Nat := 20

/-! ## Registers -/

/-- The flags of SSTATUS that the code looks at. -/
structure Sstatus where
  BUSERR : Bool
  COLL : Bool
  APIF : Bool
  AP : Bool
  DIR : Bool
  DIF : Bool
  RXACK : Bool
deriving DecidableEq, Repr

inductive Access where
  /-- BUSERR and COLL, written to clear them. -/
  | SSTATUS
  | SCMD_RESPONSE
  | SCMD_COMPTRANS
  | SDATA (byte : UInt8)
  | rx_buf (index : Nat)
deriving DecidableEq, Repr

/-- The statics of the file. Every length is checked against a buffer before it grows. -/
structure Statics where
  rx_buf : List UInt8
  rx_len : Nat
  rx_frame : Nat
  rx_over : Bool
  rx_done : Bool
  in_write : Bool
  awaiting : Bool
  tx_buf : List UInt8
  tx_len : Nat
  tx_idx : Nat
  tx_first : Bool
  tx_active : Bool
  tx_consumed : Bool
deriving DecidableEq, Repr

def statics_init : Statics where
  rx_buf := List.replicate UPDATER_RX_BUF_SIZE 0
  rx_len := 0
  rx_frame := 0
  rx_over := false
  rx_done := false
  in_write := false
  awaiting := false
  tx_buf := List.replicate UPDATER_TX_BUF_SIZE 0
  tx_len := 0
  tx_idx := 0
  tx_first := false
  tx_active := false
  tx_consumed := false

/-! ## Polling -/

def end_read_txn (t : Statics) : Statics :=
  let t := { t with tx_active := false, tx_first := false }
  if t.tx_len ≠ 0 ∧ t.tx_idx ≥ t.tx_len then { t with tx_consumed := true } else t

/-- The lines that end a write segment, at a repeated start and at a Stop: whole frame or nothing. -/
def end_write_txn (t : Statics) : Statics :=
  let t := { t with in_write := false }
  let t := if t.rx_len ≠ 0 ∧ !t.rx_over then { t with rx_done := true, rx_frame := t.rx_len } else t
  { t with rx_len := 0, rx_over := false }

def twi_poll (st : Sstatus) (sdata : UInt8) (t : Statics) : List Access × Statics :=
  if st.BUSERR || st.COLL then
    ([.SSTATUS], { t with
      rx_len := 0, rx_over := false, in_write := false, tx_active := false, tx_first := false })
  else if st.APIF then
    if st.AP then
      let t := if t.in_write then end_write_txn t else t
      -- The address stays pending, and SCL stretched, until `main` catches up.
      if t.rx_done || t.awaiting then ([], t)
      else
        let t :=
          if st.DIR then { t with tx_first := true, tx_idx := 0, tx_active := true }
          else { t with in_write := true, rx_len := 0, rx_over := false, tx_len := 0 }
        ([.SCMD_RESPONSE], t)
    else
      let t := if t.tx_active then end_read_txn t else t
      let t := if t.in_write then end_write_txn t else t
      ([.SCMD_COMPTRANS], t)
  else if st.DIF then
    if st.DIR then
      if !t.tx_first && st.RXACK then ([.SCMD_COMPTRANS], end_read_txn t)
      else
        let t := { t with tx_first := false }
        if t.tx_idx < t.tx_len then
          ([.SDATA (t.tx_buf.getD t.tx_idx 0), .SCMD_RESPONSE], { t with tx_idx := t.tx_idx + 1 })
        else ([.SDATA 0xFF, .SCMD_RESPONSE], t)
    else if t.in_write then
      if t.rx_len < UPDATER_RX_BUF_SIZE then
        ([.rx_buf t.rx_len, .SCMD_RESPONSE],
          { t with rx_buf := t.rx_buf.set t.rx_len sdata, rx_len := t.rx_len + 1 })
      else ([.SCMD_RESPONSE], { t with rx_over := true })
    else ([.SCMD_RESPONSE], t)
  else ([], t)

/-! ## The port contract -/

/-- The frame that is handed over, if there is one, and the accesses on the way. -/
def port_recv (st : Sstatus) (sdata : UInt8) (t : Statics) :
    (Option (List UInt8) × List Access) × Statics :=
  let (accesses, t) := twi_poll st sdata t
  if !t.rx_done then ((none, accesses), t)
  else
    ((some (t.rx_buf.take t.rx_frame), accesses ++ (List.range t.rx_frame).map .rx_buf),
      { t with rx_done := false, awaiting := true, tx_len := 0, tx_consumed := false })

/-- `rsp` is what `buf` shows, `len` bytes of it. -/
def port_send (rsp : List UInt8) (t : Statics) : Statics :=
  let len := if rsp.length > UPDATER_TX_BUF_SIZE then UPDATER_TX_BUF_SIZE else rsp.length
  { t with
    tx_buf := rsp.take len ++ t.tx_buf.drop len
    tx_len := len
    tx_idx := 0
    tx_consumed := false
    awaiting := false }

def twi_response_consumed (t : Statics) : Bool := t.tx_consumed

/-! ## What was seen on the bus -/

/-- One value of SSTATUS, in the order in which its flags count. -/
inductive BusEvent where
  | fault
  | address (read : Bool)
  | stop
  | want (nack : Bool)
  | byte (d : UInt8)
  | idle
deriving DecidableEq, Repr

def Sstatus.event (st : Sstatus) (sdata : UInt8) : BusEvent :=
  if st.BUSERR || st.COLL then .fault
  else if st.APIF then if st.AP then .address st.DIR else .stop
  else if st.DIF then if st.DIR then .want st.RXACK else .byte sdata
  else .idle

/-- Registers in which the event is seen. -/
def BusEvent.registers (e : BusEvent) : Sstatus × UInt8 :=
  let quiet : Sstatus :=
    { BUSERR := false, COLL := false, APIF := false, AP := false, DIR := false, DIF := false, RXACK := false }
  match e with
  | .fault => ({ quiet with BUSERR := true }, 0)
  | .address read => ({ quiet with APIF := true, AP := true, DIR := read }, 0)
  | .stop => ({ quiet with APIF := true }, 0)
  | .want nack => ({ quiet with DIF := true, DIR := true, RXACK := nack }, 0)
  | .byte d => ({ quiet with DIF := true }, d)
  | .idle => (quiet, 0)

theorem BusEvent.registers_event (e : BusEvent) : e.registers.1.event e.registers.2 = e := by
  cases e with
  | address read => rfl
  | want nack => rfl
  | fault | stop | byte _ | idle => rfl

def load (t : Statics) : List Access × Statics :=
  if t.tx_idx < t.tx_len then
    ([.SDATA (t.tx_buf.getD t.tx_idx 0), .SCMD_RESPONSE],
      { t with tx_first := false, tx_idx := t.tx_idx + 1 })
  else ([.SDATA 0xFF, .SCMD_RESPONSE], { t with tx_first := false })

def store (d : UInt8) (t : Statics) : List Access × Statics :=
  if t.in_write then
    if t.rx_len < UPDATER_RX_BUF_SIZE then
      ([.rx_buf t.rx_len, .SCMD_RESPONSE],
        { t with rx_buf := t.rx_buf.set t.rx_len d, rx_len := t.rx_len + 1 })
    else ([.SCMD_RESPONSE], { t with rx_over := true })
  else ([.SCMD_RESPONSE], t)

def match_address (read : Bool) (t : Statics) : List Access × Statics :=
  if t.rx_done || t.awaiting then ([], t)
  else if read then ([.SCMD_RESPONSE], { t with tx_first := true, tx_idx := 0, tx_active := true })
  else ([.SCMD_RESPONSE], { t with in_write := true, rx_len := 0, rx_over := false, tx_len := 0 })

def poll : BusEvent → Statics → List Access × Statics
  | .fault, t => ([.SSTATUS], { t with
      rx_len := 0, rx_over := false, in_write := false, tx_active := false, tx_first := false })
  | .address read, t => match_address read (if t.in_write then end_write_txn t else t)
  | .stop, t =>
    let t := if t.tx_active then end_read_txn t else t
    ([.SCMD_COMPTRANS], if t.in_write then end_write_txn t else t)
  | .want nack, t =>
    if !t.tx_first && nack then ([.SCMD_COMPTRANS], end_read_txn t) else load t
  | .byte d, t => store d t
  | .idle, t => ([], t)

theorem twi_poll_event (st : Sstatus) (sdata : UInt8) (t : Statics) :
    twi_poll st sdata t = poll (st.event sdata) t := by
  obtain ⟨buserr, coll, apif, ap, dir, dif, rxack⟩ := st
  unfold twi_poll Sstatus.event
  dsimp only
  rcases hfault : (buserr || coll)
  · rcases apif
    · rcases dif
      · rfl
      · rcases dir
        · rfl
        · rfl
    · rcases ap
      · rfl
      · rcases dir
        · rfl
        · rfl
  · rfl

end OtaUpdater.Device.Twi
