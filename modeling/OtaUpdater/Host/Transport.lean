import OtaUpdater.Host.Spi
import OtaUpdater.Host.Uart

/-!
# One transport over any backend (`transport.rs`)

The I2C and the SPI backend, with the delays they insert, in nanoseconds. No request
changes a backend's budget.
-/

namespace OtaUpdater.Host

def u32_max (a b : UInt32) : UInt32 := if a < b then b else a

def saturating_mul (a b : UInt32) : UInt32 := UInt32.ofNat (min (a.toNat * b.toNat) 0xFFFFFFFF)

/-- Nobody divides by zero here. -/
def div_ceil (a b : UInt32) : UInt32 := UInt32.ofNat ((a.toNat + b.toNat - 1) / b.toNat)

structure PollBudget where
  attempts : UInt32
  delay_ms : UInt32
deriving DecidableEq, Repr

/-! ## I2C -/

inductive LinuxI2cError (E : Type) where
  | Write (e : E)
  | Exhausted (attempts : UInt32) (last : E)
deriving DecidableEq, Repr

/-- `poll_interval` is a `Duration`. -/
structure LinuxI2c where
  poll_attempts : UInt32
  poll_interval : Nat
deriving DecidableEq, Repr

def from_millis (millis : Nat) : Nat := millis * 1000000

/-- A fresh handle. -/
def LinuxI2c.new : LinuxI2c := { poll_attempts := 1, poll_interval := from_millis 10 }

def LinuxI2c.set_poll_budget (_self : LinuxI2c) (poll : PollBudget) : LinuxI2c where
  poll_attempts := u32_max poll.attempts 1
  poll_interval := from_millis poll.delay_ms.toNat

section I2c

variable {E : Type} (self : LinuxI2c)

/-- The poll loop, where attempt `i` reads `reads i`; `none` if it has not returned after `fuel`
attempts. Last comes what it slept. -/
def i2c_loop (reads : Nat → Except E (List UInt8)) :
    Nat → UInt32 → List UInt8 → Nat → Option (Except (LinuxI2cError E) Nat × List UInt8 × Nat)
  | 0, _, _, _ => none
  | fuel + 1, attempt, rsp, slept =>
    let read := reads attempt.toNat
    let attempt := attempt + 1
    match read with
    | .ok bytes => some (.ok rsp.length, bytes.take rsp.length ++ rsp.drop bytes.length, slept)
    | .error last =>
      if attempt ≥ self.poll_attempts then some (.error (.Exhausted attempt last), rsp, slept)
      else i2c_loop reads fuel attempt rsp (slept + self.poll_interval)

def LinuxI2c.request (write : List UInt8 → Except E Unit) (reads : Nat → Except E (List UInt8))
    (req rsp : List UInt8) (fuel : Nat) :
    Option (Except (LinuxI2cError E) Nat × List UInt8 × Nat) :=
  match write req with
  | .error e => some (.error (.Write e), rsp, 0)
  | .ok () => i2c_loop self reads fuel 0 rsp 0

end I2c

/-! ## SPI -/

def DEFAULT_POLL_INTERVAL_NS : UInt32 := 5000000
def DEFAULT_SPI_BYTE_INTERVAL_NS : UInt32 := 50000

/-- The transport with its two intervals. -/
structure PacedSpi extends SpiTransport where
  poll_interval_ns : UInt32
  byte_interval_ns : UInt32

def PacedSpi.new : PacedSpi where
  poll_attempts := DEFAULT_POLL_ATTEMPTS
  poll_attempts_pos := UartTransport.new.poll_attempts_pos
  poll_interval_ns := DEFAULT_POLL_INTERVAL_NS
  byte_interval_ns := DEFAULT_SPI_BYTE_INTERVAL_NS

def PacedSpi.set_poll (self : PacedSpi) (attempts interval_ns : UInt32) : PacedSpi :=
  { self with
    poll_attempts := if attempts < 1 then 1 else attempts
    poll_attempts_pos := one_le_clamped attempts
    poll_interval_ns := interval_ns }

def PacedSpi.set_poll_budget (self : PacedSpi) (poll : PollBudget) : PacedSpi :=
  self.set_poll poll.attempts (saturating_mul poll.delay_ms 1000000)

section Spi

variable {E : Type} (self : PacedSpi)

/-- The scan loop with its delays; last comes their sum. -/
def paced_loop (reads : Nat → Except E UInt8) :
    Nat → Clocking → Nat → Option (Except (SpiTransportError E) Nat × Clocking × Nat)
  | 0, _, _ => none
  | fuel + 1, c, slept =>
    let read := reads c.clocked
    let c := { c with clocked := c.clocked + 1 }
    match read with
    | .error e => some (.error (.Read e), c, slept)
    | .ok byte =>
      let (scan, scanner, rsp) := c.scanner.push byte c.rsp
      let c := { c with scanner, rsp }
      match scan with
      | .Done len => some (.ok len, c, slept)
      | .Frame => paced_loop reads fuel c (slept + self.byte_interval_ns.toNat)
      | .Hunt | .Dropped =>
        let c := { c with attempts := c.attempts + 1 }
        if c.attempts ≥ self.poll_attempts then some (.error (.Exhausted c.attempts), c, slept)
        else paced_loop reads fuel c (slept + self.poll_interval_ns.toNat)

def PacedSpi.request (transaction : List (List UInt8) → Except E Unit) (reads : Nat → Except E UInt8)
    (req rsp : List UInt8) (fuel : Nat) :
    Option (Except (SpiTransportError E) Nat × List UInt8 × Nat) :=
  match transaction [[SYNC], req] with
  | .error e => some (.error (.Write e), rsp, 0)
  | .ok () => (paced_loop self reads fuel (.new rsp) 0).map fun (out, c, slept) => (out, c.rsp, slept)

end Spi

/-! ## Any backend -/

/-- A backend whose budget can be set between exchanges; `Wire` is what an exchange meets. -/
structure PollTransport (B Wire Out : Type) where
  set_poll_budget : B → PollBudget → B
  request : B → Wire → List UInt8 → List UInt8 → Out

/-- How the bus answers, and for how long it is watched. -/
structure I2cWire (E : Type) where
  write : List UInt8 → Except E Unit
  reads : Nat → Except E (List UInt8)
  fuel : Nat

structure SpiWire (E : Type) where
  transaction : List (List UInt8) → Except E Unit
  reads : Nat → Except E UInt8
  fuel : Nat

def i2cTransport (E : Type) : PollTransport LinuxI2c (I2cWire E)
    (Option (Except (LinuxI2cError E) Nat × List UInt8 × Nat)) where
  set_poll_budget := LinuxI2c.set_poll_budget
  request self wire req rsp := self.request wire.write wire.reads req rsp wire.fuel

def spiTransport (E : Type) : PollTransport PacedSpi (SpiWire E)
    (Option (Except (SpiTransportError E) Nat × List UInt8 × Nat)) where
  set_poll_budget := PacedSpi.set_poll_budget
  request self wire req rsp := self.request wire.transaction wire.reads req rsp wire.fuel

structure DynTransport (B : Type) where
  inner : B
  base : PollBudget
  erase_attempts : UInt32

section Dyn

variable {B Wire Out : Type} (P : PollTransport B Wire Out)

def open_with (inner : B) (poll : PollBudget) : DynTransport B where
  inner := P.set_poll_budget inner poll
  base := poll
  erase_attempts := poll.attempts

def DynTransport.set_erase_attempts (self : DynTransport B) (attempts : UInt32) : DynTransport B :=
  { self with erase_attempts := u32_max attempts self.base.attempts }

def DynTransport.request (self : DynTransport B) (wire : Wire) (req rsp : List UInt8) :
    Out × DynTransport B :=
  let erase := req.head? = some CMD_ERASE_APP ∧ self.erase_attempts > self.base.attempts
  let inner :=
    if erase then
      P.set_poll_budget self.inner
        { attempts := self.erase_attempts, delay_ms := self.base.delay_ms }
    else self.inner
  let out := P.request inner wire req rsp
  let inner := if erase then P.set_poll_budget inner self.base else inner
  (out, { self with inner })

end Dyn

/-! ## The erase budget (`main.rs`) -/

def PER_PAGE_ERASE_WORST_MS : UInt32 := 10

def erase_poll_attempts (app_pages : UInt16) (poll : PollBudget) : UInt32 :=
  let needed := div_ceil (saturating_mul app_pages.toUInt32 PER_PAGE_ERASE_WORST_MS)
    (u32_max poll.delay_ms 1)
  u32_max poll.attempts needed

end OtaUpdater.Host
