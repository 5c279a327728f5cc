import Mathlib.Algebra.Order.Field.Rat
import OtaUpdater.Host.Uart
import OtaUpdater.Lib.Polling

/-!
# The bit-banged transport (`softuart.rs`)

Time is that of the line, and `ns` is how long a nanosecond of the host's delays takes.
-/

namespace OtaUpdater.Host

open OtaUpdater.Lib.Serial

def SOFTUART_BIT_NS : UInt32 := 104167
def HALF_BIT_NS : UInt32 := SOFTUART_BIT_NS / 2
def BIT_1_5_NS : UInt32 := SOFTUART_BIT_NS + HALF_BIT_NS

def DEFAULT_SOFTUART_POLL_ATTEMPTS : UInt32 := 500000
def DEFAULT_SOFTUART_POLL_INTERVAL_NS : UInt32 := 2000

inductive SoftUartTransportError (TE RE : Type) where
  | Tx (e : TE)
  | Rx (e : RE)
  | Exhausted (attempts : UInt32)
  | Desync (scanned : UInt32)
deriving DecidableEq, Repr

/-- The budgets are those of the UART. -/
structure SoftUartTransport extends UartTransport where
  poll_interval_ns : UInt32

def SoftUartTransport.new : SoftUartTransport where
  poll_attempts := DEFAULT_SOFTUART_POLL_ATTEMPTS
  scan_limit := DEFAULT_SCAN_LIMIT
  poll_attempts_pos := by decide
  scan_limit_pos := UartTransport.new.scan_limit_pos
  poll_interval_ns := DEFAULT_SOFTUART_POLL_INTERVAL_NS

def SoftUartTransport.set_poll (self : SoftUartTransport) (attempts interval_ns : UInt32) :
    SoftUartTransport :=
  { self with
    toUartTransport := self.toUartTransport.set_poll attempts
    poll_interval_ns := interval_ns }

def SoftUartTransport.with_scan_limit (self : SoftUartTransport) (bytes : UInt32) : SoftUartTransport :=
  { self with toUartTransport := self.toUartTransport.with_scan_limit bytes }

def delay_ns (ns : ℚ) (time : UInt32) : ℚ := time.toNat * ns

section Send

variable (ns : ℚ) {E : Type} (pin : Tx ℚ → Bool → Except E Unit)

def send_byte (tx : Tx ℚ) (byte : UInt8) : Except E (Tx ℚ) :=
  put (Tx.try_drive pin) (delay_ns ns SOFTUART_BIT_NS) tx byte

/-- Mark for a bit, then the request behind its sync byte. -/
def send_request (req : List UInt8) : Except E (Tx ℚ) := do
  let tx ← hold (Tx.try_drive pin) (delay_ns ns SOFTUART_BIT_NS) .idle true
  (request_bytes req).foldlM (send_byte ns pin) tx

theorem send_request_sent (req : List UInt8) :
    send_request ns pin req = .ok
        { level := true
          held := (true, delay_ns ns SOFTUART_BIT_NS) ::
            wave (delay_ns ns SOFTUART_BIT_NS) (request_bytes req) } ∨
      ∃ e tx level, pin tx level = .error e ∧ send_request ns pin req = .error e := by
  have hall := holds_try_drive pin (delay_ns ns SOFTUART_BIT_NS)
    (true :: (request_bytes req).flatMap cells) .idle
  have hsend : (true :: (request_bytes req).flatMap cells).foldlM
      (hold (Tx.try_drive pin) (delay_ns ns SOFTUART_BIT_NS)) .idle = send_request ns pin req := by
    unfold send_request send_byte
    rw [List.foldlM_cons]
    congr 1
    funext tx
    exact (puts_eq _ _ _ tx).symm
  rw [hsend, after_cons, after_cells _ _ _ rfl] at hall
  exact hall

end Send

/-- The locals of the receive loop, `rsp`, the time and, for the record, what came of each hunt. -/
structure Hunting extends Receiving where
  now : ℚ
  gots : List Got

def Hunting.new (rsp : List UInt8) (now : ℚ) : Hunting :=
  { toReceiving := .new rsp, now, gots := [] }

structure Delays where
  first : ℚ
  bit : ℚ
  half : ℚ
  interval : ℚ

def SoftUartTransport.delays (self : SoftUartTransport) (ns : ℚ) : Delays where
  first := delay_ns ns BIT_1_5_NS
  bit := delay_ns ns SOFTUART_BIT_NS
  half := delay_ns ns HALF_BIT_NS
  interval := delay_ns ns self.poll_interval_ns

section Request

variable {E F : Type} (self : SoftUartTransport) (d : Delays)

def spend_junk (h : Hunting) : Option (Except (SoftUartTransportError E F) Nat) × Hunting :=
  let h := { h with junk := h.junk + 1 }
  if h.junk ≥ self.scan_limit then (some (.error (.Desync h.junk)), h) else (none, h)

def hunt_turn (h : Hunting) : Got → Option (Except (SoftUartTransportError E F) Nat) × Hunting
  | .Idle =>
    let h := { h with attempts := h.attempts + 1 }
    if h.attempts ≥ self.poll_attempts then (some (.error (.Exhausted h.attempts)), h)
    else (none, { h with now := h.now + d.interval })
  | .Framing => spend_junk self h
  | .Byte byte =>
    let (scan, scanner, rsp) := h.scanner.push byte h.rsp
    let h := { h with scanner, rsp }
    match scan with
    | .Done len => (some (.ok len), h)
    | .Frame => (none, h)
    | .Hunt | .Dropped => spend_junk self h

/-- The receive loop, a turn for each sample of an idle line and each byte; `none` if it has not
returned after `fuel` turns. -/
def hunt_loop (rx : ℚ → Except F Bool) :
    Nat → Hunting → Option (Except (SoftUartTransportError E F) Nat × Hunting)
  | 0, _ => none
  | fuel + 1, h =>
    match receive rx d.first d.bit d.half h.now with
    | .error e => some (.error (.Rx e), h)
    | .ok (got, now) =>
      match hunt_turn self d { h with now, gots := h.gots ++ [got] } got with
      | (some out, h) => some (out, h)
      | (none, h) => hunt_loop rx fuel h

/-- `now` is the time when it is called. -/
def SoftUartTransport.request (ns : ℚ) (pin : Tx ℚ → Bool → Except E Unit) (rx : ℚ → Except F Bool)
    (req rsp : List UInt8) (now : ℚ) (fuel : Nat) :
    Option (Except (SoftUartTransportError E F) Nat × Hunting) :=
  match send_request ns pin req with
  | .error e => some (.error (.Tx e), .new rsp now)
  | .ok tx => hunt_loop self (self.delays ns) rx fuel (.new rsp (now + (tx.held.map Prod.snd).sum))

end Request

end OtaUpdater.Host
