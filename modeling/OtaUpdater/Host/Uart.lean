import OtaUpdater.Host.Stream

/-!
# The UART transport (`uart.rs`)

`request`, turn by turn: what a `read` of the port brings is up to the line.
-/

namespace OtaUpdater.Host

def DEFAULT_POLL_ATTEMPTS : UInt32 := 200
def DEFAULT_SCAN_LIMIT : UInt32 := 4096

inductive UartTransportError (E : Type) where
  | Write (e : E)
  | Read (e : E)
  | Exhausted (attempts : UInt32)
  | Desync (scanned : UInt32)
deriving DecidableEq, Repr

/-- The two budgets; every way to set them clamps them to at least 1. -/
structure UartTransport where
  poll_attempts : UInt32
  scan_limit : UInt32
  poll_attempts_pos : 1 ≤ poll_attempts
  scan_limit_pos : 1 ≤ scan_limit

def UartTransport.new : UartTransport where
  poll_attempts := DEFAULT_POLL_ATTEMPTS
  scan_limit := DEFAULT_SCAN_LIMIT
  poll_attempts_pos := by decide
  scan_limit_pos := by decide

theorem one_le_clamped (n : UInt32) : 1 ≤ (if n < 1 then 1 else n) := by
  split
  · exact UInt32.le_refl 1
  · rename_i h
    exact UInt32.not_lt.mp h

def UartTransport.set_poll (self : UartTransport) (attempts : UInt32) : UartTransport :=
  { self with
    poll_attempts := if attempts < 1 then 1 else attempts
    poll_attempts_pos := one_le_clamped attempts }

def UartTransport.with_scan_limit (self : UartTransport) (bytes : UInt32) : UartTransport :=
  { self with
    scan_limit := if bytes < 1 then 1 else bytes
    scan_limit_pos := one_le_clamped bytes }

/-! ## One request -/

def request_bytes (req : List UInt8) : List UInt8 := SYNC :: req

/-- The locals of the read loop, and `rsp`. -/
structure Receiving where
  scanner : RxScanner
  attempts : UInt32
  junk : UInt32
  rsp : List UInt8

def Receiving.new (rsp : List UInt8) : Receiving :=
  { scanner := .new, attempts := 0, junk := 0, rsp }

inductive Turn (E : Type) where
  | done (len : Nat)
  | fail (e : UartTransportError E)
  | again

section Request

variable {E : Type} (self : UartTransport)

/-- The loop over a chunk; the bytes it does not get to come back last. -/
def scan_chunk (r : Receiving) : List UInt8 → Turn E × Receiving × List UInt8
  | [] => (.again, r, [])
  | byte :: chunk =>
    let (scan, scanner, rsp) := r.scanner.push byte r.rsp
    let r := { r with scanner, rsp }
    match scan with
    | .Done len => (.done len, r, chunk)
    | .Frame => scan_chunk r chunk
    | .Hunt | .Dropped =>
      let r := { r with junk := r.junk + 1 }
      if r.junk ≥ self.scan_limit then (.fail (.Desync r.junk), r, chunk)
      else scan_chunk r chunk

def read_turn (r : Receiving) (read : Except E (List UInt8)) : Turn E × Receiving × List UInt8 :=
  match read with
  | .error e => (.fail (.Read e), r, [])
  | .ok [] =>
    let r := { r with attempts := r.attempts + 1 }
    if r.attempts ≥ self.poll_attempts then (.fail (.Exhausted r.attempts), r, [])
    else (.again, r, [])
  | .ok chunk => scan_chunk self r chunk

structure Tally where
  turns : Nat
  idle : Nat
  pushed : Nat

def Tally.zero : Tally := { turns := 0, idle := 0, pushed := 0 }

/-- A turn on `read`, with `rest` of its bytes not pushed. -/
def Tally.count (tally : Tally) (read : Except E (List UInt8)) (rest : List UInt8) : Tally :=
  match read with
  | .error _ => { tally with turns := tally.turns + 1 }
  | .ok [] => { tally with turns := tally.turns + 1, idle := tally.idle + 1 }
  | .ok chunk =>
    { tally with turns := tally.turns + 1, pushed := tally.pushed + (chunk.length - rest.length) }

/-- The read loop, where turn `i` reads `reads i`; `none` if it has not returned after `fuel` turns. -/
def read_loop (reads : Nat → Except E (List UInt8)) :
    Nat → Receiving → Tally → Option (Except (UartTransportError E) Nat × List UInt8 × Tally)
  | 0, _, _ => none
  | fuel + 1, r, tally =>
    let read := reads tally.turns
    let (turn, r, rest) := read_turn self r read
    let tally := tally.count read rest
    match turn with
    | .done len => some (.ok len, r.rsp, tally)
    | .fail e => some (.error e, r.rsp, tally)
    | .again => read_loop reads fuel r tally

/-- `wrote` tells how the writes of some bytes and the flush behind them come out. -/
def UartTransport.request (wrote : List UInt8 → Except E Unit) (reads : Nat → Except E (List UInt8))
    (req rsp : List UInt8) (fuel : Nat) :
    Option (Except (UartTransportError E) Nat × List UInt8 × Tally) :=
  match wrote (request_bytes req) with
  | .error e => some (.error (.Write e), rsp, .zero)
  | .ok () => read_loop self reads fuel (.new rsp) .zero

end Request

end OtaUpdater.Host
