import OtaUpdater.Host.Stream

/-!
# The SPI transport (`spi.rs`)

`request`, one clocked byte a turn. The delays between the turns cost time and
nothing else, so they are left out.
-/

namespace OtaUpdater.Host

inductive SpiTransportError (E : Type) where
  | Write (e : E)
  | Read (e : E)
  | Exhausted (attempts : UInt32)
deriving DecidableEq, Repr

/-- The poll budget; both ways to set it clamp it to at least 1. -/
structure SpiTransport where
  poll_attempts : UInt32
  poll_attempts_pos : 1 ≤ poll_attempts

/-- The locals of the scan loop, `rsp`, and the number of bytes clocked. -/
structure Clocking where
  scanner : RxScanner
  attempts : UInt32
  rsp : List UInt8
  clocked : Nat

def Clocking.new (rsp : List UInt8) : Clocking := { scanner := .new, attempts := 0, rsp, clocked := 0 }

section Request

variable {E : Type} (self : SpiTransport)

/-- The scan loop, where turn `i` reads `reads i`; `none` if it has not returned after `fuel` turns. -/
def clock_loop (reads : Nat → Except E UInt8) :
    Nat → Clocking → Option (Except (SpiTransportError E) Nat × Clocking)
  | 0, _ => none
  | fuel + 1, c =>
    let read := reads c.clocked
    let c := { c with clocked := c.clocked + 1 }
    match read with
    | .error e => some (.error (.Read e), c)
    | .ok byte =>
      let (scan, scanner, rsp) := c.scanner.push byte c.rsp
      let c := { c with scanner, rsp }
      match scan with
      | .Done len => some (.ok len, c)
      | .Frame => clock_loop reads fuel c
      | .Hunt | .Dropped =>
        let c := { c with attempts := c.attempts + 1 }
        if c.attempts ≥ self.poll_attempts then some (.error (.Exhausted c.attempts), c)
        else clock_loop reads fuel c

/-- `transaction` tells how a transaction of writes comes out. -/
def SpiTransport.request (transaction : List (List UInt8) → Except E Unit)
    (reads : Nat → Except E UInt8) (req rsp : List UInt8) (fuel : Nat) :
    Option (Except (SpiTransportError E) Nat × Clocking) :=
  match transaction [[SYNC], req] with
  | .error e => some (.error (.Write e), .new rsp)
  | .ok () => clock_loop self reads fuel (.new rsp)

end Request

end OtaUpdater.Host
