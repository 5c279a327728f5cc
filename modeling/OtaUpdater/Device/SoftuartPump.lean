import Mathlib.Algebra.Order.Field.Rat
import OtaUpdater.Lib.Polling

/-!
# The bit-banged UART of the device (`softuart_pump.c`)

Time is that of the line, in microseconds, and `us` is how long a microsecond of the
device takes.
-/

namespace OtaUpdater.Device.Softuart

open OtaUpdater.Lib.Serial

def SOFTUART_BIT_US : Nat := 104
def SOFTUART_HALF_BIT_US : Nat := SOFTUART_BIT_US / 2

section Pump

variable (us : ℚ)

def delay_us (time : Nat) : ℚ := time * us

/-- `Idle` and `Framing` are the two ways to return `false`. -/
def pump_get (pin_rx : ℚ → Bool) (now : ℚ) : Got × ℚ :=
  receive_from pin_rx (delay_us us (SOFTUART_BIT_US + SOFTUART_HALF_BIT_US))
    (delay_us us SOFTUART_BIT_US) (delay_us us SOFTUART_HALF_BIT_US) now

def pump_put (tx : Tx ℚ) (b : UInt8) : Tx ℚ := Id.run (put Tx.drive (delay_us us SOFTUART_BIT_US) tx b)

theorem first_sample :
    delay_us us (SOFTUART_BIT_US + SOFTUART_HALF_BIT_US) = 3 / 2 * delay_us us SOFTUART_BIT_US := by
  unfold delay_us SOFTUART_HALF_BIT_US SOFTUART_BIT_US
  push_cast
  ring

end Pump

end OtaUpdater.Device.Softuart
