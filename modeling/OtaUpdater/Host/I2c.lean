import OtaUpdater.Host.Session
import OtaUpdater.Host.Uart

/-!
# I2C from an embedded host (`updater-eh`, `i2c.rs`)

One write, then reads of all of `rsp` until one succeeds. The CLI's `LinuxI2c` has the
same loop over `/dev/i2c-*`.
-/

namespace OtaUpdater.Host

/-- `embedded_hal::i2c::I2c` with its `DelayNs`, for one address; a read that fails may have read some
of its bytes. -/
structure I2cBus (τ E : Type) where
  write : τ → List UInt8 → Except E Unit × τ
  read : τ → List UInt8 → (Except E Unit × List UInt8) × τ
  delay_ns : τ → UInt32 → τ
  length_read : ∀ t rsp, (read t rsp).1.2.length = rsp.length

inductive I2cTransportError (E : Type) where
  | Write (e : E)
  | Exhausted (attempts : UInt32) (last : E)
deriving DecidableEq, Repr

structure I2cTransport where
  poll_attempts : UInt32
  poll_interval_ns : UInt32
  poll_attempts_pos : 0 < poll_attempts

def I2cTransport.new : I2cTransport where
  poll_attempts := DEFAULT_POLL_ATTEMPTS
  poll_interval_ns := 5000000
  poll_attempts_pos := by decide

def I2cTransport.set_poll (_self : I2cTransport) (attempts interval_ns : UInt32) : I2cTransport where
  poll_attempts := if attempts < 1 then 1 else attempts
  poll_interval_ns := interval_ns
  poll_attempts_pos := by
    split
    · decide
    · rename_i h
      rw [UInt32.not_lt] at h
      exact UInt32.lt_of_lt_of_le (by decide) h

section Request

variable {τ E : Type} (bus : I2cBus τ E) (self : I2cTransport)

/-- The loop, with `attempt` reads behind it. -/
def I2cTransport.poll (attempt : UInt32) (_h : attempt < self.poll_attempts) (t : τ) (rsp : List UInt8) :
    (Except (I2cTransportError E) Nat × List UInt8) × τ :=
  let attempt' := attempt + 1
  match bus.read t rsp with
  | ((.ok (), rsp), t) => ((.ok rsp.length, rsp), t)
  | ((.error e, rsp), t) =>
    if hmore : attempt' < self.poll_attempts then
      I2cTransport.poll attempt' hmore (bus.delay_ns t self.poll_interval_ns) rsp
    else ((.error (.Exhausted attempt' e), rsp), t)
termination_by self.poll_attempts.toNat - attempt.toNat
decreasing_by
  rw [UInt32.lt_iff_toNat_lt] at _h
  have hmax := self.poll_attempts.toNat_lt
  have hnext : (attempt + 1).toNat = attempt.toNat + 1 := by
    rw [UInt32.toNat_add, UInt32.toNat_one]
    omega
  omega

def I2cTransport.request (t : τ) (req rsp : List UInt8) :
    (Except (I2cTransportError E) Nat × List UInt8) × τ :=
  match bus.write t req with
  | (.error e, t) => ((.error (.Write e), rsp), t)
  | (.ok (), t) => I2cTransport.poll bus self 0 self.poll_attempts_pos t rsp

theorem length_poll (attempt : UInt32) (h : attempt < self.poll_attempts) (t : τ) (rsp : List UInt8) :
    (self.poll bus attempt h t rsp).1.2.length = rsp.length := by
  fun_induction I2cTransport.poll bus self attempt h t rsp with
  | case1 attempt h t rsp rsp' t' hread =>
    have hlength := bus.length_read t rsp
    rw [hread] at hlength
    exact hlength
  | case2 attempt h t rsp attempt' e rsp' t' hread hmore ih =>
    have hlength := bus.length_read t rsp
    rw [hread] at hlength
    exact ih.trans hlength
  | case3 attempt h t rsp attempt' e rsp' t' hread hlast =>
    have hlength := bus.length_read t rsp
    rw [hread] at hlength
    exact hlength

theorem I2cTransport.length_request (t : τ) (req rsp : List UInt8) :
    (self.request bus t req rsp).1.2.length = rsp.length := by
  unfold I2cTransport.request
  split
  · rfl
  · exact length_poll bus self 0 _ _ rsp

def I2cTransport.transport : Transport τ (I2cTransportError E) where
  request := self.request bus
  length_rsp := self.length_request bus

end Request

end OtaUpdater.Host
