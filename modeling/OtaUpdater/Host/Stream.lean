import OtaUpdater.Host.Frame

/-!
# The host's receive scanner (`stream.rs`)
-/

namespace OtaUpdater.Host

def SYNC : UInt8 := 0x7E

inductive Scan where
  | Hunt
  | Frame
  | Done (len : Nat)
  | Dropped
deriving DecidableEq, Repr

structure RxScanner where
  n : Nat
  in_frame : Bool
deriving DecidableEq, Repr

def RxScanner.new : RxScanner := { n := 0, in_frame := false }

def RxScanner.reset (_ : RxScanner) : RxScanner := { n := 0, in_frame := false }

/-- Feed one received byte; the buffer comes back with the byte stored. -/
def RxScanner.push (self : RxScanner) (byte : UInt8) (buf : List UInt8) :
    Scan × RxScanner × List UInt8 :=
  if !self.in_frame then
    if byte = SYNC ∧ buf.length ≥ FRAME_OVERHEAD then
      (.Frame, { n := 0, in_frame := true }, buf)
    else (.Hunt, self, buf)
  else if self.n ≥ buf.length then (.Dropped, self.reset, buf)
  else
    let buf := buf.set self.n byte
    let self := { self with n := self.n + 1 }
    if self.n < 2 then (.Frame, self, buf)
    else
      match buf[1]? with
      | none => (.Dropped, self.reset, buf)
      | some len_byte =>
        let declared := len_byte.toNat
        let total := declared + FRAME_OVERHEAD
        if declared > PAYLOAD_MAX ∨ total > buf.length then (.Dropped, self.reset, buf)
        else if self.n < total then (.Frame, self, buf)
        else
          let raw := buf.take total
          if (decode raw).isOk then (.Done total, self.reset, buf)
          else (.Dropped, self.reset, buf)

/-- A scanner together with its buffer, giving the frame of every `Done`. -/
def scanByte (s : RxScanner × List UInt8) (byte : UInt8) :
    (RxScanner × List UInt8) × Option Frame :=
  match s.1.push byte s.2 with
  | (.Done len, scanner, buf) => ((scanner, buf), (decode (buf.take len)).toOption)
  | (_, scanner, buf) => ((scanner, buf), none)

theorem push_in_frame (n : Nat) (b : UInt8) (buf : List UInt8) (hn : n < buf.length) :
    let filled := buf.set n b
    let declared := (filled.getD 1 0).toNat
    let total := declared + FRAME_OVERHEAD
    RxScanner.push ⟨n, true⟩ b buf =
      if n + 1 < 2 then (.Frame, ⟨n + 1, true⟩, filled)
      else if declared > PAYLOAD_MAX ∨ total > buf.length then (.Dropped, .new, filled)
      else if n + 1 < total then (.Frame, ⟨n + 1, true⟩, filled)
      else if (decode (filled.take total)).isOk then (.Done total, .new, filled)
      else (.Dropped, .new, filled) := by
  unfold RxScanner.push
  dsimp only
  rw [Bool.not_true, if_neg Bool.false_ne_true, if_neg (by omega)]
  rcases Nat.lt_or_ge (n + 1) 2 with hfirst | hlater
  · rw [if_pos hfirst, if_pos hfirst]
  · have hbyte : (buf.set n b)[1]? = some ((buf.set n b).getD 1 0) := by
      rw [List.getD_eq_getElem?_getD, List.getElem?_eq_getElem (by rw [List.length_set]; omega)]
      rfl
    rw [if_neg (by omega), if_neg (by omega), hbyte]
    dsimp only
    rw [List.length_set]
    rfl

theorem scanByte_in_frame (n : Nat) (buf : List UInt8) (b : UInt8) (hn : n < buf.length) :
    let filled := buf.set n b
    let declared := (filled.getD 1 0).toNat
    scanByte (⟨n, true⟩, buf) b =
      if n + 1 < 2 then ((⟨n + 1, true⟩, filled), none)
      else if declared > PAYLOAD_MAX ∨ declared + FRAME_OVERHEAD > buf.length then
        ((RxScanner.new, filled), none)
      else if n + 1 < declared + FRAME_OVERHEAD then ((⟨n + 1, true⟩, filled), none)
      else ((RxScanner.new, filled), (decode (filled.take (declared + FRAME_OVERHEAD))).toOption) := by
  have hpush := push_in_frame n b buf hn
  unfold scanByte
  dsimp only at hpush ⊢
  rw [hpush]
  split_ifs with hfirst hdrop hmore hok
  · rfl
  · rfl
  · rfl
  · rfl
  · rcases hdecode : decode ((buf.set n b).take (((buf.set n b).getD 1 0).toNat + FRAME_OVERHEAD)) with
      e | fr
    · rfl
    · rw [hdecode] at hok
      exact absurd rfl hok

end OtaUpdater.Host
