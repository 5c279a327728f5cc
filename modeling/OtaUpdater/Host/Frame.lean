import Mathlib.Tactic.Common

/-!
# The host's frame codec (`frame.rs`, `error.rs`)

A `&mut [u8]` argument comes back as a second result: what the buffer holds
after the call, on success and on error.
-/

namespace OtaUpdater.Host

/-! ## Constants -/

def PROTO_VERSION : UInt8 := 1

def CMD_INFO : UInt8 := 0x01
def CMD_ERASE_APP : UInt8 := 0x02
def CMD_WRITE_PAGE : UInt8 := 0x03
def CMD_VERIFY : UInt8 := 0x04
def CMD_BOOT : UInt8 := 0x05
def CMD_ECHO : UInt8 := 0x06
def RSP_FLAG : UInt8 := 0x80

def ST_OK : UInt8 := 0x00
def ST_BAD_FRAME : UInt8 := 0x01
def ST_NO_APP : UInt8 := 0x07

def ECHO_MAX : Nat := 16
def FRAME_OVERHEAD : Nat := 3
def PAYLOAD_MAX : Nat := 255 - FRAME_OVERHEAD
def ERASE_MAGIC : List UInt8 := [0x45, 0x52, 0x41, 0x53]

/-! ## Errors -/

inductive Error (ε : Type) where
  | Transport (e : ε)
  | BadFrame
  | Device (st : UInt8)
  | PayloadTooLarge (len : Nat)
  | BufferTooSmall (needed : Nat)
  | ImageTooLarge (len capacity : Nat)
  | BadGeometry (page_size app_pages : UInt16)
  | PageOutOfRange (index : UInt16)
  | ProtocolVersion (device : UInt8)
deriving DecidableEq, Repr

/-- Codec and image errors carry no transport error (`Infallible`). -/
def Error.widen {ε : Type} : Error Empty → Error ε
  | Transport never => never.elim
  | BadFrame => BadFrame
  | Device st => Device st
  | PayloadTooLarge len => PayloadTooLarge len
  | BufferTooSmall needed => BufferTooSmall needed
  | ImageTooLarge len capacity => ImageTooLarge len capacity
  | BadGeometry page_size app_pages => BadGeometry page_size app_pages
  | PageOutOfRange index => PageOutOfRange index
  | ProtocolVersion device => ProtocolVersion device

/-! ## CRC-8 -/

/-- One round of the bit loop; the shift drops the top bit, as `wrapping_shl` does. -/
def crc8_bit (crc : UInt8) : UInt8 :=
  if crc &&& 0x80 ≠ 0 then (crc <<< 1) ^^^ 0x07 else crc <<< 1

def crc8_step (crc byte : UInt8) : UInt8 :=
  Nat.repeat crc8_bit 8 (crc ^^^ byte)

def crc8 (data : List UInt8) : UInt8 :=
  data.foldl crc8_step 0

/-! ## Frames -/

structure Frame where
  cmd : UInt8
  payload : List UInt8
deriving DecidableEq, Repr

def encode (cmd : UInt8) (payload out : List UInt8) : Except (Error Empty) Nat × List UInt8 :=
  let len := payload.length
  -- The first test is `u8::try_from`, the second the codec ceiling.
  if 255 < len then (.error (.PayloadTooLarge len), out)
  else if PAYLOAD_MAX < len then (.error (.PayloadTooLarge len), out)
  else
    let total := len + FRAME_OVERHEAD
    if out.length < total then (.error (.BufferTooSmall total), out)
    else
      let len_byte := UInt8.ofNat len
      let crc := payload.foldl crc8_step (crc8_step (crc8_step 0 cmd) len_byte)
      (.ok total, cmd :: len_byte :: (payload ++ crc :: out.drop total))

def decode (raw : List UInt8) : Except (Error Empty) Frame :=
  match raw with
  | cmd :: len_byte :: rest =>
    if PAYLOAD_MAX < len_byte.toNat ∨ rest.length ≠ len_byte.toNat + 1 then .error .BadFrame
    else
      let payload := rest.dropLast
      let crc := payload.foldl crc8_step (crc8_step (crc8_step 0 cmd) len_byte)
      if crc ≠ rest.getLastD 0 then .error .BadFrame
      else .ok ⟨cmd, payload⟩
  | _ => .error .BadFrame

def decode_padded (raw : List UInt8) : Except (Error Empty) Frame :=
  match raw[1]? with
  | none => .error .BadFrame
  | some len_byte =>
    let total := len_byte.toNat + FRAME_OVERHEAD
    if raw.length < total then .error .BadFrame
    else if (raw.drop total).all (· = 0xFF) then decode (raw.take total)
    else .error .BadFrame

example : crc8 [0x31, 0x32, 0x33, 0x34, 0x35, 0x36, 0x37, 0x38, 0x39] = 0xF4 := by decide +kernel

end OtaUpdater.Host
