import OtaUpdater.Lib.Bytes

/-!
# The device's frame codec (`proto.h`, `crc8.c`, `proto.c`)

Wire frame: CMD, LEN, payload, CRC-8 over everything before it.
-/

open OtaUpdater.Lib.Bytes

namespace OtaUpdater.Device

/-! ## Constants -/

def UPD_PROTO_VERSION : UInt8 := 1

def UPD_CMD_INFO : UInt8 := 0x01
def UPD_CMD_ERASE_APP : UInt8 := 0x02
def UPD_CMD_WRITE_PAGE : UInt8 := 0x03
def UPD_CMD_VERIFY : UInt8 := 0x04
def UPD_CMD_BOOT : UInt8 := 0x05
def UPD_CMD_ECHO : UInt8 := 0x06
def UPD_RSP_FLAG : UInt8 := 0x80

def UPD_ST_OK : UInt8 := 0x00
def UPD_ST_BAD_FRAME : UInt8 := 0x01
def UPD_ST_BAD_CMD : UInt8 := 0x02
def UPD_ST_NOT_ERASED : UInt8 := 0x03
def UPD_ST_OUT_OF_RANGE : UInt8 := 0x04
def UPD_ST_BAD_CRC : UInt8 := 0x05
def UPD_ST_BAD_MAGIC : UInt8 := 0x06
def UPD_ST_NO_APP : UInt8 := 0x07

def UPD_ECHO_MAX : UInt8 := 16
def UPD_RSP_MAX : UInt8 := 1 + UPD_ECHO_MAX
def UPD_FRAME_OVERHEAD : Nat := 3

/-! ## CRC-8 -/

/-- One shift, in a wide unsigned temporary that is masked before the cast. -/
def upd_crc8_bit (crc : UInt8) : UInt8 :=
  let v := crc.toNat <<< 1
  let v := if crc &&& 0x80 ≠ 0 then v ^^^ 0x07 else v
  UInt8.ofNat (v &&& 0xFF)

def upd_crc8_byte (crc b : UInt8) : UInt8 :=
  Nat.repeat upd_crc8_bit 8 (crc ^^^ b)

def upd_crc8 (p : List UInt8) (n : UInt8) : UInt8 :=
  (List.range n.toNat).foldl (fun crc i => upd_crc8_byte crc (p.getD i 0)) 0

/-! ## Frames -/

/-- `upd_frame_t`; `payload` is what the pointer shows, `len` bytes of it. -/
structure UpdFrame where
  cmd : UInt8
  len : UInt8
  payload : List UInt8
  payload_length : payload.length = len.toNat
deriving DecidableEq

attribute [simp] UpdFrame.payload_length

def upd_frame_parse (buf : List UInt8) (buflen : UInt8) : Option UpdFrame :=
  if buflen.toNat < UPD_FRAME_OVERHEAD then none
  else
    let len := buf.getD 1 0
    if len.toNat + UPD_FRAME_OVERHEAD ≠ buflen.toNat then none
    else if upd_crc8 buf (buflen - 1) ≠ buf.getD (buflen.toNat - 1) 0 then none
    else some ⟨buf.getD 0 0, len, window 2 len.toNat buf, length_window _ _ _⟩

/-- Where `upd_frame_build` reads its payload: another object, or `buf + o` itself. -/
inductive PayloadPtr where
  | apart (bytes : List UInt8)
  | inside (o : Nat)

def PayloadPtr.read (buf : List UInt8) : PayloadPtr → Nat → UInt8
  | apart bytes, i => bytes.getD i 0
  | inside o, i => buf.getD (o + i) 0

/-- The ascending copy loop: every read sees the bytes already written. -/
def copyPayload (payload : PayloadPtr) (len : Nat) (buf : List UInt8) : List UInt8 :=
  (List.range len).foldl (fun buf i => buf.set (2 + i) (payload.read buf i)) buf

/-- `upd_frame_build`: the returned wire size (0: refused) and the buffer it leaves. -/
def upd_frame_build (buf : List UInt8) (cap cmd : UInt8) (payload : PayloadPtr) (len : UInt8) :
    UInt8 × List UInt8 :=
  let total := len.toNat + UPD_FRAME_OVERHEAD
  if total > 255 ∨ cap.toNat < total then (0, buf)
  else
    let buf := buf.set 0 cmd
    let buf := buf.set 1 len
    let buf := copyPayload payload len.toNat buf
    let buf := buf.set (total - 1) (upd_crc8 buf (UInt8.ofNat (total - 1)))
    (UInt8.ofNat total, buf)

end OtaUpdater.Device
