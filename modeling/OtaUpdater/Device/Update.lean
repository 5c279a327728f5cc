import OtaUpdater.Device.Proto

/-!
# The update session FSM (`crc32.c`, `update.c`)

The code runs over any port: `Port σ` is the port contract with `σ` standing for
the state behind it (flash, buffers, registers).
-/

open OtaUpdater.Lib.Bytes

namespace OtaUpdater.Device

/-! ## CRC-32 -/

def upd_crc32_init : UInt32 := 0xFFFFFFFF

def upd_crc32_bit (crc : UInt32) : UInt32 :=
  if crc &&& 1 ≠ 0 then (crc >>> 1) ^^^ 0xEDB88320 else crc >>> 1

def upd_crc32_update (crc : UInt32) (byte : UInt8) : UInt32 :=
  Nat.repeat upd_crc32_bit 8 (crc ^^^ byte.toUInt32)

def upd_crc32_final (crc : UInt32) : UInt32 := crc ^^^ 0xFFFFFFFF

/-! ## The port contract -/

structure PortInfo where
  page_size : UInt16
  app_pages : UInt16
  device_id : Vector UInt8 4
  bl_version : UInt8

/-- The part of `port.h` that the core calls. `port_info` is the `PortInfo` itself. -/
structure Port (σ : Type) where
  port_flash_erase_page : UInt16 → StateM σ Unit
  port_flash_write_page : UInt16 → List UInt8 → StateM σ Unit
  port_flash_read_byte : UInt32 → StateM σ UInt8
  port_jump_to_app : StateM σ Unit

structure UpdSession where
  info : PortInfo
  erased : Bool
  boot_pending : Bool

def upd_init (info : PortInfo) : UpdSession :=
  { info, erased := false, boot_pending := false }

section Core

variable {σ : Type} (P : Port σ)

/-! ## The boot gate -/

/-- The product is taken in 32 bits, not in promoted 16-bit ints. -/
def region_bytes (i : PortInfo) : UInt32 :=
  i.page_size.toUInt32 * i.app_pages.toUInt32

/-- The rest of `for (off = ..; off < length; off++)`, with `k` rounds to go. -/
def flash_crc_loop : Nat → UInt32 → UInt32 → StateM σ UInt32
  | 0, _, c => pure c
  | k + 1, off, c => do
    let b ← P.port_flash_read_byte off
    flash_crc_loop k (off + 1) (upd_crc32_update c b)

def flash_crc (length : UInt32) : StateM σ UInt32 := do
  let c ← flash_crc_loop P length.toNat 0 upd_crc32_init
  return upd_crc32_final c

/-- The loop over the length and CRC words of the footer: rounds `i` to 3. -/
def footer_words (base : UInt32) : Nat → UInt32 → UInt32 → UInt32 → StateM σ (UInt32 × UInt32)
  | 0, _, len, crc => pure (len, crc)
  | k + 1, i, len, crc => do
    let l ← P.port_flash_read_byte (base + 4 + i)
    let c ← P.port_flash_read_byte (base + 8 + i)
    footer_words base k (i + 1) (len ||| l.toUInt32 <<< (8 * i)) (crc ||| c.toUInt32 <<< (8 * i))

def upd_app_valid (info : PortInfo) : StateM σ Bool := do
  if region_bytes info < 16 then return false
  let base := region_bytes info - 16
  if (← P.port_flash_read_byte (base + 0)) ≠ 0x4F then return false
  if (← P.port_flash_read_byte (base + 1)) ≠ 0x54 then return false
  if (← P.port_flash_read_byte (base + 2)) ≠ 0x41 then return false
  if (← P.port_flash_read_byte (base + 3)) ≠ 0x55 then return false
  let (len, crc) ← footer_words P base 4 0 0 0
  if len > region_bytes info - 16 then return false
  return (← flash_crc P len) == crc

/-- The one caller of `port_jump_to_app`. -/
def upd_boot_if_valid (info : PortInfo) : StateM σ Bool := do
  if !(← upd_app_valid P info) then return false
  P.port_jump_to_app
  return true

/-! ## Command handlers -/

def handle_info (s : UpdSession) (rsp_cap : UInt8) : StateM σ (List UInt8) := do
  if rsp_cap < 12 then return [UPD_ST_BAD_FRAME]
  let id := s.info.device_id
  let valid ← upd_app_valid P s.info
  return [UPD_ST_OK, UPD_PROTO_VERSION, s.info.bl_version, id[0], id[1], id[2], id[3],
    (s.info.page_size &&& 0xFF).toUInt8, ((s.info.page_size >>> 8) &&& 0xFF).toUInt8,
    (s.info.app_pages &&& 0xFF).toUInt8, ((s.info.app_pages >>> 8) &&& 0xFF).toUInt8,
    if valid then 1 else 0]

/-- The same answer, as a function of what the check says. -/
def infoAnswer (info : PortInfo) (valid : Bool) : List UInt8 :=
  let id := info.device_id
  [UPD_ST_OK, UPD_PROTO_VERSION, info.bl_version, id[0], id[1], id[2], id[3],
    (info.page_size &&& 0xFF).toUInt8, ((info.page_size >>> 8) &&& 0xFF).toUInt8,
    (info.app_pages &&& 0xFF).toUInt8, ((info.app_pages >>> 8) &&& 0xFF).toUInt8,
    if valid then 1 else 0]

/-- The rest of the erase loop from page `p` on, with `k` pages to go. -/
def erase_pages : Nat → UInt16 → StateM σ Unit
  | 0, _ => pure ()
  | k + 1, p => do
    P.port_flash_erase_page p
    erase_pages k (p + 1)

def handle_erase (s : UpdSession) (req : UpdFrame) : StateM σ (UpdSession × List UInt8) := do
  if req.len ≠ 4 ∨ req.payload.getD 0 0 ≠ 0x45 ∨ req.payload.getD 1 0 ≠ 0x52 ∨
      req.payload.getD 2 0 ≠ 0x41 ∨ req.payload.getD 3 0 ≠ 0x53 then
    return (s, [UPD_ST_BAD_MAGIC])
  erase_pages P s.info.app_pages.toNat 0
  return ({ s with erased := true }, [UPD_ST_OK])

/-- The page index of a WRITE_PAGE payload, assembled in wide unsigned. -/
def write_index (req : UpdFrame) : UInt16 :=
  let idxw := (req.payload.getD 0 0).toUInt32 ||| (req.payload.getD 1 0).toUInt32 <<< 8
  (idxw &&& 0xFFFF).toUInt16

def handle_write (s : UpdSession) (req : UpdFrame) : StateM σ (List UInt8) := do
  if !s.erased then return [UPD_ST_NOT_ERASED]
  if req.len.toUInt32 ≠ s.info.page_size.toUInt32 + 2 then return [UPD_ST_BAD_FRAME]
  let idx := write_index req
  if idx ≥ s.info.app_pages then return [UPD_ST_OUT_OF_RANGE]
  P.port_flash_write_page idx (req.payload.drop 2)
  return [UPD_ST_OK]

/-- The two words of a VERIFY payload: rounds `i` to 3. -/
def verify_words (req : UpdFrame) : Nat → Nat → UInt32 → UInt32 → UInt32 × UInt32
  | 0, _, length, crc => (length, crc)
  | k + 1, i, length, crc =>
    verify_words req k (i + 1)
      (length ||| (req.payload.getD i 0).toUInt32 <<< UInt32.ofNat (8 * i))
      (crc ||| (req.payload.getD (4 + i) 0).toUInt32 <<< UInt32.ofNat (8 * i))

def handle_verify (s : UpdSession) (req : UpdFrame) : StateM σ (List UInt8) := do
  if req.len ≠ 8 then return [UPD_ST_BAD_FRAME]
  let (length, crc) := verify_words req 4 0 0 0
  if region_bytes s.info < 16 ∨ length > region_bytes s.info - 16 then
    return [UPD_ST_OUT_OF_RANGE]
  let c ← flash_crc P length
  return [if c = crc then UPD_ST_OK else UPD_ST_BAD_CRC]

def handle_echo (req : UpdFrame) (rsp_cap : UInt8) : List UInt8 :=
  if req.len > UPD_ECHO_MAX ∨ req.len.toUInt32 + 1 > rsp_cap.toUInt32 then [UPD_ST_BAD_FRAME]
  else UPD_ST_OK :: req.payload

/-- The answer is the payload in `rsp[0 .. ret)`; it is empty for `rsp_cap = 0` only. -/
def upd_handle (s : UpdSession) (req : UpdFrame) (rsp_cap : UInt8) :
    StateM σ (UpdSession × List UInt8) := do
  if rsp_cap = 0 then return (s, [])
  if req.cmd = UPD_CMD_INFO then
    return (s, ← handle_info P s rsp_cap)
  else if req.cmd = UPD_CMD_ERASE_APP then
    handle_erase P s req
  else if req.cmd = UPD_CMD_WRITE_PAGE then
    return (s, ← handle_write P s req)
  else if req.cmd = UPD_CMD_VERIFY then
    return (s, ← handle_verify P s req)
  else if req.cmd = UPD_CMD_BOOT then
    if ← upd_app_valid P s.info then
      return ({ s with boot_pending := true }, [UPD_ST_OK])
    else
      return (s, [UPD_ST_NO_APP])
  else if req.cmd = UPD_CMD_ECHO then
    return (s, handle_echo req rsp_cap)
  else
    return (s, [UPD_ST_BAD_CMD])

end Core

end OtaUpdater.Device
