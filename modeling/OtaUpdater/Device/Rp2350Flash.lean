import OtaUpdater.Device.Flash

/-!
# The flash boundary of the RP2350 port (`rp2350_uart/flash.c`)

Protocol pages are half of what the QSPI flash programs at once: an even page is held
back until its partner comes, or until anything else does.
-/

namespace OtaUpdater.Device.Rp2350

/-! ## Geometry -/

def XIP_BASE : UInt32 := 0x10000000
def UPDATER_APP_FLASH_OFFSET : UInt32 := 0x10000
def UPDATER_APP_BASE : UInt32 := 0x10000000 + UPDATER_APP_FLASH_OFFSET
def UPDATER_PAGE_SIZE : UInt32 := 128
def UPDATER_APP_PAGES : UInt32 := 8192
def FLASH_PAGE_SIZE : UInt32 := 256
def FLASH_SECTOR_SIZE : UInt32 := 4096
def PAGES_PER_SECTOR : UInt32 := FLASH_SECTOR_SIZE / UPDATER_PAGE_SIZE

def port_info : PortInfo where
  page_size := UPDATER_PAGE_SIZE.toUInt16
  app_pages := UPDATER_APP_PAGES.toUInt16
  device_id := #v[0x52, 0x50, 0x32, 0x33]
  bl_version := 1

/-! ## The QSPI flash -/

inductive FlashCall where
  | flash_range_erase (offs count : UInt32)
  | flash_range_program (offs count : UInt32)
deriving DecidableEq, Repr

/-- The statics of the file, and behind the ROM routines the flash from its start on. -/
structure Board where
  hold : List UInt8
  hold_page : UInt16
  hold_valid : Bool
  flash : Flash
  calls : List FlashCall

def flash_range_erase (offs count : UInt32) : StateM Board Unit :=
  modify fun b => { b with
    flash := fun x => if offs.toNat ≤ x ∧ x < offs.toNat + count.toNat then 0xFF else b.flash x
    calls := b.calls ++ [.flash_range_erase offs count] }

/-- Programming clears bits and sets none. -/
def flash_range_program (offs : UInt32) (data : List UInt8) (count : UInt32) : StateM Board Unit :=
  modify fun b => { b with
    flash := fun x =>
      if offs.toNat ≤ x ∧ x < offs.toNat + count.toNat then nor (b.flash x) (data.getD (x - offs.toNat) 0)
      else b.flash x
    calls := b.calls ++ [.flash_range_program offs count] }

/-! ## The holdback -/

/-- Half of `unit`: a `NULL` half is filled with 0xFF. -/
def half (data : Option (List UInt8)) : List UInt8 :=
  match data with
  | some data => data.take UPDATER_PAGE_SIZE.toNat
  | none => List.replicate UPDATER_PAGE_SIZE.toNat 0xFF

def prog_flash_page (even_page : UInt16) (lo hi : Option (List UInt8)) : StateM Board Unit :=
  let unit := half lo ++ half hi
  let offs := UPDATER_APP_FLASH_OFFSET + even_page.toUInt32 * UPDATER_PAGE_SIZE
  flash_range_program offs unit FLASH_PAGE_SIZE

def hold_flush : StateM Board Unit := fun b =>
  if !b.hold_valid then ((), b)
  else prog_flash_page b.hold_page (some b.hold) none { b with hold_valid := false }

/-! ## The port contract -/

def port_flash_erase_page (page : UInt16) : StateM Board Unit := fun b =>
  let b := { b with hold_valid := false }
  if page.toUInt32 % PAGES_PER_SECTOR ≠ 0 then ((), b)
  else
    let offs := UPDATER_APP_FLASH_OFFSET + page.toUInt32 * UPDATER_PAGE_SIZE
    flash_range_erase offs FLASH_SECTOR_SIZE b

def port_flash_write_page (page : UInt16) (data : List UInt8) : StateM Board Unit := fun b =>
  if b.hold_valid ∧ page = b.hold_page then
    ((), { b with hold := data.take UPDATER_PAGE_SIZE.toNat })
  else if b.hold_valid ∧ page = b.hold_page + 1 then
    prog_flash_page b.hold_page (some b.hold) (some data) { b with hold_valid := false }
  else
    let ((), b) := hold_flush b
    if page &&& 1 = 0 then
      ((), { b with
        hold := data.take UPDATER_PAGE_SIZE.toNat, hold_page := page, hold_valid := true })
    else prog_flash_page (page - 1) none (some data) b

def port_flash_read_byte (offset : UInt32) : StateM Board UInt8 := fun b =>
  let ((), b) := hold_flush b
  (b.flash (UPDATER_APP_BASE + offset - XIP_BASE).toNat, b)

def rp2350Port : Port Board where
  port_flash_erase_page := port_flash_erase_page
  port_flash_write_page := port_flash_write_page
  port_flash_read_byte := port_flash_read_byte
  port_jump_to_app := pure ()

end OtaUpdater.Device.Rp2350
