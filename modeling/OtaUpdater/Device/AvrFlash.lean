import OtaUpdater.Device.Flash

/-!
# The flash boundary of the AVR-EA ports (`avr_ea_common/flash.c`)

A store through the mapped window loads the page buffer of NVMCTRL, and a command
then acts on the page that was stored to last.
-/

open OtaUpdater.Lib.State

namespace OtaUpdater.Device.Avr

/-! ## Geometry -/

def UPDATER_APP_BASE : UInt32 := 0x1000
def UPDATER_PAGE_SIZE : UInt32 := 128
def UPDATER_APP_PAGES : UInt32 := 480
def UPDATER_DEVICE_ID : Vector UInt8 4 := #v['A'.toUInt8, 'E'.toUInt8, '6'.toUInt8, '4'.toUInt8]
def MAPPED_PROGMEM_START : UInt32 := 0x8000
def MAPPED_PROGMEM_SIZE : UInt32 := 0x8000

def port_info : PortInfo where
  page_size := UPDATER_PAGE_SIZE.toUInt16
  app_pages := UPDATER_APP_PAGES.toUInt16
  device_id := UPDATER_DEVICE_ID
  bl_version := 1

/-! ## The peripheral -/

def NVMCTRL_FLBUSY_bm : UInt8 := 0x02
def NVMCTRL_EEBUSY_bm : UInt8 := 0x01
def NVMCTRL_FLMAP_gm : UInt8 := 0x30
def NVMCTRL_FLMAP_gp : UInt32 := 4

inductive NvmCmd where
  | NOCMD
  | FLPW
  | FLPER
deriving DecidableEq, Repr

/-- The key that a protected write presents: CTRLA takes SPM only, CTRLB takes IOREG only. -/
inductive CcpKey where
  | IOREG
  | SPM

/-- What a command did, with the page counted from the start of the flash. -/
inductive NvmOp where
  | erased (page : Nat)
  | programmed (page : Nat) (data : List UInt8)
deriving DecidableEq, Repr

def NvmOp.page : NvmOp → Nat
  | erased page | programmed page _ => page

def NvmOp.apply : NvmOp → Flash → Flash
  | erased page => erasePage 128 page
  | programmed page data => writePage nor 128 page data

/-- NVMCTRL, the flash behind it, and the static of the file. `flbusy` and `eebusy` say how many more
reads of STATUS will see the flag. -/
structure Mcu where
  ctrla : NvmCmd
  ctrlb : UInt8
  flbusy : Nat
  eebusy : Nat
  error : Bool
  buffer : Nat → UInt8
  addressed : Option Nat
  flash : Flash
  ops : List NvmOp
  flmap_saved : UInt8

/-- Nothing is under way, and nothing is left over: as after a reset. -/
structure Mcu.AtRest (m : Mcu) : Prop where
  nocmd : m.ctrla = .NOCMD
  error : m.error = false
  blank : ∀ i, m.buffer i = 0xFF

def readStatus : StateM Mcu UInt8 := fun m =>
  ((if m.flbusy = 0 then 0 else NVMCTRL_FLBUSY_bm) |||
    (if m.eebusy = 0 then 0 else NVMCTRL_EEBUSY_bm),
    { m with flbusy := m.flbusy - 1, eebusy := m.eebusy - 1 })

/-- The flash address behind an address of the window: FLMAP selects one of two blocks. -/
def Mcu.mapped (m : Mcu) (ptr : UInt16) : Nat :=
  ((m.ctrlb &&& NVMCTRL_FLMAP_gm) >>> 4).toNat % 2 * MAPPED_PROGMEM_SIZE.toNat +
    (ptr.toNat - MAPPED_PROGMEM_START.toNat)

/-- Loading the buffer clears bits and sets none. -/
def storeByte (ptr : UInt16) (v : UInt8) : StateM Mcu Unit :=
  modify fun m =>
    if ptr.toNat < MAPPED_PROGMEM_START.toNat then m
    else { m with
      buffer := fun i => if i = m.mapped ptr % 128 then m.buffer i &&& v else m.buffer i
      addressed := some (m.mapped ptr / 128) }

def loadByte (ptr : UInt16) : StateM Mcu UInt8 := fun m => (m.flash (m.mapped ptr), m)

def writeCtrlb (key : CcpKey) (v : UInt8) : StateM Mcu Unit :=
  modify fun m =>
    match key with
    | .IOREG => { m with ctrlb := v }
    | .SPM => m

section Commands

variable (slow : Nat → Nat)

/-- The buffer is blank after it, and `slow n` reads of STATUS see the `n`-th operation busy. -/
def Mcu.perform (m : Mcu) (cmd : NvmCmd) (op : NvmOp) : Mcu :=
  { m with
    ctrla := cmd
    flbusy := slow m.ops.length
    buffer := fun _ => 0xFF
    addressed := none
    flash := op.apply m.flash
    ops := m.ops ++ [op] }

/-- A command is refused while one is under way, and when it follows another without NOCMD. -/
def Mcu.command (m : Mcu) (cmd : NvmCmd) : Mcu :=
  if m.flbusy ≠ 0 ∨ m.eebusy ≠ 0 ∨ (cmd ≠ .NOCMD ∧ m.ctrla ≠ .NOCMD) then { m with error := true }
  else
    match cmd, m.addressed with
    | .FLPER, some page => m.perform slow .FLPER (.erased page)
    | .FLPW, some page => m.perform slow .FLPW (.programmed page ((List.range 128).map m.buffer))
    | _, _ => { m with ctrla := cmd }

def writeCtrla (key : CcpKey) (cmd : NvmCmd) : StateM Mcu Unit :=
  modify fun m =>
    match key with
    | .SPM => m.command slow cmd
    | .IOREG => m

/-! ## The file's helpers -/

def nvm_cmd (cmd : NvmCmd) : StateM Mcu Unit := writeCtrla slow .SPM cmd

/-- The rest of the busy loop, with `k` turns to go. -/
def nvm_wait_loop : Nat → StateM Mcu Unit
  | 0 => pure ()
  | k + 1 => do
    if (← readStatus) &&& (NVMCTRL_FLBUSY_bm ||| NVMCTRL_EEBUSY_bm) ≠ 0 then nvm_wait_loop k

/-- Every operation ends some time, so the loop does. -/
def nvm_wait : StateM Mcu Unit := fun m => nvm_wait_loop (max m.flbusy m.eebusy + 1) m

def flmap_window (addr : UInt32) : StateM Mcu UInt16 := do
  modify fun m => { m with flmap_saved := m.ctrlb }
  let m ← get
  writeCtrlb .IOREG ((m.flmap_saved &&& ~~~NVMCTRL_FLMAP_gm) |||
    (((addr >>> 15) <<< NVMCTRL_FLMAP_gp) &&& NVMCTRL_FLMAP_gm.toUInt32).toUInt8)
  return (MAPPED_PROGMEM_START + (addr &&& (MAPPED_PROGMEM_SIZE - 1))).toUInt16

def flmap_restore : StateM Mcu Unit := do
  let m ← get
  writeCtrlb .IOREG m.flmap_saved

/-! ## The port contract -/

def port_flash_erase_page (page : UInt16) : StateM Mcu Unit := do
  let addr := UPDATER_APP_BASE + page.toUInt32 * UPDATER_PAGE_SIZE
  nvm_wait
  nvm_cmd slow .NOCMD
  let dst ← flmap_window addr
  storeByte dst 0xFF
  nvm_cmd slow .FLPER
  nvm_wait
  nvm_cmd slow .NOCMD
  flmap_restore

/-- `for (i = ..; i < UPDATER_PAGE_SIZE; i++) dst[i] = data[i];` with `k` rounds to go. -/
def load_buffer (dst : UInt16) (data : List UInt8) : Nat → UInt16 → StateM Mcu Unit
  | 0, _ => pure ()
  | k + 1, i => do
    storeByte (dst + i) (data.getD i.toNat 0)
    load_buffer dst data k (i + 1)

def port_flash_write_page (page : UInt16) (data : List UInt8) : StateM Mcu Unit := do
  let addr := UPDATER_APP_BASE + page.toUInt32 * UPDATER_PAGE_SIZE
  nvm_wait
  nvm_cmd slow .NOCMD
  let dst ← flmap_window addr
  load_buffer dst data UPDATER_PAGE_SIZE.toNat 0
  nvm_cmd slow .FLPW
  nvm_wait
  nvm_cmd slow .NOCMD
  flmap_restore

def port_flash_read_byte (offset : UInt32) : StateM Mcu UInt8 := do
  let src ← flmap_window (UPDATER_APP_BASE + offset)
  let v ← loadByte src
  flmap_restore
  return v

def avrPort : Port Mcu where
  port_flash_erase_page := port_flash_erase_page slow
  port_flash_write_page := port_flash_write_page slow
  port_flash_read_byte := port_flash_read_byte
  port_jump_to_app := pure ()

end Commands

end OtaUpdater.Device.Avr
