import OtaUpdater.Device.LinkStream
import OtaUpdater.System.Answers

/-!
# The simulated device (`sim_port.c`)

The port contract over an array, with a power cut at a chosen flash operation, and the two
reference loops. `abort` does not come back: here it raises a flag that nothing takes down.
-/

open OtaUpdater.Lib.State OtaUpdater.Wire OtaUpdater.Device OtaUpdater.System

namespace OtaUpdater.Conformance

def SIM_PAGE_SIZE : UInt16 := 128
def SIM_APP_PAGES : UInt16 := 32
def SIM_REGION : UInt32 := 4096

/-- What the port functions work on. -/
structure Statics where
  flash : Flash
  ops : UInt32
  cut_at : UInt32
  cut_hit : Bool
  dead : Bool
  jumped : Bool
  aborted : Bool

def Statics.abort (g : Statics) : Statics := { g with aborted := true }

/-! ## The port contract -/

def port_info : PortInfo where
  page_size := SIM_PAGE_SIZE
  app_pages := SIM_APP_PAGES
  device_id := #v['S'.toUInt8, 'I'.toUInt8, 'M'.toUInt8, '0'.toUInt8]
  bl_version := 1

def memset (f : Flash) (p : Nat) (c : UInt8) (n : Nat) : Flash :=
  fun off => if p ≤ off ∧ off < p + n then c else f off

def memcpy (f : Flash) (p : Nat) (src : List UInt8) (n : Nat) : Flash :=
  fun off => if p ≤ off ∧ off < p + n then src.getD (off - p) 0 else f off

/-- One flash operation is counted; true if the armed power cut lands on it. -/
def op_tears (g : Statics) : Bool × Statics :=
  let g := { g with ops := g.ops + 1 }
  if g.cut_at ≠ 0 ∧ g.ops = g.cut_at then (true, { g with cut_hit := true, dead := true })
  else (false, g)

def port_flash_erase_page (page : UInt16) (g : Statics) : Statics :=
  if page ≥ SIM_APP_PAGES then g.abort
  else if g.dead then g
  else
    let p := (page.toUInt32 * SIM_PAGE_SIZE.toUInt32).toNat
    let (torn, g) := op_tears g
    if torn then { g with flash := memset g.flash p 0xFF (SIM_PAGE_SIZE.toNat / 2) }
    else { g with flash := memset g.flash p 0xFF SIM_PAGE_SIZE.toNat }

def port_flash_write_page (page : UInt16) (data : List UInt8) (g : Statics) : Statics :=
  if page ≥ SIM_APP_PAGES then g.abort
  else if g.dead then g
  else
    let p := (page.toUInt32 * SIM_PAGE_SIZE.toUInt32).toNat
    let (torn, g) := op_tears g
    if torn then { g with flash := memcpy g.flash p data (SIM_PAGE_SIZE.toNat / 2) }
    else { g with flash := memcpy g.flash p data SIM_PAGE_SIZE.toNat }

def port_flash_read_byte (offset : UInt32) (g : Statics) : UInt8 × Statics :=
  if offset ≥ SIM_REGION then (0, g.abort) else (g.flash offset.toNat, g)

/-- The gate fires, and comes back. -/
def port_jump_to_app (g : Statics) : Statics := { g with jumped := true }

def simPort : Port Statics where
  port_flash_erase_page page := modify (port_flash_erase_page page)
  port_flash_write_page page data := modify (port_flash_write_page page data)
  port_flash_read_byte offset := port_flash_read_byte offset
  port_jump_to_app := modify port_jump_to_app

/-! ## The controls -/

structure Sim where
  g : Statics
  session : UpdSession
  link : Link

/-- The statics at the start of the program. -/
def program_start : Sim where
  g := { flash := fun _ => 0, ops := 0, cut_at := 0, cut_hit := false, dead := false, jumped := false
         aborted := false }
  session := upd_init port_info
  link := link_init (List.replicate 255 0) 255

/-- `sim_reset`; the link's buffer keeps its bytes. -/
def sim_reset (preserve_flash : Bool) (d : Sim) : Sim where
  g := { flash := if preserve_flash then d.g.flash else memset d.g.flash 0 0xFF SIM_REGION.toNat
         ops := 0, cut_at := 0, cut_hit := false, dead := false, jumped := false
         aborted := d.g.aborted }
  session := upd_init port_info
  link := link_init d.link.buf 255

def sim_powercut_after (flash_ops : UInt32) (d : Sim) : Sim :=
  { d with g := { d.g with cut_at := if flash_ops = 0 then 0 else d.g.ops + flash_ops } }

/-! ## The reference loops -/

/-- A BOOT that was granted takes the gate once its reply is out. -/
def take_gate (d : Sim) : Sim :=
  if d.session.boot_pending then
    let session := { d.session with boot_pending := false }
    { d with session, g := (upd_boot_if_valid simPort session.info d.g).2 }
  else d

def sim_request (frame : List UInt8) (d : Sim) : List UInt8 × Sim :=
  if d.g.dead || d.g.jumped then ([], d)
  else
    let r := request_cycle simPort d.session rspCap (List.replicate 255 0) 255 frame d.g
    let d := { d with g := r.2, session := r.1.2 }
    if d.g.dead then ([], d) else (r.1.1, take_gate d)

/-- `stream_put`, for each byte that `link_send` emits. -/
def stream_put (cap : Nat) : List UInt8 → Statics × List UInt8 → Statics × List UInt8
  | [], s => s
  | b :: bytes, (g, out) =>
    if out.length ≥ cap then stream_put cap bytes (g.abort, out)
    else stream_put cap bytes (g, out ++ [b])

/-- One round of the pump's loop: the reply that is out, the device, and whether it goes on. -/
def pump_frame (cap : Nat) (req : UpdFrame) (d : Sim) (out : List UInt8) : List UInt8 × Sim × Bool :=
  let r := upd_handle simPort d.session req rspCap d.g
  let built := upd_frame_build (List.replicate 255 0) 255 (req.cmd ||| UPD_RSP_FLAG) (.apart r.1.2)
    (UInt8.ofNat r.1.2.length)
  let d := { d with g := r.2, session := r.1.1 }
  if d.g.dead then (out, d, false)
  else
    let sent := stream_put cap (link_send built.2 built.1) (d.g, out)
    let d := take_gate { d with g := sent.1 }
    (sent.2, d, !d.g.jumped)

/-- `while (link_poll(&g_link, &req))`, over the bytes that are left of the pipe. -/
def pump (cap : Nat) (d : Sim) (out bytes : List UInt8) : List UInt8 × Sim :=
  match h : link_poll d.link bytes with
  | (none, link, _) => (out, { d with link })
  | (some req, link, rest) =>
    have : rest.length < bytes.length := by
      have := link_poll_rest_length d.link bytes (by rw [h]; rfl)
      rwa [h] at this
    let r := pump_frame cap req { d with link } out
    if r.2.2 then pump cap r.2.1 r.1 rest else (r.1, r.2.1)
termination_by bytes.length

def sim_request_stream (bytes : List UInt8) (cap : Nat) (d : Sim) : List UInt8 × Sim :=
  if d.g.dead || d.g.jumped then ([], d) else pump cap d [] bytes

end OtaUpdater.Conformance
