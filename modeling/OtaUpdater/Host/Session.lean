import OtaUpdater.Lib.Retry
import OtaUpdater.Lib.State
import OtaUpdater.Host.Image

/-!
# The session engine (`transport.rs`, `session.rs`)

`INFO`, `ERASE_APP`, `WRITE_PAGE`s, `VERIFY` over any transport, with bounded
retries. Slices of `frame_buf` that are handed to a callee come back from it.
-/

open OtaUpdater.Lib.Retry

namespace OtaUpdater.Host

def RETRY_BUDGET : Nat := 3
def INFO_RSP_PAYLOAD : Nat := 12
def ST_RSP_PAYLOAD : Nat := 1

/-- `trait Transport` over a state `τ`: `request` leaves bytes in `rsp`, which keeps its size. -/
structure Transport (τ ε : Type) where
  request : τ → List UInt8 → List UInt8 → (Except ε Nat × List UInt8) × τ
  length_rsp : ∀ t req rsp, (request t req rsp).1.2.length = rsp.length

structure DeviceInfo where
  proto : UInt8
  bl_version : UInt8
  device_id : List UInt8
  page_size : UInt16
  app_pages : UInt16
  app_valid : Bool
deriving DecidableEq, Repr

structure Session (τ : Type) where
  transport : τ
  buf : List UInt8
  progress : List (UInt16 × UInt16)

abbrev SessionM (τ ε : Type) := ExceptT (Error ε) (StateM (Session τ))

/-! ## Windows -/

def split_windows {ε : Type} (buf : List UInt8) (tx_len rx_len : Nat) :
    Except (Error ε) (List UInt8 × List UInt8) :=
  let needed := tx_len + rx_len
  if buf.length < needed then .error (.BufferTooSmall needed)
  else
    let region := buf.take needed
    .ok (region.take tx_len, region.drop tx_len)

/-! ## Responses -/

inductive Reject where
  | Mangled
  | DeviceBadFrame
  | Fatal (st : UInt8)
deriving DecidableEq, Repr

def validate (raw : List UInt8) (expect_cmd : UInt8) : Except Reject Unit :=
  match decode_padded raw with
  | .error _ => .error .Mangled
  | .ok decoded =>
    if decoded.cmd ≠ expect_cmd then .error .Mangled
    else
      match decoded.payload with
      | [] => .error .Mangled
      | st :: _ =>
        if st = ST_OK then .ok ()
        else if st = ST_BAD_FRAME then .error .DeviceBadFrame
        else .error (.Fatal st)

def parse_info {ε : Type} (rest : List UInt8) : Except (Error ε) DeviceInfo :=
  match rest with
  | [proto, bl_version, d0, d1, d2, d3, ps_lo, ps_hi, ap_lo, ap_hi, valid] =>
    .ok { proto, bl_version, device_id := [d0, d1, d2, d3]
          page_size := UInt16.ofNat (Lib.Bytes.ofLe [ps_lo, ps_hi])
          app_pages := UInt16.ofNat (Lib.Bytes.ofLe [ap_lo, ap_hi])
          app_valid := valid ≠ 0 }
  | _ => .error .BadFrame

section Session

variable {τ ε : Type} (T : Transport τ ε)

/-! ## Exchanges -/

/-- The body of the retry loop, on the transport and the receive window. -/
def exchange_attempt (tx : List UInt8) (expect_cmd : UInt8) (s : τ × List UInt8) :
    Attempt Nat (Error ε) × (τ × List UInt8) :=
  match T.request s.1 tx s.2 with
  | ((.error e, rx), t) => (.again (.Transport e), (t, rx))
  | ((.ok n, rx), t) =>
    let rlen := min n rx.length
    let raw := rx.take rlen
    match validate raw expect_cmd with
    | .ok () => (.done rlen, (t, rx))
    | .error .Mangled => (.again .BadFrame, (t, rx))
    | .error .DeviceBadFrame => (.again (.Device ST_BAD_FRAME), (t, rx))
    | .error (.Fatal st) => (.stop (.Device st), (t, rx))

def exchange (t : τ) (tx rx : List UInt8) (expect_cmd : UInt8) :
    Except (Error ε) Nat × (τ × List UInt8) :=
  retry (exchange_attempt T tx expect_cmd) (1 + RETRY_BUDGET) .BadFrame (t, rx)

def Session.after (self : Session τ) (t : τ) (tx rx : List UInt8) : Session τ :=
  { self with transport := t, buf := tx ++ rx ++ self.buf.drop (tx.length + rx.length) }

def transact (cmd : UInt8) (payload : List UInt8) (rsp_payload_cap : Nat) :
    SessionM τ ε (List UInt8) := fun self =>
  let tx_len := payload.length + FRAME_OVERHEAD
  let rx_len := rsp_payload_cap + FRAME_OVERHEAD
  match split_windows self.buf tx_len rx_len with
  | .error e => (.error e, self)
  | .ok (tx, rx) =>
    match encode cmd payload tx with
    | (.error e, tx) => (.error e.widen, self.after self.transport tx rx)
    | (.ok _, tx) =>
      match exchange T self.transport tx rx (cmd ||| RSP_FLAG) with
      | (.error e, (t, rx)) => (.error e, self.after t tx rx)
      | (.ok rlen, (t, rx)) =>
        let self := self.after t tx rx
        if rx.length < rlen then (.error .BadFrame, self)
        else
          match decode_padded (rx.take rlen) with
          | .error e => (.error e.widen, self)
          | .ok decoded =>
            match decoded.payload with
            | [] => (.error .BadFrame, self)
            | _st :: rest => (.ok rest, self)

/-- The page is rendered in place, behind the header it shares the transmit window with. -/
def write_page (img : Image) (index : UInt16) : SessionM τ ε Unit := fun self =>
  let ps := img.page_size.toNat
  let payload_len := ps + 2
  let tx_len := payload_len + FRAME_OVERHEAD
  let rx_len := ST_RSP_PAYLOAD + FRAME_OVERHEAD
  match split_windows self.buf tx_len rx_len with
  | .error e => (.error e, self)
  | .ok (tx, rx) =>
    if 255 < payload_len then (.error (.PayloadTooLarge payload_len), self)
    else
      let idx := Lib.Bytes.leBytes 2 index.toNat
      let header := [CMD_WRITE_PAGE, UInt8.ofNat payload_len] ++ idx
      match img.page_into index ((tx.drop 4).take ps) with
      | (.error e, page) =>
        (.error e.widen, self.after self.transport (header ++ page ++ tx.drop (4 + ps)) rx)
      | (.ok (), page) =>
        let tx := header ++ page ++ tx.drop (4 + ps)
        let crc_at := tx_len - 1
        let tx := tx.set crc_at (crc8 (tx.take crc_at))
        match exchange T self.transport tx rx (CMD_WRITE_PAGE ||| RSP_FLAG) with
        | (.error e, (t, rx)) => (.error e, self.after t tx rx)
        | (.ok _, (t, rx)) => (.ok (), self.after t tx rx)

/-! ## Commands -/

def info : SessionM τ ε DeviceInfo := do
  let rest ← transact T CMD_INFO [] INFO_RSP_PAYLOAD
  match parse_info rest with
  | .ok info => return info
  | .error e => throw e

def echo (data : List UInt8) : SessionM τ ε Unit := do
  if ECHO_MAX < data.length then throw (.PayloadTooLarge data.length)
  else
    let rest ← transact T CMD_ECHO data (data.length + ST_RSP_PAYLOAD)
    if rest = data then return () else throw .BadFrame

def boot : SessionM τ ε Unit := do
  let _ ← transact T CMD_BOOT [] ST_RSP_PAYLOAD
  return ()

def progress (done total : UInt16) : SessionM τ ε Unit := fun self =>
  (.ok (), { self with progress := self.progress ++ [(done, total)] })

def write_pages (img : Image) (total : UInt16) : List UInt16 → UInt16 → SessionM τ ε Unit
  | [], _ => pure ()
  | index :: rest, done => do
    write_page T img index
    let done := if done = 0xFFFF then done else done + 1
    progress done total
    write_pages img total rest done

def flash (img : Image) : SessionM τ ε Unit := do
  let info ← info T
  if info.proto ≠ PROTO_VERSION then throw (.ProtocolVersion info.proto)
  else if info.page_size ≠ img.page_size ∨ info.app_pages ≠ img.app_pages then
    throw (.BadGeometry info.page_size info.app_pages)
  else
    let _ ← transact T CMD_ERASE_APP ERASE_MAGIC ST_RSP_PAYLOAD
    let total := if img.pages.length ≤ 0xFFFF then UInt16.ofNat img.pages.length else 0xFFFF
    progress 0 total
    write_pages T img total img.pages 0
    let verify := Lib.Bytes.leBytes 4 img.len.toNat ++ Lib.Bytes.leBytes 4 img.crc.toNat
    let _ ← transact T CMD_VERIFY verify ST_RSP_PAYLOAD
    return ()

end Session

end OtaUpdater.Host
