import OtaUpdater.Device.Flash
import OtaUpdater.Host.SessionRules

/-!
# A device behind a faulty link

The reference port (`conformance/sim/sim_port.c`): parse, handle, build, over a
flash array with a power cut at any operation. Around it a transport on which an
adversary decides, attempt by attempt, what the device and the host get to see.
-/

open OtaUpdater.Lib.State OtaUpdater.Wire OtaUpdater.Device OtaUpdater.Host

namespace OtaUpdater.System

/-! ## The flash under test -/

/-- What a cut operation leaves in a byte, from what it held and what it was to hold. -/
abbrev Tear := UInt8 → UInt8 → Nat → UInt8

inductive Moment where
  | erased (f : Flash)
  | programming (page : Nat) (f : Flash)
  | operated (f : Flash)
  | reset (f : Flash)

def Moment.flash : Moment → Flash
  | erased f | programming _ f | operated f | reset f => f

/-- The port's statics; `fuse` counts the operations until the power cut. -/
structure Rig where
  f : Flash
  fuse : Option (Nat × Tear)
  dead : Bool
  log : List Moment

def tornPage (tear : Tear) (ps p : Nat) (old new : Flash) : Flash :=
  fun off => if InPage ps p off then tear (old off) (new off) off else old off

/-- One flash operation on page `p`, unless the power is already lost. -/
def rigOp (ps p : Nat) (whole : Flash → Flash) : StateM Rig Unit := fun r =>
  if r.dead then ((), r)
  else
    match r.fuse with
    | none => ((), { r with f := whole r.f, log := r.log ++ [.operated (whole r.f)] })
    | some (k + 1, tear) =>
      ((), { r with f := whole r.f, fuse := some (k, tear), log := r.log ++ [.operated (whole r.f)] })
    | some (0, tear) =>
      let f := tornPage tear ps p r.f (whole r.f)
      ((), { r with f, dead := true, log := r.log ++ [.operated f] })

/-- The device gets as far as starting to program page `p`. -/
def rigStart (p : Nat) : StateM Rig Unit := fun r =>
  if r.dead then ((), r) else ((), { r with log := r.log ++ [.programming p r.f] })

def rigPort (info : PortInfo) : Port Rig where
  port_flash_erase_page p := rigOp info.page_size.toNat p.toNat (erasePage info.page_size.toNat p.toNat)
  port_flash_write_page p data := do
    rigStart p.toNat
    rigOp info.page_size.toNat p.toNat (writePage store info.page_size.toNat p.toNat data)
  port_flash_read_byte off := fun r => (r.f off.toNat, r)
  port_jump_to_app := pure ()

/-! ## The device under test -/

structure Dev where
  s : UpdSession
  f : Flash
  log : List Moment

def rspCap : UInt8 := 252

def Dev.handle (d : Dev) (req : UpdFrame) (fuse : Option (Nat × Tear)) :
    (UpdSession × List UInt8) × Rig :=
  upd_handle (rigPort d.s.info) d.s req rspCap { f := d.f, fuse, dead := false, log := d.log }

def answerFrame (cmd : UInt8) (payload : List UInt8) : List UInt8 :=
  let built := upd_frame_build (List.replicate 255 0) 255 (cmd ||| UPD_RSP_FLAG) (.apart payload)
    (UInt8.ofNat payload.length)
  built.2.take built.1.toNat

def parseFrame (frame : List UInt8) : Option UpdFrame :=
  if frame.length ≤ 255 then upd_frame_parse frame (UInt8.ofNat frame.length) else none

/-- An ERASE_APP that was handled to its end leaves a moment of its own. -/
def eraseDone (req : UpdFrame) (r : (UpdSession × List UInt8) × Rig) : List Moment :=
  if r.2.dead = false ∧ req.cmd = UPD_CMD_ERASE_APP ∧ r.1.2 = [UPD_ST_OK] then [.erased r.2.f] else []

def transaction (frame : List UInt8) (d : Dev) : List UInt8 × Dev :=
  match parseFrame frame with
  | some req =>
    let r := d.handle req none
    (answerFrame req.cmd r.1.2, { s := r.1.1, f := r.2.f, log := r.2.log ++ eraseDone req r })
  | none => (answerFrame (frame.getD 0 0) [UPD_ST_BAD_FRAME], d)

def Dev.reboot (d : Dev) : Dev := { s := upd_init d.s.info, f := d.f, log := d.log ++ [.reset d.f] }

/-- A request whose handling does not outlive the power. -/
def cutTransaction (frame : List UInt8) (k : Nat) (tear : Tear) (d : Dev) : Dev :=
  match parseFrame frame with
  | some req =>
    let r := d.handle req (some (k, tear))
    Dev.reboot { s := d.s, f := r.2.f, log := r.2.log ++ eraseDone req r }
  | none => d.reboot

/-! ## The faulty link -/

/-- What can befall the device on account of one attempt, before the host sees anything. -/
inductive Happening where
  | reboot
  | handled
  | cut (k : Nat) (tear : Tear)

def happen (frame : List UInt8) (d : Dev) : Happening → Dev
  | .reboot => d.reboot
  | .handled => (transaction frame d).2
  | .cut k tear => cutTransaction frame k tear d

/-- What the host may see instead of an answer: an error, or bytes that `validate` rejects. -/
structure Noise (ε : Type) where
  seen : List UInt8 → Nat → Except ε (List UInt8)
  rejected : ∀ req room bytes, seen req room = .ok bytes →
    validate (bytes.take room) (req.getD 0 0 ||| RSP_FLAG) ≠ .ok ()

/-- Either the host gets the answer to this very attempt, with filler, or it gets noise. -/
inductive Outcome (ε : Type) where
  | noise (n : Noise ε)
  | answers (pad : Nat)

structure Attempt (ε : Type) where
  before : List Happening
  outcome : Outcome ε

structure World where
  dev : Dev
  clock : Nat
  sent : List (List UInt8)

/-- The bytes of a transfer land at the front of `rsp`, as many as there is room for. -/
def fill (rsp bytes : List UInt8) : List UInt8 := (bytes ++ rsp.drop bytes.length).take rsp.length

theorem length_fill (rsp bytes : List UInt8) : (fill rsp bytes).length = rsp.length := by
  simp only [fill, List.length_take, List.length_append, List.length_drop]
  omega

section Link

variable {ε : Type} (schedule : Nat → Attempt ε)

def World.attempt (w : World) (req : List UInt8) : List UInt8 × Dev :=
  let dev := (schedule w.clock).before.foldl (happen req) w.dev
  match (schedule w.clock).outcome with
  | .noise _ => ([], dev)
  | .answers _ => transaction req dev

def World.arrives (w : World) (req : List UInt8) (room : Nat) : Except ε (List UInt8) :=
  match (schedule w.clock).outcome with
  | .noise n => n.seen req room
  | .answers pad => .ok ((w.attempt schedule req).1 ++ List.replicate pad 0xFF)

def faultyLink : Transport World ε where
  request w req rsp :=
    let w' := { dev := (w.attempt schedule req).2, clock := w.clock + 1, sent := w.sent ++ [req] }
    match w.arrives schedule req rsp.length with
    | .error e => ((.error e, rsp), w')
    | .ok bytes => ((.ok (min bytes.length rsp.length), fill rsp bytes), w')
  length_rsp := by
    intro w req rsp
    dsimp only
    split
    · rfl
    · exact length_fill _ _

theorem received_faultyLink (w : World) (req rsp : List UInt8) :
    received ((faultyLink schedule).request w req rsp).1 =
      (w.arrives schedule req rsp.length).map (fun bytes => bytes.take rsp.length) := by
  unfold faultyLink
  dsimp only
  rcases w.arrives schedule req rsp.length with e | bytes
  · rfl
  · have hcount : min (min bytes.length rsp.length) (fill rsp bytes).length =
        min rsp.length bytes.length := by
      rw [length_fill]
      omega
    simp only [received, Except.map, Except.ok.injEq, hcount]
    unfold fill
    rw [List.take_take, Nat.min_eq_left (by omega), List.take_append_of_le_length (by omega),
      ← List.take_eq_take_min]

theorem faultyLink_world (w : World) (req rsp : List UInt8) :
    ((faultyLink schedule).request w req rsp).2 =
      { dev := (w.attempt schedule req).2, clock := w.clock + 1, sent := w.sent ++ [req] } := by
  unfold faultyLink
  dsimp only
  split <;> rfl

theorem faultyLink_cases (w : World) (req rsp : List UInt8) :
    let r := (faultyLink schedule).request w req rsp
    let dev := (schedule w.clock).before.foldl (happen req) w.dev
    (∃ n, (schedule w.clock).outcome = .noise n ∧ r.2.dev = dev ∧
      received r.1 = (n.seen req rsp.length).map (fun bytes => bytes.take rsp.length)) ∨
    (∃ pad, (schedule w.clock).outcome = .answers pad ∧ r.2.dev = (transaction req dev).2 ∧
      received r.1 = .ok (((transaction req dev).1 ++ List.replicate pad 0xFF).take rsp.length)) := by
  dsimp only
  rw [received_faultyLink, faultyLink_world]
  rcases houtcome : (schedule w.clock).outcome with n | pad
  · left
    simp [World.arrives, World.attempt, houtcome]
  · right
    simp [World.arrives, World.attempt, houtcome, Except.map]

end Link

/-! ## Transactions -/

theorem parseFrame_wire (cmd : UInt8) (payload : List UInt8) (hmax : payload.length ≤ payloadMax) :
    ∃ req, parseFrame (wire cmd payload) = some req ∧ req.cmd = cmd ∧ req.payload = payload := by
  simp only [payloadMax] at hmax
  have hlen : (wire cmd payload).length ≤ 255 := by rw [length_wire]; omega
  have hbyte := len_byte (wire cmd payload) (by omega)
  have hpayload := (len_byte payload (by omega)).symm
  refine ⟨⟨cmd, UInt8.ofNat payload.length, payload, hpayload⟩, ?_, rfl, rfl⟩
  unfold parseFrame
  rw [if_pos hlen, upd_frame_parse_iff _ _ (Nat.le_of_eq hbyte), hbyte, List.take_length]

theorem answerFrame_eq (cmd : UInt8) (payload : List UInt8) (hmax : payload.length ≤ payloadMax) :
    answerFrame cmd payload = wire (cmd ||| UPD_RSP_FLAG) payload := by
  simp only [payloadMax] at hmax
  have h255 : (255 : UInt8).toNat = 255 := rfl
  have hlen := len_byte payload (by omega)
  have htotal : (UInt8.ofNat (payload.length + 3)).toNat = payload.length + 3 := by
    rw [UInt8.toNat_ofNat', Nat.mod_eq_of_lt (by omega)]
  unfold answerFrame
  rw [upd_frame_build_apart _ _ _ _ _ (Nat.le_of_eq (h255.trans List.length_replicate.symm))
    hlen.symm (by omega), hlen]
  dsimp only
  rw [htotal, List.take_left' (length_wire _ _)]

theorem rigPort_agree (info : PortInfo) :
    CallsAgree (rigPort info) (arrayPort info store) info
      (fun r f => r.f = f ∧ r.fuse = none ∧ r.dead = false) where
  read := by
    rintro off _ r f ⟨rfl, hfuse, hdead⟩
    exact ⟨rfl, rfl, hfuse, hdead⟩
  erase := by
    rintro p _ ⟨g, fuse, dead, log⟩ f ⟨rfl, rfl, rfl⟩
    exact ⟨rfl, rfl, rfl, rfl⟩
  write := by
    rintro p data _ _ ⟨g, fuse, dead, log⟩ f ⟨rfl, rfl, rfl⟩
    exact ⟨rfl, rfl, rfl, rfl⟩

theorem handle_none (d : Dev) (req : UpdFrame) :
    let r := upd_handle (arrayPort d.s.info store) d.s req rspCap d.f
    (d.handle req none).1 = r.1 ∧ (d.handle req none).2.f = r.2 := by
  obtain ⟨hret, hf, -⟩ := upd_handle_agree (rigPort_agree d.s.info) (s := d.s) req rspCap
    { f := d.f, fuse := none, dead := false, log := d.log } d.f ⟨rfl, rfl, rfl⟩
  exact ⟨hret, hf⟩

theorem transaction_eq {frame : List UInt8} {req : UpdFrame} (d : Dev)
    (hreq : parseFrame frame = some req) :
    let r := upd_handle (arrayPort d.s.info store) d.s req rspCap d.f
    (transaction frame d).1 = wire (req.cmd ||| UPD_RSP_FLAG) r.1.2 ∧
      (transaction frame d).2.s = r.1.1 ∧ (transaction frame d).2.f = r.2 := by
  obtain ⟨hret, hf⟩ := handle_none d req
  have hlength := (upd_handle_answer_length (arrayPort d.s.info store) d.s req d.f rspCap).1
  unfold transaction
  rw [hreq]
  dsimp only
  rw [hret, hf]
  exact ⟨answerFrame_eq _ _ hlength, rfl, rfl⟩

theorem accepted_answer {ε : Type} (cmd expect_cmd : UInt8) (answer rest : List UInt8) (pad room : Nat)
    (hmax : answer.length ≤ payloadMax)
    (h : Accepted (ε := ε) (.ok ((wire cmd answer ++ List.replicate pad 0xFF).take room))
      expect_cmd rest) : answer = ST_OK :: rest := by
  obtain ⟨raw, hraw, hdecode⟩ := h
  rw [Except.ok.injEq] at hraw
  subst hraw
  obtain ⟨hrest, pad', hsame⟩ := decode_padded_ok hdecode
  exact (wire_prefix_eq cmd expect_cmd answer (ST_OK :: rest) pad pad' room hmax hrest hsame).2

end OtaUpdater.System
