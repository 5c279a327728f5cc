import OtaUpdater.Conformance.Pump

/-!
# The loopback transports (`conformance/src/lib.rs`)

The host's session over the simulated device, by either path. A transport that brings back
what the device replied, and nothing when it replied nothing, is all that the campaigns need.
-/

open OtaUpdater.Lib.Framing OtaUpdater.Lib.Mealy OtaUpdater.Wire OtaUpdater.Device OtaUpdater.Host
open OtaUpdater.Agreement OtaUpdater.System

namespace OtaUpdater.Conformance

/-- `Sim::acquire`, whatever the last test left behind. -/
def acquire (d : Sim) : Sim := sim_reset false d

/-! ## A fixed-length read -/

/-- `SimTransport`: what the device did not fill reads as idle. -/
def transport : Transport Sim Empty where
  request d req rsp :=
    let r := sim_request req d
    let n := min r.1.length rsp.length
    ((.ok rsp.length, r.1.take n ++ List.replicate (rsp.length - n) 0xFF), r.2)
  length_rsp := by
    intro d req rsp
    simp only [List.length_append, List.length_take, List.length_replicate]
    omega

/-! ## The byte stream -/

structure StreamError where

def STREAM_RESP_CAP : Nat := 512

/-- `let _ = scanner.push(0x00, rsp)`, `lag` times. -/
def push_lag : Nat → RxScanner × List UInt8 → RxScanner × List UInt8
  | 0, s => s
  | lag + 1, s => push_lag lag (s.1.push 0x00 s.2).2

def scan_reply : List UInt8 → RxScanner × List UInt8 → Except StreamError Nat × List UInt8
  | [], s => (.error {}, s.2)
  | b :: raw, s =>
    match s.1.push b s.2 with
    | (.Done len, _, rsp) => (.ok len, rsp)
    | (_, s) => scan_reply raw s

theorem push_length (s : RxScanner) (b : UInt8) (buf : List UInt8) :
    (s.push b buf).2.2.length = buf.length := by
  unfold RxScanner.push
  dsimp only
  split_ifs
  · rfl
  · rfl
  · rfl
  · exact List.length_set
  · split
    · exact List.length_set
    · split_ifs
      · exact List.length_set
      · exact List.length_set
      · exact List.length_set
      · exact List.length_set

theorem push_lag_length (lag : Nat) (s : RxScanner × List UInt8) :
    (push_lag lag s).2.length = s.2.length := by
  induction lag generalizing s with
  | zero => rfl
  | succ lag ih =>
    unfold push_lag
    rw [ih]
    exact push_length _ _ _

theorem scan_reply_length (raw : List UInt8) (s : RxScanner × List UInt8) :
    (scan_reply raw s).2.length = s.2.length := by
  induction raw generalizing s with
  | nil => rfl
  | cons b raw ih =>
    have hlength := push_length s.1 b s.2
    unfold scan_reply
    generalize s.1.push b s.2 = p at hlength
    obtain ⟨scan, s'⟩ := p
    cases scan with
    | Done len => exact hlength
    | Hunt => exact (ih s').trans hlength
    | Frame => exact (ih s').trans hlength
    | Dropped => exact (ih s').trans hlength

/-- `SimStreamTransport`; `lag` models the shift register of an SPI device. -/
def stream_transport (lag : Nat) : Transport Sim StreamError where
  request d req rsp :=
    let r := sim_request_stream (SYNC :: req) STREAM_RESP_CAP d
    (scan_reply r.1 (push_lag lag (.new, rsp)), r.2)
  length_rsp := by
    intro d req rsp
    rw [scan_reply_length, push_lag_length]

theorem scan_reply_silent (xs raw : List UInt8) (s s' : RxScanner × List UInt8)
    (h : feed scanLen s xs = ([], s')) : scan_reply (xs ++ raw) s = scan_reply raw s' := by
  induction xs generalizing s with
  | nil =>
    cases h
    rfl
  | cons b xs ih =>
    rw [feed_cons, Prod.mk.injEq, List.append_eq_nil_iff, Option.toList_eq_nil_iff] at h
    obtain ⟨⟨hnone, hrest⟩, hlast⟩ := h
    have hnext := ih (scanLen s b).1 (Prod.ext hrest hlast)
    unfold scanLen at hnone hnext
    rw [List.cons_append, scan_reply]
    generalize s.1.push b s.2 = p at hnone hnext
    obtain ⟨scan, s''⟩ := p
    cases scan with
    | Done len => cases hnone
    | Hunt => exact hnext
    | Frame => exact hnext
    | Dropped => exact hnext

theorem scan_reply_frame (cmd : UInt8) (answer : List UInt8) (hmax : answer.length ≤ payloadMax)
    {s : RxScanner × List UInt8} (hidle : s.1.in_frame = false) (hroom : answer.length + 3 ≤ s.2.length) :
    ∃ rsp, scan_reply (SYNC :: wire cmd answer) s = (.ok (wire cmd answer).length, rsp) ∧
      rsp.length = s.2.length ∧ rsp.take (wire cmd answer).length = wire cmd answer := by
  have htakes : Takes scanLen (ScanIdle s.2.length) ScanShows SYNC s (wire cmd answer) :=
    scan_takes hmax ⟨hidle, rfl⟩ (by rw [length_wire]; exact hroom)
  obtain ⟨init, last, mid, len, s', hwire, hsilent, hlast, -, rfl, htake⟩ := htakes
  have hlength := scan_reply_length (SYNC :: wire cmd answer) s
  have hrun : scan_reply (SYNC :: wire cmd answer) s = (.ok (wire cmd answer).length, s'.2) := by
    rw [hwire, ← List.cons_append, scan_reply_silent _ _ _ _ hsilent, ← hwire]
    unfold scanLen at hlast
    unfold scan_reply
    generalize mid.1.push last mid.2 = p at hlast
    obtain ⟨scan, s''⟩ := p
    cases scan with
    | Done len =>
      cases hlast
      rfl
    | Hunt => cases hlast
    | Frame => cases hlast
    | Dropped => cases hlast
  rw [hrun] at hlength
  exact ⟨s'.2, hrun, hlength, htake⟩

theorem push_lag_idle (lag : Nat) (s : RxScanner × List UInt8) (h : s.1.in_frame = false) :
    push_lag lag s = s := by
  have hskip : (s.1.push 0x00 s.2).2 = s := by
    unfold RxScanner.push
    have hne : (0x00 : UInt8) ≠ SYNC := by decide
    simp [h, hne]
  induction lag with
  | zero => rfl
  | succ lag ih =>
    unfold push_lag
    rw [hskip]
    exact ih

/-! ## What they have in common -/

/-- Between two requests, `calm` holds of the device; of a reply the host sees the bytes. -/
structure Carries {ε : Type} (T : Transport Sim ε) (calm : Sim → Prop) : Prop where
  serves : ∀ d cmd payload rsp, calm d → payload.length ≤ payloadMax →
    (d.g.dead = true ∨ d.g.jumped = true) ∨ d.Live →
    let r := sim_request (wire cmd payload) d
    let t := T.request d (wire cmd payload) rsp
    calm t.2 ∧ t.2.g = r.2.g ∧ t.2.session = r.2.session ∧
      (r.1 = [] → ∀ expect_cmd, Retryable (received t.1) expect_cmd) ∧
      (∀ cmd' answer, r.1 = wire cmd' answer → answer.length + 3 ≤ rsp.length →
        answer.length ≤ payloadMax →
        ∃ pad, received t.1 = .ok (wire cmd' answer ++ List.replicate pad 0xFF))
  reset : ∀ d preserve, calm d → calm (sim_reset preserve d)
  armed : ∀ d flash_ops, calm d → calm (sim_powercut_after flash_ops d)

theorem transport_carries : Carries transport (fun _ => True) where
  serves := by
    intro d cmd payload rsp _ _ _
    have hseen : received (transport.request d (wire cmd payload) rsp).1 =
        .ok ((sim_request (wire cmd payload) d).1.take rsp.length ++
          List.replicate (rsp.length - (sim_request (wire cmd payload) d).1.length) 0xFF) := by
      have hlength := transport.length_rsp d (wire cmd payload) rsp
      change (Except.ok ((transport.request d (wire cmd payload) rsp).1.2.take
        (min rsp.length (transport.request d (wire cmd payload) rsp).1.2.length)) :
          Except Empty (List UInt8)) = _
      rw [hlength, Nat.min_self, List.take_of_length_le (Nat.le_of_eq hlength)]
      change Except.ok ((sim_request (wire cmd payload) d).1.take
        (min (sim_request (wire cmd payload) d).1.length rsp.length) ++ List.replicate
          (rsp.length - min (sim_request (wire cmd payload) d).1.length rsp.length) 0xFF) = _
      rcases Nat.le_total (sim_request (wire cmd payload) d).1.length rsp.length with hle | hle
      · rw [Nat.min_eq_left hle, List.take_length, List.take_of_length_le hle]
      · rw [Nat.min_eq_right hle, Nat.sub_self, Nat.sub_eq_zero_of_le hle]
    refine ⟨trivial, rfl, rfl, ?_, ?_⟩
    · intro hsilent expect_cmd
      rw [hseen, hsilent, List.take_nil, List.nil_append, List.length_nil, Nat.sub_zero]
      left
      unfold validate
      rw [decode_padded_idle]
    · intro cmd' answer hreply hroom _
      refine ⟨rsp.length - (wire cmd' answer).length, ?_⟩
      rw [hseen, hreply, List.take_of_length_le (by rw [length_wire]; exact hroom)]
  reset _ _ _ := trivial
  armed _ _ _ := trivial

structure Sim.Calm (d : Sim) : Prop where
  good : d.link.Good
  size : d.link.buf_len = 255
  idle : d.g.dead = false → d.g.jumped = false → d.link.in_frame = false

theorem drain_whole {l : Link} (h : l.Hunting 255) (cmd : UInt8) (payload : List UInt8)
    (hfits : (wire cmd payload).length ≤ 255) :
    ∃ req link, drain l (SYNC :: wire cmd payload) = ([req], link) ∧ link.Hunting 255 ∧
      wire req.cmd req.payload = wire cmd payload := by
  obtain ⟨init, last, mid, req, link, hwire, hsilent, hlast, hnext, -, hsame⟩ :=
    link_takes h cmd payload (Nat.le_refl 255) hfits
  refine ⟨req, link, ?_, hnext, hsame.symm⟩
  rw [drain_eq_feed, hwire, ← List.cons_append, feed_append]
  have hsilent' : feed link_byte l (SYNC :: init) = ([], mid) := hsilent
  rw [hsilent', feed_cons, hlast]
  rfl

/-- A frame on the stream is a request; of the device only the link is not as a transaction leaves it. -/
theorem stream_request_frame {d : Sim} (hcalm : d.Calm) (hlive : d.Live) (cmd : UInt8)
    (payload : List UInt8) (hmax : payload.length ≤ payloadMax) :
    ∃ link, sim_request_stream (SYNC :: wire cmd payload) STREAM_RESP_CAP d =
        (framed (sim_request (wire cmd payload) d).1, { (sim_request (wire cmd payload) d).2 with link }) ∧
      Sim.Calm { (sim_request (wire cmd payload) d).2 with link } := by
  have hfits : (wire cmd payload).length ≤ 255 := by
    rw [length_wire]
    unfold payloadMax at hmax
    omega
  have hhunting : d.link.Hunting 255 :=
    ⟨hcalm.good, by rw [hcalm.size]; rfl, hcalm.idle hlive.powered hlive.here⟩
  obtain ⟨req, link, hdrain, hnext, hsame⟩ := drain_whole hhunting cmd payload hfits
  obtain ⟨link', ⟨hgood, hsize⟩, hstream, hlast⟩ := stream_requests STREAM_RESP_CAP
    (SYNC :: wire cmd payload) hlive hcalm.good (by
      rw [hdrain]
      exact (by decide : REPLY_MAX * 1 ≤ STREAM_RESP_CAP))
  have hone : sim_requests [req] d = (framed (sim_request (wire cmd payload) d).1,
      (sim_request (wire cmd payload) d).2) := by
    unfold sim_requests sim_requests
    dsimp only
    rw [hsame, List.append_nil]
  rw [hdrain, hone] at hstream hlast
  refine ⟨link', hstream, hgood, hsize.trans hcalm.size, ?_⟩
  intro hdead hjumped
  rw [hlast hdead hjumped]
  exact hnext.in_frame

theorem received_framed (cmd : UInt8) (answer rsp : List UInt8) (hroom : answer.length + 3 ≤ rsp.length)
    (hshort : answer.length ≤ payloadMax) :
    received (scan_reply (framed (wire cmd answer)) (.new, rsp)) = .ok (wire cmd answer) := by
  have hidle : (RxScanner.new, rsp).1.in_frame = false := rfl
  obtain ⟨rsp', hscan, hlength, htake⟩ := scan_reply_frame cmd answer hshort hidle hroom
  have hsync : framed (wire cmd answer) = SYNC :: wire cmd answer := rfl
  have hfits : (wire cmd answer).length ≤ rsp'.length := by
    rw [hlength, length_wire]
    exact hroom
  rw [hsync, hscan]
  change (Except.ok (rsp'.take (min (wire cmd answer).length rsp'.length)) :
    Except StreamError (List UInt8)) = _
  rw [Nat.min_eq_left hfits, htake]

theorem stream_transport_carries (lag : Nat) : Carries (stream_transport lag) Sim.Calm where
  serves := by
    intro d cmd payload rsp hcalm hmax hstate
    have hlag : push_lag lag (.new, rsp) = (.new, rsp) := push_lag_idle lag _ rfl
    have hrun : (stream_transport lag).request d (wire cmd payload) rsp =
        let r := sim_request_stream (SYNC :: wire cmd payload) STREAM_RESP_CAP d
        (scan_reply r.1 (.new, rsp), r.2) := by
      rw [← hlag]
      rfl
    dsimp only
    rw [hrun]
    rcases hstate with hgone | hlive
    · have hsilent : sim_request_stream (SYNC :: wire cmd payload) STREAM_RESP_CAP d = ([], d) := by
        unfold sim_request_stream
        rw [if_pos (by rw [Bool.or_eq_true]; exact hgone)]
      rw [hsilent, sim_request_gone hgone]
      exact ⟨hcalm, rfl, rfl, fun _ _ => trivial, fun cmd' answer hreply => by cases hreply⟩
    · obtain ⟨link, hstream, hnext⟩ := stream_request_frame hcalm hlive cmd payload hmax
      rw [hstream]
      refine ⟨hnext, rfl, rfl, ?_, ?_⟩
      · intro hreply expect_cmd
        rw [hreply]
        trivial
      · intro cmd' answer hreply hroom hshort
        refine ⟨0, ?_⟩
        dsimp only
        rw [hreply, received_framed cmd' answer rsp hroom hshort, List.replicate_zero, List.append_nil]
  reset := by
    intro d preserve h
    have hroom : d.link.buf.length = (255 : UInt8).toNat := by
      rw [h.good.room, h.size]
    exact ⟨link_init_good _ _ hroom, rfl, fun _ _ => rfl⟩
  armed _ _ h := ⟨h.good, h.size, h.idle⟩

end OtaUpdater.Conformance
