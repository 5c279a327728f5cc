import Mathlib.Data.List.Basic
import OtaUpdater.Agreement.Stream
import OtaUpdater.Device.LinkDelivery
import OtaUpdater.Host.FrameRules
import OtaUpdater.Host.UartRules

/-!
# Frames in a noisy stream

Sent frames with noise between them, taken in by either receive machine.
-/

open OtaUpdater.Lib.Mealy OtaUpdater.Lib.Framing OtaUpdater.Wire OtaUpdater.Device
open OtaUpdater.Host

namespace OtaUpdater.Agreement

inductive Built : List UInt8 → Prop where
  | encode {cmd : UInt8} {payload out : List UInt8} {n : Nat} {out' : List UInt8}
      (h : encode cmd payload out = (.ok n, out')) : Built (out'.take n)
  | upd_frame_build {buf : List UInt8} {cap cmd : UInt8} {payload : PayloadPtr} {len n : UInt8}
      {buf' : List UInt8} (hbuf : cap.toNat ≤ buf.length)
      (h : upd_frame_build buf cap cmd payload len = (n, buf')) (hn : n ≠ 0) :
      Built (buf'.take n.toNat)

theorem Built.is_wire {frame : List UInt8} (h : Built frame) :
    ∃ cmd payload, payload.length ≤ payloadMax ∧ frame = wire cmd payload := by
  cases h with
  | @encode cmd payload out n out' h =>
    rcases hsize : decide (payloadMax < payload.length ∨ out.length < payload.length + 3) with _ | _
    · have hfits := of_decide_eq_false hsize
      rw [not_or, Nat.not_lt, Nat.not_lt] at hfits
      rw [encode_ok _ _ _ hfits.1 hfits.2, Prod.mk.injEq, Except.ok.injEq] at h
      obtain ⟨rfl, rfl⟩ := h
      exact ⟨cmd, payload, hfits.1, List.take_left' (length_wire _ _)⟩
    · obtain ⟨e, herror⟩ := (encode_error_iff cmd payload out).mpr (of_decide_eq_true hsize)
      rw [h] at herror
      cases herror
  | @upd_frame_build buf cap cmd payload len n buf' hbuf h hn =>
    have hlt := cap.toNat_lt
    obtain ⟨bytes, hlength, hcap, hn', htake⟩ := upd_frame_build_frame buf cap cmd payload len hbuf
      (by rw [h]; exact hn)
    rw [h] at hn' htake
    dsimp only at hn' htake
    have hcount : n.toNat = len.toNat + 3 := by
      rw [hn', UInt8.toNat_ofNat', Nat.mod_eq_of_lt (by omega)]
    exact ⟨cmd, bytes, by unfold payloadMax; omega, by rw [hcount, htake]⟩

/-! ## The scanner -/

/-- A scanner together with its buffer, giving the length of every `Done`. -/
def scanLen (s : RxScanner × List UInt8) (byte : UInt8) : (RxScanner × List UInt8) × Option Nat :=
  match s.1.push byte s.2 with
  | (.Done len, scanner, buf) => ((scanner, buf), some len)
  | (_, scanner, buf) => ((scanner, buf), none)

/-- Between two frames, over a buffer of `B` bytes. -/
def ScanIdle (B : Nat) (s : RxScanner × List UInt8) : Prop :=
  s.1.in_frame = false ∧ s.2.length = B

/-- What `Done` promises: `len` bytes at the front of the buffer are the frame. -/
def ScanShows (len : Nat) (s : RxScanner × List UInt8) (frame : List UInt8) : Prop :=
  len = frame.length ∧ s.2.take frame.length = frame

theorem scanLen_skip {s : RxScanner × List UInt8} (h : s.1.in_frame = false) {b : UInt8}
    (hb : b ≠ SYNC) : scanLen s b = (s, none) := by
  unfold scanLen RxScanner.push
  simp [h, hb]

theorem push_done_reset {s : RxScanner} {b : UInt8} {buf : List UInt8} {len : Nat}
    (h : (s.push b buf).1 = .Done len) : (s.push b buf).2.1 = .new := by
  unfold RxScanner.push at h ⊢
  dsimp only at h ⊢
  split_ifs at h ⊢
  split at h
  · cases h
  · split_ifs at h ⊢
    rfl

section Scan

variable {cmd : UInt8} {payload : List UInt8} (hmax : payload.length ≤ payloadMax)

include hmax in
theorem scan_heard (xs : List UInt8) (s : RxScanner) (buf got : List UInt8)
    (more : List UInt8) (hmore : more ≠ []) (hs : Receiving.Heard ⟨s, 0, 0, buf⟩ got)
    (hstream : SYNC :: wire cmd payload = got ++ xs ++ more)
    (hroom : (wire cmd payload).length ≤ buf.length) :
    ∃ s' buf', feed scanLen (s, buf) xs = ([], (s', buf')) ∧
      Receiving.Heard ⟨s', 0, 0, buf'⟩ (got ++ xs) ∧ buf'.length = buf.length := by
  induction xs generalizing s buf got with
  | nil =>
    rw [List.append_nil]
    exact ⟨s, buf, rfl, hs, rfl⟩
  | cons b xs ih =>
    rw [List.append_assoc, List.cons_append] at hstream
    obtain ⟨hlength, hgoes, -⟩ := push_heard hmax ⟨s, 0, 0, buf⟩ got b (xs ++ more) hs hstream hroom
    obtain ⟨hscan, hheard⟩ := hgoes (by simp [hmore])
    dsimp only at hlength hscan hheard
    obtain ⟨s', buf', hrun, hlast, hsize⟩ := ih (s.push b buf).2.1 (s.push b buf).2.2 (got ++ [b])
      hheard (by rw [hstream]; simp) (by rw [hlength]; exact hroom)
    rw [List.append_assoc] at hlast
    refine ⟨s', buf', ?_, hlast, hsize.trans hlength⟩
    have hbyte : scanLen (s, buf) b = (((s.push b buf).2.1, (s.push b buf).2.2), none) := by
      unfold scanLen
      generalize s.push b buf = p at hscan
      obtain ⟨scan, scanner, buf'⟩ := p
      dsimp only at hscan
      rw [hscan]
    rw [feed_cons, hbyte, hrun]
    rfl

include hmax in
theorem scan_takes {B : Nat} {s : RxScanner × List UInt8} (h : ScanIdle B s)
    (hfits : (wire cmd payload).length ≤ B) :
    Takes scanLen (ScanIdle B) ScanShows SYNC s (wire cmd payload) := by
  obtain ⟨s, buf⟩ := s
  obtain ⟨hidle, hsize⟩ := h
  dsimp only at hidle hsize
  have hwire : wire cmd payload = (cmd :: UInt8.ofNat payload.length :: payload) ++
      [checksum (cmd :: UInt8.ofNat payload.length :: payload)] := rfl
  obtain ⟨mid, buf', hrun, hheard, hsame⟩ := scan_heard hmax
    (SYNC :: cmd :: UInt8.ofNat payload.length :: payload) s buf []
    [checksum (cmd :: UInt8.ofNat payload.length :: payload)] (by simp) hidle (by rw [hwire]; rfl)
    (by rw [hsize]; exact hfits)
  obtain ⟨hlength, -, hends⟩ := push_heard hmax ⟨mid, 0, 0, buf'⟩
    (SYNC :: cmd :: UInt8.ofNat payload.length :: payload)
    (checksum (cmd :: UInt8.ofNat payload.length :: payload)) [] hheard (by rw [hwire]; rfl)
    (by rw [hsame, hsize]; exact hfits)
  obtain ⟨hdone, htake⟩ := hends rfl
  dsimp only at hlength hdone htake
  have hreset := push_done_reset hdone
  refine ⟨_, _, (mid, buf'), _, _, hwire, hrun, ?_, ?_, rfl, htake⟩
  · unfold scanLen
    dsimp only
    generalize mid.push (checksum (cmd :: UInt8.ofNat payload.length :: payload)) buf' = p at hdone
    obtain ⟨scan, scanner, buf''⟩ := p
    dsimp only at hdone
    rw [hdone]
  · exact ⟨by rw [hreset]; rfl, (hlength.trans hsame).trans hsize⟩

end Scan

/-! ## Both machines -/

theorem link_send_eq (frame : List UInt8) (h : frame.length ≤ 255) :
    link_send frame (UInt8.ofNat frame.length) = UPD_LINK_SYNC :: frame := by
  have hsize : (UInt8.ofNat frame.length).toNat = frame.length := by
    rw [UInt8.toNat_ofNat', Nat.mod_eq_of_lt (by omega)]
  unfold link_send
  rw [hsize]
  congr 1
  apply List.ext_getElem
  · simp
  · intro i hi hframe
    simp [List.getD_eq_getElem?_getD, List.getElem?_eq_getElem hframe]

/-- Frames and noise on the line: each frame is delivered whole on its last byte, and nothing else. -/
theorem frames_in_noise (B : Nat) (l : Link) (s : RxScanner) (buf : List UInt8)
    (hl : l.Hunting B) (hs : s.in_frame = false) (hbuf : buf.length = B) (noise : List UInt8)
    (sent : List (List UInt8 × List UInt8)) (hnoise : SYNC ∉ noise)
    (hsent : ∀ p ∈ sent, Built p.1 ∧ p.1.length ≤ B ∧ SYNC ∉ p.2) :
    let line := noise ++ sent.flatMap (fun p => link_send p.1 (UInt8.ofNat p.1.length) ++ p.2)
    (∀ chunks, chunks.flatten = line →
      List.Forall₂ (fun d e => d.1 = e.1 ∧ Shown d.2.1 d.2.2 e.2)
        (drainChunksAt l 0 chunks).1 (due noise.length sent)) ∧
    List.Forall₂ (fun d e => d.1 = e.1 ∧ ScanShows d.2.1 d.2.2 e.2)
      (feed (counted scanLen) ((s, buf), 0) line).1 (due noise.length sent) := by
  intro line
  have hB : B ≤ 255 := by
    have hlt := l.buf_len.toNat_lt
    have hsize := hl.size
    omega
  have hline : line = stream SYNC noise sent := by
    unfold line stream
    congr 1
    apply List.flatMap_congr
    intro p hp
    rw [link_send_eq p.1 (Nat.le_trans (hsent p hp).2.1 hB)]
    rfl
  have hnoises : ∀ p ∈ sent, SYNC ∉ p.2 := fun p hp => (hsent p hp).2.2
  constructor
  · intro chunks hchunks
    have hrun := feed_counted_stream (fun l => l.Hunting B) Shown
      (fun l b hl hb => hunting_skip hl hb) l 0 noise sent hl hnoise hnoises (by
        intro p hp l hl
        obtain ⟨cmd, payload, hmax, hwire⟩ := (hsent p hp).1.is_wire
        rw [hwire]
        exact link_takes hl cmd payload hB (by rw [← hwire]; exact (hsent p hp).2.1))
    rw [Nat.zero_add] at hrun
    rw [drainChunksAt_eq_feed, hchunks, hline]
    exact hrun
  · have hrun := feed_counted_stream (ScanIdle B) ScanShows
      (fun s b hs hb => scanLen_skip hs.1 hb) (s, buf) 0 noise sent ⟨hs, hbuf⟩ hnoise hnoises (by
        intro p hp s hs
        obtain ⟨cmd, payload, hmax, hwire⟩ := (hsent p hp).1.is_wire
        rw [hwire]
        exact scan_takes hmax hs (by rw [← hwire]; exact (hsent p hp).2.1))
    rw [Nat.zero_add] at hrun
    rw [hline]
    exact hrun

theorem frames_in_noise_sync :
    List.Forall₂ (fun d e => d.1 = e.1 ∧ Shown d.2.1 d.2.2 e.2)
      (drainChunksAt (link_init [0, 0, 0, 0] 4) 0
        [[0x00, 0x7E, 0x7E], [0x01, 0x7E, 0x23, 0xFF], [0x7E, 0x01, 0x00, 0x15]]).1
      [(6, [0x7E, 0x01, 0x7E, 0x23]), (11, [0x01, 0x00, 0x15])] :=
  (frames_in_noise 4 (link_init [0, 0, 0, 0] 4) .new [0, 0, 0, 0]
    ⟨link_init_good [0, 0, 0, 0] 4 rfl, rfl, rfl⟩ rfl rfl [0x00]
    [([0x7E, 0x01, 0x7E, 0x23], [0xFF]), ([0x01, 0x00, 0x15], [])] (by decide) (by
      intro p hp
      rcases List.mem_cons.mp hp with rfl | hp
      · have hencode : encode 0x7E [0x7E] [0, 0, 0, 0] = (.ok 4, [0x7E, 0x01, 0x7E, 0x23]) := by
          decide +kernel
        exact ⟨Built.encode hencode, by decide, by decide⟩
      · obtain rfl := List.mem_singleton.mp hp
        have hbuild : upd_frame_build [0, 0, 0] 3 0x01 (.apart []) 0 = (3, [0x01, 0x00, 0x15]) := by
          decide +kernel
        exact ⟨Built.upd_frame_build (by decide) hbuild (by decide), by decide, by decide⟩)).1 _ rfl

end OtaUpdater.Agreement
