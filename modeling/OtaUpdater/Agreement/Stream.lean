import OtaUpdater.Agreement.Codec
import OtaUpdater.Device.LinkStream
import OtaUpdater.Host.Stream

/-!
# One receive machine

The device's `link_poll` and the host's `RxScanner` deliver the same frames.
-/

open OtaUpdater.Lib.Bytes OtaUpdater.Lib.Mealy OtaUpdater.Device OtaUpdater.Host

namespace OtaUpdater.Agreement

def hostFrame (fr : UpdFrame) : Frame := ⟨fr.cmd, fr.payload⟩

/-- The device's loop body, giving the host's kind of frame. -/
def linkByte (l : Link) (b : UInt8) : Link × Option Frame :=
  ((link_byte l b).1, (link_byte l b).2.map hostFrame)

theorem feed_linkByte (l : Link) (bytes : List UInt8) :
    feed linkByte l bytes = ((feed link_byte l bytes).1.map hostFrame, (feed link_byte l bytes).2) := by
  induction bytes generalizing l with
  | nil => rfl
  | cons b bytes ih =>
    have hout : (linkByte l b).2.toList = (link_byte l b).2.toList.map hostFrame := by
      simp only [linkByte]
      cases (link_byte l b).2 <;> rfl
    have hlink : (linkByte l b).1 = (link_byte l b).1 := rfl
    rw [feed_cons, feed_cons, hlink, hout, ih, List.map_append]

/-- Outside a frame the counters may differ: the scanner resets its own on a drop. -/
structure SameScan (l : Link) (s : RxScanner × List UInt8) : Prop where
  good : l.Good
  room : s.2.length = l.buf.length
  in_frame : s.1.in_frame = l.in_frame
  count : l.in_frame → s.1.n = l.n.toNat
  bytes : l.in_frame → l.buf.take l.n.toNat = s.2.take l.n.toNat

theorem SameScan.init (buf hostBuf : List UInt8) (buf_len : UInt8)
    (hbuf : buf.length = buf_len.toNat) (hhost : hostBuf.length = buf_len.toNat) :
    SameScan (link_init buf buf_len) (RxScanner.new, hostBuf) where
  good := link_init_good _ _ hbuf
  room := hhost.trans hbuf.symm
  in_frame := rfl
  count := by simp [link_init]
  bytes := by simp [link_init]

theorem parse_map_hostFrame (buf : List UInt8) (n : UInt8) (h : n.toNat ≤ buf.length) :
    (upd_frame_parse buf n).map hostFrame = (decode (buf.take n.toNat)).toOption := by
  have hlen : (buf.take n.toNat).length = n.toNat := List.length_take_of_le h
  have hn := n.toNat_lt
  have hparse : ∀ d, upd_frame_parse buf n = some d ↔
      upd_frame_parse (buf.take n.toNat) (UInt8.ofNat (buf.take n.toNat).length) = some d := by
    intro d
    rw [hlen, UInt8.ofNat_toNat, upd_frame_parse_iff _ _ h, upd_frame_parse_iff _ _ (by omega),
      List.take_take, Nat.min_self]
  apply Option.ext
  intro fr
  have hdecode := decode_iff_upd_frame_parse (buf.take n.toNat) fr
  have hok : (decode (buf.take n.toNat)).toOption = some fr ↔ decode (buf.take n.toNat) = .ok fr := by
    cases decode (buf.take n.toNat) <;> simp [Except.toOption]
  rw [hok, hdecode, Option.map_eq_some_iff]
  constructor
  · rintro ⟨d, hd, rfl⟩
    exact ⟨by omega, d, (hparse d).mp hd, rfl, rfl⟩
  · rintro ⟨-, d, hd, hcmd, hpayload⟩
    exact ⟨d, (hparse d).mpr hd, by rw [hostFrame, hcmd, hpayload]⟩

/-- While both hunt, only a sync byte counts, and only if a frame can fit. -/
theorem sameScan_hunting (l : Link) (s : RxScanner × List UInt8) (b : UInt8) (h : SameScan l s)
    (hl : l.in_frame = false) :
    SameScan (linkByte l b).1 (scanByte s b).1 ∧ (linkByte l b).2 = (scanByte s b).2 := by
  obtain ⟨⟨n, in_frame⟩, hostBuf⟩ := s
  have hover : UPD_FRAME_OVERHEAD = 3 := rfl
  have hhost : FRAME_OVERHEAD = 3 := rfl
  have hsync : UPD_LINK_SYNC = SYNC := rfl
  have hgood := link_byte_good h.good b
  have hroom := h.room
  have hin := h.in_frame
  have hcap := h.good.room
  simp only at hroom hin
  rw [hl] at hin
  subst hin
  rcases Decidable.em (b = SYNC ∧ l.buf_len.toNat ≥ 3) with hstart | hskip
  · have hpush : scanByte (⟨n, false⟩, hostBuf) b = ((⟨0, true⟩, hostBuf), none) := by
      have hstart' : b = SYNC ∧ hostBuf.length ≥ 3 := ⟨hstart.1, by omega⟩
      simp [scanByte, RxScanner.push, hhost, hstart']
    have hlink : link_byte l b = ({ l with in_frame := true, n := 0 }, none) := by
      simp [link_byte, hl, hover, hsync, hstart]
    rw [hlink] at hgood
    rw [hpush, linkByte, hlink]
    exact ⟨⟨hgood, hroom, rfl, fun _ => rfl, fun _ => by simp⟩, rfl⟩
  · have hpush : scanByte (⟨n, false⟩, hostBuf) b = ((⟨n, false⟩, hostBuf), none) := by
      have hskip' : ¬ (b = SYNC ∧ hostBuf.length ≥ 3) := by rwa [hroom, hcap]
      simp [scanByte, RxScanner.push, hhost, hskip']
    have hlink : link_byte l b = (l, none) := by
      simp [link_byte, hl, hover, hsync, hskip]
    rw [hpush, linkByte, hlink]
    exact ⟨h, rfl⟩

theorem link_byte_complete {l : Link} (h : l.Good) (hl : l.in_frame = true) (b : UInt8)
    (h2 : 2 ≤ l.n.toNat + 1)
    (hall : ((l.buf.set l.n.toNat b).getD 1 0).toNat + 3 ≤ l.n.toNat + 1) :
    l.n.toNat + 1 = ((l.buf.set l.n.toNat b).getD 1 0).toNat + 3 := by
  have hover : UPD_FRAME_OVERHEAD = 3 := rfl
  have hsame : (l.buf.set l.n.toNat b).getD 1 0 = l.buf.getD 1 0 := by
    simp only [List.getD_eq_getElem?_getD]
    rw [List.getElem?_set_ne (by omega)]
  have hdeclared := (h.declared hl (by omega)).2
  rw [hsame] at hall ⊢
  omega

theorem sameScan_in_frame (l : Link) (s : RxScanner × List UInt8) (b : UInt8) (h : SameScan l s)
    (hl : l.in_frame = true) :
    SameScan (linkByte l b).1 (scanByte s b).1 ∧ (linkByte l b).2 = (scanByte s b).2 := by
  obtain ⟨⟨n, in_frame⟩, hostBuf⟩ := s
  have hover : UPD_FRAME_OVERHEAD = 3 := rfl
  have hhost : FRAME_OVERHEAD = 3 := rfl
  have hmax : PAYLOAD_MAX = 252 := rfl
  have hgood := link_byte_good h.good b
  have hroom := h.room
  have hin := h.in_frame
  have hcap := h.good.room
  have hlt := l.buf_len.toNat_lt
  have hn := h.count hl
  have hbound := h.good.bounded hl
  have hsucc := h.good.succ_toNat hl
  simp only at hroom hin hn
  rw [hl] at hin
  subst hin hn
  have hgrow : (l.buf.set l.n.toNat b).take (l.n.toNat + 1) =
      (hostBuf.set l.n.toNat b).take (l.n.toNat + 1) := by
    rw [take_set_succ _ _ _ (by omega), take_set_succ _ _ _ (by omega), h.bytes hl]
  have hlen_byte : 2 ≤ l.n.toNat + 1 →
      (hostBuf.set l.n.toNat b).getD 1 0 = (l.buf.set l.n.toNat b).getD 1 0 := by
    intro h2
    rw [← getD_take _ _ _ _ h2, ← hgrow, getD_take _ _ _ _ h2]
  have hcomplete := link_byte_complete h.good hl b
  have hparse := parse_map_hostFrame (l.buf.set l.n.toNat b) (l.n + 1) (by simp; omega)
  rw [link_byte_in_frame h.good hl] at hgood
  rw [linkByte, link_byte_in_frame h.good hl, scanByte_in_frame _ _ _ (by omega)]
  simp only [hover, hhost, hmax] at hgood ⊢
  rcases Nat.lt_or_ge (l.n.toNat + 1) 2 with hfirst | hlater
  · simp only [hfirst, if_true] at hgood ⊢
    exact ⟨⟨hgood, by simp [hroom], hl.symm, fun _ => hsucc.symm, fun _ => by rw [hsucc, hgrow]⟩, rfl⟩
  rw [hlen_byte hlater]
  generalize ((l.buf.set l.n.toNat b).getD 1 0).toNat = declared at hgood hcomplete ⊢
  simp only [Nat.not_lt.mpr hlater, if_false] at hgood ⊢
  rcases Nat.lt_or_ge l.buf_len.toNat (declared + 3) with hdrop | hkeep
  · rw [if_pos hdrop] at hgood
    rw [if_pos hdrop, if_pos (by omega : declared > 252 ∨ declared + 3 > hostBuf.length)]
    exact ⟨⟨hgood, by simp [hroom], rfl, by simp, by simp⟩, rfl⟩
  rw [if_neg (Nat.not_lt.mpr hkeep)] at hgood
  rw [if_neg (Nat.not_lt.mpr hkeep),
    if_neg (by omega : ¬ (declared > 252 ∨ declared + 3 > hostBuf.length))]
  rcases Nat.lt_or_ge (l.n.toNat + 1) (declared + 3) with hmore | hall
  · rw [if_pos hmore] at hgood
    rw [if_pos hmore, if_pos hmore]
    exact ⟨⟨hgood, by simp [hroom], hl.symm, fun _ => hsucc.symm, fun _ => by rw [hsucc, hgrow]⟩, rfl⟩
  · rw [if_neg (Nat.not_lt.mpr hall)] at hgood
    rw [if_neg (Nat.not_lt.mpr hall), if_neg (Nat.not_lt.mpr hall)]
    -- Complete: both read the same bytes.
    rw [hsucc, hgrow, hcomplete hlater hall] at hparse
    exact ⟨⟨hgood, by simp [hroom], rfl, by simp, by simp⟩, hparse⟩

theorem sameScan_step (l : Link) (s : RxScanner × List UInt8) (b : UInt8) (h : SameScan l s) :
    SameScan (linkByte l b).1 (scanByte s b).1 ∧ (linkByte l b).2 = (scanByte s b).2 := by
  cases hl : l.in_frame with
  | false => exact sameScan_hunting l s b h hl
  | true => exact sameScan_in_frame l s b h hl

/-- However the stream is cut into chunks, the device delivers what the scanner delivers. -/
theorem drainChunks_eq_scan (buf hostBuf : List UInt8) (buf_len : UInt8)
    (hbuf : buf.length = buf_len.toNat) (hhost : hostBuf.length = buf_len.toNat)
    (chunks : List (List UInt8)) :
    (drainChunks (link_init buf buf_len) chunks).1.map hostFrame =
      (feed scanByte (RxScanner.new, hostBuf) chunks.flatten).1 := by
  have hsim := feed_simulation linkByte scanByte SameScan sameScan_step _ _ chunks.flatten
    (SameScan.init buf hostBuf buf_len hbuf hhost)
  rw [feed_linkByte] at hsim
  rw [drainChunks_eq_feed]
  exact hsim.1

theorem drainChunks_eq_scan_split :
    (drainChunks (link_init [0, 0, 0] 3) [[0x00, 0x7E, 0x05], [0x00, 0x1B]]).1.map hostFrame =
      (feed scanByte (RxScanner.new, [1, 2, 3]) [0x00, 0x7E, 0x05, 0x00, 0x1B]).1 :=
  drainChunks_eq_scan [0, 0, 0] [1, 2, 3] 3 rfl rfl [[0x00, 0x7E, 0x05], [0x00, 0x1B]]

end OtaUpdater.Agreement
