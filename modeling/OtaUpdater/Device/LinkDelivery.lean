import OtaUpdater.Lib.Framing
import OtaUpdater.Device.LinkFrames

/-!
# What repeated polls deliver, and when

`link_poll` over a stream that comes in pieces: each frame with the number of
bytes behind the link when the poll returns it. And no stream keeps the link
from the next frame for longer than its buffer.
-/

open OtaUpdater.Lib.Bytes OtaUpdater.Lib.Mealy OtaUpdater.Lib.Framing OtaUpdater.Wire
open OtaUpdater.Agreement

namespace OtaUpdater.Device

/-! ## Polls that count -/

/-- `drain`, with the bytes taken in and the link at each frame. -/
def drainAt (l : Link) (taken : Nat) (fifo : List UInt8) :
    List (Nat × UpdFrame × Link) × (Link × Nat) :=
  match h : link_poll l fifo with
  | (none, l, _) => ([], (l, taken + fifo.length))
  | (some out, l, rest) =>
    have : rest.length < fifo.length := by
      have := link_poll_rest_length _ fifo (by rw [h]; rfl)
      rwa [h] at this
    let taken := taken + (fifo.length - rest.length)
    let (outs, last) := drainAt l taken rest
    ((taken, out, l) :: outs, last)
termination_by fifo.length

def drainChunksAt (l : Link) (taken : Nat) :
    List (List UInt8) → List (Nat × UpdFrame × Link) × (Link × Nat)
  | [] => ([], (l, taken))
  | chunk :: chunks =>
    let (outs, l, taken) := drainAt l taken chunk
    let (rest, last) := drainChunksAt l taken chunks
    (outs ++ rest, last)

theorem feed_counted_eq_link_poll (l : Link) (taken : Nat) (fifo : List UInt8) :
    feed (counted link_byte) (l, taken) fifo = match link_poll l fifo with
      | (none, l', _) => ([], (l', taken + fifo.length))
      | (some out, l', rest) =>
        let taken' := taken + (fifo.length - rest.length)
        ((taken', out, l') :: (feed (counted link_byte) (l', taken') rest).1,
          (feed (counted link_byte) (l', taken') rest).2) := by
  induction fifo generalizing l taken with
  | nil => rfl
  | cons b fifo ih =>
    rw [feed_cons, link_poll]
    rcases hbyte : link_byte l b with ⟨l', _ | out⟩
    · have hstep : counted link_byte (l, taken) b = ((l', taken + 1), none) := by
        simp [counted, hbyte]
      rw [hstep]
      dsimp only
      rw [ih]
      rcases hpoll : link_poll l' fifo with ⟨_ | out, l'', rest⟩
      · simp [Nat.add_comm 1, Nat.add_assoc]
      · have hless := link_poll_rest_length l' fifo (by rw [hpoll]; rfl)
        rw [hpoll] at hless
        dsimp only at hless
        have hcount : taken + 1 + (fifo.length - rest.length) =
            taken + ((b :: fifo).length - rest.length) := by
          simp
          omega
        simp [hcount]
    · have hstep : counted link_byte (l, taken) b = ((l', taken + 1), some (taken + 1, out, l')) := by
        simp [counted, hbyte]
      rw [hstep]
      simp

theorem drainAt_eq_feed (l : Link) (taken : Nat) (fifo : List UInt8) :
    drainAt l taken fifo = feed (counted link_byte) (l, taken) fifo := by
  rw [feed_counted_eq_link_poll, drainAt]
  split
  · rename_i hpoll
    rw [hpoll]
  · rename_i out l' rest hpoll
    have : rest.length < fifo.length := by
      have := link_poll_rest_length l fifo (by rw [hpoll]; rfl)
      rwa [hpoll] at this
    simp only [hpoll, drainAt_eq_feed l' _ rest]
termination_by fifo.length

theorem drainChunksAt_eq_feed (l : Link) (taken : Nat) (chunks : List (List UInt8)) :
    drainChunksAt l taken chunks = feed (counted link_byte) (l, taken) chunks.flatten := by
  induction chunks generalizing l taken with
  | nil => rfl
  | cons chunk chunks ih =>
    rw [List.flatten_cons, feed_append, drainChunksAt, drainAt_eq_feed]
    simp only [ih]

/-! ## One frame -/

section Frame

variable {l : Link} {B : Nat}

/-- What a delivered frame looks like: the bytes are at the front of the buffer. -/
def Shown (d : UpdFrame) (l : Link) (frame : List UInt8) : Prop :=
  l.buf.take frame.length = frame ∧ frame = wire d.cmd d.payload

theorem eq_of_wire_eq {d e : UpdFrame} (h : wire d.cmd d.payload = wire e.cmd e.payload) : d = e := by
  obtain ⟨cmd, len, payload, hlen⟩ := d
  obtain ⟨cmd', len', payload', hlen'⟩ := e
  obtain ⟨hcmd, hpayload⟩ := wire_injective _ _ _ _ h
  dsimp only at hcmd hpayload
  subst hcmd hpayload
  obtain rfl : len = len' := UInt8.toNat_inj.mp (hlen.symm.trans hlen')
  rfl

theorem link_byte_buf (l : Link) (b : UInt8) (hin : l.in_frame = true) :
    (link_byte l b).1.buf = l.buf.set l.n.toNat b := by
  unfold link_byte
  rw [hin, Bool.not_true, if_neg Bool.false_ne_true]
  dsimp only
  split_ifs with hfirst hbig hmore
  · rfl
  · rfl
  · rfl
  · rfl

theorem link_takes (h : l.Hunting B) (cmd : UInt8) (payload : List UInt8) (hB : B ≤ 255)
    (hfits : (wire cmd payload).length ≤ B) :
    Takes link_byte (fun l => l.Hunting B) Shown UPD_LINK_SYNC l (wire cmd payload) := by
  have hsize := length_wire cmd payload
  have hlen := len_byte payload (by omega)
  have hwire : wire cmd payload = (cmd :: UInt8.ofNat payload.length :: payload) ++
      [checksum (cmd :: UInt8.ofNat payload.length :: payload)] := rfl
  obtain ⟨hsilent, hcollecting⟩ := feed_cut_short h (by omega) cmd (UInt8.ofNat payload.length)
    (by omega) payload (by omega)
  revert hsilent hcollecting
  generalize hrun : feed link_byte l (UPD_LINK_SYNC :: cmd :: UInt8.ofNat payload.length :: payload) = run
  obtain ⟨outs, mid⟩ := run
  dsimp only
  intro hsilent hmid
  obtain ⟨l', out, hbyte, hhunting, hout⟩ := (collecting_body hmid (by omega)
    (checksum (cmd :: UInt8.ofNat payload.length :: payload))).2 (by omega)
  have hdone := (hout ⟨cmd, UInt8.ofNat payload.length, payload, hlen.symm⟩).mpr rfl
  have hbuf := link_byte_buf mid (checksum (cmd :: UInt8.ofNat payload.length :: payload)) hmid.in_frame
  rw [hbyte] at hbuf
  refine ⟨_, _, mid, _, l', hwire, by rw [hrun, hsilent], by rw [hbyte, hdone], hhunting, ?_, rfl⟩
  rw [hbuf, hwire, List.length_append, List.length_singleton]
  exact collecting_set hmid _

end Frame

/-! ## No stream holds the link for long -/

/-- How many bytes the link takes at most before it hunts again. -/
def Link.left (l : Link) : Nat :=
  if l.in_frame then
    if l.n.toNat < 2 then l.buf_len.toNat - l.n.toNat
    else (l.buf.getD 1 0).toNat + UPD_FRAME_OVERHEAD - l.n.toNat
  else 0

section Progress

variable {l : Link}

theorem left_first (hin : l.in_frame = true) (hn : l.n.toNat < 2) :
    l.left = l.buf_len.toNat - l.n.toNat := by
  unfold Link.left
  rw [if_pos hin, if_pos hn]

theorem left_later (hin : l.in_frame = true) (hn : ¬ l.n.toNat < 2) :
    l.left = (l.buf.getD 1 0).toNat + UPD_FRAME_OVERHEAD - l.n.toNat := by
  unfold Link.left
  rw [if_pos hin, if_neg hn]

theorem Link.Good.left_le (h : l.Good) : l.left ≤ l.buf_len.toNat := by
  unfold Link.left
  split_ifs with hin hfirst
  · exact Nat.sub_le _ _
  · have hdeclared := (h.declared hin (by omega)).1
    omega
  · exact Nat.zero_le _

theorem Link.Good.left_pos (h : l.Good) (hin : l.in_frame = true) : 0 < l.left := by
  have hbound := h.bounded hin
  by_cases hfirst : l.n.toNat < 2
  · rw [left_first hin hfirst]
    omega
  · have hdeclared := (h.declared hin (by omega)).2
    rw [left_later hin hfirst]
    omega

theorem link_byte_left (h : l.Good) (hin : l.in_frame = true) (b : UInt8) :
    (link_byte l b).1.in_frame = false ∨ (link_byte l b).1.left < l.left := by
  have hover : UPD_FRAME_OVERHEAD = 3 := rfl
  have hfits := h.fits hin
  have hbound := h.bounded hin
  have hsucc := h.succ_toNat hin
  have hbyte := link_byte_in_frame h hin b
  dsimp only at hbyte
  rw [hbyte]
  rcases Nat.lt_or_ge (l.n.toNat + 1) 2 with hfirst | hlater
  · right
    rw [if_pos hfirst, left_first hin (by omega)]
    unfold Link.left
    dsimp only
    rw [if_pos hin, hsucc, if_pos hfirst]
    omega
  rw [if_neg (Nat.not_lt.mpr hlater)]
  split_ifs with hbig hmore
  · left
    rfl
  · right
    have hnext : ({ l with buf := l.buf.set l.n.toNat b, n := l.n + 1 } : Link).left =
        ((l.buf.set l.n.toNat b).getD 1 0).toNat + UPD_FRAME_OVERHEAD - (l.n.toNat + 1) := by
      unfold Link.left
      dsimp only
      rw [if_pos hin, hsucc, if_neg (by omega)]
    dsimp only
    rw [hnext]
    by_cases hearly : l.n.toNat < 2
    · rw [left_first hin hearly]
      omega
    · -- LEN is behind this byte, so it stays as it is.
      have hlen : (l.buf.set l.n.toNat b).getD 1 0 = l.buf.getD 1 0 := by
        simp only [List.getD_eq_getElem?_getD]
        rw [List.getElem?_set_ne (by omega)]
      rw [left_later hin hearly, hlen]
      rw [hlen] at hmore
      omega
  · left
    rfl

theorem feed_good (h : l.Good) (bytes : List UInt8) :
    (feed link_byte l bytes).2.Good ∧ (feed link_byte l bytes).2.buf_len = l.buf_len := by
  apply feed_invariant link_byte (fun l' => l'.Good ∧ l'.buf_len = l.buf_len)
  · rintro l' b ⟨hgood, hsize⟩
    exact ⟨link_byte_good hgood b, (link_byte_buf_len l' b).trans hsize⟩
  · exact ⟨h, rfl⟩

/-- Whatever comes, the link hunts again before the bytes it may still take are over. -/
theorem hunts_within (h : l.Good) (bytes : List UInt8) (hbytes : l.left ≤ bytes.length) :
    ∃ k, k ≤ l.left ∧ (feed link_byte l (bytes.take k)).2.in_frame = false := by
  induction bytes generalizing l with
  | nil =>
    refine ⟨0, Nat.zero_le _, ?_⟩
    rcases hin : l.in_frame with _ | _
    · exact hin
    · have hpos := h.left_pos hin
      rw [List.length_nil] at hbytes
      omega
  | cons b bytes ih =>
    rcases hin : l.in_frame with _ | _
    · exact ⟨0, Nat.zero_le _, hin⟩
    have hpos := h.left_pos hin
    rw [List.length_cons] at hbytes
    rcases link_byte_left h hin b with hidle | hless
    · refine ⟨1, hpos, ?_⟩
      rw [List.take_succ_cons, List.take_zero, feed_cons]
      exact hidle
    · obtain ⟨k, hk, hidle⟩ := ih (link_byte_good h b) (by omega)
      refine ⟨k + 1, by omega, ?_⟩
      rw [List.take_succ_cons, feed_cons]
      exact hidle

/-- Enough noise leaves the link in the hunt, whatever it was doing before. -/
theorem feed_noise (h : l.Good) (noise : List UInt8) (hnoise : UPD_LINK_SYNC ∉ noise)
    (hlong : l.buf_len.toNat ≤ noise.length) :
    (feed link_byte l noise).2.Hunting l.buf_len.toNat := by
  obtain ⟨k, hk, hidle⟩ := hunts_within h noise (Nat.le_trans h.left_le hlong)
  obtain ⟨hgood, hsize⟩ := feed_good h (noise.take k)
  have hhunting : (feed link_byte l (noise.take k)).2.Hunting l.buf_len.toNat :=
    ⟨hgood, by rw [hsize], hidle⟩
  have hstays := feed_skip link_byte (feed link_byte l (noise.take k)).2 (noise.drop k) [] (by
    intro b hb
    apply hunting_skip hhunting
    rintro rfl
    exact hnoise (List.mem_of_mem_drop hb))
  rw [List.append_nil] at hstays
  rw [← List.take_append_drop k noise, feed_append, hstays]
  exact hhunting

theorem drain_noise_frame (h : l.Good) {noise frame : List UInt8} {fr : UpdFrame}
    {chunks : List (List UInt8)} (hnoise : UPD_LINK_SYNC ∉ noise)
    (hlong : l.buf_len.toNat ≤ noise.length)
    (hvalid : upd_frame_parse frame (UInt8.ofNat frame.length) = some fr)
    (hfits : frame.length ≤ l.buf_len.toNat)
    (hchunks : chunks.flatten = noise ++ UPD_LINK_SYNC :: frame) :
    ∃ before last, (drainChunksAt l 0 chunks).1 =
        before ++ [(noise.length + 1 + frame.length, fr, last)] ∧
      last.in_frame = false ∧ last.buf.take frame.length = frame := by
  have hlt := l.buf_len.toNat_lt
  have hsize : (UInt8.ofNat frame.length).toNat = frame.length := by
    rw [UInt8.toNat_ofNat', Nat.mod_eq_of_lt (by omega)]
  rw [upd_frame_parse_iff _ _ (by omega), hsize, List.take_length] at hvalid
  have htakes := link_takes (feed_noise h noise hnoise hlong) fr.cmd fr.payload (by omega)
    (by rw [← hvalid]; exact hfits)
  rw [← hvalid] at htakes
  obtain ⟨d, last, hrun, hidle, hbytes, hsame⟩ := feed_counted_takes htakes (0 + noise.length)
  have hd : d = fr := eq_of_wire_eq (hsame.symm.trans hvalid)
  rw [drainChunksAt_eq_feed, hchunks, feed_append, feed_counted_state, hrun, Nat.zero_add, hd]
  exact ⟨_, last, rfl, hidle.in_frame, hbytes⟩

end Progress

/-- The link stays inside its buffer on any stream, and no stream keeps it from a frame. -/
theorem link_poll_never_wedges (buf : List UInt8) (buf_len : UInt8)
    (hbuf : buf.length = buf_len.toNat) (chunks : List (List UInt8)) (l : Link)
    (hl : (drainChunks (link_init buf buf_len) chunks).2 = l) :
    (l.in_frame = true → l.n.toNat < buf_len.toNat ∧ (l.n + 1).toNat = l.n.toNat + 1) ∧
    (∀ more : List UInt8, more.length = buf_len.toNat →
      ∃ k, k ≤ buf_len.toNat ∧ (drainChunks l [more.take k]).2.in_frame = false) ∧
    ∀ noise frame fr chunks', UPD_LINK_SYNC ∉ noise → buf_len.toNat ≤ noise.length →
      upd_frame_parse frame (UInt8.ofNat frame.length) = some fr → frame.length ≤ buf_len.toNat →
      chunks'.flatten = noise ++ UPD_LINK_SYNC :: frame →
      ∃ before last, (drainChunksAt l 0 chunks').1 =
          before ++ [(noise.length + 1 + frame.length, fr, last)] ∧
        last.in_frame = false ∧ last.buf.take frame.length = frame := by
  have hreached : l.Good ∧ l.buf_len = buf_len := by
    rw [← hl, drainChunks_eq_feed]
    exact feed_good (link_init_good buf buf_len hbuf) _
  obtain ⟨hgood, hsize⟩ := hreached
  rw [← hsize]
  refine ⟨?_, ?_, ?_⟩
  · intro hin
    exact ⟨hgood.bounded hin, hgood.succ_toNat hin⟩
  · intro more hmore
    obtain ⟨k, hk, hidle⟩ := hunts_within hgood more (by rw [hmore]; exact hgood.left_le)
    refine ⟨k, Nat.le_trans hk hgood.left_le, ?_⟩
    rw [drainChunks_eq_feed, List.flatten_singleton]
    exact hidle
  · intro noise frame fr chunks' hnoise hlong hvalid hfits hchunks
    exact drain_noise_frame hgood hnoise hlong hvalid hfits hchunks

/-- Four bytes of room, a sync byte and LEN 1 on the way: four more bytes and the frame comes. -/
theorem link_poll_never_wedges_four :
    let l := (drainChunks (link_init [0, 0, 0, 0] 4) [[0x7E, 0x7E], [0x01]]).2
    ∃ before last, (drainChunksAt l 0 [[0, 0, 0], [0, 0x7E], [0x05, 0x00, 0x41]]).1 =
        before ++ [(8, ⟨0x05, 0, [], rfl⟩, last)] ∧
      last.in_frame = false ∧ last.buf.take 3 = [0x05, 0x00, 0x41] :=
  (link_poll_never_wedges [0, 0, 0, 0] 4 rfl [[0x7E, 0x7E], [0x01]] _ rfl).2.2 [0, 0, 0, 0]
    [0x05, 0x00, 0x41] _ _ (by decide) (by decide) (by decide +kernel) (by decide) rfl

end OtaUpdater.Device
