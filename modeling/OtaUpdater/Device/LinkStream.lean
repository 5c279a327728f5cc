import OtaUpdater.Lib.Mealy
import OtaUpdater.Device.Proto

/-!
# The stream link layer (`link.h`, `link_stream.c`)

Wire binding: a 0x7E sync byte, then the frame verbatim. The port's FIFO is the
list of bytes available to a call; what the call leaves queued comes back.
-/

open OtaUpdater.Lib.Bytes OtaUpdater.Lib.Mealy

namespace OtaUpdater.Device

def UPD_LINK_SYNC : UInt8 := 0x7E

/-- `link_t`, with the buffer that `buf` points at. -/
structure Link where
  buf : List UInt8
  buf_len : UInt8
  n : UInt8
  in_frame : Bool

def link_init (buf : List UInt8) (buf_len : UInt8) : Link :=
  { buf, buf_len, n := 0, in_frame := false }

/-- The body of the `link_poll` loop: `continue` is `none`, `return true` the frame. -/
def link_byte (l : Link) (b : UInt8) : Link × Option UpdFrame :=
  if !l.in_frame then
    if b = UPD_LINK_SYNC ∧ l.buf_len.toNat ≥ UPD_FRAME_OVERHEAD then
      ({ l with in_frame := true, n := 0 }, none)
    else (l, none)
  else
    let l := { l with buf := l.buf.set l.n.toNat b, n := l.n + 1 }
    if l.n < 2 then (l, none)
    else
      let total := (l.buf.getD 1 0).toNat + UPD_FRAME_OVERHEAD
      if total > l.buf_len.toNat then ({ l with in_frame := false }, none)
      else if l.n.toNat < total then (l, none)
      else ({ l with in_frame := false }, upd_frame_parse l.buf l.n)

/-- Pumps until the FIFO runs dry or a frame completes. -/
def link_poll (l : Link) : List UInt8 → Option UpdFrame × Link × List UInt8
  | [] => (none, l, [])
  | b :: fifo =>
    match link_byte l b with
    | (l, some out) => (some out, l, fifo)
    | (l, none) => link_poll l fifo

def link_send (frame : List UInt8) (n : UInt8) : List UInt8 :=
  UPD_LINK_SYNC :: (List.range n.toNat).map (fun i => frame.getD i 0)

/-! ## The link invariant -/

/-- The precondition of `link_poll`, which `link_init` establishes. -/
structure Link.Good (l : Link) : Prop where
  room : l.buf.length = l.buf_len.toNat
  fits : l.in_frame → UPD_FRAME_OVERHEAD ≤ l.buf_len.toNat
  declared : l.in_frame → 2 ≤ l.n.toNat →
    (l.buf.getD 1 0).toNat + UPD_FRAME_OVERHEAD ≤ l.buf_len.toNat ∧
      l.n.toNat < (l.buf.getD 1 0).toNat + UPD_FRAME_OVERHEAD
  bounded : l.in_frame → l.n.toNat < l.buf_len.toNat

theorem link_init_good (buf : List UInt8) (buf_len : UInt8) (h : buf.length = buf_len.toNat) :
    (link_init buf buf_len).Good where
  room := h
  fits := by simp [link_init]
  declared := by simp [link_init]
  bounded := by simp [link_init]

/-- The counter stays below the buffer's length, so it never wraps. -/
theorem Link.Good.succ_toNat {l : Link} (h : l.Good) (hin : l.in_frame = true) :
    (l.n + 1).toNat = l.n.toNat + 1 := by
  have hn := h.bounded hin
  have hlt := l.buf_len.toNat_lt
  exact succ_toNat8 (by omega)

theorem link_byte_in_frame {l : Link} (h : l.Good) (hin : l.in_frame = true) (b : UInt8) :
    let buf := l.buf.set l.n.toNat b
    let total := (buf.getD 1 0).toNat + UPD_FRAME_OVERHEAD
    link_byte l b =
      if l.n.toNat + 1 < 2 then ({ l with buf := buf, n := l.n + 1 }, none)
      else if total > l.buf_len.toNat then
        ({ l with buf := buf, n := l.n + 1, in_frame := false }, none)
      else if l.n.toNat + 1 < total then ({ l with buf := buf, n := l.n + 1 }, none)
      else ({ l with buf := buf, n := l.n + 1, in_frame := false }, upd_frame_parse buf (l.n + 1)) := by
  have hsucc := h.succ_toNat hin
  have htwo : l.n + 1 < 2 ↔ l.n.toNat + 1 < 2 := by
    rw [UInt8.lt_iff_toNat_lt, hsucc]
    rfl
  simp only [link_byte, hin, Bool.not_true, Bool.false_eq_true, if_false, htwo, hsucc]

theorem link_byte_good {l : Link} (h : l.Good) (b : UInt8) : (link_byte l b).1.Good := by
  obtain ⟨buf, buf_len, n, in_frame⟩ := l
  have hover : UPD_FRAME_OVERHEAD = 3 := rfl
  cases in_frame with
  | false =>
    simp only [link_byte, Bool.not_false, if_true]
    split
    · rename_i hsync
      exact ⟨h.room, fun _ => hsync.2, fun _ h2 => by simp at h2, fun _ => by simp; omega⟩
    · exact ⟨h.room, by simp, by simp, by simp⟩
  | true =>
    have hsucc := h.succ_toNat rfl
    have hn := h.bounded rfl
    have hfits := h.fits rfl
    have hroom := h.room
    simp only at hsucc hn hfits hroom
    rw [link_byte_in_frame h rfl]
    simp only
    split
    · exact ⟨by simp [hroom], fun _ => hfits, fun _ h2 => by simp at h2; omega,
        fun _ => by simp; omega⟩
    split
    · exact ⟨by simp [hroom], by simp, by simp, by simp⟩
    split
    · exact ⟨by simp [hroom], fun _ => hfits, fun _ _ => by dsimp only; omega,
        fun _ => by dsimp only; omega⟩
    · exact ⟨by simp [hroom], by simp, by simp, by simp⟩

/-! ## Draining a FIFO -/

theorem link_poll_rest_length (l : Link) (fifo : List UInt8) :
    (link_poll l fifo).1.isSome → (link_poll l fifo).2.2.length < fifo.length := by
  induction fifo generalizing l with
  | nil => simp [link_poll]
  | cons b fifo ih =>
    simp only [link_poll]
    split
    · intro _
      exact Nat.lt_succ_self _
    · intro h
      exact Nat.lt_succ_of_lt (ih _ h)

/-- `link_poll` again and again until it returns false: the frames it delivered. -/
def drain (l : Link) (fifo : List UInt8) : List UpdFrame × Link :=
  match h : link_poll l fifo with
  | (none, l, _) => ([], l)
  | (some out, l, rest) =>
    have : rest.length < fifo.length := by
      have := link_poll_rest_length _ fifo (by rw [h]; rfl)
      rwa [h] at this
    let (outs, last) := drain l rest
    (out :: outs, last)
termination_by fifo.length

/-- Each chunk is made available at once and drained before the next. -/
def drainChunks (l : Link) : List (List UInt8) → List UpdFrame × Link
  | [] => ([], l)
  | chunk :: chunks =>
    let (outs, l) := drain l chunk
    let (rest, last) := drainChunks l chunks
    (outs ++ rest, last)

theorem feed_eq_link_poll (l : Link) (fifo : List UInt8) :
    feed link_byte l fifo = match link_poll l fifo with
      | (none, l', _) => ([], l')
      | (some out, l', rest) => (out :: (feed link_byte l' rest).1, (feed link_byte l' rest).2) := by
  induction fifo generalizing l with
  | nil => rfl
  | cons b fifo ih =>
    rw [feed_cons, link_poll]
    match link_byte l b with
    | (l', some out) => rfl
    | (l', none) => simp [← ih]

theorem drain_eq_feed (l : Link) (fifo : List UInt8) : drain l fifo = feed link_byte l fifo := by
  rw [feed_eq_link_poll, drain]
  split
  · rename_i hpoll
    rw [hpoll]
  · rename_i out l' rest hpoll
    have : rest.length < fifo.length := by
      have := link_poll_rest_length l fifo (by rw [hpoll]; rfl)
      rwa [hpoll] at this
    simp only [hpoll, drain_eq_feed l' rest]
termination_by fifo.length

theorem drainChunks_eq_feed (l : Link) (chunks : List (List UInt8)) :
    drainChunks l chunks = feed link_byte l chunks.flatten := by
  induction chunks generalizing l with
  | nil => rfl
  | cons chunk chunks ih =>
    rw [List.flatten_cons, feed_append, drainChunks, drain_eq_feed]
    simp only [ih]

end OtaUpdater.Device
