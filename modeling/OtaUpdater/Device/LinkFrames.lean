import OtaUpdater.Agreement.Codec
import OtaUpdater.Device.LinkStream

/-!
# Whole frames through the link

What the receive machine makes of a sync byte and the bytes behind it, frame by
frame instead of byte by byte.
-/

open OtaUpdater.Lib.Bytes OtaUpdater.Lib.Mealy OtaUpdater.Wire OtaUpdater.Agreement

namespace OtaUpdater.Device

structure Link.Hunting (l : Link) (B : Nat) : Prop where
  good : l.Good
  size : l.buf_len.toNat = B
  in_frame : l.in_frame = false

/-- Behind a sync byte, with `got` of the frame taken in. -/
structure Link.Collecting (l : Link) (B : Nat) (got : List UInt8) : Prop where
  good : l.Good
  size : l.buf_len.toNat = B
  in_frame : l.in_frame = true
  count : l.n.toNat = got.length
  bytes : l.buf.take got.length = got

section Bytes

variable {l : Link} {B : Nat}

theorem hunting_skip (h : l.Hunting B) {b : UInt8} (hb : b ≠ UPD_LINK_SYNC) :
    link_byte l b = (l, none) := by
  unfold link_byte
  simp [h.in_frame, hb]

theorem hunting_sync (h : l.Hunting B) (hB : 3 ≤ B) :
    ∃ l', link_byte l UPD_LINK_SYNC = (l', none) ∧ l'.Collecting B [] := by
  have hsize : l.buf_len.toNat ≥ UPD_FRAME_OVERHEAD := by
    rw [h.size]
    exact hB
  have hgood := link_byte_good h.good UPD_LINK_SYNC
  have hbyte : link_byte l UPD_LINK_SYNC = ({ l with in_frame := true, n := 0 }, none) := by
    unfold link_byte
    simp [h.in_frame, hsize]
  rw [hbyte] at hgood ⊢
  exact ⟨_, rfl, hgood, h.size, rfl, rfl, rfl⟩

theorem collecting_set {got : List UInt8} (h : l.Collecting B got) (b : UInt8) :
    (l.buf.set l.n.toNat b).take (got.length + 1) = got ++ [b] := by
  have hroom := h.good.room
  have hbound := h.good.bounded h.in_frame
  have hcount := h.count
  rw [hcount, take_set_succ _ _ _ (by omega), h.bytes]

theorem collecting_getD {got : List UInt8} (h : l.Collecting B got) (b : UInt8) (i : Nat)
    (hi : i < got.length + 1) : (l.buf.set l.n.toNat b).getD i 0 = (got ++ [b]).getD i 0 := by
  rw [← collecting_set h b, getD_take _ _ _ _ hi]

theorem collecting_cmd (h : l.Collecting B []) (c : UInt8) :
    ∃ l', link_byte l c = (l', none) ∧ l'.Collecting B [c] := by
  have hgood := link_byte_good h.good c
  have hsucc := h.good.succ_toNat h.in_frame
  have hset := collecting_set h c
  have hcount := h.count
  have hfirst : l.n.toNat + 1 < 2 := by
    rw [hcount, List.length_nil]
    omega
  have hbyte := link_byte_in_frame h.good h.in_frame c
  dsimp only at hbyte
  rw [if_pos hfirst] at hbyte
  rw [hbyte] at hgood ⊢
  exact ⟨_, rfl, hgood, h.size, h.in_frame, by rw [hsucc, hcount]; rfl, hset⟩

theorem collecting_len {c : UInt8} (h : l.Collecting B [c]) (v : UInt8) :
    ∃ l', link_byte l v = (l', none) ∧
      (B < v.toNat + 3 → l'.Hunting B) ∧ (v.toNat + 3 ≤ B → l'.Collecting B [c, v]) := by
  have hgood := link_byte_good h.good v
  have hsucc := h.good.succ_toNat h.in_frame
  have hset := collecting_set h v
  have hcount := h.count
  have hover : UPD_FRAME_OVERHEAD = 3 := rfl
  have hlen : (l.buf.set l.n.toNat v).getD 1 0 = v := collecting_getD h v 1 (by simp)
  have hbyte := link_byte_in_frame h.good h.in_frame v
  dsimp only at hbyte
  rw [hlen, hcount, hover, h.size, List.length_singleton, if_neg (Nat.lt_irrefl 2)] at hbyte
  rw [hcount, List.length_singleton] at hset
  rcases Nat.lt_or_ge B (v.toNat + 3) with hbig | hfits
  · rw [if_pos hbig] at hbyte
    rw [hbyte] at hgood ⊢
    exact ⟨_, rfl, fun _ => ⟨hgood, h.size, rfl⟩, fun hfits => by omega⟩
  · rw [if_neg (by omega), if_pos (by omega)] at hbyte
    rw [hbyte] at hgood ⊢
    refine ⟨_, rfl, fun hbig => by omega, fun _ => ?_⟩
    exact ⟨hgood, h.size, h.in_frame, by rw [hsucc, hcount]; rfl, hset⟩

theorem collecting_body {c v : UInt8} {body : List UInt8} (h : l.Collecting B (c :: v :: body))
    (hfits : v.toNat + 3 ≤ B) (b : UInt8) :
    (body.length < v.toNat →
      ∃ l', link_byte l b = (l', none) ∧ l'.Collecting B (c :: v :: (body ++ [b]))) ∧
    (body.length = v.toNat → ∃ l' out, link_byte l b = (l', out) ∧ l'.Hunting B ∧
      ∀ fr, out = some fr ↔ c :: v :: (body ++ [b]) = wire fr.cmd fr.payload) := by
  have hgood := link_byte_good h.good b
  have hsucc := h.good.succ_toNat h.in_frame
  have hset := collecting_set h b
  have hcount := h.count
  have hroom := h.good.room
  have hsize := h.size
  have hover : UPD_FRAME_OVERHEAD = 3 := rfl
  have hlen : (l.buf.set l.n.toNat b).getD 1 0 = v := collecting_getD h b 1 (by simp)
  have hbyte := link_byte_in_frame h.good h.in_frame b
  simp only [List.length_cons] at hcount hset
  dsimp only at hbyte
  rw [hlen, hover, if_neg (by omega), if_neg (by omega)] at hbyte
  constructor
  · intro hmore
    rw [if_pos (by omega)] at hbyte
    rw [hbyte] at hgood ⊢
    refine ⟨_, rfl, hgood, h.size, h.in_frame, ?_, ?_⟩
    · rw [hsucc, hcount]
      simp
    · simpa using hset
  · intro hlast
    rw [if_neg (by omega)] at hbyte
    rw [hbyte] at hgood ⊢
    refine ⟨_, _, rfl, ⟨hgood, h.size, rfl⟩, ?_⟩
    intro fr
    have hcomplete : (l.n + 1).toNat = body.length + 1 + 1 + 1 := by rw [hsucc, hcount]
    rw [upd_frame_parse_iff _ _ (by rw [hcomplete, List.length_set]; omega), hcomplete, hset]
    rfl

/-! ## Runs of bytes -/

theorem feed_rest {c v : UInt8} {body : List UInt8} (h : l.Collecting B (c :: v :: body))
    (hfits : v.toNat + 3 ≤ B) (bytes : List UInt8) (hmore : body.length ≤ v.toNat)
    (hall : body.length + bytes.length = v.toNat + 1) :
    ∃ l' out, feed link_byte l bytes = (out.toList, l') ∧ l'.Hunting B ∧
      ∀ fr, out = some fr ↔ c :: v :: (body ++ bytes) = wire fr.cmd fr.payload := by
  induction bytes generalizing l body with
  | nil =>
    rw [List.length_nil] at hall
    omega
  | cons b bytes ih =>
    obtain ⟨hstep, hend⟩ := collecting_body h hfits b
    rw [List.length_cons] at hall
    rcases Nat.lt_or_eq_of_le hmore with hlt | heq
    · obtain ⟨l', hbyte, hnext⟩ := hstep hlt
      obtain ⟨last, out, hfeed, hhunting, hout⟩ := ih hnext (by simp; omega) (by simp; omega)
      refine ⟨last, out, ?_, hhunting, ?_⟩
      · rw [feed_cons, hbyte, hfeed]
        rfl
      · intro fr
        rw [hout, List.append_assoc]
        rfl
    · obtain ⟨l', out, hbyte, hhunting, hout⟩ := hend heq
      obtain rfl : bytes = [] := List.length_eq_zero_iff.mp (by omega)
      refine ⟨l', out, ?_, hhunting, hout⟩
      rw [feed_cons, hbyte]
      simp

theorem feed_short {c v : UInt8} {body : List UInt8} (h : l.Collecting B (c :: v :: body))
    (hfits : v.toNat + 3 ≤ B) (bytes : List UInt8) (hless : body.length + bytes.length ≤ v.toNat) :
    (feed link_byte l bytes).1 = [] ∧
      (feed link_byte l bytes).2.Collecting B (c :: v :: (body ++ bytes)) := by
  induction bytes generalizing l body with
  | nil =>
    rw [List.append_nil]
    exact ⟨rfl, h⟩
  | cons b bytes ih =>
    rw [List.length_cons] at hless
    obtain ⟨l', hbyte, hnext⟩ := (collecting_body h hfits b).1 (by omega)
    obtain ⟨hout, hlast⟩ := ih hnext (by simp; omega)
    rw [List.append_assoc] at hlast
    rw [feed_cons, hbyte]
    exact ⟨hout, hlast⟩

theorem feed_overlong (h : l.Hunting B) (hB : 3 ≤ B) (c v : UInt8) (hbig : B < v.toNat + 3)
    (rest : List UInt8) :
    ∃ l', l'.Hunting B ∧ feed link_byte l (UPD_LINK_SYNC :: c :: v :: rest) = feed link_byte l' rest := by
  obtain ⟨l₁, hsync, h₁⟩ := hunting_sync h hB
  obtain ⟨l₂, hcmd, h₂⟩ := collecting_cmd h₁ c
  obtain ⟨l₃, hlen, h₃, -⟩ := collecting_len h₂ v
  refine ⟨l₃, h₃ hbig, ?_⟩
  rw [feed_cons, hsync, feed_cons, hcmd, feed_cons, hlen]
  simp

theorem feed_frame (h : l.Hunting B) (hB : 3 ≤ B) (c v : UInt8) (hfits : v.toNat + 3 ≤ B)
    (body rest : List UInt8) (hbody : body.length = v.toNat + 1) :
    ∃ l' out, l'.Hunting B ∧ (∀ fr, out = some fr ↔ c :: v :: body = wire fr.cmd fr.payload) ∧
      feed link_byte l (UPD_LINK_SYNC :: c :: v :: (body ++ rest)) =
        (out.toList ++ (feed link_byte l' rest).1, (feed link_byte l' rest).2) := by
  obtain ⟨l₁, hsync, h₁⟩ := hunting_sync h hB
  obtain ⟨l₂, hcmd, h₂⟩ := collecting_cmd h₁ c
  obtain ⟨l₃, hlen, -, h₃⟩ := collecting_len h₂ v
  obtain ⟨l₄, out, hfeed, h₄, hout⟩ := feed_rest (h₃ hfits) hfits body (Nat.zero_le _)
    (by simpa using hbody)
  refine ⟨l₄, out, h₄, hout, ?_⟩
  rw [feed_cons, hsync, feed_cons, hcmd, feed_cons, hlen, feed_append, hfeed]
  simp

theorem feed_cut_short (h : l.Hunting B) (hB : 3 ≤ B) (c v : UInt8) (hfits : v.toNat + 3 ≤ B)
    (body : List UInt8) (hbody : body.length ≤ v.toNat) :
    (feed link_byte l (UPD_LINK_SYNC :: c :: v :: body)).1 = [] ∧
      (feed link_byte l (UPD_LINK_SYNC :: c :: v :: body)).2.Collecting B (c :: v :: body) := by
  obtain ⟨l₁, hsync, h₁⟩ := hunting_sync h hB
  obtain ⟨l₂, hcmd, h₂⟩ := collecting_cmd h₁ c
  obtain ⟨l₃, hlen, -, h₃⟩ := collecting_len h₂ v
  obtain ⟨hout, hlast⟩ := feed_short (h₃ hfits) hfits body (by simpa using hbody)
  rw [feed_cons, hsync, feed_cons, hcmd, feed_cons, hlen]
  exact ⟨hout, hlast⟩

/-! ## An intact request -/

def Link.Heard (l : Link) (B : Nat) : List UInt8 → Prop
  | [] => l.Hunting B
  | _ :: got => l.Collecting B got

section Request

variable {cmd : UInt8} {payload : List UInt8} (hfits : (wire cmd payload).length ≤ B)
  (hB : B ≤ 255)

include hfits hB

theorem link_byte_heard (got : List UInt8) (b : UInt8) (more : List UInt8) (hl : l.Heard B got)
    (hstream : UPD_LINK_SYNC :: wire cmd payload = got ++ b :: more) :
    (more ≠ [] → ∃ l', link_byte l b = (l', none) ∧ l'.Heard B (got ++ [b])) ∧
    (more = [] → ∃ l' fr, link_byte l b = (l', some fr) ∧ l'.Hunting B ∧
      fr.cmd = cmd ∧ fr.payload = payload) := by
  have hsize := length_wire cmd payload
  have hlen := len_byte payload (by omega)
  have hlength := congrArg List.length hstream
  rw [List.length_cons, List.length_append, List.length_cons] at hlength
  match got, hl with
  | [], hl =>
    rw [List.nil_append, List.cons.injEq] at hstream
    obtain ⟨rfl, hmore⟩ := hstream
    obtain ⟨l', hbyte, hnext⟩ := hunting_sync hl (by omega)
    refine ⟨fun _ => ⟨l', hbyte, hnext⟩, fun h => ?_⟩
    rw [h, List.length_nil] at hlength
    omega
  | [_], hl =>
    obtain ⟨l', hbyte, hnext⟩ := collecting_cmd hl b
    refine ⟨fun _ => ⟨l', hbyte, hnext⟩, fun h => ?_⟩
    rw [h, List.length_nil, List.length_singleton] at hlength
    omega
  | [_, _], hl =>
    simp only [wire, List.cons_append, List.nil_append, List.cons.injEq] at hstream
    obtain ⟨-, -, hb, -⟩ := hstream
    obtain ⟨l', hbyte, -, hnext⟩ := collecting_len hl b
    refine ⟨fun _ => ⟨l', hbyte, hnext (by rw [← hb, hlen]; omega)⟩, fun h => ?_⟩
    rw [h, List.length_nil] at hlength
    simp only [List.length_cons, List.length_nil] at hlength
    omega
  | _ :: c :: v :: body, hl =>
    have hframe : wire cmd payload = c :: v :: (body ++ b :: more) := by
      simp only [List.cons_append, List.cons.injEq] at hstream
      exact hstream.2
    have hv : v.toNat = payload.length := by
      simp only [wire, List.cons_append, List.cons.injEq] at hframe
      rw [← hframe.2.1, hlen]
    obtain ⟨hstep, hend⟩ := collecting_body hl (by omega) b
    simp only [List.length_cons] at hlength
    constructor
    · intro hmore
      have hpos : 0 < more.length := List.length_pos_iff.mpr hmore
      exact hstep (by omega)
    · intro hmore
      rw [hmore] at hlength hframe
      rw [List.length_nil] at hlength
      obtain ⟨l', out, hbyte, hnext, hout⟩ := hend (by omega)
      have hlen_byte : payload.length = (UInt8.ofNat payload.length).toNat := hlen.symm
      have hdone := (hout ⟨cmd, UInt8.ofNat payload.length, payload, hlen_byte⟩).mpr hframe.symm
      exact ⟨l', _, by rw [hbyte, hdone], hnext, rfl, rfl⟩

theorem link_poll_heard (xs got more : List UInt8) (hl : l.Heard B got)
    (hstream : UPD_LINK_SYNC :: wire cmd payload = got ++ xs ++ more) :
    (more ≠ [] → ∃ l', link_poll l xs = (none, l', []) ∧ l'.Heard B (got ++ xs)) ∧
    (more = [] → xs ≠ [] → ∃ l' fr, link_poll l xs = (some fr, l', []) ∧ l'.Hunting B ∧
      fr.cmd = cmd ∧ fr.payload = payload) := by
  induction xs generalizing l got with
  | nil =>
    rw [List.append_nil]
    exact ⟨fun _ => ⟨l, rfl, hl⟩, fun _ h => absurd rfl h⟩
  | cons b xs ih =>
    rw [List.append_assoc, List.cons_append] at hstream
    obtain ⟨hgoes, hends⟩ := link_byte_heard hfits hB got b (xs ++ more) hl hstream
    unfold link_poll
    by_cases hrest : xs ++ more = []
    · obtain ⟨l', fr, hbyte, hnext, hfr⟩ := hends hrest
      obtain ⟨rfl, rfl⟩ := List.append_eq_nil_iff.mp hrest
      rw [hbyte]
      exact ⟨fun h => absurd rfl h, fun _ _ => ⟨l', fr, rfl, hnext, hfr⟩⟩
    · obtain ⟨l', hbyte, hnext⟩ := hgoes hrest
      have hrun := ih (got ++ [b]) hnext (by rw [hstream]; simp)
      rw [List.append_assoc] at hrun
      rw [hbyte]
      refine ⟨hrun.1, fun hmore _ => hrun.2 hmore ?_⟩
      intro h
      exact hrest (by rw [h, hmore]; rfl)

end Request

end Bytes

theorem link_byte_buf_len (l : Link) (b : UInt8) : (link_byte l b).1.buf_len = l.buf_len := by
  unfold link_byte
  dsimp only
  split_ifs <;> rfl

theorem link_poll_good {l : Link} (h : l.Good) (xs : List UInt8) :
    (link_poll l xs).2.1.Good ∧ (link_poll l xs).2.1.buf_len = l.buf_len ∧
      (link_poll l xs).2.2.length ≤ xs.length := by
  induction xs generalizing l with
  | nil => exact ⟨h, rfl, Nat.le_refl _⟩
  | cons b xs ih =>
    have hgood := link_byte_good h b
    have hsize := link_byte_buf_len l b
    unfold link_poll
    rcases hbyte : link_byte l b with ⟨l', _ | out⟩
    · rw [hbyte] at hgood hsize
      obtain ⟨hlast, hsame, hless⟩ := ih hgood
      exact ⟨hlast, hsame.trans hsize, Nat.le_succ_of_le hless⟩
    · rw [hbyte] at hgood hsize
      exact ⟨hgood, hsize, Nat.le_succ _⟩

end OtaUpdater.Device
