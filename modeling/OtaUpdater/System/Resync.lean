import OtaUpdater.Device.LinkFrames
import OtaUpdater.Host.Session

/-!
# A damaged request on the stream binding

The host sends its request up to four times. How the device's receive machine
finds its way back after damage in the first copy decides whether it ever hears one.
-/

open OtaUpdater.Lib.Mealy OtaUpdater.Wire OtaUpdater.Device OtaUpdater.Host

namespace OtaUpdater.System

/-! ## The way through a stream -/

/-- The way through a stream meets `f` behind a sync byte. It leads over noise to a sync byte, and from
there behind the frame that the LEN byte announces, or behind that LEN byte if the frame exceeds `B`. -/
inductive Resyncs (B : Nat) (f : List UInt8) : List UInt8 → Prop where
  | hit (rest : List UInt8) (h : rest.take f.length = f) : Resyncs B f (UPD_LINK_SYNC :: rest)
  | noise (b : UInt8) (rest : List UInt8) (hb : b ≠ UPD_LINK_SYNC) (h : Resyncs B f rest) :
    Resyncs B f (b :: rest)
  | refuse (c len : UInt8) (rest : List UInt8) (hlen : B < len.toNat + 3) (h : Resyncs B f rest) :
    Resyncs B f (UPD_LINK_SYNC :: c :: len :: rest)
  | hop (c len : UInt8) (rest : List UInt8) (hlen : len.toNat + 3 ≤ B)
    (h : Resyncs B f (rest.drop (len.toNat + 1))) : Resyncs B f (UPD_LINK_SYNC :: c :: len :: rest)

section Resyncs

variable {B : Nat} {f : List UInt8}

theorem resyncs_noise_iff {b : UInt8} (rest : List UInt8) (hb : b ≠ UPD_LINK_SYNC) :
    Resyncs B f (b :: rest) ↔ Resyncs B f rest := by
  constructor
  · intro h
    cases h with
    | hit _ h => exact absurd rfl hb
    | noise _ _ _ h => exact h
    | refuse _ _ _ _ h => exact absurd rfl hb
    | hop _ _ _ _ h => exact absurd rfl hb
  · exact Resyncs.noise b rest hb

theorem resyncs_append_iff (g rest : List UInt8) (hg : UPD_LINK_SYNC ∉ g) :
    Resyncs B f (g ++ rest) ↔ Resyncs B f rest := by
  induction g with
  | nil => rfl
  | cons b g ih =>
    rw [List.mem_cons, not_or] at hg
    rw [List.cons_append, resyncs_noise_iff _ (Ne.symm hg.1), ih hg.2]

theorem not_resyncs_nil : ¬ Resyncs B f [] := by
  rintro ⟨⟩

theorem resyncs_header_iff (c len : UInt8) (rest : List UInt8)
    (hmiss : (c :: len :: rest).take f.length ≠ f) :
    Resyncs B f (UPD_LINK_SYNC :: c :: len :: rest) ↔
      if B < len.toNat + 3 then Resyncs B f rest else Resyncs B f (rest.drop (len.toNat + 1)) := by
  constructor
  · intro h
    cases h with
    | hit _ h => exact absurd h hmiss
    | noise _ _ hb _ => exact absurd rfl hb
    | refuse _ _ _ hlen h =>
      rw [if_pos hlen]
      exact h
    | hop _ _ _ hlen h =>
      rw [if_neg (by omega)]
      exact h
  · intro h
    split at h
    · rename_i hlen
      exact Resyncs.refuse c len rest hlen h
    · rename_i hlen
      exact Resyncs.hop c len rest (by omega) h

end Resyncs

/-! ## The receive machine takes that way -/

/-- A frame is among the delivered ones. -/
def Hears (cmd : UInt8) (payload : List UInt8) (frames : List UpdFrame) : Prop :=
  ∃ fr ∈ frames, fr.cmd = cmd ∧ fr.payload = payload

section Hears

variable {cmd : UInt8} {payload : List UInt8} {B : Nat}

theorem hears_append (xs ys : List UpdFrame) :
    Hears cmd payload (xs ++ ys) ↔ Hears cmd payload xs ∨ Hears cmd payload ys := by
  unfold Hears
  simp only [List.mem_append, or_and_right, exists_or]

theorem hears_toList {out : Option UpdFrame} {bytes : List UInt8}
    (hout : ∀ fr, out = some fr ↔ bytes = wire fr.cmd fr.payload)
    (hmax : payload.length ≤ payloadMax) :
    Hears cmd payload out.toList ↔ bytes = wire cmd payload := by
  constructor
  · rintro ⟨fr, hmem, rfl, rfl⟩
    rw [Option.mem_toList] at hmem
    exact (hout fr).mp hmem
  · intro h
    simp only [payloadMax] at hmax
    have hlen := (len_byte payload (by omega)).symm
    refine ⟨⟨cmd, UInt8.ofNat payload.length, payload, hlen⟩, ?_, rfl, rfl⟩
    rw [Option.mem_toList]
    exact (hout _).mpr h

theorem take_wire {c len : UInt8} {rest : List UInt8}
    (h : (c :: len :: rest).take (wire cmd payload).length = wire cmd payload)
    (hmax : payload.length ≤ payloadMax) : len.toNat = payload.length := by
  simp only [payloadMax] at hmax
  have hbyte := congrArg (fun xs => xs.getD 1 0) h
  rw [length_wire] at hbyte
  have hlen : len = UInt8.ofNat payload.length := hbyte
  rw [hlen, UInt8.toNat_ofNat', Nat.mod_eq_of_lt (by omega)]

theorem header_misses {c len : UInt8} {rest : List UInt8} (hmax : payload.length ≤ payloadMax)
    (h : len.toNat ≠ payload.length ∨ rest.length < len.toNat + 1) :
    (c :: len :: rest).take (wire cmd payload).length ≠ wire cmd payload := by
  intro htake
  have hlen := take_wire htake hmax
  have hsize := length_wire cmd payload
  have hcount := congrArg List.length htake
  rw [List.length_take, List.length_cons, List.length_cons] at hcount
  omega

theorem hears_nothing : ¬ Hears cmd payload [] := by
  rintro ⟨fr, hmem, -⟩
  cases hmem

theorem not_resyncs_stub {stub : List UInt8} (hstub : stub.length ≤ 1) :
    ¬ Resyncs B (wire cmd payload) (UPD_LINK_SYNC :: stub) := by
  have hsize := length_wire cmd payload
  rintro (⟨_, h⟩ | _)
  · have hshort := congrArg List.length h
    rw [List.length_take] at hshort
    omega
  · contradiction
  · rw [List.length_cons, List.length_cons] at hstub
    omega
  · rw [List.length_cons, List.length_cons] at hstub
    omega

section Header

variable (hfits : (wire cmd payload).length ≤ B) (hB : B ≤ 255) {l : Link} (hl : l.Hunting B)
  (c len : UInt8) (rest : List UInt8)
include hfits hB hl

theorem hears_stub (stub : List UInt8) (hstub : stub.length ≤ 1) :
    ¬ Hears cmd payload (feed link_byte l (UPD_LINK_SYNC :: stub)).1 := by
  have hsize := length_wire cmd payload
  obtain ⟨l₁, hsync, h₁⟩ := hunting_sync hl (by omega)
  rw [feed_cons, hsync]
  rcases stub with _ | ⟨c, _ | ⟨d, stub⟩⟩
  · exact hears_nothing
  · obtain ⟨l₂, hcmd, -⟩ := collecting_cmd h₁ c
    rw [feed_cons, hcmd]
    exact hears_nothing
  · rw [List.length_cons, List.length_cons] at hstub
    omega

/-- A frame of any kind that is there to its end: the one that is looked for, or one to hop over. -/
theorem hears_frame (hsmall : len.toNat + 3 ≤ B) (hwhole : len.toNat + 1 ≤ rest.length)
    (hrest : ∀ l' : Link, l'.Hunting B →
      (Hears cmd payload (feed link_byte l' (rest.drop (len.toNat + 1))).1 ↔
        Resyncs B (wire cmd payload) (rest.drop (len.toNat + 1)))) :
    Hears cmd payload (feed link_byte l (UPD_LINK_SYNC :: c :: len :: rest)).1 ↔
      Resyncs B (wire cmd payload) (UPD_LINK_SYNC :: c :: len :: rest) := by
  have hsize := length_wire cmd payload
  have hmax : payload.length ≤ payloadMax := by
    unfold payloadMax
    omega
  have hbody : (rest.take (len.toNat + 1)).length = len.toNat + 1 := List.length_take_of_le hwhole
  obtain ⟨l', out, hl', hout, hfeed⟩ := feed_frame hl (by omega) c len hsmall
    (rest.take (len.toNat + 1)) (rest.drop (len.toNat + 1)) hbody
  rw [List.take_append_drop] at hfeed
  rw [hfeed, hears_append, hears_toList hout hmax, hrest l' hl']
  rcases Decidable.em (c :: len :: rest.take (len.toNat + 1) = wire cmd payload) with hhit | hother
  · have hlen : len.toNat + 3 = (wire cmd payload).length := by
      rw [← hhit, List.length_cons, List.length_cons, hbody]
    refine iff_of_true (Or.inl hhit) (Resyncs.hit _ ?_)
    rw [← hlen]
    exact hhit
  · have hmiss : (c :: len :: rest).take (wire cmd payload).length ≠ wire cmd payload := by
      intro h
      apply hother
      have hlen := take_wire h hmax
      rw [hsize, ← hlen] at h
      exact h
    rw [resyncs_header_iff c len rest hmiss, if_neg (by omega), or_iff_right hother]

theorem hears_header (hrest : ∀ (k : Nat) (l' : Link), l'.Hunting B →
      (Hears cmd payload (feed link_byte l' (rest.drop k)).1 ↔
        Resyncs B (wire cmd payload) (rest.drop k))) :
    Hears cmd payload (feed link_byte l (UPD_LINK_SYNC :: c :: len :: rest)).1 ↔
      Resyncs B (wire cmd payload) (UPD_LINK_SYNC :: c :: len :: rest) := by
  have hsize := length_wire cmd payload
  have hmax : payload.length ≤ payloadMax := by
    unfold payloadMax
    omega
  rcases Nat.lt_or_ge B (len.toNat + 3) with hbig | hsmall
  · obtain ⟨l', hl', hfeed⟩ := feed_overlong hl (by omega) c len hbig rest
    have hmiss : (c :: len :: rest).take (wire cmd payload).length ≠ wire cmd payload :=
      header_misses hmax (Or.inl (by omega))
    rw [hfeed, resyncs_header_iff c len rest hmiss, if_pos hbig]
    exact hrest 0 l' hl'
  rcases Nat.lt_or_ge rest.length (len.toNat + 1) with hshort | hwhole
  · obtain ⟨hout, -⟩ := feed_cut_short hl (by omega) c len hsmall rest (by omega)
    rw [hout, resyncs_header_iff c len rest (header_misses hmax (Or.inr hshort)), if_neg (by omega),
      List.drop_of_length_le (by omega)]
    exact iff_of_false hears_nothing not_resyncs_nil
  · exact hears_frame hfits hB hl c len rest hsmall hwhole (hrest (len.toNat + 1))

end Header

theorem hears_iff_resyncs (hfits : (wire cmd payload).length ≤ B) (hB : B ≤ 255) (n : Nat) :
    ∀ (stream : List UInt8) (l : Link), stream.length ≤ n → l.Hunting B →
      (Hears cmd payload (feed link_byte l stream).1 ↔ Resyncs B (wire cmd payload) stream) := by
  induction n with
  | zero =>
    intro stream l hlength _
    rw [List.length_eq_zero_iff.mp (Nat.le_zero.mp hlength)]
    exact iff_of_false hears_nothing not_resyncs_nil
  | succ n ih =>
    intro stream l hlength hl
    rcases stream with _ | ⟨b, stream⟩
    · exact iff_of_false hears_nothing not_resyncs_nil
    rw [List.length_cons] at hlength
    rcases Decidable.em (b = UPD_LINK_SYNC) with rfl | hb
    · rcases Nat.lt_or_ge 1 stream.length with hheader | hstub
      · obtain ⟨c, len, rest, rfl⟩ : ∃ c len rest, stream = c :: len :: rest := by
          rcases stream with _ | ⟨c, _ | ⟨len, rest⟩⟩
          · cases hheader
          · exact absurd hheader (Nat.lt_irrefl 1)
          · exact ⟨c, len, rest, rfl⟩
        apply hears_header hfits hB hl
        intro k l' hl'
        apply ih _ _ _ hl'
        rw [List.length_cons, List.length_cons] at hlength
        rw [List.length_drop]
        omega
      · exact iff_of_false (hears_stub hfits hB hl stream hstub) (not_resyncs_stub hstub)
    · rw [feed_cons, hunting_skip hl hb, resyncs_noise_iff stream hb]
      exact ih stream l (by omega) hl

end Hears

/-! ## Four copies, the first one damaged -/

/-- `k` copies of a request on the line. -/
def copies (f : List UInt8) (k : Nat) : List UInt8 :=
  (List.replicate k (UPD_LINK_SYNC :: f)).flatten

/-- What the host sends for one exchange, with `v` in place of byte `i` of the first copy. -/
def damagedLine (f : List UInt8) (i : Nat) (v : UInt8) : List UInt8 :=
  (UPD_LINK_SYNC :: f).set i v ++ copies f RETRY_BUDGET

/-- The damage leaves a way to one of the copies behind it. A damaged CMD, payload or CRC byte always
does; a damaged SYNC sends the device into the frame's own bytes, and a damaged LEN over `v + 3` bytes. -/
def Recovers (B : Nat) (f : List UInt8) (i : Nat) (v : UInt8) : Prop :=
  (i = 0 → Resyncs B f (f ++ copies f RETRY_BUDGET)) ∧
    (i = 2 → if B < v.toNat + 3 then Resyncs B f (f.drop 2 ++ copies f RETRY_BUDGET)
      else Resyncs B f ((f ++ copies f RETRY_BUDGET).drop (v.toNat + 3)))

section Damage

variable {B : Nat} {f : List UInt8}

theorem copies_succ (k : Nat) : copies f (k + 1) = UPD_LINK_SYNC :: (f ++ copies f k) := by
  unfold copies
  rw [List.replicate_succ, List.flatten_cons]
  rfl

theorem resyncs_copies (k : Nat) : Resyncs B f (copies f (k + 1)) := by
  rw [copies_succ]
  apply Resyncs.hit
  exact List.take_left

theorem resyncs_behind {g : List UInt8} {n : Nat} (hg : g.length = n) (k : Nat) :
    Resyncs B f ((g ++ copies f (k + 1)).drop n) := by
  rw [List.drop_left' hg]
  exact resyncs_copies k

theorem resyncs_drop_iff (hf : UPD_LINK_SYNC ∉ f) (k p : Nat) :
    Resyncs B f ((f ++ copies f (k + 1)).drop p) ↔ p ≤ f.length + k * (f.length + 1) := by
  have htail : ∀ q, UPD_LINK_SYNC ∉ f.drop q := fun q h => hf (List.mem_of_mem_drop h)
  induction k generalizing p with
  | zero =>
    rcases Nat.lt_or_ge f.length p with hlt | hle
    · have hrest : (f ++ copies f 1).drop p = f.drop (p - f.length - 1) := by
        obtain ⟨q, hq⟩ := Nat.exists_eq_add_of_le' hlt
        rw [List.drop_append, List.drop_of_length_le (by omega), copies_succ, List.nil_append,
          (by omega : p - f.length = (p - f.length - 1) + 1), List.drop_succ_cons]
        simp [copies]
      have hnone := resyncs_append_iff (B := B) (f := f) (f.drop (p - f.length - 1)) [] (htail _)
      rw [List.append_nil] at hnone
      rw [hrest, hnone]
      exact iff_of_false not_resyncs_nil (by omega)
    · rw [List.drop_append_of_le_length hle, resyncs_append_iff _ _ (htail p)]
      exact iff_of_true (resyncs_copies 0) (by omega)
  | succ k ih =>
    have hexpand : (k + 1) * (f.length + 1) = k * (f.length + 1) + (f.length + 1) := Nat.succ_mul _ _
    rcases Nat.lt_or_ge f.length p with hlt | hle
    · have hrest : (f ++ copies f (k + 1 + 1)).drop p =
          (f ++ copies f (k + 1)).drop (p - f.length - 1) := by
        rw [List.drop_append, List.drop_of_length_le (by omega), copies_succ, List.nil_append,
          (by omega : p - f.length = (p - f.length - 1) + 1), List.drop_succ_cons]
        rfl
      rw [hrest]
      exact (ih _).trans (by omega)
    · rw [List.drop_append_of_le_length hle, resyncs_append_iff _ _ (htail p)]
      exact iff_of_true (resyncs_copies _) (by omega)

/-- For a frame without a sync byte, only a LEN that reaches into the last copy is fatal. -/
theorem recovers_iff (hf : UPD_LINK_SYNC ∉ f) (i : Nat) (v : UInt8) :
    Recovers B f i v ↔ ¬ (i = 2 ∧ v.toNat + 3 ≤ B ∧ 3 * (f.length + 1) < v.toNat + 4) := by
  have hbudget : RETRY_BUDGET = 2 + 1 := rfl
  have htail : UPD_LINK_SYNC ∉ f.drop 2 := fun h => hf (List.mem_of_mem_drop h)
  have hstart : Resyncs B f (f ++ copies f RETRY_BUDGET) := by
    rw [resyncs_append_iff f _ hf]
    exact resyncs_copies 2
  have hrefused : Resyncs B f (f.drop 2 ++ copies f RETRY_BUDGET) := by
    rw [resyncs_append_iff _ _ htail]
    exact resyncs_copies 2
  have hswallowed := resyncs_drop_iff (B := B) hf 2 (v.toNat + 3)
  rw [← hbudget] at hswallowed
  unfold Recovers
  rw [hswallowed]
  constructor
  · rintro ⟨-, hlen⟩ ⟨hi, hfits, hfar⟩
    have hreach := hlen hi
    rw [if_neg (by omega)] at hreach
    omega
  · intro h
    refine ⟨fun _ => hstart, fun hi => ?_⟩
    split
    · exact hrefused
    · omega

theorem resyncs_damagedLine (cmd : UInt8) (payload : List UInt8)
    (hfits : (wire cmd payload).length ≤ B) (hB : B ≤ 255) (i : Nat)
    (hi : i ≤ (wire cmd payload).length) (v : UInt8)
    (hv : v ≠ (UPD_LINK_SYNC :: wire cmd payload).getD i 0) :
    Resyncs B (wire cmd payload) (damagedLine (wire cmd payload) i v) ↔
      Recovers B (wire cmd payload) i v := by
  have hsize := length_wire cmd payload
  have hbyte := len_byte payload (by omega)
  unfold damagedLine Recovers
  match i with
  | 0 =>
    rw [List.set_cons_zero, List.cons_append, resyncs_noise_iff _ hv]
    simp
  | 1 =>
    refine iff_of_true ?_ (by simp)
    refine Resyncs.hop v (UInt8.ofNat payload.length) _ (by omega) ?_
    rw [hbyte]
    exact resyncs_behind (List.length_append : (payload ++ [_]).length = payload.length + 1) 2
  | 2 =>
    have hmiss : (cmd :: v :: ((wire cmd payload).drop 2 ++ copies (wire cmd payload) RETRY_BUDGET)).take
        (wire cmd payload).length ≠ wire cmd payload := by
      intro h
      have hlen := congrArg (fun xs => xs.getD 1 0) h
      rw [hsize] at hlen
      exact hv hlen
    refine (resyncs_header_iff cmd v _ hmiss).trans ?_
    simp only [Nat.reduceEqDiff, false_implies, true_and, true_implies]
    exact Iff.rfl
  | i + 3 =>
    refine iff_of_true ?_ (by simp)
    refine Resyncs.hop cmd (UInt8.ofNat payload.length) _ (by omega) ?_
    have hskip : ((payload ++ [checksum (cmd :: UInt8.ofNat payload.length :: payload)]).set i v).length =
        payload.length + 1 := by
      rw [List.length_set, List.length_append]
      rfl
    rw [hbyte]
    exact resyncs_behind hskip 2

end Damage

/-- The retry is heard exactly when the damage leaves a way to it; for a frame without a sync byte of
its own, that is unless LEN becomes a number that the buffer admits and that reaches into the last copy. -/
theorem retry_heard_iff (l : Link) (hgood : l.Good) (hhunting : l.in_frame = false) (cmd : UInt8)
    (payload : List UInt8) (hfits : (wire cmd payload).length ≤ l.buf_len.toNat) (i : Nat)
    (hi : i ≤ (wire cmd payload).length) (v : UInt8)
    (hv : v ≠ (UPD_LINK_SYNC :: wire cmd payload).getD i 0) (chunks : List (List UInt8))
    (hchunks : chunks.flatten = damagedLine (wire cmd payload) i v) :
    (Hears cmd payload (drainChunks l chunks).1 ↔ Recovers l.buf_len.toNat (wire cmd payload) i v) ∧
      (UPD_LINK_SYNC ∉ wire cmd payload → (Hears cmd payload (drainChunks l chunks).1 ↔
        ¬ (i = 2 ∧ v.toNat + 3 ≤ l.buf_len.toNat ∧
          3 * ((wire cmd payload).length + 1) < v.toNat + 4))) := by
  have hlt := l.buf_len.toNat_lt
  have hheard : Hears cmd payload (drainChunks l chunks).1 ↔
      Recovers l.buf_len.toNat (wire cmd payload) i v := by
    rw [drainChunks_eq_feed, hchunks,
      hears_iff_resyncs hfits (by omega) _ _ l (Nat.le_refl _) ⟨hgood, rfl, hhunting⟩]
    exact resyncs_damagedLine cmd payload hfits (by omega) i hi v hv
  refine ⟨hheard, ?_⟩
  intro hsync
  rw [hheard, recovers_iff hsync]

/-- An INFO request with a damaged CMD byte, in one piece, and a device fresh from its reset. -/
theorem retry_heard_iff_info :
    let l := link_init (List.replicate 136 0) 136
    let f := wire CMD_INFO []
    let heard := Hears CMD_INFO [] (drainChunks l [damagedLine f 1 0x00]).1
    (heard ↔ Recovers l.buf_len.toNat f 1 0x00) ∧
      (heard ↔ ¬ (1 = 2 ∧ (0x00 : UInt8).toNat + 3 ≤ l.buf_len.toNat ∧
        3 * (f.length + 1) < (0x00 : UInt8).toNat + 4)) := by
  intro l f heard
  have hgood : l.Good := link_init_good (List.replicate 136 0) 136 List.length_replicate
  have hsync : UPD_LINK_SYNC ∉ f := by decide +kernel
  have hinfo := retry_heard_iff l hgood rfl CMD_INFO [] (by decide) 1 (by decide) 0x00 (by decide)
    [damagedLine f 1 0x00] List.flatten_singleton
  exact ⟨hinfo.1, hinfo.2 hsync⟩

/-- One flipped bit in the LEN of an INFO request, and the device takes all four copies for the payload. -/
theorem retry_unheard :
    ¬ ∀ (l : Link) (cmd : UInt8) (payload : List UInt8) (i : Nat) (v : UInt8), l.Good →
      l.in_frame = false → (wire cmd payload).length ≤ l.buf_len.toNat →
      i ≤ (wire cmd payload).length → v ≠ (UPD_LINK_SYNC :: wire cmd payload).getD i 0 →
      Hears cmd payload (drain l (damagedLine (wire cmd payload) i v)).1 := by
  intro hclaim
  have hheard := hclaim (link_init (List.replicate 136 0) 136) CMD_INFO [] 2 0x10
    (link_init_good _ _ List.length_replicate) rfl (by decide) (by decide) (by decide)
  have hsilent : (feed link_byte (link_init (List.replicate 136 0) 136)
      (damagedLine (wire CMD_INFO []) 2 0x10)).1 = [] := by decide
  rw [drain_eq_feed, hsilent] at hheard
  obtain ⟨fr, hmem, -⟩ := hheard
  cases hmem

end OtaUpdater.System
