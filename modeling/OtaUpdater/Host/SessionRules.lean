import OtaUpdater.Host.FrameRules
import OtaUpdater.Host.ImageRules
import OtaUpdater.Host.Session

/-!
# Rules for sessions

What a transport does with one request is all a session needs to know about it.
The rules turn a fact about one request into one about an exchange.
-/

open OtaUpdater.Lib.Bytes OtaUpdater.Lib.Retry OtaUpdater.Lib.State OtaUpdater.Wire

namespace OtaUpdater.Host

/-! ## Responses -/

def received {ε : Type} (r : Except ε Nat × List UInt8) : Except ε (List UInt8) :=
  r.1.map (fun n => r.2.take (min n r.2.length))

/-- Wire damage, in the host's eyes: worth another attempt. -/
def Retryable {ε : Type} (seen : Except ε (List UInt8)) (expect_cmd : UInt8) : Prop :=
  match seen with
  | .error _ => True
  | .ok raw => validate raw expect_cmd = .error .Mangled ∨ validate raw expect_cmd = .error .DeviceBadFrame

def Accepted {ε : Type} (seen : Except ε (List UInt8)) (expect_cmd : UInt8) (rest : List UInt8) : Prop :=
  ∃ raw, seen = .ok raw ∧ decode_padded raw = .ok ⟨expect_cmd, ST_OK :: rest⟩

theorem validate_ok_iff (raw : List UInt8) (expect_cmd : UInt8) :
    validate raw expect_cmd = .ok () ↔
      ∃ rest, decode_padded raw = .ok ⟨expect_cmd, ST_OK :: rest⟩ := by
  unfold validate
  rcases decode_padded raw with e | ⟨cmd, payload⟩
  · simp
  · by_cases hcmd : cmd = expect_cmd
    · rcases payload with _ | ⟨st, rest⟩
      · simp [hcmd]
      · by_cases hst : st = ST_OK
        · simp [hcmd, hst]
        · by_cases hbad : st = ST_BAD_FRAME
          · have hne : ST_BAD_FRAME ≠ ST_OK := by decide
            simp [hcmd, hbad, hne]
          · simp [hcmd, hst, hbad]
    · simp [hcmd]

theorem Accepted.not_retryable {ε : Type} {seen : Except ε (List UInt8)} {expect_cmd : UInt8}
    {rest : List UInt8} (h : Accepted seen expect_cmd rest) : ¬ Retryable seen expect_cmd := by
  obtain ⟨raw, rfl, hdecode⟩ := h
  have hvalid := (validate_ok_iff raw expect_cmd).mpr ⟨rest, hdecode⟩
  rintro (hmangled | hbad)
  · rw [hvalid] at hmangled
    cases hmangled
  · rw [hvalid] at hbad
    cases hbad

/-- Two frames with filler that look alike, as far as one can see, are the same frame. -/
theorem wire_prefix_eq (cmd cmd' : UInt8) (payload payload' : List UInt8) (pad pad' room : Nat)
    (hmax : payload.length ≤ payloadMax) (hmax' : payload'.length ≤ payloadMax)
    (h : (wire cmd payload ++ List.replicate pad 0xFF).take room =
      wire cmd' payload' ++ List.replicate pad' 0xFF) : cmd = cmd' ∧ payload = payload' := by
  simp only [payloadMax] at hmax hmax'
  have hroom := congrArg List.length h
  simp only [List.length_take, List.length_append, length_wire, List.length_replicate] at hroom
  have hlen_byte := congrArg (fun xs => xs[1]?) h
  simp only [List.getElem?_take, (by omega : 1 < room), if_true, wire, List.cons_append,
    List.getElem?_cons_succ, List.getElem?_cons_zero, Option.some.injEq] at hlen_byte
  have hlen : payload.length = payload'.length := by
    have hnat := congrArg UInt8.toNat hlen_byte
    rw [UInt8.toNat_ofNat', UInt8.toNat_ofNat', Nat.mod_eq_of_lt (by omega),
      Nat.mod_eq_of_lt (by omega)] at hnat
    exact hnat
  have hframe := congrArg (List.take (payload.length + 3)) h
  rw [List.take_take, Nat.min_eq_left (by omega), List.take_left' (length_wire _ _),
    List.take_left' (by rw [length_wire, hlen])] at hframe
  exact wire_injective _ _ _ _ hframe

section Rules

variable {τ ε : Type} (T : Transport τ ε)

/-! ## One exchange -/

/-- What every attempt of one exchange does, with `k + 1` of them left before it. -/
def Serves (tx : List UInt8) (room : Nat) (expect_cmd : UInt8) (inv : Nat → τ → Prop)
    (post : List UInt8 → τ → Prop) (err : τ → Prop) : Prop :=
  ∀ k t rx, inv (k + 1) t → rx.length = room →
    let r := T.request t tx rx
    (∀ rest, Accepted (received r.1) expect_cmd rest → post rest r.2) ∧
    (Retryable (received r.1) expect_cmd → inv k r.2) ∧
    ((∀ rest, ¬ Accepted (received r.1) expect_cmd rest) → ¬ Retryable (received r.1) expect_cmd →
      err r.2)

theorem Serves.weaken {tx : List UInt8} {room : Nat} {expect_cmd : UInt8} {inv : Nat → τ → Prop}
    {post post' : List UInt8 → τ → Prop} {err err' : τ → Prop}
    (h : Serves T tx room expect_cmd inv post err) (hpost : ∀ rest t, post rest t → post' rest t)
    (herr : ∀ t, err t → err' t) : Serves T tx room expect_cmd inv post' err' := by
  intro k t rx hinv hroom
  obtain ⟨haccept, hretry, hfatal⟩ := h k t rx hinv hroom
  exact ⟨fun rest hrest => hpost _ _ (haccept rest hrest), hretry,
    fun hnone hfinal => herr _ (hfatal hnone hfinal)⟩

theorem exchange_rule (tx : List UInt8) (room : Nat) (expect_cmd : UInt8) (inv : Nat → τ → Prop)
    (post : List UInt8 → τ → Prop) (err : τ → Prop) (hzero : ∀ t, inv 0 t → err t)
    (hserves : Serves T tx room expect_cmd inv post err) (t : τ) (rx : List UInt8)
    (hinv : inv (1 + RETRY_BUDGET) t) (hrx : rx.length = room) :
    match exchange T t tx rx expect_cmd with
    | (.ok rlen, (t', rx')) => rlen ≤ rx'.length ∧ rx'.length = room ∧
        ∃ rest, decode_padded (rx'.take rlen) = .ok ⟨expect_cmd, ST_OK :: rest⟩ ∧ post rest t'
    | (.error _, (t', rx')) => rx'.length = room ∧ err t' := by
  have hattempts := retry_rule (exchange_attempt T tx expect_cmd)
    (fun k s => s.2.length = room ∧ inv k s.1)
    (fun rlen s => rlen ≤ s.2.length ∧ s.2.length = room ∧
      ∃ rest, decode_padded (s.2.take rlen) = .ok ⟨expect_cmd, ST_OK :: rest⟩ ∧ post rest s.1)
    (fun s => s.2.length = room ∧ err s.1) (fun s h => ⟨h.1, hzero _ h.2⟩) ?_
    (1 + RETRY_BUDGET) .BadFrame (t, rx) ⟨hrx, hinv⟩
  · unfold exchange
    rcases hretry : retry (exchange_attempt T tx expect_cmd) (1 + RETRY_BUDGET) .BadFrame (t, rx) with
      ⟨e | rlen, t', rx'⟩
    · rw [hretry] at hattempts
      exact hattempts
    · rw [hretry] at hattempts
      exact hattempts
  · rintro k ⟨t, rx⟩ ⟨hroom, h⟩
    have hlength := T.length_rsp t tx rx
    obtain ⟨haccept, hretry, hfatal⟩ := hserves k t rx h hroom
    unfold exchange_attempt
    dsimp only at hroom h ⊢
    generalize T.request t tx rx = r at hlength haccept hretry hfatal ⊢
    obtain ⟨⟨result, rx'⟩, t'⟩ := r
    dsimp only at hlength
    rw [hroom] at hlength
    rcases result with e | n
    · exact ⟨hlength, hretry trivial⟩
    · have hseen : received ((.ok n, rx') : Except ε Nat × List UInt8) =
          .ok (rx'.take (min n rx'.length)) := rfl
      rw [hseen] at haccept hretry hfatal
      dsimp only
      rcases hvalid : validate (rx'.take (min n rx'.length)) expect_cmd with (_ | _ | st) | _
      · exact ⟨hlength, hretry (Or.inl hvalid)⟩
      · exact ⟨hlength, hretry (Or.inr hvalid)⟩
      · refine ⟨hlength, hfatal ?_ ?_⟩
        · rintro rest ⟨raw, hraw, hdecode⟩
          rw [Except.ok.injEq] at hraw
          subst hraw
          rw [(validate_ok_iff _ _).mpr ⟨rest, hdecode⟩] at hvalid
          cases hvalid
        · unfold Retryable
          simp [hvalid]
      · obtain ⟨rest, hdecode⟩ := (validate_ok_iff _ _).mp hvalid
        exact ⟨Nat.min_le_right _ _, hlength, rest, hdecode, haccept rest ⟨_, rfl, hdecode⟩⟩

/-! ## Commands -/

theorem split_windows_ok {ε : Type} (buf : List UInt8) (tx_len rx_len : Nat)
    (h : tx_len + rx_len ≤ buf.length) :
    ∃ tx rx, split_windows (ε := ε) buf tx_len rx_len = .ok (tx, rx) ∧
      tx.length = tx_len ∧ rx.length = rx_len := by
  unfold split_windows
  rw [if_neg (by omega)]
  refine ⟨_, _, rfl, ?_, ?_⟩
  · simp only [List.length_take]
    omega
  · simp only [List.length_drop, List.length_take]
    omega

theorem Session.after_length (self : Session τ) (t : τ) (tx rx : List UInt8)
    (h : tx.length + rx.length ≤ self.buf.length) :
    (self.after t tx rx).buf.length = self.buf.length := by
  simp only [Session.after, List.length_append, List.length_drop]
  omega

theorem split_windows_small {ε : Type} (buf : List UInt8) (tx_len rx_len : Nat)
    (h : buf.length < tx_len + rx_len) :
    split_windows (ε := ε) buf tx_len rx_len = .error (.BufferTooSmall (tx_len + rx_len)) := by
  unfold split_windows
  rw [if_pos h]

theorem transact_small (cmd : UInt8) (payload : List UInt8) (cap : Nat) (self : Session τ)
    (h : self.buf.length < payload.length + cap + 6) :
    transact T cmd payload cap self = (.error (.BufferTooSmall (payload.length + cap + 6)), self) := by
  have hneeded : payload.length + 3 + (cap + 3) = payload.length + cap + 6 := by omega
  have hover : FRAME_OVERHEAD = 3 := rfl
  unfold transact
  dsimp only
  rw [hover, split_windows_small _ _ _ (by omega), hneeded]

theorem transact_exchange (cmd : UInt8) (payload : List UInt8) (cap : Nat)
    (hmax : payload.length ≤ payloadMax) (self : Session τ)
    (h : payload.length + cap + 6 ≤ self.buf.length) :
    ∃ rx, rx.length = cap + 3 ∧
      match exchange T self.transport (wire cmd payload) rx (cmd ||| RSP_FLAG) with
      | (.error e, (t, rx)) =>
        transact T cmd payload cap self = (.error e, self.after t (wire cmd payload) rx)
      | (.ok rlen, (t, rx)) => ∀ rest, rlen ≤ rx.length →
        decode_padded (rx.take rlen) = .ok ⟨cmd ||| RSP_FLAG, ST_OK :: rest⟩ →
        transact T cmd payload cap self = (.ok rest, self.after t (wire cmd payload) rx) := by
  have hover : FRAME_OVERHEAD = 3 := rfl
  obtain ⟨tx, rx, hsplit, htx, hrx⟩ := split_windows_ok (ε := ε) self.buf
    (payload.length + 3) (cap + 3) (by omega)
  have hdrop : tx.drop (payload.length + 3) = [] := List.drop_of_length_le (by omega)
  have hencode := encode_ok cmd payload tx hmax (by omega)
  rw [hdrop, List.append_nil] at hencode
  refine ⟨rx, hrx, ?_⟩
  unfold transact
  dsimp only
  rw [hover, hsplit]
  dsimp only
  rw [hencode]
  dsimp only
  rcases exchange T self.transport (wire cmd payload) rx (cmd ||| RSP_FLAG) with ⟨e | rlen, t, rx'⟩
  · rfl
  · intro rest hrlen hdecode
    dsimp only
    rw [if_neg (by omega), hdecode]

structure Session.At (room : Nat) (calls : List (UInt16 × UInt16)) (prop : τ → Prop)
    (s : Session τ) : Prop where
  transport : prop s.transport
  room : s.buf.length = room
  calls : s.progress = calls

variable {inv : Nat → τ → Prop} {post : List UInt8 → τ → Prop} {err : τ → Prop}

theorem transact_rule (cmd : UInt8) (payload : List UInt8) (cap room : Nat)
    (calls : List (UInt16 × UInt16)) (hmax : payload.length ≤ payloadMax)
    (hzero : ∀ t, inv 0 t → err t)
    (hsmall : room < payload.length + 3 + (cap + 3) → ∀ t, inv (1 + RETRY_BUDGET) t → err t)
    (hserves : Serves T (wire cmd payload) (cap + 3) (cmd ||| RSP_FLAG) inv post err) :
    Spec (transact T cmd payload cap) (Session.At room calls (inv (1 + RETRY_BUDGET)))
      (fun rest => Session.At room calls (post rest)) (fun self => err self.transport) := by
  intro self hself
  have hroom := hself.room
  rcases Nat.lt_or_ge self.buf.length (payload.length + cap + 6) with hlt | hbig
  · rw [transact_small T cmd payload cap self hlt]
    exact hsmall (by omega) _ hself.transport
  · obtain ⟨rx, hrx, heq⟩ := transact_exchange T cmd payload cap hmax self hbig
    have hrun := exchange_rule T _ (cap + 3) _ inv post err hzero hserves self.transport rx
      hself.transport hrx
    rcases hexchange : exchange T self.transport (wire cmd payload) rx (cmd ||| RSP_FLAG) with
      ⟨e | rlen, t, rx'⟩
    · rw [hexchange] at hrun heq
      rw [heq]
      exact hrun.2
    · rw [hexchange] at hrun heq
      obtain ⟨hrlen, hrx', rest, hdecode, hpost⟩ := hrun
      rw [heq rest hrlen hdecode]
      refine ⟨hpost, ?_, hself.calls⟩
      rw [Session.after_length, hroom]
      rw [length_wire]
      omega

def writePayload (img : Image) (index : UInt16) : List UInt8 :=
  leBytes 2 index.toNat ++ img.page index.toNat

theorem length_writePayload (img : Image) (index : UInt16) (hindex : index < img.app_pages) :
    (writePayload img index).length = img.page_size.toNat + 2 := by
  rw [writePayload, List.length_append, length_leBytes,
    img.length_page _ (UInt16.lt_iff_toNat_lt.mp hindex), Nat.add_comm]

theorem write_page_frame (img : Image) (index : UInt16) (hindex : index < img.app_pages)
    (tail : List UInt8) (htail : tail.length = 1) :
    let body := [CMD_WRITE_PAGE, UInt8.ofNat (img.page_size.toNat + 2)] ++ leBytes 2 index.toNat ++
      img.page index.toNat ++ tail
    body.set (img.page_size.toNat + 4) (crc8 (body.take (img.page_size.toNat + 4))) =
      wire CMD_WRITE_PAGE (writePayload img index) := by
  have hpage := img.length_page _ (UInt16.lt_iff_toNat_lt.mp hindex)
  have hpayload := length_writePayload img index hindex
  obtain ⟨old, rfl⟩ : ∃ old, tail = [old] := List.length_eq_one_iff.mp htail
  have hcrc : ∀ bytes, crc8 bytes = checksum bytes := by
    intro bytes
    unfold crc8 checksum
    rw [crc8_step_eq]
  intro body
  have hbody : body = (CMD_WRITE_PAGE :: UInt8.ofNat (writePayload img index).length ::
      writePayload img index) ++ [old] := by
    unfold body writePayload
    simp [hpage, Nat.add_comm]
  have hfront : (CMD_WRITE_PAGE :: UInt8.ofNat (writePayload img index).length ::
      writePayload img index).length = img.page_size.toNat + 4 := by
    simp only [List.length_cons, hpayload]
  rw [hbody, ← hfront, List.take_left, List.set_append_right _ _ (Nat.le_refl _), Nat.sub_self,
    hcrc]
  rfl

theorem write_page_small (img : Image) (index : UInt16) (self : Session τ)
    (h : self.buf.length < img.page_size.toNat + 9) :
    write_page T img index self = (.error (.BufferTooSmall (img.page_size.toNat + 9)), self) := by
  have hneeded : img.page_size.toNat + 2 + 3 + (1 + 3) = img.page_size.toNat + 9 := by omega
  have hover : FRAME_OVERHEAD = 3 := rfl
  have hst : ST_RSP_PAYLOAD = 1 := rfl
  unfold write_page
  dsimp only
  rw [hover, hst, split_windows_small _ _ _ (by omega), hneeded]

theorem write_page_exchange (img : Image) (index : UInt16) (hindex : index < img.app_pages)
    (self : Session τ) (h : img.page_size.toNat + 9 ≤ self.buf.length) :
    let tx := wire CMD_WRITE_PAGE (writePayload img index)
    ∃ rx, rx.length = 4 ∧
      match exchange T self.transport tx rx (CMD_WRITE_PAGE ||| RSP_FLAG) with
      | (.error e, (t, rx)) => write_page T img index self = (.error e, self.after t tx rx)
      | (.ok _, (t, rx)) => write_page T img index self = (.ok (), self.after t tx rx) := by
  have hover : FRAME_OVERHEAD = 3 := rfl
  have hst : ST_RSP_PAYLOAD = 1 := rfl
  have hmax : img.page_size.toNat ≤ 250 := img.page_fits
  obtain ⟨tx, rx, hsplit, htx, hrx⟩ := split_windows_ok (ε := ε) self.buf
    (img.page_size.toNat + 2 + 3) (1 + 3) (by omega)
  have hwindow : ((tx.drop 4).take img.page_size.toNat).length = img.page_size.toNat := by
    simp only [List.length_take, List.length_drop]
    omega
  have htail : (tx.drop (4 + img.page_size.toNat)).length = 1 := by
    rw [List.length_drop]
    omega
  have hpage := img.page_into_page index ((tx.drop 4).take img.page_size.toNat) hindex hwindow
  have hframe := write_page_frame img index hindex _ htail
  refine ⟨rx, hrx, ?_⟩
  unfold write_page
  dsimp only at hframe ⊢
  rw [hover, hst, hsplit]
  dsimp only
  rw [if_neg (by omega), hpage]
  dsimp only
  rw [Nat.add_sub_assoc (by omega), Nat.add_assoc, hframe]
  rcases exchange T self.transport (wire CMD_WRITE_PAGE (writePayload img index)) rx
    (CMD_WRITE_PAGE ||| RSP_FLAG) with ⟨e | rlen, t, rx'⟩
  · rfl
  · rfl

theorem write_page_rule (img : Image) (index : UInt16) (room : Nat)
    (calls : List (UInt16 × UInt16)) (hindex : index < img.app_pages)
    (hzero : ∀ t, inv 0 t → err t)
    (hsmall : room < img.page_size.toNat + 9 → ∀ t, inv (1 + RETRY_BUDGET) t → err t)
    (hserves : Serves T (wire CMD_WRITE_PAGE (writePayload img index)) 4
      (CMD_WRITE_PAGE ||| RSP_FLAG) inv post err) :
    Spec (write_page T img index) (Session.At room calls (inv (1 + RETRY_BUDGET)))
      (fun _ => Session.At room calls (fun t => ∃ rest, post rest t)) (fun self => err self.transport) := by
  intro self hself
  have hroom := hself.room
  rcases Nat.lt_or_ge self.buf.length (img.page_size.toNat + 9) with hlt | hbig
  · rw [write_page_small T img index self hlt]
    exact hsmall (by omega) _ hself.transport
  · obtain ⟨rx, hrx, heq⟩ := write_page_exchange T img index hindex self hbig
    have hrun := exchange_rule T _ 4 _ inv post err hzero hserves self.transport rx
      hself.transport hrx
    rcases hexchange : exchange T self.transport (wire CMD_WRITE_PAGE (writePayload img index)) rx
      (CMD_WRITE_PAGE ||| RSP_FLAG) with ⟨e | rlen, t, rx'⟩
    · rw [hexchange] at hrun heq
      rw [heq]
      exact hrun.2
    · rw [hexchange] at hrun heq
      obtain ⟨hrlen, hrx', rest, hdecode, hpost⟩ := hrun
      rw [heq]
      refine ⟨⟨rest, hpost⟩, ?_, hself.calls⟩
      rw [Session.after_length, hroom]
      rw [length_wire, length_writePayload img index hindex]
      omega

/-! ## The update -/

def verifyPayload (img : Image) : List UInt8 :=
  leBytes 4 img.len.toNat ++ leBytes 4 img.crc.toNat

/-- The calls of `progress` up to `done` pages of `total`. -/
def progressCalls (done total : Nat) : List (UInt16 × UInt16) :=
  (List.range (done + 1)).map (fun i => (UInt16.ofNat i, UInt16.ofNat total))

theorem pages_length_le (img : Image) : img.pages.length ≤ img.app_pages.toNat := by
  rw [img.pages_eq]
  calc _ ≤ ((List.range img.app_pages.toNat).map UInt16.ofNat).length := List.length_filter_le _ _
    _ = img.app_pages.toNat := by rw [List.length_map, List.length_range]

/-- The device is the one the image was made for. -/
def InfoMatches (img : Image) (rest : List UInt8) : Prop :=
  ∃ info, parse_info (ε := ε) rest = .ok info ∧ info.proto = PROTO_VERSION ∧
    info.page_size = img.page_size ∧ info.app_pages = img.app_pages

theorem progressCalls_succ (done total : Nat) :
    progressCalls (done + 1) total =
      progressCalls done total ++ [(UInt16.ofNat (done + 1), UInt16.ofNat total)] := by
  unfold progressCalls
  rw [List.range_succ, List.map_append]
  rfl

theorem saturating_succ (done : Nat) (h : done < 65535) :
    (if UInt16.ofNat done = 0xFFFF then UInt16.ofNat done else UInt16.ofNat done + 1) =
      UInt16.ofNat (done + 1) := by
  have hne : UInt16.ofNat done ≠ 0xFFFF := by
    intro hmax
    have hnat := congrArg UInt16.toNat hmax
    rw [UInt16.toNat_ofNat', Nat.mod_eq_of_lt (by omega)] at hnat
    rw [hnat] at h
    exact Nat.lt_irrefl _ h
  rw [if_neg hne, UInt16.ofNat_add]
  rfl

theorem progress_rule (done total : UInt16) (room : Nat) (calls : List (UInt16 × UInt16))
    (prop : τ → Prop) :
    Spec (progress (τ := τ) (ε := ε) done total) (Session.At room calls prop)
      (fun _ => Session.At room (calls ++ [(done, total)]) prop) (fun s => err s.transport) := by
  rintro s ⟨htransport, hroom, hcalls⟩
  refine ⟨htransport, hroom, ?_⟩
  rw [← hcalls]

/-- The stages of an update are its requests in order: INFO, ERASE_APP, the pages, VERIFY. -/
theorem write_pages_rule (img : Image) (room : Nat) (stage : Nat → Nat → τ → Prop)
    (calls : List (UInt16 × UInt16))
    (hzero : ∀ n t, stage n 0 t → err t)
    (hsmall : room < img.page_size.toNat + 20 → ∀ n t, stage n (1 + RETRY_BUDGET) t → err t)
    (hwrite : ∀ i (hi : i < img.pages.length),
      Serves T (wire CMD_WRITE_PAGE (writePayload img img.pages[i])) 4 (CMD_WRITE_PAGE ||| RSP_FLAG)
        (stage (2 + i)) (fun _ => stage (3 + i) (1 + RETRY_BUDGET)) err)
    (rest : List UInt16) (done : Nat) (hrest : img.pages.drop done = rest)
    (hdone : done ≤ img.pages.length) :
    Spec (write_pages T img (UInt16.ofNat img.pages.length) rest (UInt16.ofNat done))
      (Session.At room (calls ++ progressCalls done img.pages.length) (stage (2 + done) (1 + RETRY_BUDGET)))
      (fun _ => Session.At room (calls ++ progressCalls img.pages.length img.pages.length)
        (stage (2 + img.pages.length) (1 + RETRY_BUDGET)))
      (fun s => err s.transport) := by
  induction rest generalizing done with
  | nil =>
    have hend : done = img.pages.length := by
      rw [List.drop_eq_nil_iff] at hrest
      omega
    subst hend
    exact Spec.pure _ (fun s hs => hs)
  | cons index rest ih =>
    have hlt : done < img.pages.length := by
      rcases Nat.lt_or_ge done img.pages.length with h | h
      · exact h
      · rw [List.drop_of_length_le h] at hrest
        cases hrest
    have hcount := pages_length_le img
    have hpages := img.app_pages.toNat_lt
    rw [List.drop_eq_getElem_cons hlt, List.cons.injEq] at hrest
    obtain ⟨hindex, hrest⟩ := hrest
    have hrange : index < img.app_pages :=
      ((img.mem_pages_iff index).mp (hindex ▸ List.getElem_mem hlt)).1
    have hnext := saturating_succ done (by omega)
    have hpage := write_page_rule T img index room (calls ++ progressCalls done img.pages.length)
      hrange (hzero (2 + done)) (fun h => hsmall (by omega) (2 + done)) (hindex ▸ hwrite done hlt)
    have hrec := ih (done + 1) hrest hlt
    rw [progressCalls_succ, ← List.append_assoc, ← Nat.add_assoc, Nat.add_right_comm] at hrec
    unfold write_pages
    apply Spec.bind hpage
    intro _
    rw [hnext]
    apply Spec.bind (progress_rule _ _ _ _ _)
    intro _
    refine hrec.weaken ?_ (fun _ _ h => h) (fun _ h => h)
    rintro s ⟨⟨_, hstage⟩, hroom, hcalls⟩
    exact ⟨hstage, hroom, hcalls⟩

theorem info_rule (img : Image) (room : Nat) (calls : List (UInt16 × UInt16)) (matched : τ → Prop)
    (hzero : ∀ t, inv 0 t → err t) (hsmall : room < 18 → ∀ t, inv (1 + RETRY_BUDGET) t → err t)
    (hinfo : Serves T (wire CMD_INFO []) 15 (CMD_INFO ||| RSP_FLAG) inv
      (fun rest t => (InfoMatches (ε := ε) img rest → matched t) ∧
        (¬ InfoMatches (ε := ε) img rest → err t)) err) :
    Spec (info T) (Session.At room calls (inv (1 + RETRY_BUDGET)))
      (fun info s => if info.proto = PROTO_VERSION ∧ info.page_size = img.page_size ∧
          info.app_pages = img.app_pages then Session.At room calls matched s else err s.transport)
      (fun s => err s.transport) := by
  have hrequest := transact_rule T CMD_INFO [] INFO_RSP_PAYLOAD room calls (Nat.zero_le _) hzero
    (fun h => hsmall (by simp only [List.length_nil, INFO_RSP_PAYLOAD] at h; omega)) hinfo
  unfold info
  apply Spec.bind hrequest
  intro rest
  rcases hparse : parse_info (ε := ε) rest with e | info
  · have hnone : ¬ InfoMatches (ε := ε) img rest := by
      rintro ⟨info, hok, -⟩
      rw [hparse] at hok
      cases hok
    exact Spec.throw e (fun s hs => hs.transport.2 hnone)
  · refine Spec.pure info (fun s hs => ?_)
    split
    · rename_i hmatch
      exact ⟨hs.transport.1 ⟨info, hparse, hmatch⟩, hs.room, hs.calls⟩
    · rename_i hmismatch
      refine hs.transport.2 ?_
      rintro ⟨info', hok, hmatch⟩
      rw [hparse, Except.ok.injEq] at hok
      subst hok
      exact hmismatch hmatch

theorem flash_rule (img : Image) (room : Nat) (stage : Nat → Nat → τ → Prop)
    (calls : List (UInt16 × UInt16)) (hzero : ∀ n t, stage n 0 t → err t)
    (hsmall : room < img.page_size.toNat + 20 → ∀ n t, stage n (1 + RETRY_BUDGET) t → err t)
    (hinfo : Serves T (wire CMD_INFO []) 15 (CMD_INFO ||| RSP_FLAG) (stage 0)
      (fun rest t => (InfoMatches (ε := ε) img rest → stage 1 (1 + RETRY_BUDGET) t) ∧
        (¬ InfoMatches (ε := ε) img rest → err t)) err)
    (herase : Serves T (wire CMD_ERASE_APP ERASE_MAGIC) 4 (CMD_ERASE_APP ||| RSP_FLAG) (stage 1)
      (fun _ => stage 2 (1 + RETRY_BUDGET)) err)
    (hwrite : ∀ i (hi : i < img.pages.length),
      Serves T (wire CMD_WRITE_PAGE (writePayload img img.pages[i])) 4 (CMD_WRITE_PAGE ||| RSP_FLAG)
        (stage (2 + i)) (fun _ => stage (3 + i) (1 + RETRY_BUDGET)) err)
    (hverify : Serves T (wire CMD_VERIFY (verifyPayload img)) 4 (CMD_VERIFY ||| RSP_FLAG)
      (stage (2 + img.pages.length)) (fun _ => stage (3 + img.pages.length) (1 + RETRY_BUDGET)) err) :
    Spec (flash T img) (Session.At room calls (stage 0 (1 + RETRY_BUDGET)))
      (fun _ => Session.At room (calls ++ progressCalls img.pages.length img.pages.length)
        (stage (3 + img.pages.length) (1 + RETRY_BUDGET)))
      (fun s => err s.transport) := by
  have hlow : 16 ≤ img.page_size.toNat := img.footer_fits
  have hcount := pages_length_le img
  have hpages := img.app_pages.toNat_lt
  have htotal : (if img.pages.length ≤ 0xFFFF then UInt16.ofNat img.pages.length else 0xFFFF) =
      UInt16.ofNat img.pages.length := if_pos (by omega)
  have hidentify := info_rule T img room calls (stage 1 (1 + RETRY_BUDGET)) (hzero 0)
    (fun h => hsmall (by omega) 0) hinfo
  have herased := transact_rule T CMD_ERASE_APP ERASE_MAGIC ST_RSP_PAYLOAD room calls (by decide)
    (hzero 1) (fun h => hsmall (by simp only [ERASE_MAGIC, ST_RSP_PAYLOAD, List.length_cons, List.length_nil] at h; omega) 1)
    herase
  have hwritten := write_pages_rule T img room stage calls hzero hsmall hwrite img.pages 0 rfl
    (Nat.zero_le _)
  have hverified := transact_rule T CMD_VERIFY (verifyPayload img) ST_RSP_PAYLOAD room
    (calls ++ progressCalls img.pages.length img.pages.length) (by simp [verifyPayload, payloadMax])
    (hzero _) (fun h => hsmall (by
      simp only [verifyPayload, ST_RSP_PAYLOAD, List.length_append, length_leBytes] at h; omega) _)
    hverify
  unfold flash
  apply Spec.bind hidentify
  intro info
  by_cases hmatch : info.proto = PROTO_VERSION ∧ info.page_size = img.page_size ∧
      info.app_pages = img.app_pages
  · obtain ⟨hproto, hps, hap⟩ := hmatch
    simp only [hproto, hps, hap, and_self, if_true, ne_eq, not_true, or_self, if_false, htotal]
    apply Spec.bind herased
    intro _
    apply Spec.bind (progress_rule _ _ _ _ _)
    intro _
    apply Spec.bind (hwritten.weaken (fun s hs => hs) (fun _ _ h => h) (fun _ h => h))
    intro _
    exact Spec.bind hverified (fun _ => Spec.pure _ (fun s hs => hs))
  · simp only [hmatch, if_false]
    by_cases hproto : info.proto = PROTO_VERSION
    · have hgeometry : info.page_size ≠ img.page_size ∨ info.app_pages ≠ img.app_pages := by
        by_contra hsame
        rw [not_or, not_ne_iff, not_ne_iff] at hsame
        exact hmatch ⟨hproto, hsame⟩
      rw [if_neg (not_ne_iff.mpr hproto), if_pos hgeometry]
      exact Spec.throw _ (fun s hs => hs)
    · rw [if_pos hproto]
      exact Spec.throw _ (fun s hs => hs)

end Rules

end OtaUpdater.Host
