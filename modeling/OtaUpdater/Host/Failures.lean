import OtaUpdater.Host.SessionRules

/-!
# Failures that are the host's own

`flash` checks what the device says of itself before it erases. What it needs of its
buffer it finds out one exchange at a time.
-/

open OtaUpdater.Lib.Bytes OtaUpdater.Lib.Retry OtaUpdater.Lib.State OtaUpdater.Wire

namespace OtaUpdater.Host

/-- An error that does not come from the device or the wire. -/
def Error.Local {ε : Type} : Error ε → Prop
  | .ProtocolVersion _ | .BadGeometry _ _ | .BufferTooSmall _ | .PayloadTooLarge _
  | .PageOutOfRange _ => True
  | .Transport _ | .BadFrame | .Device _ | .ImageTooLarge _ _ => False

section Logged

variable {τ ε : Type} (T : Transport τ ε)

/-- `T`, with a record of the requests it was passed. -/
def Transport.logged : Transport (τ × List (List UInt8)) ε where
  request s req rsp :=
    let r := T.request s.1 req rsp
    (r.1, (r.2, s.2 ++ [req]))
  length_rsp s req rsp := T.length_rsp s.1 req rsp

/-- The request was passed on top of `log`, once or a few times. -/
def Passed (log : List (List UInt8)) (tx : List UInt8) (log' : List (List UInt8)) : Prop :=
  ∃ n, log' = log ++ List.replicate (n + 1) tx

/-! ## One exchange -/

theorem exchange_attempt_not_local (tx : List UInt8) (expect_cmd : UInt8) (s : τ × List UInt8) :
    (exchange_attempt T tx expect_cmd s).1.Fails (fun e => ¬ e.Local) := by
  unfold exchange_attempt
  generalize T.request s.1 tx s.2 = r
  obtain ⟨⟨e | n, rx⟩, t⟩ := r
  · exact not_false
  · dsimp only
    rcases validate (rx.take (min n rx.length)) expect_cmd with (_ | _ | st) | _
    · exact not_false
    · exact not_false
    · exact not_false
    · trivial

theorem exchange_logged (t : τ × List (List UInt8)) (tx rx : List UInt8) (expect_cmd : UInt8) :
    let r := exchange T.logged t tx rx expect_cmd
    r.2.2.length = rx.length ∧ Passed t.2 tx r.2.1.2 ∧ ∀ e, r.1 = .error e → ¬ e.Local := by
  obtain ⟨t, log⟩ := t
  intro r
  have hlog := retry_rule (exchange_attempt T.logged tx expect_cmd)
    (fun k s => k ≤ 1 + RETRY_BUDGET ∧ s.2.length = rx.length ∧
      s.1.2 = log ++ List.replicate (1 + RETRY_BUDGET - k) tx)
    (fun _ s => s.2.length = rx.length ∧ Passed log tx s.1.2)
    (fun s => s.2.length = rx.length ∧ Passed log tx s.1.2)
    (fun s h => ⟨h.2.1, RETRY_BUDGET, by rw [h.2.2, Nat.sub_zero, Nat.add_comm]⟩) ?_
    (1 + RETRY_BUDGET) .BadFrame ((t, log), rx) ⟨Nat.le_refl _, rfl, by simp⟩
  · have hlocal := retry_error (exchange_attempt T.logged tx expect_cmd) (fun e => ¬ e.Local)
      (exchange_attempt_not_local T.logged tx expect_cmd) (1 + RETRY_BUDGET) .BadFrame not_false
      ((t, log), rx)
    unfold r exchange
    rcases hretry : retry (exchange_attempt T.logged tx expect_cmd) (1 + RETRY_BUDGET) .BadFrame
      ((t, log), rx) with ⟨e | rlen, s⟩
    · rw [hretry] at hlog hlocal
      exact ⟨hlog.1, hlog.2, hlocal⟩
    · rw [hretry] at hlog hlocal
      exact ⟨hlog.1, hlog.2, hlocal⟩
  · rintro k ⟨⟨t, log'⟩, rx'⟩ ⟨hk, hroom, hlog⟩
    dsimp only at hroom hlog
    have hlength := T.length_rsp t tx rx'
    have hcount : 1 + RETRY_BUDGET - k = 1 + RETRY_BUDGET - (k + 1) + 1 := by omega
    have hnext : log' ++ [tx] = log ++ List.replicate (1 + RETRY_BUDGET - k) tx := by
      rw [hlog, hcount, List.replicate_succ', List.append_assoc]
    have hpassed : Passed log tx (log' ++ [tx]) :=
      ⟨1 + RETRY_BUDGET - (k + 1), by rw [hnext, hcount]⟩
    unfold exchange_attempt Transport.logged
    dsimp only
    generalize T.request t tx rx' = q at hlength ⊢
    obtain ⟨⟨e | n, rx''⟩, t'⟩ := q
    · exact ⟨by omega, hlength.trans hroom, hnext⟩
    · dsimp only at hlength ⊢
      rcases validate (rx''.take (min n rx''.length)) expect_cmd with (_ | _ | st) | _
      · exact ⟨by omega, hlength.trans hroom, hnext⟩
      · exact ⟨by omega, hlength.trans hroom, hnext⟩
      · exact ⟨hlength.trans hroom, hpassed⟩
      · exact ⟨hlength.trans hroom, hpassed⟩

/-! ## Commands -/

/-- A session over a buffer of `room` bytes, with what is known of its record. -/
structure Session.Logged (room : Nat) (prop : List (List UInt8) → Prop)
    (s : Session (τ × List (List UInt8))) : Prop where
  room : s.buf.length = room
  log : prop s.transport.2

/-- What a command that needs `needed` bytes of buffer says of its own failure. -/
def TooSmall (room needed : Nat) (log : List (List UInt8)) (e : Error ε)
    (s : Session (τ × List (List UInt8))) : Prop :=
  e.Local → room < needed ∧ e = .BufferTooSmall needed ∧ s.transport.2 = log

theorem transact_logged (cmd : UInt8) (payload : List UInt8) (cap room : Nat)
    (log : List (List UInt8)) (hmax : payload.length ≤ payloadMax) :
    Triple (transact T.logged cmd payload cap) (Session.Logged room (· = log))
      (fun _ => Session.Logged room
        (fun log' => payload.length + cap + 6 ≤ room ∧ Passed log (wire cmd payload) log'))
      (TooSmall room (payload.length + cap + 6) log) := by
  intro self hself
  have hroom := hself.room
  rcases Nat.lt_or_ge self.buf.length (payload.length + cap + 6) with hsmall | hbig
  · rw [transact_small T.logged cmd payload cap self hsmall]
    intro _
    exact ⟨by omega, rfl, hself.log⟩
  · obtain ⟨rx, hrx, heq⟩ := transact_exchange T.logged cmd payload cap hmax self hbig
    obtain ⟨-, hpassed, hlocal⟩ := exchange_logged T self.transport (wire cmd payload) rx
      (cmd ||| RSP_FLAG)
    have hanswer := exchange_rule T.logged (wire cmd payload) (cap + 3) (cmd ||| RSP_FLAG)
      (fun _ _ => True) (fun _ _ => True) (fun _ => True) (fun _ h => h)
      (fun _ _ _ _ _ => ⟨fun _ _ => trivial, fun _ => trivial, fun _ _ => trivial⟩)
      self.transport rx trivial hrx
    rw [hself.log] at hpassed
    rcases hexchange : exchange T.logged self.transport (wire cmd payload) rx (cmd ||| RSP_FLAG) with
      ⟨e | rlen, t, rx'⟩
    · rw [hexchange] at hlocal heq
      rw [heq]
      intro h
      exact absurd h (hlocal e rfl)
    · rw [hexchange] at hpassed hanswer heq
      obtain ⟨hrlen, hrx', rest, hdecode, -⟩ := hanswer
      rw [heq rest hrlen hdecode]
      refine ⟨?_, by omega, hpassed⟩
      rw [Session.after_length, hroom]
      rw [length_wire]
      omega

theorem write_page_logged (img : Image) (index : UInt16) (room : Nat) (log : List (List UInt8))
    (hindex : index < img.app_pages) :
    Triple (write_page T.logged img index) (Session.Logged room (· = log))
      (fun _ => Session.Logged room (fun _ => img.page_size.toNat + 9 ≤ room))
      (TooSmall room (img.page_size.toNat + 9) log) := by
  intro self hself
  have hroom := hself.room
  rcases Nat.lt_or_ge self.buf.length (img.page_size.toNat + 9) with hsmall | hbig
  · rw [write_page_small T.logged img index self hsmall]
    intro _
    exact ⟨by omega, rfl, hself.log⟩
  · obtain ⟨rx, hrx, heq⟩ := write_page_exchange T.logged img index hindex self hbig
    obtain ⟨hlength, -, hlocal⟩ := exchange_logged T self.transport
      (wire CMD_WRITE_PAGE (writePayload img index)) rx (CMD_WRITE_PAGE ||| RSP_FLAG)
    rcases hexchange : exchange T.logged self.transport (wire CMD_WRITE_PAGE (writePayload img index))
      rx (CMD_WRITE_PAGE ||| RSP_FLAG) with ⟨e | rlen, t, rx'⟩
    · rw [hexchange] at hlocal heq
      rw [heq]
      intro h
      exact absurd h (hlocal e rfl)
    · rw [hexchange] at hlength heq
      have hrx' : rx'.length = 4 := hlength.trans hrx
      rw [heq]
      refine ⟨?_, by omega⟩
      rw [Session.after_length, hroom]
      rw [length_wire, length_writePayload img index hindex]
      omega

/-! ## The update -/

/-- Every request of the record is one of these commands. -/
def Only (cmds : List UInt8) (log : List (List UInt8)) : Prop :=
  ∀ req ∈ log, ∃ cmd ∈ cmds, req.head? = some cmd

/-- Some request of the record is this command. -/
def Asked (cmd : UInt8) (log : List (List UInt8)) : Prop := ∃ req ∈ log, req.head? = some cmd

theorem head_wire (cmd : UInt8) (payload : List UInt8) : (wire cmd payload).head? = some cmd := rfl

theorem only_passed {cmds : List UInt8} {log log' : List (List UInt8)} {cmd : UInt8}
    {payload : List UInt8} (h : Only cmds log) (hpassed : Passed log (wire cmd payload) log') :
    Only (cmd :: cmds) log' ∧ Asked cmd log' := by
  obtain ⟨n, rfl⟩ := hpassed
  constructor
  · intro req hreq
    rcases List.mem_append.mp hreq with hold | hnew
    · obtain ⟨c, hc, hhead⟩ := h req hold
      exact ⟨c, List.mem_cons_of_mem _ hc, hhead⟩
    · rw [List.eq_of_mem_replicate hnew]
      exact ⟨cmd, List.mem_cons_self, head_wire cmd payload⟩
  · refine ⟨wire cmd payload, ?_, head_wire cmd payload⟩
    apply List.mem_append_right
    exact List.mem_replicate.mpr ⟨Nat.succ_ne_zero n, rfl⟩

theorem not_asked {cmds : List UInt8} {log : List (List UInt8)} {cmd : UInt8} (h : Only cmds log)
    (hcmd : cmd ∉ cmds) : ¬ Asked cmd log := by
  rintro ⟨req, hreq, hhead⟩
  obtain ⟨c, hc, hhead'⟩ := h req hreq
  rw [hhead, Option.some.injEq] at hhead'
  subst hhead'
  exact hcmd hc

/-- What was passed when `flash` gives up on its own: nothing that changes the device, unless
the buffer takes ERASE_APP and does not take a page. -/
def LocalFailure (room page_size : Nat) (log : List (List UInt8)) : Error ε → Prop
  | .ProtocolVersion _ | .BadGeometry _ _ => ¬ Asked CMD_ERASE_APP log ∧ ¬ Asked CMD_WRITE_PAGE log
  | .BufferTooSmall _ =>
    ¬ Asked CMD_WRITE_PAGE log ∧
      (Asked CMD_ERASE_APP log ↔ INFO_RSP_PAYLOAD + 6 ≤ room) ∧ room < page_size + 9
  | .PayloadTooLarge _ | .PageOutOfRange _ => False
  | .Transport _ | .BadFrame | .Device _ | .ImageTooLarge _ _ => True

theorem write_pages_logged (img : Image) (room : Nat) (log : List (List UInt8)) (total : UInt16)
    (rest : List UInt16) (hrest : ∀ i ∈ rest, i < img.app_pages) (done : UInt16) :
    Triple (write_pages T.logged img total rest done)
      (Session.Logged room (fun log' => log' = log ∨ img.page_size.toNat + 9 ≤ room))
      (fun _ => Session.Logged room (fun _ => True))
      (TooSmall room (img.page_size.toNat + 9) log) := by
  induction rest generalizing done with
  | nil => exact Triple.pure _ (fun s hs => ⟨hs.room, trivial⟩)
  | cons index rest ih =>
    have hnext := ih (fun i hi => hrest i (List.mem_cons_of_mem _ hi))
    unfold write_pages
    have hpage : Triple (write_page T.logged img index)
        (Session.Logged room (fun log' => log' = log ∨ img.page_size.toNat + 9 ≤ room))
        (fun _ => Session.Logged room (fun _ => img.page_size.toNat + 9 ≤ room))
        (TooSmall room (img.page_size.toNat + 9) log) := by
      intro s hs
      have hrun := write_page_logged T img index room s.transport.2 (hrest index List.mem_cons_self)
        s ⟨hs.room, rfl⟩
      rcases hpage : write_page T.logged img index s with ⟨e | _, s'⟩
      · rw [hpage] at hrun
        intro hlocal
        obtain ⟨hsmall, he, hlog⟩ := hrun hlocal
        refine ⟨hsmall, he, ?_⟩
        rcases hs.log with hsame | hbig
        · rw [hlog, hsame]
        · omega
      · rw [hpage] at hrun
        exact hrun
    apply hpage.bind
    intro _ s hs
    have hlater := hnext (if done = 0xFFFF then done else done + 1)
    exact hlater _ ⟨hs.room, Or.inr hs.log⟩

theorem LocalFailure.of_local {room page_size : Nat} {log : List (List UInt8)} {e : Error ε}
    (h : e.Local → LocalFailure room page_size log e) : LocalFailure room page_size log e := by
  rcases e with _ | _ | _ | _ | _ | _ | _ | _ | _
  · trivial
  · trivial
  · trivial
  · exact h trivial
  · exact h trivial
  · trivial
  · exact h trivial
  · exact h trivial
  · exact h trivial

theorem LocalFailure.of_tooSmall {room page_size needed : Nat} {log : List (List UInt8)}
    {e : Error ε} {s : Session (τ × List (List UInt8))} (h : TooSmall room needed log e s)
    (hfits : needed ≤ page_size + 9) (hwrite : ¬ Asked CMD_WRITE_PAGE log)
    (herase : room < needed → (Asked CMD_ERASE_APP log ↔ INFO_RSP_PAYLOAD + 6 ≤ room)) :
    LocalFailure room page_size s.transport.2 e := by
  apply LocalFailure.of_local
  intro hlocal
  obtain ⟨hsmall, rfl, hlog⟩ := h hlocal
  rw [hlog]
  exact ⟨hwrite, herase hsmall, by omega⟩

theorem info_logged (img : Image) (room : Nat) :
    Triple (info T.logged) (Session.Logged room (· = []))
      (fun _ => Session.Logged room (fun log => INFO_RSP_PAYLOAD + 6 ≤ room ∧ Only [CMD_INFO] log))
      (fun e s => LocalFailure room img.page_size.toNat s.transport.2 e) := by
  have hlow : 16 ≤ img.page_size.toNat := img.footer_fits
  have hroom : ([] : List UInt8).length + INFO_RSP_PAYLOAD + 6 = INFO_RSP_PAYLOAD + 6 := rfl
  have hcap : INFO_RSP_PAYLOAD = 12 := rfl
  have hnone : ∀ cmd, ¬ Asked cmd [] := by
    rintro cmd ⟨req, hreq, -⟩
    cases hreq
  have hrequest := transact_logged T CMD_INFO [] INFO_RSP_PAYLOAD room [] (Nat.zero_le _)
  rw [hroom] at hrequest
  have hchecked := hrequest.weaken (fun _ h => h) (fun _ _ h => h)
    (fun e s h => LocalFailure.of_tooSmall h (by omega : _ ≤ img.page_size.toNat + 9) (hnone _)
      (fun hsmall => iff_of_false (hnone _) (by omega)))
  unfold info
  apply hchecked.bind
  intro rest
  rcases hparse : parse_info (ε := ε) rest with e | info
  · refine Triple.throw e (fun s hs => ?_)
    have he : e = .BadFrame := by
      unfold parse_info at hparse
      split at hparse
      · cases hparse
      · exact (Except.error.inj hparse).symm
    rw [he]
    trivial
  · refine Triple.pure info (fun s hs => ⟨hs.room, hs.log.1, ?_⟩)
    exact (only_passed (fun _ h => absurd h List.not_mem_nil) hs.log.2).1

theorem pages_and_verify_logged (img : Image) (room : Nat) (log : List (List UInt8)) (total : UInt16)
    (hroom : INFO_RSP_PAYLOAD + 6 ≤ room) (herase : Asked CMD_ERASE_APP log)
    (hwrite : ¬ Asked CMD_WRITE_PAGE log) :
    Triple (do
        progress 0 total
        write_pages T.logged img total img.pages 0
        let _ ← transact T.logged CMD_VERIFY (verifyPayload img) ST_RSP_PAYLOAD
        return ())
      (Session.Logged room (· = log)) (fun _ _ => True)
      (fun e s => LocalFailure room img.page_size.toNat s.transport.2 e) := by
  have hcap : INFO_RSP_PAYLOAD = 12 := rfl
  have hneeded : (verifyPayload img).length + ST_RSP_PAYLOAD + 6 = 15 := by
    simp [verifyPayload, ST_RSP_PAYLOAD]
  have hstart : Triple (progress 0 total) (Session.Logged room (· = log))
      (fun _ => Session.Logged (τ := τ) room (fun log' => log' = log ∨ img.page_size.toNat + 9 ≤ room))
      (fun (e : Error ε) s => LocalFailure room img.page_size.toNat s.transport.2 e) :=
    fun s hs => ⟨hs.room, Or.inl hs.log⟩
  have hpages := (write_pages_logged T img room log total img.pages
    (fun i hi => ((img.mem_pages_iff i).mp hi).1) 0).weaken (fun _ h => h) (fun _ _ h => h)
    (fun e s h => LocalFailure.of_tooSmall h (Nat.le_refl _) hwrite
      (fun _ => iff_of_true herase hroom))
  apply hstart.bind
  intro _
  apply hpages.bind
  intro _ s hs
  have hverify := transact_logged T CMD_VERIFY (verifyPayload img) ST_RSP_PAYLOAD room s.transport.2
    (by simp [verifyPayload, payloadMax])
  rw [hneeded] at hverify
  have hverified : Triple (transact T.logged CMD_VERIFY (verifyPayload img) ST_RSP_PAYLOAD)
      (Session.Logged room (· = s.transport.2)) (fun _ _ => True)
      (fun e s => LocalFailure room img.page_size.toNat s.transport.2 e) :=
    hverify.weaken (fun _ h => h) (fun _ _ _ => trivial)
      (fun e s h => LocalFailure.of_local (fun hlocal => absurd (h hlocal).1 (by omega)))
  exact hverified.bind (fun _ => Triple.pure () (fun _ _ => trivial)) s ⟨hs.room, rfl⟩

/-- Whenever `flash` gives up on its own, the device is as it was, except when the buffer is too
small for a page and not for what comes before: then the erase went out. No page ever did. -/
theorem flash_local_failure (img : Image) (t : τ) (buf : List UInt8) (calls : List (UInt16 × UInt16)) :
    match flash T.logged img { transport := (t, []), buf, progress := calls } with
    | (.ok (), _) => True
    | (.error e, self) => LocalFailure buf.length img.page_size.toNat self.transport.2 e := by
  have hlow : 16 ≤ img.page_size.toNat := img.footer_fits
  have hcap : INFO_RSP_PAYLOAD = 12 := rfl
  have hneeded : ERASE_MAGIC.length + ST_RSP_PAYLOAD + 6 = 11 := rfl
  have hflash : Triple (flash T.logged img) (Session.Logged buf.length (· = [])) (fun _ _ => True)
      (fun e s => LocalFailure buf.length img.page_size.toNat s.transport.2 e) := by
    unfold flash
    apply (info_logged T img buf.length).bind
    intro info
    split
    · refine Triple.throw _ (fun s hs => ⟨?_, ?_⟩)
      · exact not_asked hs.log.2 (by decide)
      · exact not_asked hs.log.2 (by decide)
    split
    · refine Triple.throw _ (fun s hs => ⟨?_, ?_⟩)
      · exact not_asked hs.log.2 (by decide)
      · exact not_asked hs.log.2 (by decide)
    intro s hs
    obtain ⟨hbig, honly⟩ := hs.log
    have herase := transact_logged T CMD_ERASE_APP ERASE_MAGIC ST_RSP_PAYLOAD buf.length s.transport.2
      (by decide)
    rw [hneeded] at herase
    have herased := herase.weaken (fun _ h => h) (fun _ _ h => h)
      (fun e s h => LocalFailure.of_tooSmall h (by omega : _ ≤ img.page_size.toNat + 9)
        (not_asked honly (by decide)) (fun hsmall => absurd hbig (by omega)))
    refine herased.bind (fun _ => ?_) s ⟨hs.room, rfl⟩
    intro s' hs'
    obtain ⟨honly', hasked⟩ := only_passed honly hs'.log.2
    exact pages_and_verify_logged T img buf.length s'.transport.2 _ hbig hasked
      (not_asked honly' (by decide)) s' ⟨hs'.room, rfl⟩
  have hrun := hflash { transport := (t, []), buf, progress := calls } ⟨rfl, rfl⟩
  rcases hresult : flash T.logged img { transport := (t, []), buf, progress := calls } with ⟨e | _, s⟩
  · rw [hresult] at hrun
    exact hrun
  · trivial

end Logged

/-- A transport to a device of one 16-byte page that grants everything. -/
def obliging : Transport Unit Empty where
  request _ req rsp :=
    let cmd := req.headD 0
    let answer := if cmd = CMD_INFO then [ST_OK, PROTO_VERSION, 0, 0, 0, 0, 0, 16, 0, 1, 0, 0] else [ST_OK]
    let frame := wire (cmd ||| RSP_FLAG) answer
    ((.ok (min frame.length rsp.length), (frame ++ rsp).take rsp.length), ())
  length_rsp _ req rsp := by
    rw [List.length_take, List.length_append]
    omega

/-- Eighteen bytes do for INFO and ERASE_APP, and not for a page. -/
theorem flash_erases_before_it_knows :
    ∃ img, Image.from_bin [] 16 1 = .ok img ∧
      let run := flash obliging.logged img { transport := ((), []), buf := List.replicate 18 0, progress := [] }
      run.1 = .error (.BufferTooSmall 25) ∧
      run.2.transport.2 = [wire CMD_INFO [], wire CMD_ERASE_APP ERASE_MAGIC] := by
  refine ⟨_, rfl, ?_⟩
  unfold flash
  rw [Image.pages_eq]
  decide +kernel

end OtaUpdater.Host
