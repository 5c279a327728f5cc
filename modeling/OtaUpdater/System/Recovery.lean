import OtaUpdater.System.Stages

/-!
# Recovery within the budget

From any state of the device, an update over a link that is calm comes to its end,
with no request lost, skipped or out of order.
-/

open OtaUpdater.Lib.Bytes OtaUpdater.Lib.State OtaUpdater.Wire OtaUpdater.Device OtaUpdater.Host
open OtaUpdater.Agreement

namespace OtaUpdater.System

/-! ## What a ready device grants -/

theorem frame_eq {a b : UpdFrame} (hcmd : a.cmd = b.cmd) (hpayload : a.payload = b.payload) : a = b := by
  have hlen : a.len = b.len := by
    rw [← UInt8.toNat_inj, ← a.payload_length, ← b.payload_length, hpayload]
  obtain ⟨cmd, len, payload, hlength⟩ := a
  obtain ⟨cmd', len', payload', hlength'⟩ := b
  simp only at hcmd hpayload hlen
  subst hcmd hpayload hlen
  rfl

theorem half_bytes (x : UInt16) :
    UInt16.ofNat (ofLe [(x &&& 0xFF).toUInt8, ((x >>> 8) &&& 0xFF).toUInt8]) = x := by
  have hlt := x.toNat_lt
  have hmask : ∀ y : UInt16, ((y &&& 0xFF).toUInt8).toNat = y.toNat % 256 := by
    intro y
    have hff : (0xFF : UInt16).toNat = 2 ^ 8 - 1 := rfl
    rw [UInt16.toNat_toUInt8, UInt16.toNat_and, hff, Nat.and_two_pow_sub_one_eq_mod]
    omega
  have hshift : (x >>> 8).toNat = x.toNat / 256 := by
    have h8 : (8 : UInt16).toNat % 16 = 8 := rfl
    rw [UInt16.toNat_shiftRight, h8, Nat.shiftRight_eq_div_pow]
  rw [← UInt16.toNat_inj, UInt16.toNat_ofNat', Nat.mod_eq_of_lt]
  · simp only [ofLe, hmask, hshift]
    omega
  · simp only [ofLe, hmask, hshift]
    omega

section Ready

variable {img : Image} {info : PortInfo} (hps : info.page_size = img.page_size)
  (hap : info.app_pages = img.app_pages)

theorem info_granted (d : Dev) :
    ∃ rest, Grants CMD_INFO [] rest d ∧ rest.length = 11 := by
  obtain ⟨req, hreq, hcmd, -⟩ := parseFrame_wire CMD_INFO [] (Nat.zero_le _)
  have hanswer := upd_handle_info store d.s d.f rspCap hcmd (by decide)
  have hgrants : ∀ rest, Grants CMD_INFO [] rest d ↔ _ = UPD_ST_OK :: rest :=
    fun rest => grants_iff d rest hreq hcmd
  rw [hanswer] at hgrants
  exact ⟨_, (hgrants _).mpr rfl, rfl⟩

include hps hap in
theorem info_matches {ε : Type} {d : Dev} (hinfo : d.s.info = info) (rest : List UInt8)
    (hgrant : Grants CMD_INFO [] rest d) : InfoMatches (ε := ε) img rest := by
  obtain ⟨req, hreq, hcmd, -⟩ := parseFrame_wire CMD_INFO [] (Nat.zero_le _)
  have hanswer := upd_handle_info store d.s d.f rspCap hcmd (by decide)
  rw [grants_iff d rest hreq hcmd, hanswer] at hgrant
  unfold infoAnswer at hgrant
  dsimp only at hgrant
  rw [List.cons.injEq] at hgrant
  rw [← hgrant.2]
  refine ⟨_, rfl, rfl, ?_, ?_⟩
  · rw [← hps, ← hinfo]
    exact half_bytes _
  · rw [← hap, ← hinfo]
    exact half_bytes _

theorem transaction_verify {d : Dev} :
    (transaction (wire CMD_VERIFY (verifyPayload img)) d).2.s = d.s ∧
      (region d.s.info d.f = img.content → Grants CMD_VERIFY (verifyPayload img) [] d) := by
  have hfits : (verifyPayload img).length ≤ payloadMax := by
    rw [verifyPayload, List.length_append, length_leBytes, length_leBytes]
    decide
  obtain ⟨req, hreq, hcmd, hpayload⟩ := parseFrame_wire CMD_VERIFY (verifyPayload img) hfits
  have hframe : req = verifyFrame img.len img.crc := frame_eq hcmd hpayload
  obtain ⟨-, hs, -⟩ := transaction_eq d hreq
  have hverify := upd_handle_verify store d.s d.f rspCap hcmd (by decide)
  refine ⟨by rw [hs, hverify], ?_⟩
  intro hregion
  have hfooter : FOOTER_LEN = 16 := rfl
  have hdata := img.data_fits
  have hsize : d.s.info.region = img.page_size.toNat * img.app_pages.toNat := by
    rw [← length_region d.s.info d.f, hregion, img.length_content]
    rfl
  have htake : img.content.take img.len.toNat = img.data := by
    rw [img.len_eq, Image.content, List.append_assoc, List.take_left]
  have hlen := img.len_eq
  rw [grants_iff d [] hreq hcmd, hverify, hframe, handle_verify_answer store d.s d.f _ _ (by omega),
    hregion, htake, if_neg (by omega), if_pos img.crc_eq]

theorem boot_granted {d : Dev} (hvalid : AppValid (region d.s.info d.f)) :
    Grants CMD_BOOT [] [] d := by
  obtain ⟨req, hreq, hcmd, -⟩ := parseFrame_wire CMD_BOOT [] (Nat.zero_le _)
  have hboot := upd_handle_boot store d.s d.f rspCap hcmd (by decide)
  rw [grants_iff d [] hreq hcmd, hboot, if_pos hvalid]

structure Ready (img : Image) (info : PortInfo) (n : Nat) (d : Dev) : Prop where
  stage : Stage img info n d
  erased : 2 ≤ n → d.s.erased = true

include hps hap

theorem transaction_session {d : Dev} (hinfo : d.s.info = info) (i : Nat) :
    (transaction (requestFrame img (i + 2)) d).2.s = d.s := by
  unfold requestFrame
  rcases Nat.lt_or_ge i img.pages.length with hi | hi
  · rw [request_write img i hi]
    exact (transaction_write (by rw [hinfo, hps]) (by rw [hinfo, hap]) i hi).1
  · rw [request_verify img i hi]
    exact transaction_verify.1

theorem ready_kept (n : Nat) (d : Dev) (hd : Ready img info n d) :
    Ready img info n (transaction (requestFrame img n) d).2 := by
  refine ⟨stage_happen hps hap n d .handled hd.stage, ?_⟩
  intro hn
  obtain ⟨i, rfl⟩ := Nat.exists_eq_add_of_le' hn
  rw [transaction_session hps hap hd.stage.info]
  exact hd.erased hn

theorem ready_granted (n : Nat) (rest : List UInt8) (d' : Dev)
    (h : Granted (request img n).1 (request img n).2 rest (Ready img info n) d') :
    Ready img info (n + 1) d' := by
  obtain ⟨d, hd, hgrants, rfl⟩ := h
  refine ⟨stage_granted hps hap n rest _ ⟨d, hd.stage, hgrants, rfl⟩, ?_⟩
  intro hn
  match n, hd with
  | 1, hd =>
    have hrequest : request img 1 = (CMD_ERASE_APP, ERASE_MAGIC) := rfl
    obtain ⟨-, hs, -⟩ := transaction_erase (d := d)
    rw [hrequest, hs]
  | i + 2, hd =>
    have hs := transaction_session hps hap hd.stage.info i
    unfold requestFrame at hs
    rw [hs]
    exact hd.erased (by omega)

theorem ready_grants (n : Nat) (d : Dev) (hd : Ready img info n d) :
    ∃ rest, Grants (request img n).1 (request img n).2 rest d ∧ rest.length + 4 ≤ responseRoom n := by
  match n, hd with
  | 0, hd =>
    obtain ⟨rest, hgrants, hlength⟩ := info_granted d
    refine ⟨rest, hgrants, ?_⟩
    rw [hlength]
    decide
  | 1, hd => exact ⟨[], transaction_erase.1, by decide⟩
  | i + 2, hd =>
    refine ⟨[], ?_, Nat.le_refl 4⟩
    have herased := hd.erased (by omega)
    rcases Nat.lt_or_ge i img.pages.length with hi | hi
    · rw [request_write img i hi]
      obtain ⟨-, hgranted, -⟩ := transaction_write (d := d) (by rw [hd.stage.info, hps])
        (by rw [hd.stage.info, hap]) i hi
      exact (hgranted []).mpr ⟨herased, rfl⟩
    · rw [request_verify img i hi]
      apply transaction_verify.2
      rw [hd.stage.info]
      exact region_of_shows img info (region_eq hps hap) _ (Nat.le_refl _) d.f
        (shows_past img i hi d.f (hd.stage.shows i rfl (Or.inl herased)) _ (Nat.le_refl _))

end Ready

/-! ## Requests on the wire -/

/-- Every frame was sent, in order, once or again. -/
def Resent (frames sent : List (List UInt8)) : Prop :=
  ∃ tries : List Nat, tries.length = frames.length ∧ (∀ t ∈ tries, 1 ≤ t ∧ t ≤ 1 + RETRY_BUDGET) ∧
    sent = (List.zipWith List.replicate tries frames).flatten

theorem Resent.snoc {frames sent : List (List UInt8)} (h : Resent frames sent) (frame : List UInt8)
    (t : Nat) (hpos : 1 ≤ t) (hmax : t ≤ 1 + RETRY_BUDGET) :
    Resent (frames ++ [frame]) (sent ++ List.replicate t frame) := by
  obtain ⟨tries, hlength, htries, rfl⟩ := h
  refine ⟨tries ++ [t], by simp [hlength], ?_, ?_⟩
  · intro t' ht'
    rw [List.mem_append, List.mem_singleton] at ht'
    rcases ht' with ht' | rfl
    · exact htries t' ht'
    · exact ⟨hpos, hmax⟩
  · rw [List.zipWith_append hlength, List.flatten_append]
    simp

/-- INFO, ERASE_APP, one WRITE_PAGE for each page of the iterator, VERIFY. -/
def requests (img : Image) : List (List UInt8) :=
  [wire CMD_INFO [], wire CMD_ERASE_APP ERASE_MAGIC] ++
    img.pages.map (fun index => wire CMD_WRITE_PAGE (writePayload img index)) ++
    [wire CMD_VERIFY (verifyPayload img)]

theorem requests_eq (img : Image) :
    (List.range (3 + img.pages.length)).map (requestFrame img) = requests img := by
  have hwrites : (List.range img.pages.length).map (fun i => requestFrame img (i + 2)) =
      img.pages.map (fun index => wire CMD_WRITE_PAGE (writePayload img index)) := by
    apply List.ext_getElem
    · simp
    intro i hleft hright
    rw [List.length_map] at hright
    simp [requestFrame, request_write img i hright]
  have hverify : requestFrame img (img.pages.length + 2) = wire CMD_VERIFY (verifyPayload img) := by
    unfold requestFrame
    rw [request_verify img _ (Nat.le_refl _)]
  rw [Nat.add_comm, List.range_succ, List.map_append, List.range_succ_eq_map, List.range_succ_eq_map]
  unfold requests
  rw [← hwrites, ← hverify]
  simp [requestFrame, request, Function.comp_def]

/-! ## The whole update -/

section Flash

variable {ε : Type} {img : Image} {info : PortInfo} (hps : info.page_size = img.page_size)
  (hap : info.app_pages = img.app_pages) {schedule : Nat → Attempt ε} (hcalm : Calm schedule)

include hps hap hcalm

theorem flash_calm (room : Nat) (hroom : img.page_size.toNat + 20 ≤ room)
    (calls : List (UInt16 × UInt16)) :
    Spec (flash (faultyLink schedule) img)
      (Session.At room calls (fun w => Ready img info 0 w.dev ∧ w.sent = []))
      (fun _ => Session.At room (calls ++ progressCalls img.pages.length img.pages.length)
        (fun w => Ready img info (3 + img.pages.length) w.dev ∧ Resent (requests img) w.sent))
      (fun _ => False) := by
  have hstages := flash_stages img (faultyLink schedule) room
    (fun n k w => ∃ done, Resent ((List.range n).map (requestFrame img)) done ∧
      w.Trying schedule (Ready img info n) done (requestFrame img n) k)
    (fun _ => False) calls ?_ ?_ ?_
  · refine hstages.weaken ?_ ?_ (fun s h => h)
    · rintro s ⟨⟨hready, hsent⟩, hlength, hcalls⟩
      have htrying := hcalm.trying s.transport (requestFrame img 0) hready
      rw [hsent] at htrying
      exact ⟨⟨[], ⟨[], rfl, by simp, rfl⟩, htrying⟩, hlength, hcalls⟩
    · rintro _ s ⟨⟨done, hdone, htrying⟩, hlength, hcalls⟩
      have hsent := htrying.sent
      rw [Nat.sub_self, List.replicate_zero, List.append_nil] at hsent
      rw [requests_eq, ← hsent] at hdone
      exact ⟨⟨htrying.dev, hdone⟩, hlength, hcalls⟩
  · rintro n w ⟨done, -, htrying⟩
    obtain ⟨j, hj, -⟩ := htrying.answered
    omega
  · intro hsmall
    omega
  · intro n hn k w rx hstage hrx
    obtain ⟨done, hdone, htrying⟩ := hstage
    have hserves := hcalm.serves (request img n).1 (request img n).2 (responseRoom n)
      (request_fits img n) done (ready_kept hps hap n) (ready_grants hps hap n)
    obtain ⟨haccept, hretry, hfatal⟩ := hserves k w rx htrying hrx
    refine ⟨?_, fun h => ⟨done, hdone, hretry h⟩, hfatal⟩
    intro rest hrest
    obtain ⟨hgranted, t, hpos, hmax, hsent⟩ := haccept rest hrest
    refine ⟨fun _ => ?_, ?_⟩
    · have hnext := hdone.snoc (requestFrame img n) t hpos hmax
      unfold requestFrame at hnext ⊢
      rw [← hsent] at hnext
      refine ⟨_, ?_, hcalm.trying _ _ (ready_granted hps hap n rest _ hgranted)⟩
      rw [List.range_succ, List.map_append]
      exact hnext
    · rintro ⟨hmismatch, rfl⟩
      obtain ⟨d, hd, hgrants, -⟩ := hgranted
      exact hmismatch (info_matches hps hap hd.stage.info rest hgrants)

end Flash

def freshSession (d : Dev) (buf : List UInt8) : Session World :=
  { transport := { dev := d, clock := 0, sent := [] }, buf, progress := [] }

theorem flash_fresh {ε : Type} (img : Image) (schedule : Nat → Attempt ε) (hcalm : Calm schedule)
    (d : Dev) (hps : d.s.info.page_size = img.page_size) (hap : d.s.info.app_pages = img.app_pages)
    (buf : List UInt8) (hbuf : img.page_size.toNat + 20 ≤ buf.length) :
    ∃ s, flash (faultyLink schedule) img (freshSession d buf) = (.ok (), s) ∧
      Ready img d.s.info (3 + img.pages.length) s.transport.dev ∧
      Resent (requests img) s.transport.sent ∧
      s.progress = progressCalls img.pages.length img.pages.length := by
  have hready : Ready img d.s.info 0 d :=
    ⟨⟨rfl, fun i hi => by omega⟩, fun h => by omega⟩
  have hrun := flash_calm hps hap hcalm buf.length hbuf [] (freshSession d buf)
    ⟨⟨hready, rfl⟩, rfl, rfl⟩
  rcases hflash : flash (faultyLink schedule) img (freshSession d buf) with ⟨e | _, s⟩
  · rw [hflash] at hrun
    exact hrun.elim
  · rw [hflash] at hrun
    obtain ⟨⟨hend, hsent⟩, -, hprogress⟩ := hrun
    exact ⟨s, rfl, hend, hsent, hprogress⟩

/-- From whatever state, an update over a calm link succeeds: every request goes out in order, each
at most four times, progress is told page by page, and BOOT is granted afterwards. -/
theorem flash_recovers {ε : Type} (img : Image) (schedule : Nat → Attempt ε) (hcalm : Calm schedule)
    (d : Dev) (hps : d.s.info.page_size = img.page_size) (hap : d.s.info.app_pages = img.app_pages)
    (buf : List UInt8) (hbuf : img.page_size.toNat + 20 ≤ buf.length) :
    let r := flash (faultyLink schedule) img (freshSession d buf)
    let t := img.pages.length
    r.1 = .ok () ∧ Resent (requests img) r.2.transport.sent ∧ img.pages.Pairwise (· < ·) ∧
      r.2.progress = (List.range (t + 1)).map (fun i => (UInt16.ofNat i, UInt16.ofNat t)) ∧
      (transaction (wire CMD_BOOT []) r.2.transport.dev).1 = wire (CMD_BOOT ||| RSP_FLAG) [ST_OK] := by
  obtain ⟨s, hflash, hend, hsent, hprogress⟩ := flash_fresh img schedule hcalm d hps hap buf hbuf
  have hregion := region_of_stage hps hap s.transport.dev hend.stage
  have hvalid : AppValid (region s.transport.dev.s.info s.transport.dev.f) := by
    rw [hend.stage.info, hregion]
    exact appValid_content img
  dsimp only
  rw [hflash]
  exact ⟨rfl, hsent, img.pages_ascending, hprogress, boot_granted hvalid⟩

/-! ### A patchy link -/

def patchyImage : Image where
  data := [0x01, 0x02, 0x03]
  page_size := 16
  app_pages := 2
  len := 3
  crc := crc32 [0x01, 0x02, 0x03]
  app_pages_pos := by decide
  footer_fits := by decide
  page_fits := by decide
  data_fits := by decide
  len_eq := rfl
  crc_eq := rfl

def silence : Noise Unit where
  seen _ _ := .error ()
  rejected := by
    intro req room bytes h
    cases h

def patchySchedule (i : Nat) : Attempt Unit :=
  if i % 4 = 3 then { before := [], outcome := .answers 0 }
  else { before := [.handled], outcome := .noise silence }

theorem patchySchedule_calm : Calm patchySchedule where
  powered := by
    intro i h hmem
    unfold patchySchedule at hmem
    split at hmem
    · cases hmem
    · exact List.mem_singleton.mp hmem
  retryable := by
    intro i n houtcome req room
    unfold patchySchedule at houtcome
    split at houtcome
    · cases houtcome
    · cases houtcome
      trivial
  budget := by
    intro i
    refine ⟨3 - i % 4, Nat.sub_le _ _, 0, ?_⟩
    unfold patchySchedule
    rw [if_pos (by omega)]

def patchyDev : Dev where
  s := { info := { page_size := 16, app_pages := 2, device_id := #v[1, 2, 3, 4], bl_version := 1 }
         erased := true, boot_pending := true }
  f := fun off => UInt8.ofNat (off * 7)
  log := []

theorem flash_recovers_patchy :
    let r := flash (faultyLink patchySchedule) patchyImage
      (freshSession patchyDev (List.replicate 36 0))
    let t := patchyImage.pages.length
    r.1 = .ok () ∧ Resent (requests patchyImage) r.2.transport.sent ∧
      patchyImage.pages.Pairwise (· < ·) ∧
      r.2.progress = (List.range (t + 1)).map (fun i => (UInt16.ofNat i, UInt16.ofNat t)) ∧
      (transaction (wire CMD_BOOT []) r.2.transport.dev).1 = wire (CMD_BOOT ||| RSP_FLAG) [ST_OK] :=
  flash_recovers patchyImage patchySchedule patchySchedule_calm patchyDev rfl rfl
    (List.replicate 36 0) (by decide)

end OtaUpdater.System
