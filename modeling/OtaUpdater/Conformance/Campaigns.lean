import OtaUpdater.Conformance.Transports

/-!
# The campaigns (`conformance/tests/campaigns.rs`, `stream.rs`)

The host's session drives the simulated device by either path. An update is one list of flash
operations, and a power cut in it leaves what the operations before it, and a half of the one
it went in, make of the flash.
-/

open OtaUpdater.Lib.Cut OtaUpdater.Lib.Retry OtaUpdater.Lib.State OtaUpdater.Wire OtaUpdater.Device
open OtaUpdater.Host OtaUpdater.Agreement OtaUpdater.System

namespace OtaUpdater.Conformance

/-! ## The operations of an update -/

section Ops

variable (img : Image)

def eraseOps : List PortCall := (List.range 32).map (fun i => .erase_page (UInt16.ofNat i))

def writeOp (index : UInt16) : PortCall := .write_page index (img.page index.toNat)

/-- One erase for every page of the region, then one write for every page of the iterator. -/
def updateOps : List PortCall := eraseOps ++ img.pages.map (writeOp img)

def opsBefore : Nat → List PortCall
  | 0 | 1 => []
  | i + 2 => eraseOps ++ (img.pages.take i).map (writeOp img)

theorem opsBefore_writes (i : Nat) :
    opsBefore img (i + 2) = eraseOps ++ (img.pages.take i).map (writeOp img) := rfl

theorem length_updateOps : (updateOps img).length = 32 + img.pages.length := by
  rw [updateOps, List.length_append, List.length_map, eraseOps, List.length_map, List.length_range]

theorem opsBefore_prefix (n : Nat) : ∃ rest, updateOps img = opsBefore img n ++ rest := by
  match n with
  | 0 => exact ⟨_, rfl⟩
  | 1 => exact ⟨_, rfl⟩
  | i + 2 =>
    refine ⟨(img.pages.drop i).map (writeOp img), ?_⟩
    rw [opsBefore_writes, List.append_assoc, ← List.map_append, List.take_append_drop]
    rfl

theorem opsBefore_end : opsBefore img (3 + img.pages.length) = updateOps img := by
  have hlast : 3 + img.pages.length = (img.pages.length + 1) + 2 := by omega
  rw [hlast, opsBefore_writes, List.take_of_length_le (by omega)]
  rfl

variable {img} (hps : port_info.page_size = img.page_size) (hap : port_info.app_pages = img.app_pages)
include hps hap

theorem updateOps_sound (op : PortCall) (hop : op ∈ updateOps img) :
    op.Inside port_info ∧ op.Changes := by
  have hpages : port_info.app_pages.toNat = 32 := rfl
  rcases List.mem_append.mp hop with hop | hop
  · obtain ⟨i, hi, rfl⟩ := List.mem_map.mp hop
    have hlt := List.mem_range.mp hi
    refine ⟨?_, rfl⟩
    change UInt16.ofNat i < port_info.app_pages
    rw [UInt16.lt_iff_toNat_lt, hpages, UInt16.toNat_ofNat', Nat.mod_eq_of_lt (by omega)]
    exact hlt
  · obtain ⟨index, hmem, rfl⟩ := List.mem_map.mp hop
    obtain ⟨i, hi, rfl⟩ := List.getElem_of_mem hmem
    have hindex := page_index_lt img i hi
    refine ⟨⟨?_, ?_⟩, rfl⟩
    · rw [hap]
      exact UInt16.lt_iff_toNat_lt.mpr hindex
    · rw [img.length_page _ hindex, hps]

theorem flashOps_request (n : Nat) {s : UpdSession} (hinfo : s.info = port_info)
    (herased : 2 ≤ n → s.erased = true) {req : UpdFrame} (hcmd : req.cmd = (request img n).1)
    (hpayload : req.payload = (request img n).2) :
    opsBefore img n ++ flashOps s req = opsBefore img (n + 1) := by
  have hwrite_erase : CMD_WRITE_PAGE ≠ UPD_CMD_ERASE_APP := by decide
  match n with
  | 0 =>
    have hops : flashOps s req = [] := by
      unfold flashOps
      rw [hcmd]
      rfl
    rw [hops]
    rfl
  | 1 =>
    have hops : flashOps s req = eraseOps := by
      unfold flashOps
      rw [hcmd, hpayload, hinfo]
      rfl
    rw [hops]
    simp [opsBefore]
  | i + 2 =>
    have hlatch := herased (by omega)
    rcases Nat.lt_or_ge i img.pages.length with hi | hi
    · rw [request_write img i hi] at hcmd hpayload
      have hindex := page_index_lt img i hi
      obtain ⟨hlen, hidx, hdata⟩ := write_fields _ hindex hpayload
      have hinside : write_index req < s.info.app_pages := by
        rw [UInt16.lt_iff_toNat_lt, hidx, hinfo, hap]
        exact hindex
      have hops : flashOps s req = [writeOp img img.pages[i]] := by
        unfold flashOps
        rw [if_neg (fun h => hwrite_erase (hcmd.symm.trans h.1)),
          if_pos ⟨hcmd, hlatch, by rw [hlen, hinfo, hps], hinside⟩]
        unfold writeOp
        rw [hdata, UInt16.toNat_inj.mp hidx]
      rw [hops, opsBefore_writes, Nat.add_right_comm, opsBefore_writes, List.append_assoc,
        List.take_succ_eq_append_getElem hi, List.map_append]
      rfl
    · rw [request_verify img i hi] at hcmd
      have hops : flashOps s req = [] := by
        unfold flashOps
        rw [hcmd]
        rfl
      rw [hops, List.append_nil, Nat.add_right_comm, opsBefore_writes, opsBefore_writes,
        List.take_of_length_le hi, List.take_of_length_le (by omega)]

end Ops

/-! ## One request of the update -/

section Request

variable {img : Image} (g0 : Statics)

theorem upd_handle_no_boot (program : Program) (s : UpdSession) (req : UpdFrame) (f : Flash)
    (rsp_cap : UInt8) (hcmd : req.cmd ≠ UPD_CMD_BOOT) :
    (upd_handle (arrayPort s.info program) s req rsp_cap f).1.1.boot_pending = s.boot_pending := by
  rcases upd_handle_cases program s req f rsp_cap with ⟨hs, -⟩ | ⟨-, -, hr⟩ | ⟨-, -, -, -, hr⟩ | ⟨hboot, -, -⟩
  · rw [hs]
  · rw [hr]
  · rw [hr]
  · exact absurd hboot hcmd

structure Alive (img : Image) (g0 : Statics) (n : Nat) (d : Sim) : Prop where
  live : d.Live
  done : d.g = (opsBefore img n).foldl simPort.call g0
  ready : Ready img port_info n (asDev d.session d.g.flash)

theorem Alive.congr {img : Image} {g0 : Statics} {n : Nat} {d d' : Sim} (h : Alive img g0 n d)
    (hg : d'.g = d.g) (hsession : d'.session = d.session) : Alive img g0 n d' := by
  have hlive := h.live
  have hready := h.ready
  refine ⟨⟨?_, ?_, ?_, ?_⟩, hg.trans h.done, ?_⟩
  · rw [hg]
    exact hlive.powered
  · rw [hg]
    exact hlive.here
  · rw [hsession]
    exact hlive.info
  · rw [hsession]
    exact hlive.no_boot
  · rw [hg, hsession]
    exact hready

structure Down (img : Image) (g0 : Statics) (d : Sim) : Prop where
  dead : d.g.dead = true
  done : d.g = (updateOps img).foldl simPort.call g0

variable (hps : port_info.page_size = img.page_size) (hap : port_info.app_pages = img.app_pages)
include hps hap

theorem alive_request (n : Nat) {d : Sim} (h : Alive img g0 n d) :
    let r := sim_request (requestFrame img n) d
    (r.1 = [] ∧ Down img g0 r.2) ∨
      (Alive img g0 (n + 1) r.2 ∧ ∃ rest, r.1 = wire ((request img n).1 ||| RSP_FLAG) (ST_OK :: rest) ∧
        rest.length + 4 ≤ responseRoom n ∧ ∀ ε, n = 0 → InfoMatches (ε := ε) img rest) := by
  have hdev : (asDev d.session d.g.flash).s.info = port_info := h.live.info
  obtain ⟨req, hreq, hcmd, hpayload⟩ := parseFrame_wire (request img n).1 (request img n).2
    (request_fits img n)
  have hops := flashOps_request hps hap n h.live.info (fun hn => h.ready.erased hn) hcmd hpayload
  have hsound := flashOps_sound h.live.info req
  have hdone : (flashOps d.session req).foldl simPort.call d.g =
      (opsBefore img (n + 1)).foldl simPort.call g0 := by
    rw [← hops, List.foldl_append, ← h.done]
  have hrun := sim_request_run h.live hreq
  obtain ⟨hanswer, hs, hf⟩ := transaction_eq (asDev d.session d.g.flash) hreq
  rw [hdev] at hanswer hs hf
  have hkept := (calls_frame (flashOps d.session req) hsound d.g).2
  have hpending := upd_handle_no_boot store d.session req d.g.flash rspCap
    (by rw [hcmd]; exact request_not_boot n)
  rw [h.live.info, h.live.no_boot] at hpending
  have hframe : wire (request img n).1 (request img n).2 = requestFrame img n := rfl
  rw [hframe] at hrun hanswer hs hf
  have hstore := upd_handle_whole d.session req d.g.flash
  dsimp only [asDev] at hrun hanswer hs hf
  generalize upd_handle (arrayPort port_info store) d.session req rspCap d.g.flash = plain
    at hrun hanswer hs hf hpending hstore
  by_cases hdead : ((flashOps d.session req).foldl simPort.call d.g).dead = true
  · left
    rw [hrun, if_pos hdead]
    refine ⟨rfl, hdead, ?_⟩
    obtain ⟨rest, hrest⟩ := opsBefore_prefix img (n + 1)
    rw [hrest, List.foldl_append, ← hdone, calls_dead rest _ hdead]
    intro op hop
    exact updateOps_sound hps hap op (by rw [hrest]; exact List.mem_append_right _ hop)
  · right
    rw [Bool.not_eq_true] at hdead
    have hflash := (calls_alive (flashOps d.session req) hsound d.g hdead).2
    rw [← hstore, ← hf] at hflash
    obtain ⟨rest, hgrants, hroom⟩ := ready_grants hps hap n _ h.ready
    have hnext := ready_granted hps hap n rest _ ⟨_, h.ready, hgrants, rfl⟩
    have hmatch : ∀ ε, n = 0 → InfoMatches (ε := ε) img rest := by
      rintro ε rfl
      exact info_matches hps hap h.ready.stage.info rest hgrants
    have hreply : wire (req.cmd ||| UPD_RSP_FLAG) plain.1.2 =
        wire ((request img n).1 ||| RSP_FLAG) (ST_OK :: rest) := hanswer.symm.trans hgrants
    rw [hrun, if_neg (by rw [hdead]; decide), take_gate_settled hpending]
    refine ⟨⟨⟨hdead, hkept.trans h.live.here, ?_, hpending⟩, hdone, ?_⟩, rest, hreply, hroom, hmatch⟩
    · rw [← hs]
      exact hnext.stage.info
    · refine ⟨stage_congr hnext.stage hs.symm hflash, ?_⟩
      intro hn
      have herased := hnext.erased hn
      change plain.1.1.erased = true
      rw [← hs]
      exact herased

/-! ## The whole update -/

section Update

variable {ε : Type} {T : Transport Sim ε} {calm : Sim → Prop} (hT : Carries T calm)
include hT

def Campaign (img : Image) (g0 : Statics) (calm : Sim → Prop) (n k : Nat) (d : Sim) : Prop :=
  calm d ∧ (k = 1 + RETRY_BUDGET ∧ Alive img g0 n d ∨ k < 1 + RETRY_BUDGET ∧ Down img g0 d)

theorem campaign_serves (n : Nat) :
    Serves T (requestFrame img n) (responseRoom n) ((request img n).1 ||| RSP_FLAG)
      (Campaign img g0 calm n)
      (fun rest d => (InfoMatches (ε := ε) img rest ∨ n ≠ 0 →
          Campaign img g0 calm (n + 1) (1 + RETRY_BUDGET) d) ∧
        (¬ InfoMatches (ε := ε) img rest ∧ n = 0 → calm d ∧ Down img g0 d))
      (fun d => calm d ∧ Down img g0 d) := by
  rintro k d rsp ⟨hcalm, hstate⟩ hroom
  have hmax := request_fits img n
  rcases hstate with ⟨hk, halive⟩ | ⟨hk, hdown⟩
  · obtain ⟨hcalm', hg, hsession, hsilent, hshown⟩ :=
      hT.serves d (request img n).1 (request img n).2 rsp hcalm hmax (Or.inr halive.live)
    have hrequest := alive_request g0 hps hap n halive
    unfold requestFrame at hrequest ⊢
    dsimp only
    rcases hrequest with ⟨hnone, hdown⟩ | ⟨hnext, rest, hreply, hfits, hmatch⟩
    · have hretry := hsilent hnone ((request img n).1 ||| RSP_FLAG)
      refine ⟨fun rest h => absurd hretry h.not_retryable, fun _ => ⟨hcalm', Or.inr ⟨by omega, ?_⟩⟩,
        fun _ hfinal => absurd hretry hfinal⟩
      exact ⟨hg ▸ hdown.dead, hg ▸ hdown.done⟩
    · have hsmall : responseRoom n ≤ 15 := by
        unfold responseRoom INFO_RSP_PAYLOAD ST_RSP_PAYLOAD
        split_ifs
        · omega
        · omega
      have hshort : (ST_OK :: rest).length ≤ payloadMax := by
        rw [List.length_cons]
        unfold payloadMax
        omega
      obtain ⟨pad, hseen⟩ := hshown _ _ hreply (by rw [List.length_cons, hroom]; exact hfits) hshort
      have haccepted : Accepted (received (T.request d (wire (request img n).1 (request img n).2) rsp).1)
          ((request img n).1 ||| RSP_FLAG) rest := ⟨_, hseen, decode_padded_wire _ _ _ hshort⟩
      refine ⟨?_, fun hretry => absurd hretry haccepted.not_retryable,
        fun hnone => absurd haccepted (hnone rest)⟩
      intro rest' haccepted'
      obtain rfl : rest' = rest := Plant.accepted_unique haccepted' haccepted
      refine ⟨fun _ => ⟨hcalm', Or.inl ⟨rfl, hnext.congr hg hsession⟩⟩, ?_⟩
      rintro ⟨hmismatch, hzero⟩
      exact absurd (hmatch ε hzero) hmismatch
  · obtain ⟨hcalm', hg, hsession, hsilent, -⟩ :=
      hT.serves d (request img n).1 (request img n).2 rsp hcalm hmax (Or.inl (Or.inl hdown.dead))
    rw [sim_request_gone (Or.inl hdown.dead)] at hg hsilent
    have hretry := hsilent rfl ((request img n).1 ||| RSP_FLAG)
    refine ⟨fun rest h => absurd hretry h.not_retryable, fun _ => ⟨hcalm', Or.inr ⟨by omega, ?_⟩⟩,
      fun _ hfinal => absurd hretry hfinal⟩
    exact ⟨hg ▸ hdown.dead, hg ▸ hdown.done⟩

theorem campaign_spec (room : Nat) (hroom : img.page_size.toNat + 20 ≤ room)
    (calls : List (UInt16 × UInt16)) :
    Spec (flash T img) (Session.At room calls (Campaign img g0 calm 0 (1 + RETRY_BUDGET)))
      (fun _ => Session.At room (calls ++ progressCalls img.pages.length img.pages.length)
        (Campaign img g0 calm (3 + img.pages.length) (1 + RETRY_BUDGET)))
      (fun s => calm s.transport ∧ Down img g0 s.transport) := by
  apply flash_stages img T room (Campaign img g0 calm) (fun d => calm d ∧ Down img g0 d) calls
  · rintro n d ⟨hcalm, ⟨hk, -⟩ | ⟨-, hdown⟩⟩
    · exact absurd hk (by decide)
    · exact ⟨hcalm, hdown⟩
  · intro hsmall
    omega
  · intro n _
    exact campaign_serves g0 hps hap hT n

/-- An update is its operations: it reports an error exactly if the power goes in one of them. -/
theorem campaign_flash {d : Sim} (hcalm : calm d) (hlive : d.Live) (buf : List UInt8)
    (hbuf : img.page_size.toNat + 20 ≤ buf.length) (calls : List (UInt16 × UInt16)) :
    let r := flash T img { transport := d, buf, progress := calls }
    let g := (updateOps img).foldl simPort.call d.g
    calm r.2.transport ∧ r.2.transport.g = g ∧
      match r.1 with
      | .ok () => g.dead = false ∧ r.2.transport.Live ∧ region port_info g.flash = img.content ∧
          r.2.buf.length = buf.length ∧
          r.2.progress = calls ++ progressCalls img.pages.length img.pages.length
      | .error _ => g.dead = true := by
  have halive : Alive img d.g 0 d := by
    refine ⟨hlive, rfl, ⟨hlive.info, fun i hi => by omega⟩, fun hn => by omega⟩
  have hrun := campaign_spec d.g hps hap hT buf.length hbuf calls
    { transport := d, buf, progress := calls } ⟨⟨hcalm, Or.inl ⟨rfl, halive⟩⟩, rfl, rfl⟩
  dsimp only
  rcases hflash : flash T img { transport := d, buf, progress := calls } with ⟨e | _, self⟩
  · rw [hflash] at hrun
    obtain ⟨hcalm', hdown⟩ := hrun
    exact ⟨hcalm', hdown.done, hdown.done ▸ hdown.dead⟩
  · rw [hflash] at hrun
    obtain ⟨⟨hcalm', hstate⟩, hlength, hcalls⟩ := hrun
    rcases hstate with ⟨-, hend⟩ | ⟨hfew, -⟩
    · have hdone := hend.done
      rw [opsBefore_end] at hdone
      have hregion := region_of_stage hps hap _ hend.ready.stage
      refine ⟨hcalm', hdone, ?_, hend.live, ?_, hlength, hcalls⟩
      · rw [← hdone]
        exact hend.live.powered
      · rw [← hdone]
        exact hregion
    · exact absurd hfew (Nat.lt_irrefl _)

end Update

end Request

end OtaUpdater.Conformance
