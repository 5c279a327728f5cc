import OtaUpdater.Conformance.Campaigns
import OtaUpdater.Host.Exchange
import OtaUpdater.System.Commit

/-!
# The power-cut sweep (`conformance/tests/campaigns.rs`)

A power cut at every flash operation of an update in turn: the update reports it, the gate
refuses what it left, unless the app from before outlived what was erased, and the next update
recovers the device.
-/

open OtaUpdater.Lib.Cut OtaUpdater.Lib.Retry OtaUpdater.Lib.State OtaUpdater.Wire OtaUpdater.Device
open OtaUpdater.Host OtaUpdater.Agreement OtaUpdater.System

namespace OtaUpdater.Conformance

/-! ## The flash behind a cut -/

section Flash

theorem erase_index (i : Nat) (hi : i < 32) : (UInt16.ofNat i).toNat = i := by
  rw [UInt16.toNat_ofNat', Nat.mod_eq_of_lt (by omega)]

theorem erased_whole (k : Nat) (hk : k ≤ 32) (f : Flash) (off : Nat) :
    (eraseOps.take k).foldl whole f off = if off < k * 128 then 0xFF else f off := by
  induction k with
  | zero => rw [Nat.zero_mul, if_neg (Nat.not_lt_zero off), List.take_zero, List.foldl_nil]
  | succ k ih =>
    have hlt : k < eraseOps.length := by
      rw [eraseOps, List.length_map, List.length_range]
      exact hk
    have hop : eraseOps[k] = .erase_page (UInt16.ofNat k) := by
      simp only [eraseOps, List.getElem_map, List.getElem_range]
    rw [List.take_succ_eq_append_getElem hlt, List.foldl_append, hop]
    change memset _ ((UInt16.ofNat k).toNat * 128) 0xFF 128 off = _
    rw [erase_index k hk]
    unfold memset
    rw [ih (by omega)]
    split_ifs <;> first | rfl | omega

theorem erased_torn (k : Nat) (hk : k < 32) (ops : List PortCall) (f : Flash) (off : Nat) :
    interrupted whole torn k (eraseOps ++ ops) f off = if off < k * 128 + 64 then 0xFF else f off := by
  have hlength : eraseOps.length = 32 := by
    rw [eraseOps, List.length_map, List.length_range]
  have hlt : k < (eraseOps ++ ops).length := by
    rw [List.length_append]
    omega
  have hop : (eraseOps ++ ops)[k] = .erase_page (UInt16.ofNat k) := by
    rw [List.getElem_append_left (by omega)]
    simp only [eraseOps, List.getElem_map, List.getElem_range]
  rw [interrupted_eq whole torn _ k hlt, hop,
    List.take_append_of_le_length (by omega)]
  change memset _ ((UInt16.ofNat k).toNat * 128) 0xFF 64 off = _
  rw [erase_index k hk]
  unfold memset
  rw [erased_whole k (by omega)]
  split_ifs <;> first | rfl | omega

variable {img : Image} (hps : port_info.page_size = img.page_size) (hap : port_info.app_pages = img.app_pages)
include hps hap

theorem opsBefore_shows (i : Nat) (hi : i ≤ img.pages.length) (f : Flash) :
    Shows img i ((opsBefore img (i + 2)).foldl whole f) := by
  have h128 : img.page_size.toNat = 128 := by
    rw [← hps]
    rfl
  induction i with
  | zero =>
    intro off hoff
    have hregion : img.region = 4096 := (region_eq hps hap).symm
    have herased := erased_whole 32 (Nat.le_refl 32) f off
    rw [opsBefore_writes, List.take_zero, List.map_nil, List.append_nil, if_neg List.not_mem_nil]
    have hall : eraseOps.take 32 = eraseOps := List.take_of_length_le (Nat.le_of_eq rfl)
    rw [hall, if_pos (by omega)] at herased
    exact herased
  | succ i ih =>
    have hwritten := shows_write img i hi _ (Or.inl (ih (by omega)))
    rw [opsBefore_writes, List.take_succ_eq_append_getElem hi, List.map_append, ← List.append_assoc,
      ← opsBefore_writes, List.foldl_append]
    rw [h128] at hwritten
    exact hwritten

theorem torn_footer (k : Nat) (hk : 32 ≤ k) (hlast : k < (updateOps img).length) (f : Flash) (off : Nat)
    (hlow : 4080 ≤ off) (hhigh : off < 4096) : interrupted whole torn k (updateOps img) f off = 0xFF := by
  obtain ⟨i, rfl⟩ := Nat.exists_eq_add_of_le hk
  have hlength : eraseOps.length = 32 := rfl
  have hcount := length_updateOps img
  have hi : i < img.pages.length := by omega
  have hregion : img.region = 4096 := (region_eq hps hap).symm
  have h128 : img.page_size.toNat = 128 := by
    rw [← hps]
    rfl
  have h32 : img.app_pages.toNat = 32 := by
    rw [← hap]
    rfl
  have hop : (updateOps img)[32 + i] = writeOp img img.pages[i] := by
    simp only [updateOps]
    rw [List.getElem_append_right (by omega), List.getElem_map]
    simp only [hlength, Nat.add_sub_cancel_left]
  have htake : (updateOps img).take (32 + i) = opsBefore img (i + 2) := by
    rw [opsBefore_writes]
    unfold updateOps
    rw [List.take_append, List.take_of_length_le (by omega), List.map_take, hlength, Nat.add_sub_cancel_left]
  rw [interrupted_eq whole torn _ _ hlast, hop, htake]
  have hshows := opsBefore_shows hps hap i (Nat.le_of_lt hi) f off (by omega)
  have hindex := page_index_lt img i hi
  change memcpy _ (img.pages[i].toNat * 128) _ 64 off = _
  unfold memcpy
  rw [if_neg (by omega), hshows, if_neg]
  intro hmem
  obtain ⟨j, hj, hpage⟩ := List.mem_iff_getElem.mp hmem
  rw [List.length_take] at hj
  rw [List.getElem_take, h128] at hpage
  have hend := img.last_page (img.pages.length - 1) (by omega) (by omega)
  have hordered := (List.pairwise_iff_getElem.mp img.pages_ascending) j (img.pages.length - 1) (by omega)
    (by omega) (by omega)
  rw [hpage, UInt16.lt_iff_toNat_lt, UInt16.toNat_ofNat', Nat.mod_eq_of_lt (by omega)] at hordered
  omega

def blanked (k : Nat) (R : List UInt8) : List UInt8 := List.replicate k 0xFF ++ R.drop k

/-- The app from before is there, and what was erased of it makes no difference. -/
def Outlives (n : Nat) (R : List UInt8) : Prop := n ≤ 32 ∧ AppValid (blanked ((n - 1) * 128 + 64) R)

instance (n : Nat) (R : List UInt8) : Decidable (Outlives n R) := inferInstanceAs (Decidable (_ ∧ _))

omit hps hap in
theorem region_torn (k : Nat) (hk : k < 32) (f : Flash) :
    region port_info (interrupted whole torn k (updateOps img) f) =
      blanked (k * 128 + 64) (region port_info f) := by
  have hregion : port_info.region = 4096 := rfl
  unfold blanked
  apply List.ext_getElem
  · rw [List.length_append, List.length_replicate, List.length_drop, length_region, length_region, hregion]
    omega
  intro off hleft hright
  rw [length_region, hregion] at hleft
  have htorn := erased_torn k hk (img.pages.map (writeOp img)) f off
  have hbyte : ∀ (g : Flash) (i : Nat) (hi : i < (region port_info g).length),
      (region port_info g)[i] = g i := by
    intro g i hi
    simp only [region, List.getElem_map, List.getElem_range]
  rw [hbyte, List.getElem_append]
  refine htorn.trans ?_
  simp only [List.length_replicate]
  split_ifs with hoff
  · rw [List.getElem_replicate]
  · rw [List.getElem_drop, hbyte]
    congr 1
    omega

theorem torn_valid_iff (n : Nat) (hpos : 1 ≤ n) (hmax : n ≤ (updateOps img).length) (f : Flash) :
    AppValid (region port_info (interrupted whole torn (n - 1) (updateOps img) f)) ↔
      Outlives n (region port_info f) := by
  unfold Outlives
  rcases Nat.lt_or_ge 32 n with hwrites | herases
  · rw [iff_false_right (fun h => by omega)]
    rintro ⟨-, hmagic, -⟩
    have hregion : port_info.region = 4096 := rfl
    rw [length_region, hregion, region_window _ _ _ _ (by omega)] at hmagic
    have hfirst : interrupted whole torn (n - 1) (updateOps img) f 4080 = 0x4F := (List.cons.inj hmagic).1
    rw [torn_footer hps hap (n - 1) (by omega) (by omega) f _ (by omega) (by omega)] at hfirst
    exact absurd hfirst (by decide)
  · rw [region_torn (n - 1) (by omega), iff_and_self]
    exact fun _ => herases

end Flash

/-! ## The armed cut -/

theorem armed_update {img : Image} (hps : port_info.page_size = img.page_size)
    (hap : port_info.app_pages = img.app_pages) (n : UInt32) (d : Sim) :
    let g := (updateOps img).foldl simPort.call (sim_powercut_after n (sim_reset true d)).g
    g.jumped = false ∧ g.aborted = d.g.aborted ∧ g.cut_hit = g.dead ∧
      if 1 ≤ n.toNat ∧ n.toNat ≤ (updateOps img).length then
        g.dead = true ∧ g.flash = interrupted whole torn (n.toNat - 1) (updateOps img) d.g.flash
      else g.dead = false ∧ g.ops.toNat = (updateOps img).length := by
  have hcount := length_updateOps img
  have hpages := pages_length_le img
  have hfew := img.app_pages.toNat_lt
  have hstart : (sim_powercut_after n (sim_reset true d)).g =
      { flash := d.g.flash, ops := 0, cut_at := n, cut_hit := false, dead := false, jumped := false
        aborted := d.g.aborted } := by
    unfold sim_powercut_after sim_reset
    dsimp only
    rw [UInt32.zero_add]
    by_cases hzero : n = 0
    · rw [if_pos hzero, hzero]
      rfl
    · rw [if_neg hzero]
      rfl
  obtain ⟨hpowered, hcont⟩ := calls_powered (updateOps img) (updateOps_sound hps hap)
    (sim_powercut_after n (sim_reset true d)).g (by rw [hstart]; change 0 + _ < _; omega) (by rw [hstart])
  rw [hstart] at hpowered hcont ⊢
  have hzero : (0 : UInt32).toNat = 0 := rfl
  have hdead := congrArg Powered.dead hpowered
  have hflash := congrArg Powered.store hpowered
  unfold Statics.powered fuse at hdead hflash
  dsimp only at hdead hflash ⊢
  rw [hzero] at hdead hflash
  refine ⟨hcont.jumped, hcont.aborted, hcont.hit, ?_⟩
  rcases Nat.eq_zero_or_pos n.toNat with hnone | hpos
  · rw [if_neg (by omega), foldl_powered] at hdead
    rw [if_neg (by omega)]
    have hops := (hcont.alive hdead).2
    exact ⟨hdead, hops.trans (Nat.zero_add _)⟩
  · rw [if_pos hpos, foldl_cut] at hdead hflash
    by_cases hmax : n.toNat ≤ (updateOps img).length
    · rw [if_pos (by omega)] at hdead hflash
      rw [if_pos ⟨hpos, hmax⟩]
      exact ⟨hdead, hflash⟩
    · rw [if_neg (by omega)] at hdead
      rw [if_neg (fun h => hmax h.2)]
      have hops := (hcont.alive hdead).2
      exact ⟨hdead, hops.trans (Nat.zero_add _)⟩

/-! ## BOOT -/

theorem sim_request_boot {d : Sim} (h : d.Live) :
    sim_request (wire CMD_BOOT []) d =
      if AppValid (region port_info d.g.flash) then
        (wire (CMD_BOOT ||| RSP_FLAG) [ST_OK], { d with g := { d.g with jumped := true } })
      else (wire (CMD_BOOT ||| RSP_FLAG) [ST_NO_APP], d) := by
  obtain ⟨req, hreq, hcmd, -⟩ := parseFrame_wire CMD_BOOT [] (Nat.zero_le _)
  have hops : flashOps d.session req = [] := by
    unfold flashOps
    rw [hcmd]
    rfl
  have hboot := upd_handle_boot store d.session d.g.flash rspCap hcmd (by decide)
  have hrun := sim_request_run h hreq
  rw [h.info] at hboot
  rw [hboot, hops, hcmd] at hrun
  dsimp only [List.foldl_nil] at hrun
  rw [hrun, if_neg (by rw [h.powered]; decide)]
  by_cases hvalid : AppValid (region port_info d.g.flash)
  · have hsession : ({ info := port_info, erased := d.session.erased, boot_pending := false } : UpdSession) =
        d.session := by
      rw [← h.info, ← h.no_boot]
    rw [if_pos hvalid, if_pos hvalid, take_gate_run rfl]
    dsimp only
    rw [if_pos rfl, if_pos hvalid, hsession]
    rfl
  · rw [if_neg hvalid, if_neg hvalid]
    dsimp only
    rw [take_gate_settled h.no_boot]
    rfl

section Boot

variable {ε : Type} {T : Transport Sim ε} {calm : Sim → Prop} (hT : Carries T calm) {d : Sim}
  (hcalm : calm d) (hlive : d.Live) (buf : List UInt8) (hbuf : 7 ≤ buf.length)
  (calls : List (UInt16 × UInt16))
include hT hcalm hlive hbuf

theorem boot_refused (hinvalid : ¬ AppValid (region port_info d.g.flash)) :
    let r := boot T { transport := d, buf, progress := calls }
    r.1 = .error (.Device ST_NO_APP) ∧ calm r.2.transport ∧ r.2.transport.g = d.g ∧
      r.2.transport.session = d.session := by
  have hrequest := sim_request_boot hlive
  rw [if_neg hinvalid] at hrequest
  obtain ⟨rx, hrx, hexchange⟩ := transact_exchange T CMD_BOOT [] ST_RSP_PAYLOAD (Nat.zero_le _)
    { transport := d, buf, progress := calls } hbuf
  obtain ⟨hcalm', hg, hsession, -, hshown⟩ :=
    hT.serves d CMD_BOOT [] rx hcalm (Nat.zero_le _) (Or.inr hlive)
  rw [hrequest] at hg hsession hshown
  obtain ⟨pad, hseen⟩ := hshown _ _ rfl (Nat.le_of_eq hrx.symm) (by decide)
  have hfinal : finalStatus (CMD_BOOT ||| RSP_FLAG)
      (received (T.request d (wire CMD_BOOT []) rx).1) = some ST_NO_APP := by
    rw [hseen]
    unfold finalStatus
    dsimp only
    rw [decode_padded_wire _ _ _ (by decide)]
    rfl
  have hrefused := exchange_refused T d (wire CMD_BOOT []) rx _ ST_NO_APP (by decide) hfinal
  rw [hrefused] at hexchange
  dsimp only at hexchange
  unfold boot
  rw [except_bind_apply, hexchange]
  exact ⟨rfl, hcalm', hg, hsession⟩

theorem boot_accepted (hvalid : AppValid (region port_info d.g.flash)) :
    let r := boot T { transport := d, buf, progress := calls }
    r.1 = .ok () ∧ calm r.2.transport ∧ r.2.transport.g = { d.g with jumped := true } := by
  have hrequest := sim_request_boot hlive
  rw [if_pos hvalid] at hrequest
  have hserves : Serves T (wire CMD_BOOT []) (ST_RSP_PAYLOAD + 3) (CMD_BOOT ||| RSP_FLAG)
      (fun k d' => k = 1 + RETRY_BUDGET ∧ d' = d)
      (fun _ d' => calm d' ∧ d'.g = { d.g with jumped := true }) (fun _ => False) := by
    rintro k d' rx ⟨-, rfl⟩ hrx
    obtain ⟨hcalm', hg, -, -, hshown⟩ :=
      hT.serves d' CMD_BOOT [] rx hcalm (Nat.zero_le _) (Or.inr hlive)
    rw [hrequest] at hg hshown
    obtain ⟨pad, hseen⟩ := hshown _ _ rfl (Nat.le_of_eq hrx.symm) (by decide)
    have haccepted : Accepted (received (T.request d' (wire CMD_BOOT []) rx).1)
        (CMD_BOOT ||| RSP_FLAG) [] := ⟨_, hseen, decode_padded_wire _ _ _ (by decide)⟩
    exact ⟨fun _ _ => ⟨hcalm', hg⟩, fun hretry => absurd hretry haccepted.not_retryable,
      fun hnone => absurd haccepted (hnone [])⟩
  have hrun := (transact_rule T CMD_BOOT [] ST_RSP_PAYLOAD buf.length calls (Nat.zero_le _)
    (fun _ h => absurd h.1 (by decide)) (fun h => absurd hbuf (Nat.not_le.mpr h)) hserves)
      { transport := d, buf, progress := calls } ⟨⟨rfl, rfl⟩, rfl, rfl⟩
  unfold boot
  rw [except_bind_apply]
  rcases htransact : transact T CMD_BOOT [] ST_RSP_PAYLOAD { transport := d, buf, progress := calls } with
    ⟨e | rest, self⟩
  · rw [htransact] at hrun
    exact hrun.elim
  · rw [htransact] at hrun
    exact ⟨rfl, hrun.transport⟩

end Boot

/-! ## The sweep -/

section Sweep

variable {ε : Type} (T : Transport Sim ε)

/-- `let mut buf = [0u8; 320]` -/
def frame_buf : List UInt8 := List.replicate 320 0

omit T in
theorem length_frame_buf : frame_buf.length = 320 := List.length_replicate

/-- Every update, and every BOOT, has a session of its own. -/
def try_flash (img : Image) (d : Sim) : Except (Error ε) Unit × Sim :=
  let r := flash T img { transport := d, buf := frame_buf, progress := [] }
  (r.1, r.2.transport)

def try_boot (d : Sim) : Except (Error ε) Unit × Sim :=
  let r := boot T { transport := d, buf := frame_buf, progress := [] }
  (r.1, r.2.transport)

variable {T} {calm : Sim → Prop} (hT : Carries T calm) {img : Image}
  (hps : port_info.page_size = img.page_size) (hap : port_info.app_pages = img.app_pages)
include hT

include hps hap in
theorem try_flash_ops {d : Sim} (hcalm : calm d) (hlive : d.Live) :
    let r := try_flash T img d
    let g := (updateOps img).foldl simPort.call d.g
    calm r.2 ∧ r.2.g = g ∧ (g.dead = true → ∃ e, r.1 = .error e) ∧
      (g.dead = false → r.1 = .ok () ∧ r.2.Live ∧ region port_info g.flash = img.content) := by
  have h128 : img.page_size.toNat = 128 := by
    rw [← hps]
    rfl
  have hroom : img.page_size.toNat + 20 ≤ frame_buf.length := by
    rw [h128, length_frame_buf]
    omega
  have hcampaign := campaign_flash hps hap hT hcalm hlive frame_buf hroom []
  unfold try_flash
  dsimp only at hcampaign ⊢
  generalize flash T img { transport := d, buf := frame_buf, progress := [] } = r at hcampaign
  obtain ⟨result, self⟩ := r
  obtain ⟨hcalm', hg, hrun⟩ := hcampaign
  refine ⟨hcalm', hg, ?_, ?_⟩
  · intro hdead
    rcases result with e | _
    · exact ⟨e, rfl⟩
    · dsimp only at hrun
      rw [hrun.1] at hdead
      cases hdead
  · intro halive
    rcases result with e | _
    · dsimp only at hrun
      rw [halive] at hrun
      cases hrun
    · exact ⟨rfl, hrun.2.1, hrun.2.2.1⟩

theorem try_boot_gate {d : Sim} (hcalm : calm d) (hlive : d.Live) :
    let r := try_boot T d
    calm r.2 ∧
      (AppValid (region port_info d.g.flash) → r.1 = .ok () ∧ r.2.g = { d.g with jumped := true }) ∧
      (¬ AppValid (region port_info d.g.flash) →
        r.1 = .error (.Device ST_NO_APP) ∧ r.2.g = d.g ∧ r.2.session = d.session) := by
  have hbuf : 7 ≤ frame_buf.length := by
    rw [length_frame_buf]
    decide
  unfold try_boot
  dsimp only
  by_cases hvalid : AppValid (region port_info d.g.flash)
  · obtain ⟨hok, hcalm', hg⟩ := boot_accepted hT hcalm hlive _ hbuf [] hvalid
    exact ⟨hcalm', fun _ => ⟨hok, hg⟩, fun hinvalid => absurd hvalid hinvalid⟩
  · obtain ⟨herror, hcalm', hg, hsession⟩ := boot_refused hT hcalm hlive _ hbuf [] hvalid
    exact ⟨hcalm', fun h => absurd h hvalid, fun _ => ⟨herror, hg, hsession⟩⟩

include hps hap

theorem clean_update {d : Sim} (hcalm : calm d) (hlive : d.Live) {d' : Sim}
    (hreset : d.g = (sim_reset true d').g) :
    let again := try_flash T img d
    let booted := try_boot T again.2
    again.1 = .ok () ∧ region port_info again.2.g.flash = img.content ∧ booted.1 = .ok () ∧
      booted.2.g.jumped = true := by
  obtain ⟨-, -, -, hgone⟩ := armed_update hps hap 0 d'
  have hunarmed : (sim_powercut_after 0 (sim_reset true d')).g = (sim_reset true d').g := rfl
  have hzero : ¬ (1 ≤ (0 : UInt32).toNat ∧ (0 : UInt32).toNat ≤ (updateOps img).length) :=
    fun h => absurd h.1 (by decide)
  rw [if_neg hzero, hunarmed, ← hreset] at hgone
  obtain ⟨hcalm', hg, -, hok⟩ := try_flash_ops hT hps hap hcalm hlive
  obtain ⟨hdone, hlive', hregion⟩ := hok hgone.1
  obtain ⟨-, hboot, -⟩ := try_boot_gate hT hcalm' hlive'
  dsimp only at hg hregion hboot ⊢
  generalize try_flash T img d = again at hg hdone hboot
  rw [hg, hregion] at hboot
  obtain ⟨hbooted, hjumped⟩ := hboot (appValid_content img)
  refine ⟨hdone, hg ▸ hregion, hbooted, ?_⟩
  rw [hjumped]

/-- An update that is cut at flash operation `n`, the BOOT after it, and what recovers the device. -/
theorem power_cut_sweep (n : UInt32) (d : Sim) (hcalm : calm d) :
    let total := 32 + img.pages.length
    let cut := try_flash T img (sim_powercut_after n (sim_reset true d))
    let back := try_boot T (sim_reset true cut.2)
    let again := try_flash T img back.2
    let booted := try_boot T again.2
    cut.2.g.aborted = d.g.aborted ∧ cut.2.g.jumped = false ∧
      if 1 ≤ n.toNat ∧ n.toNat ≤ total then
        (∃ e, cut.1 = .error e) ∧ cut.2.g.cut_hit = true ∧
          cut.2.g.flash = interrupted whole torn (n.toNat - 1) (updateOps img) d.g.flash ∧
          if Outlives n.toNat (region port_info d.g.flash) then
            back.1 = .ok () ∧ back.2.g.jumped = true
          else
            back.1 = .error (.Device ST_NO_APP) ∧ back.2.g.jumped = false ∧ again.1 = .ok () ∧
              region port_info again.2.g.flash = img.content ∧ booted.1 = .ok () ∧
              booted.2.g.jumped = true
      else
        cut.1 = .ok () ∧ cut.2.g.cut_hit = false ∧ cut.2.g.ops.toNat = total ∧
          region port_info cut.2.g.flash = img.content ∧ back.1 = .ok () ∧ back.2.g.jumped = true := by
  have hlive : (sim_powercut_after n (sim_reset true d)).Live := ⟨rfl, rfl, rfl, rfl⟩
  have hstart := hT.armed _ n (hT.reset d true hcalm)
  obtain ⟨hcalm', hg, herror, hok⟩ := try_flash_ops hT hps hap hstart hlive
  obtain ⟨hjumped, haborted, hhit, hcut⟩ := armed_update hps hap n d
  rw [length_updateOps] at hcut
  dsimp only at hg hcut ⊢
  generalize (updateOps img).foldl simPort.call (sim_powercut_after n (sim_reset true d)).g = g
    at hg herror hok hjumped haborted hhit hcut
  generalize try_flash T img (sim_powercut_after n (sim_reset true d)) = cut at hcalm' hg herror hok
  rw [hg]
  refine ⟨haborted, hjumped, ?_⟩
  have hback := try_boot_gate hT (hT.reset cut.2 true hcalm') (d := sim_reset true cut.2) ⟨rfl, rfl, rfl, rfl⟩
  have hkept : (sim_reset true cut.2).g.flash = g.flash := by
    rw [← hg]
    rfl
  rw [hkept] at hback
  obtain ⟨hafter_boot, haccepted, hrefused⟩ := hback
  by_cases hin : 1 ≤ n.toNat ∧ n.toNat ≤ 32 + img.pages.length
  · rw [if_pos hin] at hcut ⊢
    obtain ⟨hdead, hflash⟩ := hcut
    have hgate := torn_valid_iff hps hap n.toNat hin.1 (by rw [length_updateOps]; exact hin.2) d.g.flash
    rw [← hflash] at hgate
    refine ⟨herror hdead, hhit.trans hdead, hflash, ?_⟩
    by_cases houtlives : Outlives n.toNat (region port_info d.g.flash)
    · rw [if_pos houtlives]
      obtain ⟨hboot, hafter⟩ := haccepted (hgate.mpr houtlives)
      exact ⟨hboot, by rw [hafter]⟩
    · rw [if_neg houtlives]
      obtain ⟨hboot, hafter, hsession⟩ := hrefused (fun hvalid => houtlives (hgate.mp hvalid))
      have hagain : (try_boot T (sim_reset true cut.2)).2.Live := by
        refine ⟨?_, ?_, ?_, ?_⟩
        · rw [hafter]
          rfl
        · rw [hafter]
          rfl
        · rw [hsession]
          rfl
        · rw [hsession]
          rfl
      obtain ⟨hdone, hregion, hbooted, hgone⟩ := clean_update hT hps hap hafter_boot hagain hafter
      exact ⟨hboot, by rw [hafter]; rfl, hdone, hregion, hbooted, hgone⟩
  · rw [if_neg hin] at hcut ⊢
    obtain ⟨halive, hops⟩ := hcut
    obtain ⟨hdone, -, hregion⟩ := hok halive
    obtain ⟨hboot, hafter⟩ := haccepted (by rw [hregion]; exact appValid_content img)
    exact ⟨hdone, hhit.trans halive, hops, hregion, hboot, by rw [hafter]⟩

end Sweep

theorem program_start_calm : (acquire program_start).Calm :=
  (stream_transport_carries 0).reset program_start false
    ⟨link_init_good _ _ List.length_replicate, rfl, fun _ _ => rfl⟩

/-- Three bytes over the stream, with a cut in the first write. -/
theorem power_cut_sweep_first_write : ∃ img, Image.from_bin [1, 2, 3] 128 32 = .ok img ∧
    let cut := try_flash (stream_transport 1) img (sim_powercut_after 33 (sim_reset true (acquire program_start)))
    let back := try_boot (stream_transport 1) (sim_reset true cut.2)
    let again := try_flash (stream_transport 1) img back.2
    (∃ e, cut.1 = .error e) ∧ back.1 = .error (.Device ST_NO_APP) ∧ again.1 = .ok () ∧
      (try_boot (stream_transport 1) again.2).2.g.jumped = true := by
  obtain ⟨img, himg, -⟩ := from_bin_eq_ok [1, 2, 3] 128 32 (by decide) (by decide) (by decide) (by decide)
  obtain ⟨-, hps, hap⟩ := from_bin_fields himg
  refine ⟨img, himg, ?_⟩
  obtain ⟨-, -, hsweep⟩ := power_cut_sweep (stream_transport_carries 1) hps.symm hap.symm 33
    (acquire program_start) program_start_calm
  have hpages : 0 < img.pages.length := List.length_pos_of_mem img.footer_page_mem
  have h33 : (33 : UInt32).toNat = 33 := rfl
  have hin : 1 ≤ (33 : UInt32).toNat ∧ (33 : UInt32).toNat ≤ 32 + img.pages.length := by
    rw [h33]
    omega
  rw [if_pos hin] at hsweep
  obtain ⟨herror, -, -, hgate⟩ := hsweep
  have hwrite : ¬ Outlives (33 : UInt32).toNat (region port_info (acquire program_start).g.flash) :=
    fun h => absurd h.1 (by decide)
  rw [if_neg hwrite] at hgate
  exact ⟨herror, hgate.1, hgate.2.2.1, hgate.2.2.2.2.2⟩

end OtaUpdater.Conformance
