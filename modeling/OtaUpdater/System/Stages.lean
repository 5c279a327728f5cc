import OtaUpdater.Agreement.Pages
import OtaUpdater.System.Attempts

/-!
# The stages of an update

Request after request, what the device's region holds once the request is granted,
and what no happening on the way to the next one can take away.
-/

open OtaUpdater.Lib.Bytes OtaUpdater.Lib.State OtaUpdater.Wire OtaUpdater.Device OtaUpdater.Host
open OtaUpdater.Agreement

namespace OtaUpdater.System

/-! ## Happenings -/

theorem happen_info (frame : List UInt8) (d : Dev) (h : Happening) :
    (happen frame d h).s.info = d.s.info := by
  unfold happen
  rcases h with _ | _ | ⟨k, tear⟩
  · rfl
  · rcases hreq : parseFrame frame with _ | req
    · simp [transaction, hreq]
    · obtain ⟨-, hs, -⟩ := transaction_eq d hreq
      dsimp only
      rw [hs]
      exact upd_handle_info_eq _ _ _ _ _
  · unfold cutTransaction
    rcases parseFrame frame with _ | req <;> rfl

theorem happen_erased (frame : List UInt8) (d : Dev) (h : Happening)
    (herased : (happen frame d h).s.erased = true) : h = .handled := by
  rcases h with _ | _ | ⟨k, tear⟩
  · cases herased
  · rfl
  · unfold happen cutTransaction at herased
    rcases hreq : parseFrame frame with _ | req
    · rw [hreq] at herased
      cases herased
    · rw [hreq] at herased
      cases herased

theorem happen_keeps_flash {cmd : UInt8} {payload : List UInt8} (hmax : payload.length ≤ payloadMax)
    (herase : cmd ≠ UPD_CMD_ERASE_APP) (hwrite : cmd ≠ UPD_CMD_WRITE_PAGE) (d : Dev) (h : Happening) :
    (happen (wire cmd payload) d h).f = d.f := by
  obtain ⟨req, hreq, hcmd, -⟩ := parseFrame_wire cmd payload hmax
  rw [← hcmd] at herase hwrite
  have hhandle : ∀ fuse, (d.handle req fuse).2.f = d.f := by
    intro fuse
    have hkeeps : Keeps (fun r : Rig => r.f = d.f)
        (upd_handle (rigPort d.s.info) d.s req rspCap) :=
      upd_handle_keeps_of_reads (fun off _ r hr => hr) req rspCap herase hwrite
    exact hkeeps _ rfl
  unfold happen
  rcases h with _ | _ | ⟨k, tear⟩
  · rfl
  · simp only [transaction, hreq]
    exact hhandle none
  · simp only [cutTransaction, hreq]
    exact hhandle (some (k, tear))

section Update

variable (img : Image)

/-! ## The requests -/

def request : Nat → UInt8 × List UInt8
  | 0 => (CMD_INFO, [])
  | 1 => (CMD_ERASE_APP, ERASE_MAGIC)
  | i + 2 =>
    match img.pages[i]? with
    | some index => (CMD_WRITE_PAGE, writePayload img index)
    | none => (CMD_VERIFY, verifyPayload img)

def requestFrame (n : Nat) : List UInt8 := wire (request img n).1 (request img n).2

theorem request_write (i : Nat) (hi : i < img.pages.length) :
    request img (i + 2) = (CMD_WRITE_PAGE, writePayload img img.pages[i]) := by
  simp only [request, List.getElem?_eq_getElem hi]

theorem request_verify (i : Nat) (hi : img.pages.length ≤ i) :
    request img (i + 2) = (CMD_VERIFY, verifyPayload img) := by
  simp only [request, List.getElem?_eq_none hi]

theorem page_index_lt (i : Nat) (hi : i < img.pages.length) :
    img.pages[i].toNat < img.app_pages.toNat := by
  have hmem := (img.mem_pages_iff img.pages[i]).mp (List.getElem_mem hi)
  exact UInt16.lt_iff_toNat_lt.mp hmem.1

theorem request_fits (n : Nat) : (request img n).2.length ≤ payloadMax := by
  match n with
  | 0 => exact Nat.zero_le _
  | 1 => exact (by decide : ERASE_MAGIC.length ≤ payloadMax)
  | i + 2 =>
    rcases Nat.lt_or_ge i img.pages.length with hi | hi
    · have hfits : img.page_size.toNat ≤ 250 := img.page_fits
      rw [request_write img i hi]
      dsimp only
      rw [length_writePayload img _ (UInt16.lt_iff_toNat_lt.mpr (page_index_lt img i hi))]
      simp only [payloadMax]
      omega
    · rw [request_verify img i hi]
      simp [verifyPayload, payloadMax]

/-! ## The region on the way -/

def Shows (i : Nat) (f : Flash) : Prop :=
  ∀ off < img.region, f off =
    if UInt16.ofNat (off / img.page_size.toNat) ∈ img.pages.take i then img.content.getD off 0 else 0xFF

theorem shows_iff (i : Nat) (f : Flash) : Shows img i f ↔ Holds img (img.pages.take i) f := Iff.rfl

theorem shows_erased (info : PortInfo) (hregion : info.region = img.region) (f : Flash) :
    Shows img 0 (eraseAll info f) := holds_erased info hregion f

theorem shows_write (i : Nat) (hi : i < img.pages.length) (f : Flash)
    (hf : Shows img i f ∨ Shows img (i + 1) f) :
    Shows img (i + 1) (writePage store img.page_size.toNat img.pages[i].toNat
      (img.page img.pages[i].toNat) f) := by
  have htake : img.pages.take (i + 1) = img.pages.take i ++ [img.pages[i]] :=
    List.take_succ_eq_append_getElem hi
  simp only [shows_iff] at hf ⊢
  rcases hf with hf | hf
  · refine holds_congr ?_ (holds_write store_fills store_repeats img.pages[i] hf)
    intro j
    rw [htake, List.mem_cons, List.mem_append, List.mem_singleton, or_comm]
  · refine holds_congr ?_ (holds_write store_fills store_repeats img.pages[i] hf)
    intro j
    have hmem : img.pages[i] ∈ img.pages.take (i + 1) := by
      rw [htake]
      exact List.mem_append_right _ (List.mem_singleton_self _)
    rw [List.mem_cons, or_iff_right_of_imp]
    rintro rfl
    exact hmem

theorem region_of_shows (info : PortInfo) (hregion : info.region = img.region) (i : Nat)
    (hi : img.pages.length ≤ i) (f : Flash) (hf : Shows img i f) : region info f = img.content := by
  rw [shows_iff, List.take_of_length_le hi] at hf
  exact region_of_holds info hregion (fun j hj => hj) hf

/-! ## Reactions -/

section Reactions

variable {img} {d : Dev}

theorem transaction_write (hps : d.s.info.page_size = img.page_size)
    (hap : d.s.info.app_pages = img.app_pages) (i : Nat) (hi : i < img.pages.length) :
    let payload := writePayload img img.pages[i]
    let d' := (transaction (wire CMD_WRITE_PAGE payload) d).2
    d'.s = d.s ∧
      (∀ rest, Grants CMD_WRITE_PAGE payload rest d ↔ d.s.erased = true ∧ rest = []) ∧
      (d.s.erased = true → d'.f = writePage store img.page_size.toNat img.pages[i].toNat
        (img.page img.pages[i].toNat) d.f) := by
  have hindex := page_index_lt img i hi
  have hfits := request_fits img (i + 2)
  rw [request_write img i hi] at hfits
  obtain ⟨req, hreq, hcmd, hpayload⟩ := parseFrame_wire CMD_WRITE_PAGE
    (writePayload img img.pages[i]) hfits
  obtain ⟨hlen, hidx, hdata⟩ := write_fields _ hindex hpayload
  obtain ⟨-, hs, hf⟩ := transaction_eq d hreq
  have hroom : rspCap ≠ 0 := by decide
  have hrange : ¬ d.s.info.app_pages ≤ write_index req := by
    rw [UInt16.not_le, UInt16.lt_iff_toNat_lt, hidx, hap]
    exact hindex
  have hwrite := upd_handle_write store d.s d.f rspCap hcmd hroom
  rw [handle_write_array, hps] at hwrite
  dsimp only
  refine ⟨?_, ?_, ?_⟩
  · rw [hs, hwrite]
  · intro rest
    rw [grants_iff d rest hreq hcmd, hwrite]
    by_cases herased : d.s.erased = true
    · simp [herased, hlen, hrange, eq_comm]
    · have hst : UPD_ST_NOT_ERASED ≠ UPD_ST_OK := by decide
      simp [herased, hst]
  · intro herased
    rw [hf, hwrite]
    simp [herased, hlen, hrange, hidx, hdata]

theorem transaction_erase :
    let d' := (transaction (wire CMD_ERASE_APP ERASE_MAGIC) d).2
    Grants CMD_ERASE_APP ERASE_MAGIC [] d ∧ d'.s = { d.s with erased := true } ∧
      d'.f = eraseAll d.s.info d.f := by
  obtain ⟨req, hreq, hcmd, hpayload⟩ := parseFrame_wire CMD_ERASE_APP ERASE_MAGIC (by decide)
  obtain ⟨-, hs, hf⟩ := transaction_eq d hreq
  have hmagic : req.payload = eraseMagic := hpayload
  have herase := upd_handle_erase store d.s d.f rspCap hcmd (by decide)
  rw [if_pos hmagic] at herase
  refine ⟨?_, ?_, ?_⟩
  · rw [grants_iff d [] hreq hcmd, herase]
  · rw [hs, herase]
  · rw [hf, herase]

theorem verify_keeps_flash (d : Dev) (h : Happening) :
    (happen (wire CMD_VERIFY (verifyPayload img)) d h).f = d.f := by
  have hfits : (verifyPayload img).length ≤ payloadMax := by
    rw [verifyPayload, List.length_append, length_leBytes, length_leBytes]
    decide
  have herase : CMD_VERIFY ≠ UPD_CMD_ERASE_APP := by decide
  have hwrite : CMD_VERIFY ≠ UPD_CMD_WRITE_PAGE := by decide
  exact happen_keeps_flash hfits herase hwrite d h

end Reactions

/-! ## Stages -/

variable (info : PortInfo)

structure Stage (n : Nat) (d : Dev) : Prop where
  info : d.s.info = info
  shows : ∀ i, n = i + 2 → d.s.erased = true ∨ img.pages.length ≤ i →
    Shows img i d.f ∨ Shows img (i + 1) d.f

theorem shows_past (i : Nat) (hi : img.pages.length ≤ i) (f : Flash)
    (hf : Shows img i f ∨ Shows img (i + 1) f) (j : Nat) (hj : img.pages.length ≤ j) :
    Shows img j f := by
  have hwhole : ∀ k, img.pages.length ≤ k → img.pages.take k = img.pages :=
    fun k hk => List.take_of_length_le hk
  unfold Shows at hf ⊢
  rw [hwhole j hj]
  rw [hwhole i hi, hwhole (i + 1) (by omega), or_self] at hf
  exact hf

section Geometry

variable {img info} (hps : info.page_size = img.page_size) (hap : info.app_pages = img.app_pages)
include hps hap

theorem region_eq : info.region = img.region := by
  unfold PortInfo.region Image.region
  rw [hps, hap]

/-- No happening takes away what a stage knows. -/
theorem stage_happen (n : Nat) (d : Dev) (h : Happening) (hd : Stage img info n d) :
    Stage img info n (happen (requestFrame img n) d h) := by
  refine ⟨by rw [happen_info, hd.info], ?_⟩
  rintro i rfl hknown
  rcases Nat.lt_or_ge i img.pages.length with hi | hi
  · have herased := hknown.resolve_right (Nat.not_le.mpr hi)
    have hhandled := happen_erased _ d h herased
    subst hhandled
    have hgeometry := hd.info ▸ And.intro hps hap
    obtain ⟨hs, -, hf⟩ := transaction_write hgeometry.1 hgeometry.2 i hi
    unfold requestFrame happen at herased ⊢
    rw [request_write img i hi] at herased ⊢
    rw [hs] at herased
    rw [hf herased]
    exact Or.inr (shows_write img i hi d.f (hd.shows i rfl (Or.inl herased)))
  · unfold requestFrame
    rw [request_verify img i hi, verify_keeps_flash]
    exact hd.shows i rfl (Or.inr hi)

theorem stage_granted (n : Nat) (rest : List UInt8) (d' : Dev)
    (h : Granted (request img n).1 (request img n).2 rest (Stage img info n) d') :
    Stage img info (n + 1) d' := by
  obtain ⟨d, hd, hgrants, rfl⟩ := h
  have hinfo : (transaction (requestFrame img n) d).2.s.info = info :=
    (happen_info (requestFrame img n) d .handled).trans hd.info
  refine ⟨hinfo, ?_⟩
  intro i hi hknown
  obtain rfl : n = i + 1 := by omega
  cases i with
  | zero =>
    obtain ⟨-, -, hf⟩ := transaction_erase (d := d)
    left
    have hrequest : request img (0 + 1) = (CMD_ERASE_APP, ERASE_MAGIC) := rfl
    rw [hrequest, hf, hd.info]
    exact shows_erased img info (region_eq hps hap) d.f
  | succ i =>
    rcases Nat.lt_or_ge i img.pages.length with hlt | hge
    · have hgeometry := hd.info ▸ And.intro hps hap
      obtain ⟨-, hgranted, hf⟩ := transaction_write hgeometry.1 hgeometry.2 i hlt
      rw [request_write img i hlt] at hgrants ⊢
      have herased := ((hgranted rest).mp hgrants).1
      rw [hf herased]
      exact Or.inl (shows_write img i hlt d.f (hd.shows i rfl (Or.inl herased)))
    · have hflash : (transaction (wire CMD_VERIFY (verifyPayload img)) d).2.f = d.f :=
        verify_keeps_flash d .handled
      rw [request_verify img i hge, hflash]
      exact Or.inl (shows_past img i hge d.f (hd.shows i rfl (Or.inr hge)) (i + 1) (by omega))

theorem region_of_stage (d : Dev) (hd : Stage img info (3 + img.pages.length) d) :
    region info d.f = img.content := by
  have hshows := hd.shows (img.pages.length + 1) (by omega) (Or.inr (by omega))
  exact region_of_shows img info (region_eq hps hap) _ (Nat.le_refl _) d.f
    (shows_past img _ (by omega) d.f hshows _ (Nat.le_refl _))

end Geometry

/-! ## The session, stage by stage -/

def responseRoom (n : Nat) : Nat := if n = 0 then INFO_RSP_PAYLOAD + 3 else ST_RSP_PAYLOAD + 3

/-- `flash` goes from stage to stage if each of its requests does. -/
theorem flash_stages {τ ε : Type} (T : Transport τ ε) (room : Nat) (stage : Nat → Nat → τ → Prop)
    (err : τ → Prop) (calls : List (UInt16 × UInt16)) (hzero : ∀ n t, stage n 0 t → err t)
    (hsmall : room < img.page_size.toNat + 20 → ∀ n t, stage n (1 + RETRY_BUDGET) t → err t)
    (hserves : ∀ n, n < 3 + img.pages.length →
      Serves T (requestFrame img n) (responseRoom n) ((request img n).1 ||| RSP_FLAG) (stage n)
        (fun rest t => (InfoMatches (ε := ε) img rest ∨ n ≠ 0 → stage (n + 1) (1 + RETRY_BUDGET) t) ∧
          (¬ InfoMatches (ε := ε) img rest ∧ n = 0 → err t)) err) :
    Spec (flash T img) (Session.At room calls (stage 0 (1 + RETRY_BUDGET)))
      (fun _ => Session.At room (calls ++ progressCalls img.pages.length img.pages.length)
        (stage (3 + img.pages.length) (1 + RETRY_BUDGET)))
      (fun s => err s.transport) := by
  have hinfo := hserves 0 (by omega)
  have herase := hserves 1 (by omega)
  have hverify := hserves (img.pages.length + 2) (by omega)
  unfold requestFrame at hinfo herase hverify
  rw [request_verify img _ (Nat.le_refl _)] at hverify
  apply flash_rule T img room stage calls hzero hsmall
  · refine hinfo.weaken T (fun rest t h => ?_) (fun _ h => h)
    exact ⟨fun hmatch => h.1 (Or.inl hmatch), fun hnone => h.2 ⟨hnone, rfl⟩⟩
  · exact herase.weaken T (fun rest t h => h.1 (Or.inr (by decide))) (fun _ h => h)
  · intro i hi
    have hwrite := hserves (i + 2) (by omega)
    unfold requestFrame at hwrite
    rw [request_write img i hi] at hwrite
    rw [Nat.add_comm 2, Nat.add_comm 3]
    exact hwrite.weaken T (fun rest t h => h.1 (Or.inr (by omega))) (fun _ h => h)
  · rw [Nat.add_comm 2, Nat.add_comm 3]
    exact hverify.weaken T (fun rest t h => h.1 (Or.inr (by omega))) (fun _ h => h)

end Update

end OtaUpdater.System
