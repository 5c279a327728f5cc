import OtaUpdater.Device.MainLoop
import OtaUpdater.System.Plant

/-!
# Updates of a board

The frame side of the ports' main loops, on any flash layer. A layer that stands for a plain
array, also across resets and power cuts, carries an update like the plain array does.
-/

open OtaUpdater.Lib.Bytes OtaUpdater.Lib.State OtaUpdater.Wire OtaUpdater.Device OtaUpdater.Host
open OtaUpdater.Agreement

namespace OtaUpdater.System

variable {β κ ε : Type}

def UPDATER_RX_BUF_SIZE : UInt8 := 136

/-! ## The board behind its link -/

def receiveFrame (frame : List UInt8) : Option UpdFrame :=
  if frame.length ≤ UPDATER_RX_BUF_SIZE.toNat then upd_frame_parse frame (UInt8.ofNat frame.length)
  else none

theorem receiveFrame_length {frame : List UInt8} {req : UpdFrame} (h : receiveFrame frame = some req) :
    frame.length ≤ 136 := by
  unfold receiveFrame at h
  split at h
  · assumption
  · cases h

/-- What `main` does with a frame: one that is damaged or too long gets no reply. -/
def serveFrame (port : Port β) (frame : List UInt8) (d : UpdSession × β) :
    List UInt8 × (UpdSession × β) :=
  match receiveFrame frame with
  | none => ([], d)
  | some req =>
    let r := upd_handle port d.1 req UPDATER_RSP_PAYLOAD_MAX d.2
    let built := upd_frame_build (List.replicate UPDATER_TX_BUF_SIZE.toNat 0) UPDATER_TX_BUF_SIZE
      (req.cmd ||| UPD_RSP_FLAG) (.apart r.1.2) (UInt8.ofNat r.1.2.length)
    (built.2.take built.1.toNat, (r.1.1, r.2))

/-- What can befall the board on account of a request. -/
inductive Mishap (κ : Type) where
  | unheard
  | reset (how : κ)
  | cut (how : κ)

/-- `lost b b' how` is left of a board that was `b` before a request, and would be `b'` after it. -/
def boardPlant (port : Port β) (info : PortInfo) (lost : β → β → κ → β) :
    Plant (UpdSession × β) (Mishap κ) where
  serve := serveFrame port
  befall frame d mishap :=
    match mishap with
    | .unheard => (serveFrame port frame d).2
    | .reset how => (upd_init info, lost d.2 d.2 how)
    | .cut how => (upd_init info, lost d.2 (serveFrame port frame d).2.2 how)

/-- A board after whatever it was sent, by whatever hosts, and what befell it meanwhile. -/
def boardLife (port : Port β) (info : PortInfo) (lost : β → β → κ → β)
    (life : List (List UInt8 × Mishap κ)) (d : UpdSession × β) : UpdSession × β :=
  life.foldl (fun d step => (boardPlant port info lost).befall step.1 d step.2) d

theorem receiveFrame_wire (cmd : UInt8) (payload : List UInt8) (hmax : payload.length ≤ 133) :
    ∃ req, receiveFrame (wire cmd payload) = some req ∧ req.cmd = cmd ∧ req.payload = payload := by
  have h136 : UPDATER_RX_BUF_SIZE.toNat = 136 := rfl
  have hlen : (wire cmd payload).length ≤ UPDATER_RX_BUF_SIZE.toNat := by
    rw [length_wire]
    omega
  have hbyte := len_byte (wire cmd payload) (by omega)
  have hpayload := (len_byte payload (by omega)).symm
  refine ⟨⟨cmd, UInt8.ofNat payload.length, payload, hpayload⟩, ?_, rfl, rfl⟩
  unfold receiveFrame
  rw [if_pos hlen, upd_frame_parse_iff _ _ (Nat.le_of_eq hbyte), hbyte, List.take_length]

theorem serveFrame_eq (port : Port β) {frame : List UInt8} {req : UpdFrame}
    (hreq : receiveFrame frame = some req) (d : UpdSession × β) :
    let r := upd_handle port d.1 req UPDATER_RSP_PAYLOAD_MAX d.2
    serveFrame port frame d = (wire (req.cmd ||| UPD_RSP_FLAG) r.1.2, (r.1.1, r.2)) ∧
      r.1.2.length ≤ 17 := by
  have h20 : UPDATER_TX_BUF_SIZE.toNat = 20 := rfl
  have hlength : (upd_handle port d.1 req UPDATER_RSP_PAYLOAD_MAX d.2).1.2.length ≤ 17 :=
    (upd_handle_answer_length port d.1 req d.2 UPDATER_RSP_PAYLOAD_MAX).1
  have hbuilt := (upd_frame_build_shows (List.replicate UPDATER_TX_BUF_SIZE.toNat 0) UPDATER_TX_BUF_SIZE
    (req.cmd ||| UPD_RSP_FLAG) (upd_handle port d.1 req UPDATER_RSP_PAYLOAD_MAX d.2).1.2
    List.length_replicate (by omega)).1
  refine ⟨?_, hlength⟩
  unfold serveFrame
  rw [hreq]
  dsimp only
  rw [hbuilt]

/-- What a port keeps from call to call of the core, and a board through every reset and cut, a board
keeps all its life. -/
theorem boardLife_keeps {port : Port β} {info : PortInfo} {lost : β → β → κ → β} {inv : β → Prop}
    (hport : Confined port info inv) (hlost : ∀ b b' how, inv b → inv b' → inv (lost b b' how))
    (life : List (List UInt8 × Mishap κ)) (d : UpdSession × β) (hinfo : d.1.info = info) (h : inv d.2) :
    (boardLife port info lost life d).1.info = info ∧ inv (boardLife port info lost life d).2 := by
  induction life generalizing d with
  | nil => exact ⟨hinfo, h⟩
  | cons step life ih =>
    obtain ⟨frame, mishap⟩ := step
    have hserve : (serveFrame port frame d).2.1.info = info ∧ inv (serveFrame port frame d).2.2 := by
      unfold serveFrame
      split
      · exact ⟨hinfo, h⟩
      · rename_i req _
        rw [← hinfo] at hport
        exact ⟨(upd_handle_info_eq port d.1 req d.2 _).trans hinfo, upd_handle_keeps hport req _ d.2 h⟩
    cases mishap with
    | unheard => exact ih _ hserve.1 hserve.2
    | reset how => exact ih _ rfl (hlost d.2 d.2 how h h)
    | cut how => exact ih _ rfl (hlost d.2 _ how h hserve.2)

/-! ## Flash layers -/

/-- A page that the request may write is blank, or holds what is to be written. -/
def Writable (info : PortInfo) (s : UpdSession) (req : UpdFrame) (f : Flash) : Prop :=
  req.cmd = UPD_CMD_WRITE_PAGE → s.erased = true → req.len.toNat = info.page_size.toNat + 2 →
    write_index req < info.app_pages →
      ∀ off, InPage info.page_size.toNat (write_index req).toNat off → f off = 0xFF ∨
        f off = (req.payload.drop 2).getD (off - (write_index req).toNat * info.page_size.toNat) 0

theorem program_again {program : Program} (hblank : program.Fills) (hagain : program.Repeats) (b : UInt8) :
    program b b = b := by
  have hb := hagain 0xFF b
  rw [hblank] at hb
  exact hb

/-- Where a page is blank or holds the data, it is all one what programming does to other bytes. -/
theorem program_as_store {program : Program} (hblank : program.Fills) (hagain : program.Repeats)
    {info : PortInfo} {s : UpdSession} (hs : s.info = info) {req : UpdFrame} {f : Flash}
    (hwritable : Writable info s req f) (rsp_cap : UInt8) :
    upd_handle (arrayPort info program) s req rsp_cap f =
      upd_handle (arrayPort info store) s req rsp_cap f := by
  subst hs
  by_cases hcap : rsp_cap = 0
  · subst hcap
    rfl
  by_cases herase : req.cmd = UPD_CMD_ERASE_APP
  · rw [upd_handle_erase program s f rsp_cap herase hcap, upd_handle_erase store s f rsp_cap herase hcap]
  by_cases hwrite : req.cmd = UPD_CMD_WRITE_PAGE
  · rw [upd_handle_write program s f rsp_cap hwrite hcap, upd_handle_write store s f rsp_cap hwrite hcap,
      handle_write_array, handle_write_array]
    split_ifs with herased hlen hidx
    · rfl
    · rfl
    · rfl
    · rw [Bool.not_eq_false] at herased
      rw [not_not] at hlen
      have hpage := hwritable hwrite herased hlen (UInt16.not_le.mp hidx)
      have hsame : writePage program s.info.page_size.toNat (write_index req).toNat (req.payload.drop 2) f =
          writePage store s.info.page_size.toNat (write_index req).toNat (req.payload.drop 2) f := by
        funext off
        unfold writePage
        split
        · rename_i hin
          rcases hpage off hin with hff | hsame
          · rw [hff]
            exact hblank _
          · rw [hsame]
            exact program_again hblank hagain _
        · rfl
      rw [hsame]
  · have hreads : ReadsAgree (arrayPort s.info program) (arrayPort s.info store) s.info Eq := by
      rintro off _ f _ rfl
      exact ⟨rfl, rfl⟩
    obtain ⟨hret, hflash⟩ := upd_handle_agree_of_reads hreads req rsp_cap herase hwrite f f rfl
    exact Prod.ext hret hflash

/-- `shows b f` says that the board stands for the array `f`, and `flushed b` that all of it is in
the flash. -/
structure Stands (port : Port β) (info : PortInfo) (lost : β → β → κ → β) (shows : β → Flash → Prop)
    (flushed : β → Prop) : Prop where
  handles : ∀ s b f req, s.info = info → shows b f → Writable info s req f →
    let board := upd_handle port s req UPDATER_RSP_PAYLOAD_MAX b
    let plain := upd_handle (arrayPort info store) s req UPDATER_RSP_PAYLOAD_MAX f
    board.1 = plain.1 ∧ shows board.2 plain.2
  reads : ∀ s b f req, s.info = info → shows b f → req.cmd ≠ UPD_CMD_ERASE_APP →
    req.cmd ≠ UPD_CMD_WRITE_PAGE → flushed b →
    flushed (upd_handle port s req UPDATER_RSP_PAYLOAD_MAX b).2
  last : ∀ s b f req, s.info = info → shows b f → req.cmd = UPD_CMD_WRITE_PAGE → s.erased = true →
    req.len.toNat = info.page_size.toNat + 2 → (write_index req).toNat + 1 = info.app_pages.toNat →
    flushed (upd_handle port s req UPDATER_RSP_PAYLOAD_MAX b).2
  reset : ∀ b f how, shows b f → ∃ f', shows (lost b b how) f' ∧
    (flushed b → f' = f ∧ flushed (lost b b how))
  cut : ∀ s b f req how, s.info = info → shows b f → Writable info s req f →
    let b' := lost b (upd_handle port s req UPDATER_RSP_PAYLOAD_MAX b).2 how
    ∃ f', shows b' f' ∧ (req.cmd ≠ UPD_CMD_ERASE_APP → req.cmd ≠ UPD_CMD_WRITE_PAGE → flushed b →
      f' = f ∧ flushed b')

/-! ## The plain array beside the board -/

def asDev (s : UpdSession) (f : Flash) : Dev := { s, f, log := [] }

section Update

variable {img : Image} {info : PortInfo}

variable (img info) in
/-- The image was made for the board. -/
def Fits : Prop := info.page_size = img.page_size ∧ info.app_pages = img.app_pages

theorem stage_congr {n : Nat} {d d' : Dev} (h : Stage img info n d) (hs : d'.s = d.s) (hf : d'.f = d.f) :
    Stage img info n d' := by
  refine ⟨by rw [hs]; exact h.info, ?_⟩
  intro i hi hknown
  rw [hf]
  rw [hs] at hknown
  exact h.shows i hi hknown

/-- A lost session forgets the erase: what remains to be known is a region with nothing to write. -/
theorem stage_lost {n : Nat} {s : UpdSession} {f f' : Flash} (h : Stage img info n (asDev s f))
    (hkept : img.pages.length + 2 ≤ n → f' = f) : Stage img info n (asDev (upd_init info) f') := by
  refine ⟨rfl, ?_⟩
  rintro i rfl (herased | hdone)
  · cases herased
  · have hsame := hkept (by omega)
    rw [hsame]
    exact h.shows i rfl (Or.inr hdone)

theorem request_cmd (img : Image) (n : Nat) :
    (request img n).1 = CMD_INFO ∨ (request img n).1 = CMD_ERASE_APP ∨
      (request img n).1 = CMD_WRITE_PAGE ∨ (request img n).1 = CMD_VERIFY := by
  match n with
  | 0 => exact Or.inl rfl
  | 1 => exact Or.inr (Or.inl rfl)
  | i + 2 =>
    rcases Nat.lt_or_ge i img.pages.length with hi | hi
    · rw [request_write img i hi]
      exact Or.inr (Or.inr (Or.inl rfl))
    · rw [request_verify img i hi]
      exact Or.inr (Or.inr (Or.inr rfl))

theorem request_not_echo (n : Nat) : (request img n).1 ≠ UPD_CMD_ECHO := by
  intro hecho
  rcases request_cmd img n with h | h | h | h <;> rw [h] at hecho <;> exact absurd hecho (by decide)

theorem request_not_boot (n : Nat) : (request img n).1 ≠ UPD_CMD_BOOT := by
  intro hboot
  rcases request_cmd img n with h | h | h | h <;> rw [h] at hboot <;> exact absurd hboot (by decide)

theorem request_received (n : Nat) (hps : 2 ≤ n → img.page_size.toNat ≤ 131) :
    ∃ req, receiveFrame (requestFrame img n) = some req ∧ parseFrame (requestFrame img n) = some req ∧
      req.cmd = (request img n).1 ∧ req.payload = (request img n).2 := by
  have hsmall : (request img n).2.length ≤ 133 := by
    match n with
    | 0 => exact Nat.zero_le _
    | 1 => exact (by decide : ERASE_MAGIC.length ≤ 133)
    | i + 2 =>
      rcases Nat.lt_or_ge i img.pages.length with hi | hi
      · have hfits := hps (by omega)
        rw [request_write img i hi]
        dsimp only
        rw [length_writePayload img _ (UInt16.lt_iff_toNat_lt.mpr (page_index_lt img i hi))]
        omega
      · rw [request_verify img i hi]
        simp [verifyPayload]
  obtain ⟨req, hreq, hcmd, hpayload⟩ := receiveFrame_wire (request img n).1 (request img n).2 hsmall
  obtain ⟨req', hreq', hcmd', hpayload'⟩ := parseFrame_wire (request img n).1 (request img n).2
    (request_fits img n)
  have hsame : req' = req := frame_eq (hcmd'.trans hcmd.symm) (hpayload'.trans hpayload.symm)
  exact ⟨req, hreq, hsame ▸ hreq', hcmd, hpayload⟩

theorem writable_of_stage {n : Nat} (hgeometry : 0 < n → Fits img info) {s : UpdSession} {f : Flash}
    (h : Stage img info n (asDev s f))
    {req : UpdFrame} (hcmd : req.cmd = (request img n).1) (hpayload : req.payload = (request img n).2) :
    Writable info s req f := by
  intro hwrite herased _ _
  match n with
  | 0 =>
    rw [hcmd] at hwrite
    exact absurd hwrite (by simp only [request]; decide)
  | 1 =>
    rw [hcmd] at hwrite
    exact absurd hwrite (by simp only [request]; decide)
  | i + 2 =>
    rcases Nat.lt_or_ge i img.pages.length with hi | hi
    · rw [request_write img i hi] at hpayload
      have hindex := page_index_lt img i hi
      obtain ⟨-, hidx, hdata⟩ := write_fields _ hindex hpayload
      rw [hidx, hdata, (hgeometry (by omega)).1]
      intro off hin
      have hoff : off < img.region := by
        have hend : (img.pages[i].toNat + 1) * img.page_size.toNat ≤
            img.app_pages.toNat * img.page_size.toNat := Nat.mul_le_mul_right _ hindex
        have hlast : (img.pages[i].toNat + 1) * img.page_size.toNat =
            img.pages[i].toNat * img.page_size.toNat + img.page_size.toNat := Nat.succ_mul _ _
        unfold InPage at hin
        unfold Image.region
        rw [Nat.mul_comm img.page_size.toNat]
        omega
      have hcontent := content_getD img _ off hin
      have hshown : ∀ j, Shows img j f → f off = 0xFF ∨
          f off = (img.page img.pages[i].toNat).getD (off - img.pages[i].toNat * img.page_size.toNat) 0 := by
        intro j hj
        rw [hj off hoff, ← hcontent]
        split
        · exact Or.inr rfl
        · exact Or.inl rfl
      rcases h.shows i rfl (Or.inl herased) with hshows | hshows
      · exact hshown _ hshows
      · exact hshown _ hshows
    · rw [request_verify img i hi] at hcmd
      rw [hcmd] at hwrite
      have hne : CMD_VERIFY ≠ UPD_CMD_WRITE_PAGE := by decide
      exact absurd hwrite hne

end Update

/-! ## An update of the board -/

section Course

variable {port : Port β} {info : PortInfo} {lost : β → β → κ → β} {shows : β → Flash → Prop}
  {flushed : β → Prop} {img : Image}

structure BoardStage (img : Image) (info : PortInfo) (shows : β → Flash → Prop) (flushed : β → Prop)
    (n : Nat) (d : UpdSession × β) : Prop where
  fits : 0 < n → Fits img info
  beside : ∃ f, shows d.2 f ∧ Stage img info n (asDev d.1 f)
  flushed : img.pages.length + 2 ≤ n → flushed d.2

variable (hstands : Stands port info lost shows flushed) (hpage : info.page_size.toNat ≤ 131)

include hpage in
theorem request_received_of_fits (n : Nat) (hfits : 0 < n → Fits img info) :
    ∃ req, receiveFrame (requestFrame img n) = some req ∧ parseFrame (requestFrame img n) = some req ∧
      req.cmd = (request img n).1 ∧ req.payload = (request img n).2 := by
  apply request_received
  intro hn
  rw [← (hfits (by omega)).1]
  exact hpage

include hstands hpage

theorem serve_beside (n : Nat) (hfits : 0 < n → Fits img info) {s : UpdSession} {b : β} {f : Flash}
    (hshows : shows b f) (hstage : Stage img info n (asDev s f)) :
    let board := serveFrame port (requestFrame img n) (s, b)
    let plain := transaction (requestFrame img n) (asDev s f)
    board.1 = plain.1 ∧ board.2.1 = plain.2.s ∧ shows board.2.2 plain.2.f ∧
      ∃ answer, answer.length ≤ payloadMax ∧
        board.1 = wire ((request img n).1 ||| RSP_FLAG) answer := by
  obtain ⟨req, hreceive, hparse, hcmd, hpayload⟩ := request_received_of_fits hpage n hfits
  have hinfo : s.info = info := hstage.info
  obtain ⟨hserve, hlength⟩ := serveFrame_eq port hreceive (s, b)
  obtain ⟨hanswer, hsession, hflash⟩ := transaction_eq (asDev s f) hparse
  obtain ⟨hsame, hafter⟩ := hstands.handles s b f req hinfo hshows
    (writable_of_stage hfits hstage hcmd hpayload)
  have hroom : upd_handle (arrayPort info store) s req UPDATER_RSP_PAYLOAD_MAX =
      upd_handle (arrayPort info store) s req rspCap :=
    upd_handle_room _ s req (by decide) (by decide) (by rw [hcmd]; exact request_not_echo n)
  have hdev : (asDev s f).s = s := rfl
  have hdevf : (asDev s f).f = f := rfl
  rw [hdev, hdevf, hinfo, ← hroom, ← hsame] at hanswer hsession
  rw [hdev, hdevf, hinfo, ← hroom] at hflash
  dsimp only at hserve hlength hafter ⊢
  rw [hserve, hanswer, hsession, hflash]
  refine ⟨rfl, rfl, hafter, _, ?_, by rw [hcmd]; rfl⟩
  simp only [payloadMax]
  omega

theorem serve_flushed (n : Nat) (hn : img.pages.length + 2 ≤ n) (d : UpdSession × β)
    (h : BoardStage img info shows flushed n d) :
    flushed (serveFrame port (requestFrame img n) d).2.2 := by
  obtain ⟨s, b⟩ := d
  obtain ⟨f, hshows, hstage⟩ := h.beside
  obtain ⟨req, hreceive, -, hcmd, -⟩ := request_received_of_fits hpage n h.fits
  obtain ⟨i, rfl⟩ := Nat.exists_eq_add_of_le' (Nat.le_trans (Nat.le_add_left 2 _) hn)
  rw [request_verify img i (by omega)] at hcmd
  obtain ⟨hserve, -⟩ := serveFrame_eq port hreceive (s, b)
  dsimp only at hserve
  rw [hserve]
  have hinfo : s.info = info := hstage.info
  apply hstands.reads s b f req hinfo hshows
  · rw [hcmd]
    exact (by decide : CMD_VERIFY ≠ UPD_CMD_ERASE_APP)
  · rw [hcmd]
    exact (by decide : CMD_VERIFY ≠ UPD_CMD_WRITE_PAGE)
  · exact h.flushed hn

theorem boardStage_served (n : Nat) (d : UpdSession × β) (h : BoardStage img info shows flushed n d) :
    BoardStage img info shows flushed n (serveFrame port (requestFrame img n) d).2 := by
  refine ⟨h.fits, ?_, fun hn => serve_flushed hstands hpage n hn d h⟩
  obtain ⟨s, b⟩ := d
  obtain ⟨f, hshows, hstage⟩ := h.beside
  obtain ⟨-, hsession, hafter, -⟩ := serve_beside hstands hpage n h.fits hshows hstage
  refine ⟨_, hafter, ?_⟩
  have hdev : Stage img info n (transaction (requestFrame img n) (asDev s f)).2 := by
    rcases Nat.eq_zero_or_pos n with rfl | hpos
    · exact ⟨(happen_info _ _ .handled).trans hstage.info, fun i hi => by omega⟩
    · exact stage_happen (h.fits hpos).1 (h.fits hpos).2 n (asDev s f) .handled hstage
  exact stage_congr hdev hsession rfl

theorem boardStage_befalls (n : Nat) (d : UpdSession × β) (mishap : Mishap κ)
    (h : BoardStage img info shows flushed n d) :
    BoardStage img info shows flushed n
      ((boardPlant port info lost).befall (requestFrame img n) d mishap) := by
  cases mishap with
  | unheard => exact boardStage_served hstands hpage n d h
  | reset how =>
    obtain ⟨f, hshows, hstage⟩ := h.beside
    obtain ⟨f', hshows', hkept⟩ := hstands.reset d.2 f how hshows
    refine ⟨h.fits, ⟨f', hshows', ?_⟩, fun hn => (hkept (h.flushed hn)).2⟩
    exact stage_lost hstage (fun hn => (hkept (h.flushed hn)).1)
  | cut how =>
    obtain ⟨s, b⟩ := d
    obtain ⟨f, hshows, hstage⟩ := h.beside
    obtain ⟨req, hreceive, -, hcmd, hpayload⟩ := request_received_of_fits hpage n h.fits
    obtain ⟨hserve, -⟩ := serveFrame_eq port hreceive (s, b)
    have hinfo : s.info = info := hstage.info
    obtain ⟨f', hshows', hkept⟩ := hstands.cut s b f req how hinfo hshows
      (writable_of_stage h.fits hstage hcmd hpayload)
    have hquiet : img.pages.length + 2 ≤ n →
        f' = f ∧ flushed (lost b (upd_handle port s req UPDATER_RSP_PAYLOAD_MAX b).2 how) := by
      intro hn
      obtain ⟨i, rfl⟩ := Nat.exists_eq_add_of_le' (Nat.le_trans (Nat.le_add_left 2 _) hn)
      rw [request_verify img i (by omega)] at hcmd
      apply hkept _ _ (h.flushed hn)
      · rw [hcmd]
        exact (by decide : CMD_VERIFY ≠ UPD_CMD_ERASE_APP)
      · rw [hcmd]
        exact (by decide : CMD_VERIFY ≠ UPD_CMD_WRITE_PAGE)
    dsimp only at hserve hshows' hquiet
    have hbefall : (boardPlant port info lost).befall (requestFrame img n) (s, b) (.cut how) =
        (upd_init info, lost b (upd_handle port s req UPDATER_RSP_PAYLOAD_MAX b).2 how) := by
      unfold boardPlant
      dsimp only
      rw [hserve]
    rw [hbefall]
    exact ⟨h.fits, ⟨f', hshows', stage_lost hstage (fun hn => (hquiet hn).1)⟩,
      fun hn => (hquiet hn).2⟩

omit hstands hpage in
theorem fits_of_info {rest : List UInt8} {d : Dev} (hgrants : Grants CMD_INFO [] rest d)
    (hmatch : InfoMatches (ε := ε) img rest) : Fits img d.s.info := by
  obtain ⟨req, hreq, hcmd, -⟩ := parseFrame_wire CMD_INFO [] (Nat.zero_le _)
  have hanswer := upd_handle_info store d.s d.f rspCap hcmd (by decide)
  rw [grants_iff d rest hreq hcmd, hanswer] at hgrants
  unfold infoAnswer at hgrants
  dsimp only at hgrants
  rw [List.cons.injEq] at hgrants
  obtain ⟨info', hparse, -, hps, hap⟩ := hmatch
  rw [← hgrants.2] at hparse
  have hinfo := (Except.ok.inj hparse).symm
  subst hinfo
  dsimp only at hps hap
  rw [half_bytes] at hps hap
  exact ⟨hps, hap⟩

theorem boardStage_granted (n : Nat) (d : UpdSession × β) (rest : List UInt8)
    (h : BoardStage img info shows flushed n d)
    (hgranted : (serveFrame port (requestFrame img n) d).1 =
      wire ((request img n).1 ||| RSP_FLAG) (ST_OK :: rest))
    (hmatch : InfoMatches (ε := ε) img rest ∨ n ≠ 0) :
    BoardStage img info shows flushed (n + 1) (serveFrame port (requestFrame img n) d).2 := by
  obtain ⟨s, b⟩ := d
  obtain ⟨f, hshows, hstage⟩ := h.beside
  have hinfo : s.info = info := hstage.info
  obtain ⟨hanswer, hsession, hafter, -⟩ := serve_beside hstands hpage n h.fits hshows hstage
  have hgrants : Grants (request img n).1 (request img n).2 rest (asDev s f) := by
    unfold Grants
    rw [hgranted] at hanswer
    exact hanswer.symm
  have hfits : Fits img info := by
    rcases Nat.eq_zero_or_pos n with rfl | hpos
    · have hfits := fits_of_info hgrants (hmatch.resolve_right (by omega))
      rw [← hinfo]
      exact hfits
    · exact h.fits hpos
  have hdev : Stage img info (n + 1) (transaction (requestFrame img n) (asDev s f)).2 :=
    stage_granted hfits.1 hfits.2 n rest _ ⟨_, hstage, hgrants, rfl⟩
  refine ⟨fun _ => hfits, ⟨_, hafter, stage_congr hdev hsession rfl⟩, ?_⟩
  intro hn
  rcases Nat.lt_or_ge n (img.pages.length + 2) with hlast | hdone
  · have hsome : 0 < img.pages.length := List.length_pos_of_mem img.footer_page_mem
    obtain ⟨i, rfl⟩ := Nat.exists_eq_add_of_le' (by omega : 2 ≤ n)
    have hi : i < img.pages.length := by omega
    have hindex := page_index_lt img i hi
    obtain ⟨req, hreceive, -, hcmd, hpayload⟩ := request_received_of_fits hpage (i + 2) h.fits
    obtain ⟨hserve, -⟩ := serveFrame_eq port hreceive (s, b)
    rw [request_write img i hi] at hcmd hpayload hgrants
    obtain ⟨hlen, hidx, -⟩ := write_fields _ hindex hpayload
    obtain ⟨-, hiff, -⟩ := transaction_write (d := asDev s f) (by rw [← hfits.1, ← hinfo]; rfl)
      (by rw [← hfits.2, ← hinfo]; rfl) i hi
    have herased := ((hiff rest).mp hgrants).1
    dsimp only at hserve
    rw [hserve]
    apply hstands.last s b f req hinfo hshows hcmd herased
    · rw [hlen, hfits.1]
    · rw [hidx, hfits.2]
      exact img.last_page i hi (by omega)
  · exact serve_flushed hstands hpage n hdone (s, b) h

theorem boardStage_course : Plant.Course (ε := ε) (boardPlant port info lost) (fun _ => True) img
    (BoardStage img info shows flushed) where
  answers := by
    rintro n ⟨s, b⟩ h
    obtain ⟨f, hshows, hstage⟩ := h.beside
    exact (serve_beside hstands hpage n h.fits hshows hstage).2.2.2
  befalls n d mishap _ h := boardStage_befalls hstands hpage n d mishap h
  served n d h := boardStage_served hstands hpage n d h
  granted n d rest h hgranted hmatch := boardStage_granted hstands hpage n d rest h hgranted hmatch

/-! ## What an update makes of the board -/

omit hstands hpage in
def boardSession (d : UpdSession × β) (buf : List UInt8) : Session (Plant.World (UpdSession × β)) :=
  { transport := { dev := d, clock := 0 }, buf, progress := [] }

omit hstands hpage in
theorem boardStage_start {s : UpdSession} (hinfo : s.info = info) {b : β} {f : Flash}
    (hshows : shows b f) : BoardStage img info shows flushed 0 (s, b) := by
  refine ⟨fun h => by omega, ⟨f, hshows, hinfo, fun i hi => by omega⟩, fun h => by omega⟩

omit hstands hpage in
theorem boardStage_end {d : UpdSession × β}
    (h : BoardStage img info shows flushed (3 + img.pages.length) d) :
    Fits img info ∧ d.1.info = info ∧ flushed d.2 ∧
      ∃ f, shows d.2 f ∧ region info f = img.content := by
  have hfits := h.fits (by omega)
  obtain ⟨f, hshows, hstage⟩ := h.beside
  refine ⟨hfits, hstage.info, h.flushed (by omega), f, hshows, ?_⟩
  exact region_of_stage hfits.1 hfits.2 (asDev d.1 f) hstage

/-- Whatever befell the board: an update that says it is done leaves the image, all of it in the
flash. -/
theorem board_flash_sound (schedule : Nat → Plant.Attempt (Mishap κ) ε) {s : UpdSession}
    (hinfo : s.info = info) {b : β} {f : Flash} (hshows : shows b f) (buf : List UInt8)
    (hok : (flash ((boardPlant port info lost).link schedule) img (boardSession (s, b) buf)).1 = .ok ()) :
    let d := (flash ((boardPlant port info lost).link schedule) img (boardSession (s, b) buf)).2.transport.dev
    Fits img info ∧ d.1.info = info ∧ flushed d.2 ∧
      ∃ f, shows d.2 f ∧ region info f = img.content := by
  have hcourse : Plant.Course (ε := ε) (boardPlant port info lost) (fun _ => True) img
      (BoardStage img info shows flushed) := boardStage_course hstands hpage
  have hallowed : ∀ i, ∀ h ∈ (schedule i).before, True := fun _ _ _ => trivial
  have hrun := hcourse.update hallowed buf.length [] (boardSession (s, b) buf)
    ⟨boardStage_start hinfo hshows, rfl, rfl⟩
  rcases hflash : flash ((boardPlant port info lost).link schedule) img (boardSession (s, b) buf) with
    ⟨e | _, session⟩
  · rw [hflash] at hok
    cases hok
  · rw [hflash] at hrun
    exact boardStage_end hrun.transport

/-! ## On a calm link -/

/-- No session is lost on a calm link. -/
structure BoardReady (img : Image) (info : PortInfo) (shows : β → Flash → Prop) (flushed : β → Prop)
    (n : Nat) (d : UpdSession × β) : Prop where
  stage : BoardStage img info shows flushed n d
  fits : Fits img info
  erased : 2 ≤ n → d.1.erased = true

omit hstands hpage in
theorem BoardReady.ready {n : Nat} {s : UpdSession} {b : β}
    (h : BoardReady img info shows flushed n (s, b)) :
    ∃ f, shows b f ∧ Ready img info n (asDev s f) := by
  obtain ⟨f, hshows, hstage⟩ := h.stage.beside
  exact ⟨f, hshows, hstage, h.erased⟩

def Mishap.Unheard (mishap : Mishap κ) : Prop := mishap = .unheard

theorem boardReady_served (n : Nat) (d : UpdSession × β) (h : BoardReady img info shows flushed n d) :
    BoardReady img info shows flushed n (serveFrame port (requestFrame img n) d).2 := by
  refine ⟨boardStage_served hstands hpage n d h.stage, h.fits, ?_⟩
  obtain ⟨s, b⟩ := d
  obtain ⟨f, hshows, hready⟩ := h.ready
  obtain ⟨-, hsession, -⟩ := serve_beside hstands hpage n h.stage.fits hshows hready.stage
  rw [hsession]
  exact (ready_kept h.fits.1 h.fits.2 n _ hready).erased

theorem boardReady_granted (n : Nat) (d : UpdSession × β) (rest : List UInt8)
    (h : BoardReady img info shows flushed n d)
    (hgranted : (serveFrame port (requestFrame img n) d).1 =
      wire ((request img n).1 ||| RSP_FLAG) (ST_OK :: rest))
    (hmatch : InfoMatches (ε := ε) img rest ∨ n ≠ 0) :
    BoardReady img info shows flushed (n + 1) (serveFrame port (requestFrame img n) d).2 := by
  refine ⟨boardStage_granted hstands hpage n d rest h.stage hgranted hmatch, h.fits, ?_⟩
  obtain ⟨s, b⟩ := d
  obtain ⟨f, hshows, hready⟩ := h.ready
  obtain ⟨hanswer, hsession, -⟩ := serve_beside hstands hpage n h.stage.fits hshows hready.stage
  rw [hsession]
  rw [hgranted] at hanswer
  exact (ready_granted h.fits.1 h.fits.2 n rest _ ⟨_, hready, hanswer.symm, rfl⟩).erased

theorem boardReady_course : Plant.Course (ε := ε) (boardPlant port info lost) Mishap.Unheard img
    (BoardReady img info shows flushed) where
  answers n d h := (boardStage_course (ε := ε) hstands hpage).answers n d h.stage
  befalls := by
    rintro n d mishap rfl h
    exact boardReady_served hstands hpage n d h
  served n d h := boardReady_served hstands hpage n d h
  granted n d rest h hgranted hmatch := boardReady_granted hstands hpage n d rest h hgranted hmatch

theorem boardReady_willing :
    Plant.Willing ε (boardPlant port info lost) img (BoardReady img info shows flushed) := by
  rintro n ⟨s, b⟩ h
  obtain ⟨f, hshows, hready⟩ := h.ready
  obtain ⟨hanswer, -⟩ := serve_beside hstands hpage n h.stage.fits hshows hready.stage
  obtain ⟨rest, hgrants, hroom⟩ := ready_grants h.fits.1 h.fits.2 n (asDev s f) hready
  refine ⟨rest, hanswer.trans hgrants, hroom, ?_⟩
  rintro rfl
  exact info_matches h.fits.1 h.fits.2 hready.stage.info rest hgrants

/-- From whatever state, an update over a link that is calm comes to its end. -/
theorem board_flash_recovers {schedule : Nat → Plant.Attempt (Mishap κ) ε}
    (hcalm : Plant.Calm Mishap.Unheard schedule) (hfits : Fits img info) {s : UpdSession}
    (hinfo : s.info = info) {b : β} {f : Flash} (hshows : shows b f) (buf : List UInt8)
    (hbuf : img.page_size.toNat + 20 ≤ buf.length) :
    (flash ((boardPlant port info lost).link schedule) img (boardSession (s, b) buf)).1 = .ok () := by
  have hcourse : Plant.Course (ε := ε) (boardPlant port info lost) Mishap.Unheard img
      (BoardReady img info shows flushed) := boardReady_course hstands hpage
  have hrun := hcourse.update_calm (boardReady_willing hstands hpage) hcalm buf.length hbuf []
    (boardSession (s, b) buf)
    ⟨⟨boardStage_start hinfo hshows, hfits, fun h => by omega⟩, rfl, rfl⟩
  rcases hflash : flash ((boardPlant port info lost).link schedule) img (boardSession (s, b) buf) with
    ⟨e | _, session⟩
  · rw [hflash] at hrun
    exact hrun.elim
  · rfl

end Course

/-! ### A patchy link -/

def patchyAttempts (κ : Type) (i : Nat) : Plant.Attempt (Mishap κ) Unit :=
  if i % 4 = 3 then { before := [], outcome := .answers 0 }
  else { before := [.unheard], outcome := .noise silence }

theorem patchyAttempts_calm (κ : Type) : Plant.Calm Mishap.Unheard (patchyAttempts κ) where
  allowed := by
    intro i h hmem
    unfold patchyAttempts at hmem
    split at hmem
    · cases hmem
    · exact List.mem_singleton.mp hmem
  retryable := by
    intro i n houtcome req room
    unfold patchyAttempts at houtcome
    split at houtcome
    · cases houtcome
    · cases houtcome
      trivial
  budget := by
    intro i
    refine ⟨3 - i % 4, Nat.sub_le _ _, 0, ?_⟩
    unfold patchyAttempts
    rw [if_pos (by omega)]

end OtaUpdater.System
