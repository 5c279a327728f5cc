import OtaUpdater.Lib.State
import OtaUpdater.Device.Update

/-!
# What the core does to any port

The core reaches a port only through calls inside the app region. So it keeps
every property that such calls keep, and two ports that answer such calls alike
cannot be told apart by it.
-/

open OtaUpdater.Lib.Bytes OtaUpdater.Lib.State

namespace OtaUpdater.Device

variable {σ τ : Type}

/-! ## The region, without the 32 bits -/

def PortInfo.region (i : PortInfo) : Nat := i.page_size.toNat * i.app_pages.toNat

theorem PortInfo.region_lt (i : PortInfo) : i.region < 2 ^ 32 := by
  have hp := i.page_size.toNat_lt
  have ha := i.app_pages.toNat_lt
  calc i.region ≤ (2 ^ 16 - 1) * (2 ^ 16 - 1) := Nat.mul_le_mul (by omega) (by omega)
    _ < 2 ^ 32 := by decide

theorem region_bytes_toNat (i : PortInfo) : (region_bytes i).toNat = i.region := by
  have h := i.region_lt
  rw [region_bytes, UInt32.toNat_mul, UInt16.toNat_toUInt32, UInt16.toNat_toUInt32]
  exact Nat.mod_eq_of_lt h

theorem region_lt_footer_iff (i : PortInfo) : region_bytes i < 16 ↔ i.region < 16 := by
  rw [UInt32.lt_iff_toNat_lt, region_bytes_toNat]
  rfl

theorem region_sub_footer (i : PortInfo) (h : ¬ region_bytes i < 16) :
    (region_bytes i - 16).toNat = i.region - 16 := by
  have h16 : (16 : UInt32).toNat = 16 := rfl
  rw [UInt32.not_lt] at h
  rw [UInt32.toNat_sub_of_le _ _ h, region_bytes_toNat, h16]

theorem add_toNat (a b : UInt32) (h : a.toNat + b.toNat < 2 ^ 32) :
    (a + b).toNat = a.toNat + b.toNat := by
  rw [UInt32.toNat_add]
  exact Nat.mod_eq_of_lt h

/-! ## Two ports that answer alike -/

def ReadsAgree (P : Port σ) (Q : Port τ) (info : PortInfo) (rel : σ → τ → Prop) : Prop :=
  ∀ off, off.toNat < info.region →
    Agree rel (P.port_flash_read_byte off) (Q.port_flash_read_byte off)

/-- So do erases and writes of a page of the region. -/
structure CallsAgree (P : Port σ) (Q : Port τ) (info : PortInfo) (rel : σ → τ → Prop) : Prop where
  read : ReadsAgree P Q info rel
  erase : ∀ p, p < info.app_pages → Agree rel (P.port_flash_erase_page p) (Q.port_flash_erase_page p)
  write : ∀ p data, p < info.app_pages → data.length = info.page_size.toNat →
    Agree rel (P.port_flash_write_page p data) (Q.port_flash_write_page p data)

section Agree

variable {P : Port σ} {Q : Port τ} {info : PortInfo} {rel : σ → τ → Prop}

theorem flash_crc_loop_agree (h : ReadsAgree P Q info rel) (k : Nat) (off c : UInt32)
    (hoff : off.toNat + k ≤ info.region) :
    Agree rel (flash_crc_loop P k off c) (flash_crc_loop Q k off c) := by
  induction k generalizing off c with
  | zero => exact Agree.pure _
  | succ k ih =>
    have hlt := info.region_lt
    have hnext : (off + 1).toNat = off.toNat + 1 := succ_toNat32 (by omega)
    exact Agree.bind (h _ (by omega)) (fun b => ih _ _ (by omega))

theorem flash_crc_agree (h : ReadsAgree P Q info rel) (length : UInt32)
    (hlen : length.toNat ≤ info.region) :
    Agree rel (flash_crc P length) (flash_crc Q length) :=
  Agree.bind (flash_crc_loop_agree h _ _ _ (by simpa using hlen)) (fun _ => Agree.pure _)

theorem footer_words_agree (h : ReadsAgree P Q info rel) (base : UInt32)
    (hbase : base.toNat + 16 ≤ info.region) (k : Nat) (i len crc : UInt32)
    (hi : i.toNat + k ≤ 4) :
    Agree rel (footer_words P base k i len crc) (footer_words Q base k i len crc) := by
  induction k generalizing i len crc with
  | zero => exact Agree.pure _
  | succ k ih =>
    have hlt := info.region_lt
    have h4 : (base + 4).toNat = base.toNat + 4 := add_toNat _ 4 (by simp; omega)
    have h8 : (base + 8).toNat = base.toNat + 8 := add_toNat _ 8 (by simp; omega)
    have hnext : (i + 1).toNat = i.toNat + 1 := succ_toNat32 (by omega)
    refine Agree.bind (h _ ?_) (fun l => Agree.bind (h _ ?_) (fun c => ih _ _ _ (by omega)))
    · rw [add_toNat _ _ (by omega)]; omega
    · rw [add_toNat _ _ (by omega)]; omega

theorem upd_app_valid_agree (h : ReadsAgree P Q info rel) :
    Agree rel (upd_app_valid P info) (upd_app_valid Q info) := by
  unfold upd_app_valid
  apply Agree.ite (fun _ => Agree.pure _)
  intro hbig
  have hsub := region_sub_footer info hbig
  have h16 : 16 ≤ info.region := by
    rw [region_lt_footer_iff] at hbig; omega
  have hlt := info.region_lt
  have hmagic : ∀ d : UInt32, d.toNat < 16 →
      Agree rel (P.port_flash_read_byte (region_bytes info - 16 + d))
        (Q.port_flash_read_byte (region_bytes info - 16 + d)) := by
    intro d hd
    apply h
    rw [add_toNat _ _ (by omega), hsub]
    omega
  refine Agree.bind (hmagic 0 (by decide)) (fun _ => Agree.ite (fun _ => Agree.pure _) (fun _ => ?_))
  refine Agree.bind (hmagic 1 (by decide)) (fun _ => Agree.ite (fun _ => Agree.pure _) (fun _ => ?_))
  refine Agree.bind (hmagic 2 (by decide)) (fun _ => Agree.ite (fun _ => Agree.pure _) (fun _ => ?_))
  refine Agree.bind (hmagic 3 (by decide)) (fun _ => Agree.ite (fun _ => Agree.pure _) (fun _ => ?_))
  apply Agree.bind (footer_words_agree h _ (by omega) 4 0 0 0 (by simp))
  intro words
  apply Agree.ite (fun _ => Agree.pure _)
  intro hlen
  rw [gt_iff_lt, UInt32.not_lt, UInt32.le_iff_toNat_le, hsub] at hlen
  exact Agree.bind (flash_crc_agree h _ (by omega)) (fun _ => Agree.pure _)

/-! ## The handlers -/

theorem handle_info_agree {s : UpdSession} (h : ReadsAgree P Q s.info rel) (rsp_cap : UInt8) :
    Agree rel (handle_info P s rsp_cap) (handle_info Q s rsp_cap) := by
  unfold handle_info
  apply Agree.ite (fun _ => Agree.pure _)
  intro _
  exact Agree.bind (upd_app_valid_agree h) (fun _ => Agree.pure _)

theorem erase_pages_agree (h : ∀ p, p < info.app_pages →
    Agree rel (P.port_flash_erase_page p) (Q.port_flash_erase_page p)) (k : Nat) (p : UInt16)
    (hp : p.toNat + k ≤ info.app_pages.toNat) :
    Agree rel (erase_pages P k p) (erase_pages Q k p) := by
  induction k generalizing p with
  | zero => exact Agree.pure _
  | succ k ih =>
    have hlt := info.app_pages.toNat_lt
    have hnext : (p + 1).toNat = p.toNat + 1 := succ_toNat16 (by omega)
    refine Agree.bind (h p ?_) (fun _ => ih _ (by omega))
    rw [UInt16.lt_iff_toNat_lt]
    omega

/-- Two erase loops that agree are enough: a sector at a time, the single pages need not. -/
theorem handle_erase_agree_of_loop {s : UpdSession}
    (h : Agree rel (erase_pages P s.info.app_pages.toNat 0) (erase_pages Q s.info.app_pages.toNat 0))
    (req : UpdFrame) : Agree rel (handle_erase P s req) (handle_erase Q s req) := by
  unfold handle_erase
  apply Agree.ite (fun _ => Agree.pure _)
  intro _
  exact Agree.bind h (fun _ => Agree.pure _)

theorem handle_erase_agree {s : UpdSession} (h : ∀ p, p < s.info.app_pages →
    Agree rel (P.port_flash_erase_page p) (Q.port_flash_erase_page p)) (req : UpdFrame) :
    Agree rel (handle_erase P s req) (handle_erase Q s req) :=
  handle_erase_agree_of_loop (erase_pages_agree h _ 0 (by simp)) req

theorem write_length_iff (s : UpdSession) (req : UpdFrame) :
    req.len.toUInt32 = s.info.page_size.toUInt32 + 2 ↔
      req.len.toNat = s.info.page_size.toNat + 2 := by
  have hp := s.info.page_size.toNat_lt
  have h2 : (2 : UInt32).toNat = 2 := rfl
  have hadd : (s.info.page_size.toUInt32 + 2).toNat = s.info.page_size.toNat + 2 := by
    rw [add_toNat _ _ (by rw [UInt16.toNat_toUInt32]; omega), UInt16.toNat_toUInt32, h2]
  rw [← UInt32.toNat_inj, hadd, UInt8.toNat_toUInt32]

theorem handle_write_run (P : Port σ) (s : UpdSession) (req : UpdFrame) (st : σ) :
    handle_write P s req st =
      if s.erased = false then ([UPD_ST_NOT_ERASED], st)
      else if req.len.toNat ≠ s.info.page_size.toNat + 2 then ([UPD_ST_BAD_FRAME], st)
      else if s.info.app_pages ≤ write_index req then ([UPD_ST_OUT_OF_RANGE], st)
      else ([UPD_ST_OK], (P.port_flash_write_page (write_index req) (req.payload.drop 2) st).2) := by
  unfold handle_write
  simp only [ite_run, bind_apply, pure_apply, ne_eq, write_length_iff, Bool.not_eq_true']

theorem handle_write_agree {s : UpdSession} (h : CallsAgree P Q s.info rel) (req : UpdFrame) :
    Agree rel (handle_write P s req) (handle_write Q s req) := by
  unfold handle_write
  refine Agree.ite (fun _ => Agree.pure _) (fun _ => Agree.ite (fun _ => Agree.pure _) (fun hlen => ?_))
  apply Agree.ite (fun _ => Agree.pure _)
  intro hidx
  rw [ne_eq, not_not, write_length_iff] at hlen
  refine Agree.bind (h.write _ _ (by simpa using hidx) ?_) (fun _ => Agree.pure _)
  rw [List.length_drop, req.payload_length, hlen]
  omega

theorem handle_verify_agree {s : UpdSession} (h : ReadsAgree P Q s.info rel) (req : UpdFrame) :
    Agree rel (handle_verify P s req) (handle_verify Q s req) := by
  unfold handle_verify
  refine Agree.ite (fun _ => Agree.pure _) (fun _ => Agree.ite (fun _ => Agree.pure _) (fun hlen => ?_))
  rw [not_or] at hlen
  obtain ⟨hbig, hlen⟩ := hlen
  rw [gt_iff_lt, UInt32.not_lt, UInt32.le_iff_toNat_le, region_sub_footer _ hbig] at hlen
  exact Agree.bind (flash_crc_agree h _ (by omega)) (fun _ => Agree.pure _)

theorem handle_boot_agree {s : UpdSession} (h : ReadsAgree P Q s.info rel) :
    Agree rel
      (do if ← upd_app_valid P s.info then
            return ({ s with boot_pending := true }, [UPD_ST_OK])
          else return (s, [UPD_ST_NO_APP]) : StateM σ (UpdSession × List UInt8))
      (do if ← upd_app_valid Q s.info then
            return ({ s with boot_pending := true }, [UPD_ST_OK])
          else return (s, [UPD_ST_NO_APP])) :=
  Agree.bind (upd_app_valid_agree h)
    (fun _ => Agree.ite (fun _ => Agree.pure _) (fun _ => Agree.pure _))

/-- Two ports that answer alike inside the region are alike to the whole FSM. -/
theorem upd_handle_agree {s : UpdSession} (h : CallsAgree P Q s.info rel) (req : UpdFrame)
    (rsp_cap : UInt8) : Agree rel (upd_handle P s req rsp_cap) (upd_handle Q s req rsp_cap) := by
  unfold upd_handle
  apply Agree.ite (fun _ => Agree.pure _)
  intro _
  refine Agree.ite (fun _ => ?info) (fun _ => Agree.ite (fun _ => ?erase) (fun _ => ?_))
  case info => exact Agree.bind (handle_info_agree h.read _) (fun _ => Agree.pure _)
  case erase => exact handle_erase_agree h.erase req
  refine Agree.ite (fun _ => ?write) (fun _ => Agree.ite (fun _ => ?verify) (fun _ => ?_))
  case write => exact Agree.bind (handle_write_agree h req) (fun _ => Agree.pure _)
  case verify => exact Agree.bind (handle_verify_agree h.read req) (fun _ => Agree.pure _)
  apply Agree.ite (fun _ => handle_boot_agree h.read)
  intro _
  exact Agree.ite (fun _ => Agree.pure _) (fun _ => Agree.pure _)

theorem upd_handle_agree_of_reads {s : UpdSession} (h : ReadsAgree P Q s.info rel)
    (req : UpdFrame) (rsp_cap : UInt8) (herase : req.cmd ≠ UPD_CMD_ERASE_APP)
    (hwrite : req.cmd ≠ UPD_CMD_WRITE_PAGE) :
    Agree rel (upd_handle P s req rsp_cap) (upd_handle Q s req rsp_cap) := by
  unfold upd_handle
  simp only [herase, hwrite, if_false]
  apply Agree.ite (fun _ => Agree.pure _)
  intro _
  refine Agree.ite (fun _ => ?info) (fun _ => Agree.ite (fun _ => ?verify) (fun _ => ?_))
  case info => exact Agree.bind (handle_info_agree h _) (fun _ => Agree.pure _)
  case verify => exact Agree.bind (handle_verify_agree h req) (fun _ => Agree.pure _)
  apply Agree.ite (fun _ => handle_boot_agree h)
  intro _
  exact Agree.ite (fun _ => Agree.pure _) (fun _ => Agree.pure _)

end Agree

/-- How much room there is for the answer makes no difference, once there is enough for INFO's: to
ECHO only. -/
theorem upd_handle_room (P : Port σ) (s : UpdSession) (req : UpdFrame) {rsp_cap rsp_cap' : UInt8}
    (hcap : 12 ≤ rsp_cap) (hcap' : 12 ≤ rsp_cap') (hecho : req.cmd ≠ UPD_CMD_ECHO) :
    upd_handle P s req rsp_cap = upd_handle P s req rsp_cap' := by
  have hzero : ∀ cap : UInt8, 12 ≤ cap → cap ≠ 0 := by
    rintro cap h rfl
    exact absurd h (by decide)
  have hinfo : handle_info P s rsp_cap = handle_info P s rsp_cap' := by
    unfold handle_info
    rw [if_neg (UInt8.not_lt.mpr hcap), if_neg (UInt8.not_lt.mpr hcap')]
  unfold upd_handle
  simp only [hzero _ hcap, hzero _ hcap', hecho, if_false, hinfo]

/-! ## Answers -/

section Answer

variable (P : Port σ) (s : UpdSession) (req : UpdFrame) (st : σ)

theorem handle_info_length (rsp_cap : UInt8) :
    (handle_info P s rsp_cap st).1.length = if rsp_cap < 12 then 1 else 12 := by
  unfold handle_info
  simp only [ite_run, bind_apply, pure_apply]
  split_ifs <;> rfl

theorem handle_erase_length : (handle_erase P s req st).1.2.length = 1 := by
  unfold handle_erase
  simp only [ite_run, bind_apply, pure_apply]
  split_ifs <;> rfl

theorem handle_write_length : (handle_write P s req st).1.length = 1 := by
  unfold handle_write
  simp only [ite_run, bind_apply, pure_apply]
  split_ifs <;> rfl

theorem handle_verify_length : (handle_verify P s req st).1.length = 1 := by
  unfold handle_verify
  simp only [ite_run, bind_apply, pure_apply]
  split_ifs <;> rfl

theorem handle_echo_length (rsp_cap : UInt8) (hcap : 1 ≤ rsp_cap.toNat) :
    1 ≤ (handle_echo req rsp_cap).length ∧ (handle_echo req rsp_cap).length ≤ rsp_cap.toNat := by
  have hlen := req.len.toNat_lt
  have hone : (1 : UInt32).toNat = 1 := rfl
  unfold handle_echo
  split
  · exact ⟨Nat.le_refl 1, hcap⟩
  · rename_i hfits
    rw [not_or, gt_iff_lt, gt_iff_lt, UInt32.not_lt, UInt32.le_iff_toNat_le,
      add_toNat _ _ (by rw [UInt8.toNat_toUInt32]; omega), UInt8.toNat_toUInt32,
      UInt8.toNat_toUInt32] at hfits
    rw [List.length_cons, req.payload_length]
    omega

theorem upd_handle_info_eq (rsp_cap : UInt8) : (upd_handle P s req rsp_cap st).1.1.info = s.info := by
  unfold upd_handle handle_erase
  simp only [ite_run, bind_apply, pure_apply]
  split_ifs <;> rfl

theorem upd_handle_answer_length (rsp_cap : UInt8) :
    (upd_handle P s req rsp_cap st).1.2.length ≤ rsp_cap.toNat ∧
      (rsp_cap ≠ 0 → 1 ≤ (upd_handle P s req rsp_cap st).1.2.length) := by
  by_cases hcap : rsp_cap = 0
  · subst hcap
    exact ⟨Nat.zero_le _, fun h => absurd rfl h⟩
  have hpos : 1 ≤ rsp_cap.toNat := by
    rw [Nat.one_le_iff_ne_zero]
    intro h
    exact hcap (UInt8.toNat_inj.mp h)
  have hone : ∀ answer : List UInt8, answer.length = 1 →
      answer.length ≤ rsp_cap.toNat ∧ (rsp_cap ≠ 0 → 1 ≤ answer.length) := by
    intro answer h
    rw [h]
    exact ⟨hpos, fun _ => Nat.le_refl 1⟩
  unfold upd_handle
  simp only [hcap, if_false, ite_run, bind_apply, pure_apply]
  split_ifs
  · rw [handle_info_length]
    have h12 : rsp_cap < 12 ↔ rsp_cap.toNat < 12 := UInt8.lt_iff_toNat_lt
    split_ifs with hroom
    · exact ⟨hpos, fun _ => Nat.le_refl 1⟩
    · rw [h12] at hroom
      exact ⟨by omega, fun _ => by omega⟩
  · exact hone _ (handle_erase_length P s req st)
  · exact hone _ (handle_write_length P s req st)
  · exact hone _ (handle_verify_length P s req st)
  · exact hone _ rfl
  · exact hone _ rfl
  · obtain ⟨hlow, hhigh⟩ := handle_echo_length req rsp_cap hpos
    exact ⟨hhigh, fun _ => hlow⟩
  · exact hone _ rfl

end Answer

/-! ## One port -/

/-- `inv` survives every call inside the app region. -/
structure Confined (P : Port σ) (info : PortInfo) (inv : σ → Prop) : Prop where
  read : ∀ off, off.toNat < info.region → Keeps inv (P.port_flash_read_byte off)
  erase : ∀ p, p < info.app_pages → Keeps inv (P.port_flash_erase_page p)
  write : ∀ p data, p < info.app_pages → data.length = info.page_size.toNat →
    Keeps inv (P.port_flash_write_page p data)

theorem upd_handle_keeps {P : Port σ} {s : UpdSession} {inv : σ → Prop}
    (h : Confined P s.info inv) (req : UpdFrame) (rsp_cap : UInt8) :
    Keeps inv (upd_handle P s req rsp_cap) := by
  rw [keeps_iff_agree]
  apply upd_handle_agree
  exact {
    read := fun off hoff => (keeps_iff_agree _ _).mp (h.read off hoff)
    erase := fun p hp => (keeps_iff_agree _ _).mp (h.erase p hp)
    write := fun p data hp hd => (keeps_iff_agree _ _).mp (h.write p data hp hd) }

theorem upd_handle_keeps_of_reads {P : Port σ} {s : UpdSession} {inv : σ → Prop}
    (h : ∀ off, off.toNat < s.info.region → Keeps inv (P.port_flash_read_byte off))
    (req : UpdFrame) (rsp_cap : UInt8) (herase : req.cmd ≠ UPD_CMD_ERASE_APP)
    (hwrite : req.cmd ≠ UPD_CMD_WRITE_PAGE) : Keeps inv (upd_handle P s req rsp_cap) := by
  rw [keeps_iff_agree]
  exact upd_handle_agree_of_reads (fun off hoff => (keeps_iff_agree _ _).mp (h off hoff)) _ _
    herase hwrite

end OtaUpdater.Device
