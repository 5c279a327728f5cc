import OtaUpdater.Device.Refine

/-!
# The FSM over a plain flash array

The port every other port is measured against: one byte per offset, erase sets a
page to 0xFF, and a write programs one page.
-/

open OtaUpdater.Lib.Bytes OtaUpdater.Lib.State

namespace OtaUpdater.Device

/-! ## The array -/

abbrev Flash := Nat → UInt8

/-- How a cell takes a new byte: what it held, what is written, what it holds then. -/
abbrev Program := UInt8 → UInt8 → UInt8

def store : Program := fun _ new => new

def nor : Program := fun old new => old &&& new

def InPage (ps p off : Nat) : Prop := p * ps ≤ off ∧ off < p * ps + ps

instance (ps p off : Nat) : Decidable (InPage ps p off) := inferInstanceAs (Decidable (_ ∧ _))

def erasePage (ps p : Nat) (f : Flash) : Flash :=
  fun off => if InPage ps p off then 0xFF else f off

def writePage (program : Program) (ps p : Nat) (data : List UInt8) (f : Flash) : Flash :=
  fun off => if InPage ps p off then program (f off) (data.getD (off - p * ps) 0) else f off

def arrayPort (info : PortInfo) (program : Program) : Port Flash where
  port_flash_erase_page p := modify (erasePage info.page_size.toNat p.toNat)
  port_flash_write_page p data := modify (writePage program info.page_size.toNat p.toNat data)
  port_flash_read_byte off := fun f => (f off.toNat, f)
  port_jump_to_app := pure ()

/-- The app region's content. -/
def region (info : PortInfo) (f : Flash) : List UInt8 := (List.range info.region).map f

@[simp] theorem length_region (info : PortInfo) (f : Flash) :
    (region info f).length = info.region := by simp [region]

theorem region_getD (info : PortInfo) (f : Flash) (off : Nat) (h : off < info.region) :
    (region info f).getD off 0 = f off := by
  simp [region, h]

theorem region_take (info : PortInfo) (f : Flash) (n : Nat) (h : n ≤ info.region) :
    (region info f).take n = (List.range n).map f := by
  rw [region, ← List.map_take, List.take_range, Nat.min_eq_left h]

/-! ## The gate -/

def updCrc32 (bytes : List UInt8) : UInt32 :=
  upd_crc32_final (bytes.foldl upd_crc32_update upd_crc32_init)

/-- "OTAU" -/
def updMagic : List UInt8 := [0x4F, 0x54, 0x41, 0x55]

def footerLength (R : List UInt8) : Nat := ofLe (window (R.length - 12) 4 R)

/-- What the gate asks of a region. -/
def AppValid (R : List UInt8) : Prop :=
  16 ≤ R.length ∧ window (R.length - 16) 4 R = updMagic ∧ footerLength R ≤ R.length - 16 ∧
    (updCrc32 (R.take (footerLength R))).toNat = ofLe (window (R.length - 8) 4 R)

instance (R : List UInt8) : Decidable (AppValid R) := inferInstanceAs (Decidable (_ ∧ _))

section Array

variable (info : PortInfo) (program : Program)

@[simp] theorem read_array (off : UInt32) (f : Flash) :
    (arrayPort info program).port_flash_read_byte off f = (f off.toNat, f) := (rfl)

theorem flash_crc_loop_array (k : Nat) (off c : UInt32) (f : Flash)
    (hoff : off.toNat + k < 2 ^ 32) :
    flash_crc_loop (arrayPort info program) k off c f =
      (((List.range k).map (fun i => f (off.toNat + i))).foldl upd_crc32_update c, f) := by
  induction k generalizing off c with
  | zero => rfl
  | succ k ih =>
    have hnext : (off + 1).toNat = off.toNat + 1 := succ_toNat32 (by omega)
    simp only [flash_crc_loop, bind_apply, read_array]
    rw [ih _ _ (by omega), List.range_succ_eq_map, hnext]
    simp [Function.comp_def, Nat.add_assoc, Nat.add_comm 1]

theorem flash_crc_array (length : UInt32) (f : Flash) :
    flash_crc (arrayPort info program) length f =
      (updCrc32 ((List.range length.toNat).map f), f) := by
  have hlt := length.toNat_lt
  simp only [flash_crc, bind_apply, pure_apply]
  rw [flash_crc_loop_array _ _ _ _ _ _ (by simpa using hlt)]
  simp [updCrc32]

theorem footer_words_array (base : UInt32) (f : Flash) (h : base.toNat + 16 < 2 ^ 32) :
    ∃ len crc, footer_words (arrayPort info program) base 4 0 0 0 f = ((len, crc), f) ∧
      len.toNat = ofLe ((List.range 4).map (fun i => f (base.toNat + 4 + i))) ∧
      crc.toNat = ofLe ((List.range 4).map (fun i => f (base.toNat + 8 + i))) := by
  have hoff : ∀ a b : UInt32, a.toNat + b.toNat < 16 →
      (base + a + b).toNat = base.toNat + a.toNat + b.toNat := by
    intro a b hab
    have ha : (base + a).toNat = base.toNat + a.toNat := add_toNat _ _ (by omega)
    rw [add_toNat _ _ (by omega), ha]
  have hword : ∀ a : UInt32, a.toNat + 3 < 16 →
      ofLe [f (base + a + 0).toNat, f (base + a + (0 + 1)).toNat,
        f (base + a + (0 + 1 + 1)).toNat, f (base + a + (0 + 1 + 1 + 1)).toNat] =
      ofLe ((List.range 4).map (fun i => f (base.toNat + a.toNat + i))) := by
    intro a ha
    rw [hoff a 0 (by simp; omega), hoff a (0 + 1) (by simp; omega),
      hoff a (0 + 1 + 1) (by simp; omega), hoff a (0 + 1 + 1 + 1) (by simp; omega)]
    rfl
  exact ⟨_, _, rfl, (le_word_toNat _ _ _ _).trans (hword 4 (by decide)),
    (le_word_toNat _ _ _ _).trans (hword 8 (by decide))⟩

theorem region_window (f : Flash) (o n : Nat) (h : o + n ≤ info.region) :
    window o n (region info f) = (List.range n).map (fun i => f (o + i)) := by
  apply List.map_congr_left
  intro i hi
  have := List.mem_range.mp hi
  rw [region_getD _ _ _ (by omega)]

theorem upd_app_valid_array (f : Flash) :
    upd_app_valid (arrayPort info program) info f = (decide (AppValid (region info f)), f) := by
  have hlt := info.region_lt
  by_cases hsmall : region_bytes info < 16
  · have hnot : ¬ AppValid (region info f) := by
      rintro ⟨h16, -⟩
      rw [length_region] at h16
      have := (region_lt_footer_iff info).mp hsmall
      omega
    unfold upd_app_valid
    rw [if_pos hsmall]
    simp [hnot]
  · have hbig : 16 ≤ info.region := by
      rw [region_lt_footer_iff] at hsmall; omega
    have hbase := region_sub_footer info hsmall
    have hmagic : window (info.region - 16) 4 (region info f) =
        [f (region_bytes info - 16 + 0).toNat, f (region_bytes info - 16 + 1).toNat,
          f (region_bytes info - 16 + 2).toNat, f (region_bytes info - 16 + 3).toNat] := by
      rw [region_window _ _ _ _ (by omega), add_toNat _ 0 (by simp; omega),
        add_toNat _ 1 (by simp; omega), add_toNat _ 2 (by simp; omega),
        add_toNat _ 3 (by simp; omega), hbase]
      rfl
    obtain ⟨len, crc, hwords, hlen, hcrc⟩ := footer_words_array info program
      (region_bytes info - 16) f (by omega)
    have h4 : info.region - 16 + 4 = info.region - 12 := by omega
    have h8 : info.region - 16 + 8 = info.region - 8 := by omega
    rw [hbase, h4, ← region_window info _ _ _ (by omega)] at hlen
    rw [hbase, h8, ← region_window info _ _ _ (by omega)] at hcrc
    have hfit : len > region_bytes info - 16 ↔ ¬ len.toNat ≤ info.region - 16 := by
      rw [gt_iff_lt, UInt32.lt_iff_toNat_lt, hbase, Nat.not_le]
    unfold upd_app_valid AppValid updMagic footerLength
    rw [if_neg hsmall]
    simp only [bind_apply, read_array, ite_run, pure_apply, length_region, hmagic, hwords,
      flash_crc_array, ← hlen, ← hcrc, hfit]
    by_cases hfits : len.toNat ≤ info.region - 16
    · have htake := region_take info f len.toNat (by omega)
      simp only [hfits, hbig, htake, not_true, if_false, UInt32.toNat_inj, true_and, List.cons.injEq, and_true]
      split_ifs <;> simp_all [beq_eq_decide]
    · simp [hfits]

end Array

/-! ## The handlers -/

def eraseAll (info : PortInfo) (f : Flash) : Flash :=
  fun off => if off < info.region then 0xFF else f off

/-- "ERAS" -/
def eraseMagic : List UInt8 := [0x45, 0x52, 0x41, 0x53]

section Handlers

variable (program : Program) (s : UpdSession) (req : UpdFrame) (f : Flash)

theorem handle_info_array (rsp_cap : UInt8) (hcap : 12 ≤ rsp_cap) :
    handle_info (arrayPort s.info program) s rsp_cap f =
      (infoAnswer s.info (decide (AppValid (region s.info f))), f) := by
  unfold handle_info
  rw [if_neg (by rw [UInt8.not_lt]; exact hcap)]
  simp only [bind_apply, upd_app_valid_array, pure_apply]
  rfl

theorem erase_pages_array (info : PortInfo) (k : Nat) (p : UInt16)
    (hp : p.toNat + k ≤ info.app_pages.toNat) :
    erase_pages (arrayPort info program) k p f =
      ((), fun off => if p.toNat * info.page_size.toNat ≤ off ∧
        off < (p.toNat + k) * info.page_size.toNat then 0xFF else f off) := by
  induction k generalizing p f with
  | zero =>
    have hnone : ∀ off, ¬ (p.toNat * info.page_size.toNat ≤ off ∧
        off < (p.toNat + 0) * info.page_size.toNat) := by
      intro off; rw [Nat.add_zero]; omega
    simp only [erase_pages, pure_apply, hnone, if_false]
  | succ k ih =>
    have hlt := info.app_pages.toNat_lt
    have hnext : (p + 1).toNat = p.toNat + 1 := succ_toNat16 (by omega)
    simp only [erase_pages, bind_apply]
    rw [ih _ _ (by omega), hnext]
    congr 1
    funext off
    -- The first page and the pages after it make up all `k + 1` pages.
    have hpage : p.toNat * info.page_size.toNat + info.page_size.toNat =
        (p.toNat + 1) * info.page_size.toNat := by rw [Nat.add_mul, Nat.one_mul]
    have hmono : (p.toNat + 1) * info.page_size.toNat ≤
        (p.toNat + (k + 1)) * info.page_size.toNat := Nat.mul_le_mul_right _ (by omega)
    have hend : p.toNat + 1 + k = p.toNat + (k + 1) := by omega
    simp only [arrayPort, modify, modifyGet, MonadStateOf.modifyGet, StateT.modifyGet, pure,
      erasePage, InPage, hpage, hend]
    split_ifs <;> first | rfl | omega

theorem eraseMagic_iff :
    (req.len ≠ 4 ∨ req.payload.getD 0 0 ≠ 0x45 ∨ req.payload.getD 1 0 ≠ 0x52 ∨
      req.payload.getD 2 0 ≠ 0x41 ∨ req.payload.getD 3 0 ≠ 0x53) ↔ req.payload ≠ eraseMagic := by
  have hlen := req.payload_length
  rw [← not_iff_not, not_not]
  constructor
  · intro h
    simp only [not_or, ne_eq, not_not] at h
    obtain ⟨h4, h0, h1, h2, h3⟩ := h
    match hp : req.payload, hlen with
    | [a, b, c, d], _ =>
      simp only [hp, List.getD_cons_zero, List.getD_cons_succ] at h0 h1 h2 h3
      rw [h0, h1, h2, h3]
      rfl
    | [], hl | [_], hl | [_, _], hl | [_, _, _], hl | _ :: _ :: _ :: _ :: _ :: _, hl =>
      rw [h4] at hl
      simp at hl
  · intro h
    have h4 : req.len = 4 := by
      apply UInt8.toNat_inj.mp
      rw [← hlen, h]
      rfl
    simp [h, h4, eraseMagic]

theorem handle_erase_array :
    handle_erase (arrayPort s.info program) s req f =
      if req.payload = eraseMagic then (({ s with erased := true }, [UPD_ST_OK]), eraseAll s.info f)
      else ((s, [UPD_ST_BAD_MAGIC]), f) := by
  unfold handle_erase
  by_cases hmagic : req.payload = eraseMagic
  · rw [if_neg (by rw [eraseMagic_iff]; exact not_not.mpr hmagic), if_pos hmagic]
    simp only [bind_apply, pure_apply]
    rw [erase_pages_array _ _ _ _ _ (by simp)]
    simp only [UInt16.toNat_zero, Nat.zero_mul, Nat.zero_le, true_and, Nat.zero_add]
    rw [Nat.mul_comm s.info.app_pages.toNat]
    rfl
  · rw [if_pos (by rw [eraseMagic_iff]; exact hmagic), if_neg hmagic]
    rfl

theorem write_index_toNat :
    (write_index req).toNat = ofLe [req.payload.getD 0 0, req.payload.getD 1 0] :=
  le_half_toNat _ _

theorem handle_write_array :
    handle_write (arrayPort s.info program) s req f =
      if s.erased = false then ([UPD_ST_NOT_ERASED], f)
      else if req.len.toNat ≠ s.info.page_size.toNat + 2 then ([UPD_ST_BAD_FRAME], f)
      else if s.info.app_pages ≤ write_index req then ([UPD_ST_OUT_OF_RANGE], f)
      else ([UPD_ST_OK], writePage program s.info.page_size.toNat (write_index req).toNat
        (req.payload.drop 2) f) := by
  unfold handle_write
  simp only [ite_run, bind_apply, pure_apply, ne_eq, write_length_iff, Bool.not_eq_true']
  rfl

theorem verify_words_toNat :
    (verify_words req 4 0 0 0).1.toNat = ofLe (window 0 4 req.payload) ∧
      (verify_words req 4 0 0 0).2.toNat = ofLe (window 4 4 req.payload) :=
  ⟨le_word_toNat _ _ _ _, le_word_toNat _ _ _ _⟩

theorem handle_verify_array :
    handle_verify (arrayPort s.info program) s req f =
      (if req.len ≠ 8 then [UPD_ST_BAD_FRAME]
       else if s.info.region < 16 ∨ s.info.region - 16 < ofLe (window 0 4 req.payload) then
         [UPD_ST_OUT_OF_RANGE]
       else if (updCrc32 ((region s.info f).take (ofLe (window 0 4 req.payload)))).toNat =
           ofLe (window 4 4 req.payload) then [UPD_ST_OK]
       else [UPD_ST_BAD_CRC], f) := by
  obtain ⟨hlen, hcrc⟩ := verify_words_toNat req
  unfold handle_verify
  simp only [ite_run, bind_apply, pure_apply, flash_crc_array, region_lt_footer_iff]
  by_cases h8 : req.len ≠ 8
  · rw [if_pos h8, if_pos h8]
  rw [if_neg h8, if_neg h8]
  by_cases hsmall : s.info.region < 16
  · rw [if_pos (Or.inl hsmall), if_pos (Or.inl hsmall)]
  have hfit : (verify_words req 4 0 0 0).1 > region_bytes s.info - 16 ↔
      s.info.region - 16 < ofLe (window 0 4 req.payload) := by
    rw [gt_iff_lt, UInt32.lt_iff_toNat_lt, hlen,
      region_sub_footer _ (by rw [region_lt_footer_iff]; exact hsmall)]
  simp only [hsmall, hfit, false_or]
  by_cases hrange : s.info.region - 16 < ofLe (window 0 4 req.payload)
  · rw [if_pos hrange, if_pos hrange]
  rw [if_neg hrange, if_neg hrange]
  simp only [← UInt32.toNat_inj, hlen, hcrc, region_take _ _ _ (by omega :
    ofLe (window 0 4 req.payload) ≤ s.info.region)]
  split_ifs <;> rfl

/-! ## The whole FSM, one command at a time -/

variable {req} (rsp_cap : UInt8)

theorem upd_handle_info (hcmd : req.cmd = UPD_CMD_INFO) (hcap : 12 ≤ rsp_cap) :
    upd_handle (arrayPort s.info program) s req rsp_cap f =
      ((s, infoAnswer s.info (decide (AppValid (region s.info f)))), f) := by
  have h0 : rsp_cap ≠ 0 := by rintro rfl; exact absurd hcap (by decide)
  simp [upd_handle, h0, hcmd, handle_info_array, hcap]

theorem upd_handle_erase (hcmd : req.cmd = UPD_CMD_ERASE_APP) (hcap : rsp_cap ≠ 0) :
    upd_handle (arrayPort s.info program) s req rsp_cap f =
      if req.payload = eraseMagic then (({ s with erased := true }, [UPD_ST_OK]), eraseAll s.info f)
      else ((s, [UPD_ST_BAD_MAGIC]), f) := by
  have h1 : UPD_CMD_ERASE_APP ≠ UPD_CMD_INFO := by decide
  rw [← handle_erase_array program]
  simp [upd_handle, hcap, hcmd, h1]

theorem upd_handle_write (hcmd : req.cmd = UPD_CMD_WRITE_PAGE) (hcap : rsp_cap ≠ 0) :
    upd_handle (arrayPort s.info program) s req rsp_cap f =
      ((s, (handle_write (arrayPort s.info program) s req f).1),
        (handle_write (arrayPort s.info program) s req f).2) := by
  have h1 : UPD_CMD_WRITE_PAGE ≠ UPD_CMD_INFO := by decide
  have h2 : UPD_CMD_WRITE_PAGE ≠ UPD_CMD_ERASE_APP := by decide
  simp [upd_handle, hcap, hcmd, h1, h2]

theorem upd_handle_verify (hcmd : req.cmd = UPD_CMD_VERIFY) (hcap : rsp_cap ≠ 0) :
    upd_handle (arrayPort s.info program) s req rsp_cap f =
      ((s, (handle_verify (arrayPort s.info program) s req f).1), f) := by
  have h1 : UPD_CMD_VERIFY ≠ UPD_CMD_INFO := by decide
  have h2 : UPD_CMD_VERIFY ≠ UPD_CMD_ERASE_APP := by decide
  have h3 : UPD_CMD_VERIFY ≠ UPD_CMD_WRITE_PAGE := by decide
  simp [upd_handle, hcap, hcmd, h1, h2, h3, handle_verify_array]

theorem upd_handle_boot (hcmd : req.cmd = UPD_CMD_BOOT) (hcap : rsp_cap ≠ 0) :
    upd_handle (arrayPort s.info program) s req rsp_cap f =
      (if AppValid (region s.info f) then ({ s with boot_pending := true }, [UPD_ST_OK])
       else (s, [UPD_ST_NO_APP]), f) := by
  have h1 : UPD_CMD_BOOT ≠ UPD_CMD_INFO := by decide
  have h2 : UPD_CMD_BOOT ≠ UPD_CMD_ERASE_APP := by decide
  have h3 : UPD_CMD_BOOT ≠ UPD_CMD_WRITE_PAGE := by decide
  have h4 : UPD_CMD_BOOT ≠ UPD_CMD_VERIFY := by decide
  simp only [upd_handle, hcap, hcmd, h1, h2, h3, h4, if_false, if_true, bind_apply, ite_run,
    upd_app_valid_array, pure_apply, decide_eq_true_eq]
  split_ifs <;> rfl

variable (req)

theorem upd_handle_other (herase : req.cmd ≠ UPD_CMD_ERASE_APP)
    (hwrite : req.cmd ≠ UPD_CMD_WRITE_PAGE) (hboot : req.cmd ≠ UPD_CMD_BOOT) :
    (upd_handle (arrayPort s.info program) s req rsp_cap f).1.1 = s ∧
      (upd_handle (arrayPort s.info program) s req rsp_cap f).2 = f := by
  constructor
  · unfold upd_handle
    simp only [herase, hwrite, hboot, if_false, ite_run, bind_apply, pure_apply]
    split_ifs <;> rfl
  · have hkeeps : Keeps (fun g => g = f) (upd_handle (arrayPort s.info program) s req rsp_cap) := by
      refine upd_handle_keeps_of_reads ?_ req rsp_cap herase hwrite
      intro off _ g hg
      rw [read_array]
      exact hg
    exact hkeeps f rfl

/-- All that one frame can do. -/
theorem upd_handle_cases :
    let r := upd_handle (arrayPort s.info program) s req rsp_cap f
    (r.1.1 = s ∧ r.2 = f) ∨
    (req.cmd = UPD_CMD_ERASE_APP ∧ req.payload = eraseMagic ∧
      r = (({ s with erased := true }, [UPD_ST_OK]), eraseAll s.info f)) ∨
    (req.cmd = UPD_CMD_WRITE_PAGE ∧ s.erased = true ∧ req.len.toNat = s.info.page_size.toNat + 2 ∧
      write_index req < s.info.app_pages ∧
      r = ((s, [UPD_ST_OK]), writePage program s.info.page_size.toNat (write_index req).toNat
        (req.payload.drop 2) f)) ∨
    (req.cmd = UPD_CMD_BOOT ∧ AppValid (region s.info f) ∧
      r = (({ s with boot_pending := true }, [UPD_ST_OK]), f)) := by
  by_cases hcap : rsp_cap = 0
  · subst hcap
    left
    exact ⟨rfl, rfl⟩
  by_cases herase : req.cmd = UPD_CMD_ERASE_APP
  · simp only [upd_handle_erase program s f rsp_cap herase hcap]
    by_cases hmagic : req.payload = eraseMagic
    · right; left
      rw [if_pos hmagic]
      exact ⟨herase, hmagic, rfl⟩
    · left
      rw [if_neg hmagic]
      exact ⟨rfl, rfl⟩
  by_cases hwrite : req.cmd = UPD_CMD_WRITE_PAGE
  · simp only [upd_handle_write program s f rsp_cap hwrite hcap, handle_write_array]
    split_ifs with hlatch hlen hidx
    · left; simp
    · left; simp
    · left; simp
    · right; right; left
      exact ⟨hwrite, by simpa using hlatch, not_not.mp hlen, UInt16.not_le.mp hidx, rfl⟩
  by_cases hboot : req.cmd = UPD_CMD_BOOT
  · simp only [upd_handle_boot program s f rsp_cap hboot hcap]
    by_cases hvalid : AppValid (region s.info f)
    · right; right; right
      rw [if_pos hvalid]
      exact ⟨hboot, hvalid, rfl⟩
    · left
      rw [if_neg hvalid]
      simp
  · left
    exact upd_handle_other program s req f rsp_cap herase hwrite hboot

end Handlers

end OtaUpdater.Device
