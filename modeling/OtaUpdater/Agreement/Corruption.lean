import OtaUpdater.Lib.Burst
import OtaUpdater.Agreement.Gate

/-!
# Damage that the boot gate always sees

A short burst in the measured image, under whatever geometry.
-/

open OtaUpdater.Lib.Bytes OtaUpdater.Lib.Crc OtaUpdater.Device OtaUpdater.Host

namespace OtaUpdater.Agreement

/-! ## The CRC-32 register -/

def flashRegister : Register 32 := lsbRegister 0xEDB88320#32 rfl

theorem low_bit_iff (c : UInt32) : c &&& 1 ≠ 0 ↔ c.toBitVec.getLsbD 0 = true := by
  have hand : (c &&& 1).toBitVec = c.toBitVec &&& BitVec.twoPow 32 0 := by simp [BitVec.twoPow]
  rw [ne_eq, ← UInt32.toBitVec_inj, hand, BitVec.and_twoPow]
  cases c.toBitVec.getLsbD 0 <;> decide

theorem upd_crc32_bit_toBitVec (c : UInt32) :
    (upd_crc32_bit c).toBitVec = flashRegister.shift c.toBitVec := by
  have hshift : flashRegister.shift c.toBitVec = shiftLsb 0xEDB88320#32 c.toBitVec := rfl
  rw [hshift]
  unfold upd_crc32_bit shiftLsb
  simp only [low_bit_iff]
  split_ifs <;> simp

theorem upd_crc32_update_toBitVec (c : UInt32) (b : UInt8) :
    (upd_crc32_update c b).toBitVec =
      Nat.repeat flashRegister.shift 8 (c.toBitVec ^^^ b.toBitVec.setWidth 32) := by
  have hrepeat : ∀ n (c : UInt32), (Nat.repeat upd_crc32_bit n c).toBitVec =
      Nat.repeat flashRegister.shift n c.toBitVec := by
    intro n c
    induction n with
    | zero => rfl
    | succ n ih =>
      change (upd_crc32_bit (Nat.repeat upd_crc32_bit n c)).toBitVec =
        flashRegister.shift (Nat.repeat flashRegister.shift n c.toBitVec)
      rw [upd_crc32_bit_toBitVec, ih]
  rw [upd_crc32_update, hrepeat]
  simp

theorem updCrc32_burst (start : Nat) (bytes bytes' : List UInt8) (hsame : bytes.length = bytes'.length)
    (hburst : ∀ i, (bytes.getD (i / 8) 0).toBitVec.getLsbD (i % 8) ≠
      (bytes'.getD (i / 8) 0).toBitVec.getLsbD (i % 8) → start ≤ i ∧ i < start + 32)
    (h : updCrc32 bytes = updCrc32 bytes') : bytes = bytes' := by
  let feed : BitVec 32 → UInt8 → BitVec 32 := fun c b =>
    Nat.repeat flashRegister.shift 8 (c ^^^ b.toBitVec.setWidth 32)
  have hregister : ∀ bytes : List UInt8,
      (bytes.foldl upd_crc32_update upd_crc32_init).toBitVec = bytes.foldl feed upd_crc32_init.toBitVec := by
    intro bytes
    exact (List.foldl_hom UInt32.toBitVec (fun c b => (upd_crc32_update_toBitVec c b).symm)).symm
  apply foldl_symbols_burst 8 (fun b i => b.toBitVec.getLsbD i) flashRegister feed (by omega)
    (by omega) _ _ 0 upd_crc32_init.toBitVec start bytes bytes' hsame hburst
  · rw [← hregister, ← hregister]
    unfold updCrc32 upd_crc32_final at h
    rw [(UInt32.xor_left_inj _).mp h]
  · intro c b
    have hplace : flashRegister.place (symbolBits 8 (fun b i => b.toBitVec.getLsbD i) b) =
        b.toBitVec.setWidth 32 := placeLsb_symbolBits b.toBitVec
    rw [hplace]
  · intro a b hbits
    apply UInt8.toBitVec_inj.mp
    apply BitVec.eq_of_getLsbD_eq
    exact hbits

/-! ## The measured image -/

/-- Bit `i` of the flash: least significant bit of each byte first. -/
def flashBit (f : Flash) (i : Nat) : Bool := (f (i / 8)).toBitVec.getLsbD (i % 8)

def footerCrc (R : List UInt8) : Nat := ofLe (window (R.length - 8) 4 R)

section Damage

variable {info : PortInfo} {f f' : Flash}

theorem region_window_outside (n o k : Nat) (hn : n ≤ o) (hfits : o + k ≤ info.region)
    (hinside : ∀ off, off < info.region → f' off ≠ f off → off < n) :
    window o k (region info f') = window o k (region info f) := by
  rw [region_window _ _ _ _ hfits, region_window _ _ _ _ hfits]
  apply List.map_congr_left
  intro i hi
  rw [List.mem_range] at hi
  by_contra hne
  have hless := hinside (o + i) (by omega) hne
  omega

theorem region_take_burst (n start : Nat) (hn : n ≤ info.region)
    (hburst : ∀ i, i < 8 * info.region → flashBit f' i ≠ flashBit f i → start ≤ i ∧ i < start + 32)
    (h : updCrc32 ((region info f').take n) = updCrc32 ((region info f).take n)) :
    ∀ off, off < n → f' off = f off := by
  have hget : ∀ (g : Flash) off, off < n → ((region info g).take n).getD off 0 = g off := by
    intro g off hoff
    rw [getD_take _ _ _ _ hoff, region_getD _ _ _ (by omega)]
  have hlength : ∀ g : Flash, ((region info g).take n).length = n := by
    intro g
    rw [List.length_take, length_region]
    omega
  have hsame : (region info f').take n = (region info f).take n := by
    apply updCrc32_burst start _ _ (by rw [hlength, hlength]) _ h
    intro i hne
    rcases Nat.lt_or_ge (i / 8) n with hlt | hge
    · rw [hget f' _ hlt, hget f _ hlt] at hne
      exact hburst i (by omega) hne
    · have hnone : ∀ g : Flash, ((region info g).take n).getD (i / 8) 0 = 0 := by
        intro g
        exact List.getD_eq_default _ _ (by rw [hlength]; exact hge)
      rw [hnone, hnone] at hne
      exact absurd rfl hne
  intro off hoff
  rw [← hget f' off hoff, hsame, hget f off hoff]

theorem footer_misses_burst (start : Nat) (hvalid : AppValid (region info f))
    (hinside : ∀ off, off < info.region → f' off ≠ f off → off < footerLength (region info f))
    (hdamaged : ∃ off, off < info.region ∧ f' off ≠ f off)
    (hburst : ∀ i, i < 8 * info.region → flashBit f' i ≠ flashBit f i → start ≤ i ∧ i < start + 32) :
    footerLength (region info f') = footerLength (region info f) ∧
      footerCrc (region info f') = footerCrc (region info f) ∧
      (updCrc32 ((region info f').take (footerLength (region info f)))).toNat ≠
        footerCrc (region info f) := by
  obtain ⟨h16, -, hlen, hcrc⟩ := hvalid
  rw [length_region] at h16 hlen
  have hlength : footerLength (region info f') = footerLength (region info f) := by
    unfold footerLength
    rw [length_region, length_region]
    congr 1
    exact region_window_outside (footerLength (region info f)) _ _ (by omega) (by omega) hinside
  have hstored : footerCrc (region info f') = footerCrc (region info f) := by
    unfold footerCrc
    rw [length_region, length_region]
    congr 1
    exact region_window_outside (footerLength (region info f)) _ _ (by omega) (by omega) hinside
  refine ⟨hlength, hstored, ?_⟩
  intro hsame
  have hintact := region_take_burst (footerLength (region info f)) start (by omega) hburst
    (UInt32.toNat_inj.mp (hsame.trans hcrc.symm))
  obtain ⟨off, hoff, hne⟩ := hdamaged
  exact hne (hintact off (hinside off hoff hne))

end Damage

/-- Neither gate nor VERIFY nor BOOT passes an image with a short burst in it. -/
theorem gate_refuses_bursts (program : Program) (info : PortInfo) (f f' : Flash) (start : Nat)
    (hvalid : (upd_app_valid (arrayPort info program) info f).1 = true)
    (hinside : ∀ off, off < info.region → f' off ≠ f off → off < footerLength (region info f))
    (hdamaged : ∃ off, off < info.region ∧ f' off ≠ f off)
    (hburst : ∀ i, i < 8 * info.region → flashBit f' i ≠ flashBit f i → start ≤ i ∧ i < start + 32) :
    let n := UInt32.ofNat (footerLength (region info f))
    let crc := UInt32.ofNat (footerCrc (region info f))
    (upd_app_valid (arrayPort info program) info f').1 = false ∧
    ∀ (erased boot_pending : Bool) (rsp_cap : UInt8), rsp_cap ≠ 0 →
      let s : UpdSession := { info, erased, boot_pending }
      upd_handle (arrayPort info program) s (verifyFrame n crc) rsp_cap f' = ((s, [UPD_ST_BAD_CRC]), f') ∧
      ∀ req, req.cmd = UPD_CMD_BOOT →
        upd_handle (arrayPort info program) s req rsp_cap f' = ((s, [UPD_ST_NO_APP]), f') := by
  intro n crc
  rw [upd_app_valid_array, decide_eq_true_iff] at hvalid
  obtain ⟨hlength, hstored, hmiss⟩ := footer_misses_burst start hvalid hinside hdamaged hburst
  have hlt := info.region_lt
  obtain ⟨h16, -, hlen, -⟩ := hvalid
  rw [length_region] at h16 hlen
  have hrefused : ¬ AppValid (region info f') := by
    rintro ⟨-, -, -, hcrc⟩
    rw [hlength] at hcrc
    exact hmiss (hcrc.trans hstored)
  refine ⟨by rw [upd_app_valid_array, decide_eq_false hrefused], ?_⟩
  intro erased boot_pending rsp_cap hcap s
  constructor
  · have hn : n.toNat = footerLength (region info f) := by
      unfold n
      rw [UInt32.toNat_ofNat', Nat.mod_eq_of_lt (by omega)]
    have hcrc : crc.toNat = footerCrc (region info f) := by
      have hless : footerCrc (region info f) < 2 ^ 32 := by
        have hword := ofLe_lt (window ((region info f).length - 8) 4 (region info f))
        rw [length_window] at hword
        exact hword
      unfold crc
      rw [UInt32.toNat_ofNat', Nat.mod_eq_of_lt hless]
    have hdiffers : crc ≠ crc32 ((region info f').take n.toNat) := by
      intro heq
      rw [hn, ← updCrc32_eq] at heq
      exact hmiss (by rw [← heq, hcrc])
    rw [upd_handle_verify program s f' rsp_cap rfl hcap,
      handle_verify_answer program s f' n crc h16, if_neg (by rw [hn]; exact Nat.not_lt.mpr hlen),
      if_neg hdiffers]
  · intro req hboot
    rw [upd_handle_boot program s f' rsp_cap hboot hcap, if_neg hrefused]

/-- A four-byte image in a region of twenty, with two bits flipped eight apart. -/
theorem gate_refuses_bursts_small :
    let info : PortInfo :=
      { page_size := 20, app_pages := 1, device_id := #v[0, 0, 0, 0], bl_version := 0 }
    let footer : List UInt8 := [0x4F, 0x54, 0x41, 0x55, 4, 0, 0, 0, 0xCD, 0xFB, 0x3C, 0xB6, 0, 0, 0, 0]
    let f : Flash := fun off => ([1, 2, 3, 4] ++ footer).getD off 0xFF
    let f' : Flash := fun off => ([1, 3, 2, 4] ++ footer).getD off 0xFF
    (upd_app_valid (arrayPort info store) info f).1 = true ∧
      (upd_app_valid (arrayPort info store) info f').1 = false := by
  intro info footer f f'
  refine ⟨by decide +kernel, ?_⟩
  exact (gate_refuses_bursts store info f f' 8 (by decide +kernel) (by decide +kernel)
    ⟨1, by decide +kernel, by decide +kernel⟩ (by decide +kernel)).1

end OtaUpdater.Agreement
