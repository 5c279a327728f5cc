import Mathlib.Data.List.GetD
import OtaUpdater.Device.AvrFlash
import OtaUpdater.Device.Confinement
import OtaUpdater.Device.Repeat

/-!
# NVMCTRL does not show

To the core the AVR-EA flash is a plain array whose writes clear bits. Whatever the core
is asked for, no command is refused, the window is back in its place after every
operation, and nothing below the app region changes.
-/

open OtaUpdater.Lib.Bytes OtaUpdater.Lib.State OtaUpdater.Lib.Repeat

namespace OtaUpdater.Device.Avr

theorem region_eq : port_info.region = 0xF000 := by decide

/-! ## Waiting -/

theorem status_clear_iff (m : Mcu) :
    (readStatus m).1 &&& (NVMCTRL_FLBUSY_bm ||| NVMCTRL_EEBUSY_bm) = 0 ↔
      m.flbusy = 0 ∧ m.eebusy = 0 := by
  unfold readStatus
  by_cases hfl : m.flbusy = 0
  · by_cases hee : m.eebusy = 0
    · simp [hfl, hee]
    · simp only [hfl, hee, if_true, if_false, and_false, iff_false]
      decide
  · by_cases hee : m.eebusy = 0
    · simp only [hfl, hee, if_true, if_false, false_and, iff_false]
      decide
    · simp only [hfl, hee, if_false, false_and, iff_false]
      decide

theorem nvm_wait_loop_eq (k : Nat) (m : Mcu) (hfl : m.flbusy < k) (hee : m.eebusy < k) :
    nvm_wait_loop k m = ((), { m with flbusy := 0, eebusy := 0 }) := by
  induction k generalizing m with
  | zero => omega
  | succ k ih =>
    have hafter : (readStatus m).2 = { m with flbusy := m.flbusy - 1, eebusy := m.eebusy - 1 } := rfl
    simp only [nvm_wait_loop, bind_apply, ite_run, pure_apply, ne_eq, status_clear_iff, hafter]
    by_cases hidle : m.flbusy = 0 ∧ m.eebusy = 0
    · rw [if_neg (not_not.mpr hidle), hidle.1, hidle.2]
    · rw [if_pos hidle, ih _ (by dsimp only; omega) (by dsimp only; omega)]

theorem nvm_wait_eq (m : Mcu) : nvm_wait m = ((), { m with flbusy := 0, eebusy := 0 }) :=
  nvm_wait_loop_eq _ m (by omega) (by omega)

/-! ## The window -/

def Mcu.Aimed (m : Mcu) (addr : Nat) : Prop :=
  ((m.ctrlb &&& NVMCTRL_FLMAP_gm) >>> 4).toNat % 2 = addr / 0x8000

theorem flmap_field (c b m : UInt8) : ((c &&& ~~~m) ||| (b &&& m)) &&& m = b &&& m := by
  rw [← UInt8.toBitVec_inj]
  simp only [UInt8.toBitVec_and, UInt8.toBitVec_or, UInt8.toBitVec_not]
  ext i hi
  simp only [BitVec.getElem_and, BitVec.getElem_or, BitVec.getElem_not]
  cases m.toBitVec[i] <;> simp

theorem flmap_block (addr : UInt32) (haddr : addr.toNat < 0x10000) :
    ∃ b : UInt8, (((addr >>> 15) <<< NVMCTRL_FLMAP_gp) &&& NVMCTRL_FLMAP_gm.toUInt32).toUInt8 =
        b &&& NVMCTRL_FLMAP_gm ∧
      ((b &&& NVMCTRL_FLMAP_gm) >>> 4).toNat % 2 = addr.toNat / 0x8000 := by
  have hblock : (addr >>> 15).toNat = addr.toNat / 0x8000 := by
    simp [Nat.shiftRight_eq_div_pow]
  rcases (by omega : (addr >>> 15).toNat = 0 ∨ (addr >>> 15).toNat = 1) with hzero | hone
  · have h : addr >>> 15 = 0 := UInt32.toNat_inj.mp hzero
    rw [← hblock, h]
    exact ⟨0x00, rfl, rfl⟩
  · have h : addr >>> 15 = 1 := UInt32.toNat_inj.mp hone
    rw [← hblock, h]
    exact ⟨0x10, rfl, rfl⟩

theorem window_ptr (addr : UInt32) :
    (MAPPED_PROGMEM_START + (addr &&& (MAPPED_PROGMEM_SIZE - 1))).toUInt16.toNat =
      0x8000 + addr.toNat % 0x8000 := by
  have hstart : MAPPED_PROGMEM_START.toNat = 0x8000 := rfl
  have hlow : (addr &&& (MAPPED_PROGMEM_SIZE - 1)).toNat = addr.toNat % 0x8000 := by
    rw [UInt32.toNat_and]
    exact Nat.and_two_pow_sub_one_eq_mod addr.toNat 15
  rw [UInt32.toNat_toUInt16, UInt32.toNat_add, hlow, hstart]
  omega

theorem flmap_window_eq (addr : UInt32) (m : Mcu) (haddr : addr.toNat < 0x10000) :
    ∃ ptr w, flmap_window addr m = (ptr, { m with flmap_saved := m.ctrlb, ctrlb := w }) ∧
      ptr.toNat = 0x8000 + addr.toNat % 0x8000 ∧
      Mcu.Aimed { m with flmap_saved := m.ctrlb, ctrlb := w } addr.toNat := by
  obtain ⟨b, hfield, hblock⟩ := flmap_block addr haddr
  refine ⟨_, (m.ctrlb &&& ~~~NVMCTRL_FLMAP_gm) ||| (b &&& NVMCTRL_FLMAP_gm), ?_, window_ptr addr, ?_⟩
  · rw [← hfield]
    rfl
  · unfold Mcu.Aimed
    rw [flmap_field]
    exact hblock

theorem mapped_eq (m : Mcu) (addr i : Nat) (ptr : UInt16) (haim : m.Aimed addr)
    (hptr : ptr.toNat = 0x8000 + addr % 0x8000 + i) : m.mapped ptr = addr + i := by
  have hstart : MAPPED_PROGMEM_START.toNat = 0x8000 := rfl
  have hsize : MAPPED_PROGMEM_SIZE.toNat = 0x8000 := rfl
  unfold Mcu.Aimed at haim
  unfold Mcu.mapped
  rw [haim, hptr, hstart, hsize]
  omega

theorem storeByte_eq (m : Mcu) (page i : Nat) (hi : i < 128) (ptr : UInt16) (v : UInt8)
    (haim : m.Aimed (page * 128)) (hptr : ptr.toNat = 0x8000 + page * 128 % 0x8000 + i) :
    storeByte ptr v m =
      ((), { m with buffer := fun j => if j = i then m.buffer j &&& v else m.buffer j
                    addressed := some page }) := by
  have hstart : MAPPED_PROGMEM_START.toNat = 0x8000 := rfl
  have hmapped := mapped_eq m (page * 128) i ptr haim hptr
  have hoffset : (page * 128 + i) % 128 = i := by omega
  have hpage : (page * 128 + i) / 128 = page := by omega
  unfold storeByte
  rw [modify_apply, if_neg (by rw [hptr, hstart]; omega), hmapped, hoffset, hpage]

/-! ## The page buffer -/

theorem load_buffer_eq (page : Nat) (dst : UInt16) (data : List UInt8) (k : Nat) (i : UInt16)
    (hik : i.toNat + k ≤ 128) (m : Mcu) (haim : m.Aimed (page * 128))
    (hdst : dst.toNat = 0x8000 + page * 128 % 0x8000) :
    load_buffer dst data k i m =
      ((), { m with
        buffer := fun j =>
          if i.toNat ≤ j ∧ j < i.toNat + k then m.buffer j &&& data.getD j 0 else m.buffer j
        addressed := if k = 0 then m.addressed else some page }) := by
  induction k generalizing i m with
  | zero =>
    have hnone : ∀ j, ¬ (i.toNat ≤ j ∧ j < i.toNat + 0) := by omega
    simp only [load_buffer, pure_apply, hnone, if_false, if_true]
  | succ k ih =>
    have hnext : (i + 1).toNat = i.toNat + 1 := succ_toNat16 (by omega)
    have hptr : (dst + i).toNat = 0x8000 + page * 128 % 0x8000 + i.toNat := by
      rw [UInt16.toNat_add, hdst]
      omega
    unfold load_buffer
    have hbuffer : ∀ j, (if (i + 1).toNat ≤ j ∧ j < (i + 1).toNat + k then
          (if j = i.toNat then m.buffer j &&& data.getD i.toNat 0 else m.buffer j) &&& data.getD j 0
        else if j = i.toNat then m.buffer j &&& data.getD i.toNat 0 else m.buffer j) =
        if i.toNat ≤ j ∧ j < i.toNat + (k + 1) then m.buffer j &&& data.getD j 0
        else m.buffer j := by
      intro j
      rw [hnext]
      rcases Nat.lt_trichotomy j i.toNat with hbelow | hhere | habove
      · rw [if_neg (by omega), if_neg (by omega), if_neg (by omega)]
      · rw [if_neg (by omega), if_pos hhere, if_pos (by omega), hhere]
      · rw [if_neg (by omega : ¬ j = i.toNat)]
        by_cases hlast : j < i.toNat + (k + 1)
        · rw [if_pos (by omega), if_pos (by omega)]
        · rw [if_neg (by omega), if_neg (by omega)]
    rw [bind_run (storeByte_eq m page i.toNat (by omega) _ _ haim hptr), ih (i + 1) (by omega)]
    case haim => exact haim
    simp only [hbuffer, ite_self, if_neg (Nat.succ_ne_zero k)]

theorem blank_takes (data : List UInt8) (hdata : data.length = 128) :
    (List.range 128).map (fun j =>
      if (0 : UInt16).toNat ≤ j ∧ j < (0 : UInt16).toNat + 128 then 0xFF &&& data.getD j 0 else 0xFF) = data := by
  have hzero : (0 : UInt16).toNat = 0 := rfl
  apply List.ext_getElem
  · simp [hdata]
  · intro j hj hlt
    have hones : (0xFF : UInt8) = -1 := rfl
    rw [List.getElem_map, List.getElem_range, if_pos (by omega), hones, UInt8.neg_one_and,
      List.getD_eq_getElem _ _ hlt]

/-! ## The operations -/

section Operations

variable (slow : Nat → Nat)

theorem nvm_cmd_nocmd (m : Mcu) (hfl : m.flbusy = 0) (hee : m.eebusy = 0) :
    nvm_cmd slow .NOCMD m = ((), { m with ctrla := .NOCMD }) := by
  have hready : ¬ (m.flbusy ≠ 0 ∨ m.eebusy ≠ 0 ∨
      (NvmCmd.NOCMD ≠ .NOCMD ∧ m.ctrla ≠ .NOCMD)) := by
    simp [hfl, hee]
  simp only [nvm_cmd, writeCtrla, modify_apply, Mcu.command, if_neg hready]

theorem nvm_cmd_performs (m : Mcu) (hfl : m.flbusy = 0) (hee : m.eebusy = 0)
    (hnocmd : m.ctrla = .NOCMD) (page : Nat) (hpage : m.addressed = some page) :
    nvm_cmd slow .FLPER m = ((), m.perform slow .FLPER (.erased page)) ∧
      nvm_cmd slow .FLPW m =
        ((), m.perform slow .FLPW (.programmed page ((List.range 128).map m.buffer))) := by
  have hready : ∀ cmd, ¬ (m.flbusy ≠ 0 ∨ m.eebusy ≠ 0 ∨ (cmd ≠ NvmCmd.NOCMD ∧ m.ctrla ≠ .NOCMD)) := by
    simp [hfl, hee, hnocmd]
  simp only [nvm_cmd, writeCtrla, modify_apply, Mcu.command, if_neg (hready _), hpage, and_self]

/-- What an operation leaves behind: the port is at rest again, and the window in its place. -/
def Mcu.after (m : Mcu) (op : NvmOp) : Mcu :=
  { m with
    flbusy := 0
    eebusy := 0
    addressed := none
    flash := op.apply m.flash
    ops := m.ops ++ [op]
    flmap_saved := m.ctrlb }

theorem blank_buffer {m : Mcu} (hrest : m.AtRest) : (fun _ => 0xFF) = m.buffer :=
  funext (fun i => (hrest.blank i).symm)

theorem page_address (page : UInt16) (hpage : page.toNat < 480) :
    (UPDATER_APP_BASE + page.toUInt32 * UPDATER_PAGE_SIZE).toNat = (32 + page.toNat) * 128 := by
  have hbase : UPDATER_APP_BASE.toNat = 0x1000 := rfl
  have hsize : UPDATER_PAGE_SIZE.toNat = 128 := rfl
  rw [UInt32.toNat_add, UInt32.toNat_mul, UInt16.toNat_toUInt32, hbase, hsize,
    Nat.mod_eq_of_lt (by omega), Nat.mod_eq_of_lt (by omega)]
  omega

theorem erase_page_eq (page : UInt16) (hpage : page.toNat < 480) (m : Mcu) (hrest : m.AtRest) :
    port_flash_erase_page slow page m = ((), m.after (.erased (32 + page.toNat))) := by
  have haddress := page_address page hpage
  obtain ⟨dst, w, hwindow, hdst, haim⟩ := flmap_window_eq
    (UPDATER_APP_BASE + page.toUInt32 * UPDATER_PAGE_SIZE)
    { m with flbusy := 0, eebusy := 0, ctrla := .NOCMD } (by omega)
  rw [haddress] at hdst haim
  unfold port_flash_erase_page
  rw [bind_run (nvm_wait_eq m), bind_run (nvm_cmd_nocmd slow _ rfl rfl), bind_run hwindow,
    bind_run (storeByte_eq _ (32 + page.toNat) 0 (by omega) dst 0xFF haim hdst),
    bind_run (nvm_cmd_performs slow _ rfl rfl rfl (32 + page.toNat) rfl).1,
    bind_run (nvm_wait_eq _), bind_run (nvm_cmd_nocmd slow _ rfl rfl)]
  simp only [flmap_restore, bind_apply, get_apply, writeCtrlb, modify_apply, Mcu.perform, Mcu.after,
    blank_buffer hrest, hrest.nocmd]

theorem write_page_eq (page : UInt16) (hpage : page.toNat < 480) (data : List UInt8)
    (hdata : data.length = 128) (m : Mcu) (hrest : m.AtRest) :
    port_flash_write_page slow page data m = ((), m.after (.programmed (32 + page.toNat) data)) := by
  have haddress := page_address page hpage
  obtain ⟨dst, w, hwindow, hdst, haim⟩ := flmap_window_eq
    (UPDATER_APP_BASE + page.toUInt32 * UPDATER_PAGE_SIZE)
    { m with flbusy := 0, eebusy := 0, ctrla := .NOCMD } (by omega)
  have hsize : UPDATER_PAGE_SIZE.toNat = 128 := rfl
  rw [haddress] at hdst haim
  unfold port_flash_write_page
  rw [bind_run (nvm_wait_eq m), bind_run (nvm_cmd_nocmd slow _ rfl rfl), bind_run hwindow, hsize,
    bind_run (load_buffer_eq (32 + page.toNat) dst data 128 0 (by simp) _ haim hdst),
    bind_run (nvm_cmd_performs slow _ rfl rfl rfl (32 + page.toNat) rfl).2,
    bind_run (nvm_wait_eq _), bind_run (nvm_cmd_nocmd slow _ rfl rfl)]
  simp only [flmap_restore, bind_apply, get_apply, writeCtrlb, modify_apply, Mcu.perform, Mcu.after,
    hrest.blank, blank_takes data hdata, blank_buffer hrest, hrest.nocmd]

theorem read_byte_eq (offset : UInt32) (hoffset : offset.toNat < 0xF000) (m : Mcu) :
    port_flash_read_byte offset m =
      (m.flash (0x1000 + offset.toNat), { m with flmap_saved := m.ctrlb }) := by
  have hbase : UPDATER_APP_BASE.toNat = 0x1000 := rfl
  have haddress : (UPDATER_APP_BASE + offset).toNat = 0x1000 + offset.toNat := by
    rw [UInt32.toNat_add, hbase, Nat.mod_eq_of_lt (by omega)]
  obtain ⟨src, w, hwindow, hsrc, haim⟩ := flmap_window_eq (UPDATER_APP_BASE + offset) m (by omega)
  rw [haddress] at hsrc haim
  unfold port_flash_read_byte
  rw [bind_run hwindow, bind_apply, loadByte, mapped_eq _ (0x1000 + offset.toNat) 0 src haim hsrc]
  rfl

theorem Mcu.AtRest.after {m : Mcu} (hrest : m.AtRest) (op : NvmOp) : (m.after op).AtRest where
  nocmd := hrest.nocmd
  error := hrest.error
  blank := hrest.blank

end Operations

/-! ## Calls and commands -/

/-- The command that carries out a call of the core. -/
def nvmOp : PortCall → Option NvmOp
  | .erase_page page => some (.erased (32 + page.toNat))
  | .write_page page data => some (.programmed (32 + page.toNat) data)
  | .read_byte _ | .jump_to_app => none

def replay (ops : List NvmOp) (f : Flash) : Flash := ops.foldl (fun f op => op.apply f) f

def NvmOp.InApp (op : NvmOp) : Prop := 32 ≤ op.page ∧ op.page < 512

theorem NvmOp.apply_outside (op : NvmOp) (f : Flash) (x : Nat) (hx : ¬ InPage 128 op.page x) :
    op.apply f x = f x := by
  cases op with
  | erased page => exact if_neg hx
  | programmed page data => exact if_neg hx

theorem replay_boot (ops : List NvmOp) (hops : ∀ op ∈ ops, op.InApp) (f : Flash) (x : Nat)
    (hx : x < 0x1000) : replay ops f x = f x := by
  unfold replay
  induction ops generalizing f with
  | nil => rfl
  | cons op ops ih =>
    have hop := hops op List.mem_cons_self
    rw [List.foldl_cons, ih (fun o ho => hops o (List.mem_cons_of_mem _ ho)),
      op.apply_outside f x (by unfold InPage; unfold NvmOp.InApp at hop; omega)]

/-- From `m0` on, `done` was carried out and nothing else, and the array `f` shows the app region. -/
structure Mirrors (m0 : Mcu) (done : List NvmOp) (m : Mcu) (f : Flash) : Prop where
  rest : m.AtRest
  flmap : m.ctrlb = m0.ctrlb
  app : ∀ off, off < port_info.region → m.flash (0x1000 + off) = f off
  log : m.ops = m0.ops ++ done
  flash : m.flash = replay done m0.flash
  inApp : ∀ op ∈ done, op.InApp

theorem Mirrors.refl {m : Mcu} (hrest : m.AtRest) {f : Flash}
    (happ : ∀ off, off < port_info.region → m.flash (0x1000 + off) = f off) : Mirrors m [] m f where
  rest := hrest
  flmap := rfl
  app := happ
  log := (List.append_nil _).symm
  flash := rfl
  inApp := fun _ hop => nomatch hop

theorem Mirrors.trans {m0 m m' : Mcu} {done more : List NvmOp} {f f' : Flash} (h : Mirrors m0 done m f)
    (h' : Mirrors m more m' f') : Mirrors m0 (done ++ more) m' f' where
  rest := h'.rest
  flmap := h'.flmap.trans h.flmap
  app := h'.app
  log := by rw [h'.log, h.log, List.append_assoc]
  flash := by rw [h'.flash, h.flash, replay, replay, replay, List.foldl_append]
  inApp := by
    intro op hop
    rcases List.mem_append.mp hop with hop | hop
    · exact h.inApp op hop
    · exact h'.inApp op hop

theorem mirrors_after {m : Mcu} {f : Flash} (h : Mirrors m [] m f) (page : UInt16)
    (hpage : page.toNat < 480) (op : NvmOp) (hop : op.page = 32 + page.toNat) (f' : Flash)
    (hf' : ∀ off, off < port_info.region → op.apply m.flash (0x1000 + off) = f' off) :
    Mirrors m [op] (m.after op) f' where
  rest := h.rest.after op
  flmap := rfl
  app := hf'
  log := rfl
  flash := rfl
  inApp := by
    intro o ho
    rw [List.mem_singleton.mp ho]
    unfold NvmOp.InApp
    omega

theorem inPage_shift (page off : Nat) :
    InPage 128 (32 + page) (0x1000 + off) ↔ InPage 128 page off := by
  unfold InPage
  omega

section Core

variable (slow : Nat → Nat)

/-- To the core, the port and the array answer alike. -/
theorem avrPort_agree (m0 : Mcu) :
    CallsAgree (avrPort slow) (tracedPort (arrayPort port_info nor)) port_info
      (fun m t => Mirrors m0 (t.2.filterMap nvmOp) m t.1) where
  read := by
    rintro off hoff m ⟨f, calls⟩ h
    rw [region_eq] at hoff
    have hread : (avrPort slow).port_flash_read_byte off m = _ := read_byte_eq off hoff m
    rw [hread]
    refine ⟨h.app off.toNat (by rw [region_eq]; exact hoff), ?_⟩
    simp only [tracedPort, logged, List.filterMap_append, List.filterMap_cons, nvmOp,
      List.filterMap_nil, List.append_nil]
    exact ⟨⟨h.rest.nocmd, h.rest.error, h.rest.blank⟩, h.flmap, h.app, h.log, h.flash, h.inApp⟩
  erase := by
    rintro page hpage m ⟨f, calls⟩ h
    have hlt : page.toNat < 480 := UInt16.lt_iff_toNat_lt.mp hpage
    have herase : (avrPort slow).port_flash_erase_page page m = _ :=
      erase_page_eq slow page hlt m h.rest
    rw [herase]
    refine ⟨rfl, ?_⟩
    simp only [tracedPort, logged, List.filterMap_append, List.filterMap_cons, nvmOp, List.filterMap_nil]
    refine h.trans (mirrors_after (Mirrors.refl h.rest h.app) page hlt _ rfl _ ?_)
    intro off hoff
    simp only [NvmOp.apply, erasePage, inPage_shift, h.app off hoff]
    rfl
  write := by
    rintro page data hpage hdata m ⟨f, calls⟩ h
    have hlt : page.toNat < 480 := UInt16.lt_iff_toNat_lt.mp hpage
    have hlength : data.length = 128 := hdata
    have hwrite : (avrPort slow).port_flash_write_page page data m = _ :=
      write_page_eq slow page hlt data hlength m h.rest
    rw [hwrite]
    refine ⟨rfl, ?_⟩
    simp only [tracedPort, logged, List.filterMap_append, List.filterMap_cons, nvmOp, List.filterMap_nil]
    refine h.trans (mirrors_after (Mirrors.refl h.rest h.app) page hlt _ rfl _ ?_)
    intro off hoff
    have hskip : 0x1000 + off - (32 + page.toNat) * 128 = off - page.toNat * 128 := by omega
    simp only [NvmOp.apply, writePage, inPage_shift, h.app off hoff, hskip]
    rfl

def boardStep (st : UpdSession × Mcu) (input : UpdFrame × UInt8) : List UInt8 × (UpdSession × Mcu) :=
  let r := upd_handle (avrPort slow) st.1 input.1 input.2 st.2
  (r.1.2, (r.1.1, r.2))

theorem boardStep_mirrors {m : Mcu} {f : Flash} (h : Mirrors m [] m f) (s : UpdSession)
    (hs : s.info = port_info) (input : UpdFrame × UInt8) :
    let board := boardStep slow (s, m) input
    let plain := handleLogged nor (s, f) input
    board.1 = plain.1.1 ∧ board.2.1 = plain.2.1 ∧
      Mirrors m (plain.1.2.filterMap nvmOp) board.2.2 plain.2.2 := by
  have hagree := avrPort_agree slow m
  rw [← hs] at hagree
  obtain ⟨hret, hmirrors⟩ := upd_handle_agree hagree input.1 input.2 m (f, []) h
  rw [hs] at hret hmirrors
  unfold boardStep handleLogged
  dsimp only
  rw [hret, hs]
  exact ⟨rfl, rfl, hmirrors⟩

theorem runAll_mirrors (m : Mcu) (hrest : m.AtRest) (s : UpdSession) (hs : s.info = port_info)
    (inputs : List (UpdFrame × UInt8)) :
    let board := runAll (boardStep slow) (s, m) inputs
    let plain := runAll (handleLogged nor) (s, fun off => m.flash (0x1000 + off)) inputs
    board.1 = plain.1.map Prod.fst ∧ board.2.1 = plain.2.1 ∧
      Mirrors m ((plain.1.flatMap Prod.snd).filterMap nvmOp) board.2.2 plain.2.2 := by
  have hstart : Mirrors m [] m (fun off => m.flash (0x1000 + off)) :=
    Mirrors.refl hrest (fun _ _ => rfl)
  have hrun := runAll_simulates (boardStep slow) (handleLogged nor)
    (fun answers logs board plain => answers = logs.map Prod.fst ∧ board.1 = plain.1 ∧
      plain.1.info = port_info ∧ Mirrors m ((logs.flatMap Prod.snd).filterMap nvmOp) board.2 plain.2)
    inputs ?_ (s, m) (s, fun off => m.flash (0x1000 + off)) ⟨rfl, rfl, hs, hstart⟩
  · exact ⟨hrun.1, hrun.2.1, hrun.2.2.2⟩
  · rintro answers logs ⟨s, m'⟩ ⟨t, f⟩ input - ⟨hanswers, hsession, hinfo, hmirrors⟩
    dsimp only at hsession hinfo hmirrors
    subst hsession
    obtain ⟨hanswer, hnext, hmore⟩ := boardStep_mirrors slow
      (Mirrors.refl hmirrors.rest hmirrors.app) s hinfo input
    have hsame : (handleLogged nor (s, f) input).2.1.info = port_info := by
      rw [handleLogged_eq]
      exact (upd_handle_info_eq (arrayPort s.info nor) s input.1 f input.2).trans hinfo
    refine ⟨?_, hnext, hsame, ?_⟩
    · rw [hanswers, hanswer, List.map_append, List.map_singleton]
    · rw [List.flatMap_append, List.filterMap_append, List.flatMap_singleton]
      exact hmirrors.trans hmore

/-- Every run of the core on the AVR flash is one on a plain array, call by call, and leaves the boot
section alone. -/
theorem avr_flash_refines (m : Mcu) (hrest : m.AtRest) (s : UpdSession) (hs : s.info = port_info)
    (inputs : List (UpdFrame × UInt8)) :
    let board := runAll (boardStep slow) (s, m) inputs
    let plain := runAll (handleLogged nor) (s, fun off => m.flash (0x1000 + off)) inputs
    board.1 = plain.1.map Prod.fst ∧ board.2.1 = plain.2.1 ∧
      Mirrors m ((plain.1.flatMap Prod.snd).filterMap nvmOp) board.2.2 plain.2.2 ∧
      ∀ x < 0x1000, board.2.2.flash x = m.flash x := by
  obtain ⟨hanswers, hsession, hmirrors⟩ := runAll_mirrors slow m hrest s hs inputs
  refine ⟨hanswers, hsession, hmirrors, ?_⟩
  intro x hx
  rw [hmirrors.flash]
  exact replay_boot _ hmirrors.inApp m.flash x hx

end Core

/-- The MCU out of reset: CTRLB selects the top section, and the buffer is blank. -/
def Mcu.powerUp (f : Flash) : Mcu where
  ctrla := .NOCMD
  ctrlb := 0x30
  flbusy := 0
  eebusy := 0
  error := false
  buffer := fun _ => 0xFF
  addressed := none
  flash := f
  ops := []
  flmap_saved := 0

theorem powerUp_atRest (f : Flash) : (Mcu.powerUp f).AtRest := ⟨rfl, rfl, fun _ => rfl⟩

/-- An erase and a gate check, on flash that is busy for three reads of STATUS each time. -/
theorem avr_flash_refines_erase :
    let m := Mcu.powerUp (fun x => UInt8.ofNat x)
    let inputs : List (UpdFrame × UInt8) :=
      [(⟨UPD_CMD_ERASE_APP, 4, eraseMagic, rfl⟩, 17), (⟨UPD_CMD_BOOT, 0, [], rfl⟩, 17)]
    let board := runAll (boardStep (fun _ => 3)) (upd_init port_info, m) inputs
    let plain := runAll (handleLogged nor) (upd_init port_info, fun off => m.flash (0x1000 + off)) inputs
    board.1 = plain.1.map Prod.fst ∧ board.2.1 = plain.2.1 ∧
      Mirrors m ((plain.1.flatMap Prod.snd).filterMap nvmOp) board.2.2 plain.2.2 ∧
      ∀ x < 0x1000, board.2.2.flash x = m.flash x :=
  avr_flash_refines (fun _ => 3) _ (powerUp_atRest _) (upd_init port_info) rfl _

/-! ## Power cuts -/

/-- What the flash holds when the power goes in operation `k`: those before it are done, and of the
page it is at there may be anything left. -/
def crashed (tear : UInt8 → UInt8 → Nat → UInt8) (f : Flash) (ops : List NvmOp) (k : Nat) : Flash :=
  let before := replay (ops.take k) f
  match ops[k]? with
  | none => before
  | some op => fun x =>
    if InPage 128 op.page x then tear (before x) (op.apply before x) x else before x

theorem crashed_boot (tear : UInt8 → UInt8 → Nat → UInt8) (f : Flash) (ops : List NvmOp)
    (hops : ∀ op ∈ ops, op.InApp) (k x : Nat) (hx : x < 0x1000) : crashed tear f ops k x = f x := by
  have hbefore : replay (ops.take k) f x = f x :=
    replay_boot _ (fun op hop => hops op (List.mem_of_mem_take hop)) f x hx
  unfold crashed
  rcases hop : ops[k]? with _ | op
  · exact hbefore
  · have hin := hops op (List.mem_of_getElem? hop)
    have hout : ¬ InPage 128 op.page x := by
      unfold InPage
      unfold NvmOp.InApp at hin
      omega
    dsimp only
    rw [if_neg hout, hbefore]

end OtaUpdater.Device.Avr
