import OtaUpdater.Device.Flash
import OtaUpdater.Lib.Repeat

/-!
# Idempotence

Every command may be handled again, right after it was handled, as if it had come once.
-/

open OtaUpdater.Lib.Repeat

namespace OtaUpdater.Device

/-- One request on a plain flash array: the answer, and what it leaves. -/
def handleStep (program : Program) (rsp_cap : UInt8) (st : UpdSession × Flash) (req : UpdFrame) :
    List UInt8 × (UpdSession × Flash) :=
  let r := upd_handle (arrayPort st.1.info program) st.1 req rsp_cap st.2
  (r.1.2, (r.1.1, r.2))

/-! ## The flash -/

/-- Programming a cell with the same byte again does nothing. -/
def Program.Repeats (program : Program) : Prop :=
  ∀ old new, program (program old new) new = program old new

theorem store_repeats : store.Repeats := fun _ _ => rfl

theorem nor_repeats : nor.Repeats := by
  intro old new
  unfold nor
  rw [UInt8.and_assoc, UInt8.and_self]

/-- An erased cell takes any byte. -/
def Program.Fills (program : Program) : Prop :=
  ∀ b, program 0xFF b = b

theorem store_fills : store.Fills := fun _ => rfl

theorem nor_fills : nor.Fills := by
  intro b
  unfold nor
  exact UInt8.neg_one_and

section Kinds

variable {program : Program} (h : program = store ∨ program = nor)

include h in
theorem program_repeats : program.Repeats := by
  rcases h with rfl | rfl
  · exact store_repeats
  · exact nor_repeats

include h in
theorem program_fills : program.Fills := by
  rcases h with rfl | rfl
  · exact store_fills
  · exact nor_fills

end Kinds

theorem writePage_twice {program : Program} (h : program.Repeats) (ps p : Nat) (data : List UInt8)
    (f : Flash) :
    writePage program ps p data (writePage program ps p data f) = writePage program ps p data f := by
  funext off
  unfold writePage
  split
  · exact h _ _
  · rfl

theorem eraseAll_twice (info : PortInfo) (f : Flash) :
    eraseAll info (eraseAll info f) = eraseAll info f := by
  funext off
  unfold eraseAll
  split <;> rfl

/-! ## The commands -/

section Commands

variable {program : Program} (rsp_cap : UInt8)

/-- No answer depends on what its own command changes. -/
theorem upd_handle_twice (h : program.Repeats) (s : UpdSession) (req : UpdFrame) (f : Flash)
    {r : (UpdSession × List UInt8) × Flash}
    (hr : upd_handle (arrayPort s.info program) s req rsp_cap f = r) :
    upd_handle (arrayPort s.info program) r.1.1 req rsp_cap r.2 = r := by
  have hcap : r.1.2 = [UPD_ST_OK] → rsp_cap ≠ 0 := by
    rintro hanswer rfl
    rw [← hr] at hanswer
    cases hanswer
  rcases upd_handle_cases program s req f rsp_cap with
    ⟨hs, hf⟩ | ⟨herase, hmagic, heq⟩ | ⟨hwrite, hlatch, hlen, hidx, heq⟩ | ⟨hboot, hvalid, heq⟩
  · rw [hr] at hs hf
    rw [hs, hf, hr]
  · obtain rfl := heq.symm.trans hr
    have hagain := upd_handle_erase program { s with erased := true } (eraseAll s.info f) rsp_cap
      herase (hcap rfl)
    rw [if_pos hmagic] at hagain
    dsimp only at hagain ⊢
    rw [hagain, eraseAll_twice]
  · obtain rfl := heq.symm.trans hr
    dsimp only
    rw [upd_handle_write program s _ rsp_cap hwrite (hcap rfl), handle_write_array, hlatch,
      if_neg Bool.noConfusion, if_neg (not_not.mpr hlen), if_neg (UInt16.not_le.mpr hidx),
      writePage_twice h]
  · obtain rfl := heq.symm.trans hr
    have hagain := upd_handle_boot program { s with boot_pending := true } f rsp_cap hboot (hcap rfl)
    rw [if_pos hvalid] at hagain
    exact hagain

theorem handleStep_idempotent (h : program.Repeats) : Idempotent (handleStep program rsp_cap) := by
  rintro ⟨s, f⟩ req
  have hinfo := upd_handle_info_eq (arrayPort s.info program) s req f rsp_cap
  have htwice := upd_handle_twice rsp_cap h s req f rfl
  unfold handleStep
  dsimp only at hinfo htwice ⊢
  rw [hinfo, htwice]

end Commands

/-- Every request of a run delivered at least once is every request delivered exactly once. -/
theorem handle_at_least_once (program : Program) (hprogram : program = store ∨ program = nor)
    (rsp_cap : UInt8) (s : UpdSession) (f : Flash) (reqs : List (UpdFrame × Nat))
    (hpos : ∀ r ∈ reqs, 1 ≤ r.2) :
    let once := runAll (handleStep program rsp_cap) (s, f) (reqs.map Prod.fst)
    let many := runAll (handleStep program rsp_cap) (s, f)
      (reqs.flatMap (fun r => List.replicate r.2 r.1))
    once.1.length = reqs.length ∧
      many = ((List.zipWith (fun r answer => List.replicate r.2 answer) reqs once.1).flatten, once.2) := by
  refine ⟨?_, runAll_repeated (handleStep_idempotent rsp_cap (program_repeats hprogram)) reqs hpos (s, f)⟩
  rw [length_runAll, List.length_map]

theorem handle_at_least_once_nor :
    let s := upd_init { page_size := 2, app_pages := 1, device_id := #v[0, 0, 0, 0], bl_version := 0 }
    let reqs : List (UpdFrame × Nat) :=
      [(⟨UPD_CMD_ERASE_APP, 4, eraseMagic, rfl⟩, 2), (⟨UPD_CMD_WRITE_PAGE, 4, [0, 0, 0, 0], rfl⟩, 3)]
    let once := runAll (handleStep nor 17) (s, fun _ => 0x55) (reqs.map Prod.fst)
    let many := runAll (handleStep nor 17) (s, fun _ => 0x55)
      (reqs.flatMap (fun r => List.replicate r.2 r.1))
    many.1 = [[UPD_ST_OK], [UPD_ST_OK], [UPD_ST_OK], [UPD_ST_OK], [UPD_ST_OK]] ∧
    once.1.length = reqs.length ∧
      many = ((List.zipWith (fun r answer => List.replicate r.2 answer) reqs once.1).flatten, once.2) := by
  intro s reqs once many
  refine ⟨by decide +kernel, ?_⟩
  exact handle_at_least_once nor (Or.inr rfl) 17 s (fun _ => 0x55) reqs (by decide)

end OtaUpdater.Device
