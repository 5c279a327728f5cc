import OtaUpdater.System.Recovery

/-!
# The commit point

Once an erase of the run is over, the footer page stays blank until the device
starts to program it, through every tear, reboot and repetition.
-/

open OtaUpdater.Lib.State OtaUpdater.Wire OtaUpdater.Device OtaUpdater.Host

namespace OtaUpdater.System

section Commit

variable (info : PortInfo)

def footerPage : Nat := info.app_pages.toNat - 1

def FooterBlank (f : Flash) : Prop :=
  ∀ off, InPage info.page_size.toNat (footerPage info) off → f off = 0xFF

/-- An erase is over, and nothing has been programmed into the footer page. -/
def Armed (log : List Moment) : Prop :=
  (∃ g, Moment.erased g ∈ log) ∧ ∀ g, Moment.programming (footerPage info) g ∉ log

/-- At every moment so far at which an erase was over and the footer page untouched, it was blank. -/
def Guarded (log : List Moment) : Prop :=
  ∀ past m rest, log = past ++ m :: rest → Armed info (past ++ [m]) → FooterBlank info m.flash

variable {info}

theorem guarded_snoc {log : List Moment} {m : Moment} (h : Guarded info log)
    (hm : Armed info (log ++ [m]) → FooterBlank info m.flash) : Guarded info (log ++ [m]) := by
  intro past m' rest hsplit harmed
  rcases List.eq_nil_or_concat rest with rfl | ⟨rest, last, rfl⟩
  · obtain ⟨rfl, hlast⟩ := List.append_inj' hsplit rfl
    rw [List.cons.injEq] at hlast
    rw [hlast.1] at hm
    exact hm harmed
  · rw [List.concat_eq_append, ← List.cons_append, ← List.append_assoc] at hsplit
    obtain ⟨rfl, -⟩ := List.append_inj' hsplit rfl
    exact h past m' rest rfl harmed

theorem armed_snoc {log : List Moment} {m : Moment} (herased : ∀ g, m ≠ .erased g) :
    Armed info (log ++ [m]) → Armed info log := by
  rintro ⟨⟨g, hg⟩, hnone⟩
  refine ⟨⟨g, ?_⟩, ?_⟩
  · rw [List.mem_append, List.mem_singleton] at hg
    exact hg.resolve_right (fun h => herased g h.symm)
  · intro g' hg'
    exact hnone g' (List.mem_append_left _ hg')

/-! ## One flash operation -/

def Honest (tear : Tear) : Prop := ∀ old new off, tear old new off = old ∨ tear old new off = new

structure RigSafe (info : PortInfo) (r : Rig) : Prop where
  honest : ∀ k tear, r.fuse = some (k, tear) → Honest tear
  guarded : Guarded info r.log
  blank : Armed info r.log → FooterBlank info r.f

theorem torn_blank {tear : Tear} (htear : Honest tear) (p : Nat) (old new : Flash)
    (hold : FooterBlank info old) (hnew : FooterBlank info new) :
    FooterBlank info (tornPage tear info.page_size.toNat p old new) := by
  intro off hoff
  unfold tornPage
  split
  · rcases htear (old off) (new off) off with h | h
    · rw [h, hold off hoff]
    · rw [h, hnew off hoff]
  · exact hold off hoff

theorem rigOp_safe (p : Nat) (whole : Flash → Flash) (r : Rig) (hr : RigSafe info r)
    (hwhole : r.dead = false → Armed info r.log → FooterBlank info r.f →
      FooterBlank info (whole r.f)) :
    RigSafe info (rigOp info.page_size.toNat p whole r).2 := by
  have hafter : ∀ f : Flash, (Armed info r.log → FooterBlank info f) →
      Guarded info (r.log ++ [.operated f]) ∧
        (Armed info (r.log ++ [.operated f]) → FooterBlank info f) := by
    intro f hf
    have harmed : Armed info (r.log ++ [.operated f]) → FooterBlank info f :=
      fun h => hf (armed_snoc (by simp) h)
    exact ⟨guarded_snoc hr.guarded harmed, harmed⟩
  unfold rigOp
  by_cases hdead : r.dead
  · rw [if_pos hdead]
    exact hr
  have hdone := fun harmed => hwhole (by simpa using hdead) harmed (hr.blank harmed)
  rw [if_neg hdead]
  rcases hfuse : r.fuse with _ | ⟨_ | k, tear⟩
  · obtain ⟨hguarded, hblank⟩ := hafter _ hdone
    exact ⟨by simp, hguarded, hblank⟩
  · have htear := hr.honest 0 tear hfuse
    obtain ⟨hguarded, hblank⟩ := hafter (tornPage tear info.page_size.toNat p r.f (whole r.f))
      (fun harmed => torn_blank htear p _ _ (hr.blank harmed) (hdone harmed))
    exact ⟨fun k tear' h => hr.honest k tear' (hfuse.trans h), hguarded, hblank⟩
  · have htear := hr.honest (k + 1) tear hfuse
    obtain ⟨hguarded, hblank⟩ := hafter _ hdone
    refine ⟨?_, hguarded, hblank⟩
    rintro k' tear' h
    simp only [Option.some.injEq, Prod.mk.injEq] at h
    exact h.2 ▸ htear

theorem rigStart_safe (p : Nat) (r : Rig) (hr : RigSafe info r) :
    RigSafe info (rigStart p r).2 ∧
      ((rigStart p r).2.dead = false → Armed info (rigStart p r).2.log → p ≠ footerPage info) := by
  unfold rigStart
  by_cases hdead : r.dead
  · rw [if_pos hdead]
    exact ⟨hr, fun halive => by rw [hdead] at halive; cases halive⟩
  rw [if_neg hdead]
  have harmed : Armed info (r.log ++ [.programming p r.f]) → FooterBlank info r.f :=
    fun h => hr.blank (armed_snoc (by simp) h)
  refine ⟨⟨hr.honest, guarded_snoc hr.guarded harmed, harmed⟩, ?_⟩
  rintro - ⟨-, hnone⟩ rfl
  exact hnone r.f (List.mem_append_right _ (List.mem_singleton_self _))

theorem inPage_unique {ps p q off : Nat} (hp : InPage ps p off) (hq : InPage ps q off) : p = q := by
  unfold InPage at hp hq
  have hpos : 0 < ps := by omega
  have hdiv : ∀ i, i * ps ≤ off ∧ off < i * ps + ps → off / ps = i := by
    intro i hi
    rw [Nat.div_eq_iff hpos]
    omega
  rw [← hdiv p hp, hdiv q hq]

theorem rigPort_confined : Confined (rigPort info) info (RigSafe info) where
  read := fun off _ r hr => hr
  erase := by
    intro p _ r hr
    apply rigOp_safe _ _ _ hr
    intro _ _ hblank off hoff
    unfold erasePage
    split
    · rfl
    · exact hblank off hoff
  write := by
    intro p data _ _ r hr
    obtain ⟨hstart, hspared⟩ := rigStart_safe p.toNat r hr
    apply rigOp_safe _ _ _ hstart
    intro halive harmed hblank off hoff
    have hother := hspared halive harmed
    unfold writePage
    rw [if_neg (fun hin => hother (inPage_unique hin hoff))]
    exact hblank off hoff

/-! ## One request -/

theorem handle_erased (d : Dev) (req : UpdFrame) (fuse : Option (Nat × Tear))
    (halive : (d.handle req fuse).2.dead = false) (hcmd : req.cmd = UPD_CMD_ERASE_APP)
    (hok : (d.handle req fuse).1.2 = [UPD_ST_OK]) :
    (d.handle req fuse).2.f = eraseAll d.s.info d.f := by
  have hroom : rspCap ≠ 0 := by decide
  have hinfo : UPD_CMD_ERASE_APP ≠ UPD_CMD_INFO := by decide
  have hunfold : ∀ {σ : Type} (P : Port σ) (st : σ),
      upd_handle P d.s req rspCap st = handle_erase P d.s req st := by
    intro σ P st
    simp [upd_handle, hroom, hcmd, hinfo]
  have hcalls : ∀ p : UInt16, p < d.s.info.app_pages →
      Agree (fun (r : Rig) f => r.dead = false → r.f = f)
        ((rigPort d.s.info).port_flash_erase_page p)
        ((arrayPort d.s.info store).port_flash_erase_page p) := by
    rintro p _ ⟨g, fuse, dead, log⟩ f hrel
    refine ⟨rfl, ?_⟩
    intro hdead
    cases dead with
    | true => cases hdead
    | false =>
      have hg : g = f := hrel rfl
      subst hg
      rcases fuse with _ | ⟨_ | k, tear⟩
      · rfl
      · cases hdead
      · rfl
  obtain ⟨hret, hf⟩ := handle_erase_agree hcalls req
    { f := d.f, fuse, dead := false, log := d.log } d.f (fun _ => rfl)
  unfold Dev.handle at halive hok ⊢
  rw [hunfold] at halive hok ⊢
  rw [hf halive, handle_erase_array]
  rw [hret, handle_erase_array] at hok
  split at hok
  · rename_i hmagic
    rw [if_pos hmagic]
  · have hne : [UPD_ST_BAD_MAGIC] ≠ [UPD_ST_OK] := by decide
    exact absurd hok hne

variable (info) in
structure DevSafe (d : Dev) : Prop where
  geometry : d.s.info = info
  guarded : Guarded info d.log
  blank : Armed info d.log → FooterBlank info d.f

theorem footerPage_end (hpages : 0 < info.app_pages.toNat) :
    footerPage info * info.page_size.toNat + info.page_size.toNat = info.region := by
  unfold footerPage PortInfo.region
  rw [← Nat.succ_mul, Nat.succ_eq_add_one, Nat.sub_add_cancel hpages, Nat.mul_comm]

theorem erased_blank (hpages : 0 < info.app_pages.toNat) (f : Flash) :
    FooterBlank info (eraseAll info f) := by
  intro off hoff
  have hend := footerPage_end hpages
  obtain ⟨-, hhigh⟩ := hoff
  unfold eraseAll
  rw [if_pos (by omega)]

theorem handle_safe (hpages : 0 < info.app_pages.toNat) (d : Dev) (hd : DevSafe info d)
    (req : UpdFrame) (fuse : Option (Nat × Tear)) (htear : ∀ k tear, fuse = some (k, tear) → Honest tear) :
    let r := d.handle req fuse
    Guarded info (r.2.log ++ eraseDone req r) ∧
      (Armed info (r.2.log ++ eraseDone req r) → FooterBlank info r.2.f) := by
  have hsafe : RigSafe info (d.handle req fuse).2 := by
    obtain rfl := hd.geometry
    exact upd_handle_keeps rigPort_confined req rspCap _ ⟨htear, hd.guarded, hd.blank⟩
  dsimp only
  unfold eraseDone
  split
  · rename_i hdone
    have hblank : FooterBlank info (d.handle req fuse).2.f := by
      rw [handle_erased d req fuse hdone.1 hdone.2.1 hdone.2.2, hd.geometry]
      exact erased_blank hpages d.f
    exact ⟨guarded_snoc hsafe.guarded (fun _ => hblank), fun _ => hblank⟩
  · rw [List.append_nil]
    exact ⟨hsafe.guarded, hsafe.blank⟩

theorem reboot_safe (d : Dev) (hd : DevSafe info d) : DevSafe info d.reboot := by
  have harmed : Armed info (d.log ++ [.reset d.f]) → FooterBlank info d.f :=
    fun h => hd.blank (armed_snoc (m := .reset d.f) (by simp) h)
  exact ⟨hd.geometry, guarded_snoc hd.guarded harmed, harmed⟩

theorem happen_safe (hpages : 0 < info.app_pages.toNat) (frame : List UInt8) (d : Dev)
    (h : Happening) (htear : ∀ k tear, h = .cut k tear → Honest tear) (hd : DevSafe info d) :
    DevSafe info (happen frame d h) := by
  have hinfo := (happen_info frame d h).trans hd.geometry
  rcases h with _ | _ | ⟨k, tear⟩
  · exact reboot_safe d hd
  · unfold happen transaction at hinfo ⊢
    rcases hreq : parseFrame frame with _ | req
    · exact hd
    · rw [hreq] at hinfo
      obtain ⟨hguarded, hblank⟩ := handle_safe hpages d hd req none (by simp)
      exact ⟨hinfo, hguarded, hblank⟩
  · unfold happen cutTransaction
    rcases hreq : parseFrame frame with _ | req
    · exact reboot_safe d hd
    · obtain ⟨hguarded, hblank⟩ := handle_safe hpages d hd req (some (k, tear)) (by
        rintro k' tear' h
        simp only [Option.some.injEq, Prod.mk.injEq] at h
        exact h.2 ▸ htear k tear rfl)
      exact reboot_safe _ ⟨hd.geometry, hguarded, hblank⟩

/-! ## The gate -/

variable (info) in
/-- No path to the app: the gate is closed, the entry window does not boot, and BOOT is refused. -/
structure GateClosed (f : Flash) : Prop where
  gate : (upd_app_valid (arrayPort info store) info f).1 = false
  window : (upd_boot_if_valid (arrayPort info store) info f).1 = false
  boot : ∀ (s : UpdSession) (req : UpdFrame), s.info = info → req.cmd = UPD_CMD_BOOT →
    (upd_handle (arrayPort info store) s req rspCap f).1 = (s, [UPD_ST_NO_APP])

theorem gate_closed (hlow : 16 ≤ info.page_size.toNat) (hpages : 0 < info.app_pages.toNat) (f : Flash)
    (hf : FooterBlank info f) : GateClosed info f := by
  have hend := footerPage_end hpages
  have hinvalid : ¬ AppValid (region info f) := by
    rintro ⟨-, hmagic, -⟩
    rw [length_region, region_window _ _ _ _ (by omega)] at hmagic
    have hfirst : f (info.region - 16) = 0x4F := (List.cons.inj hmagic).1
    have hblank : f (info.region - 16) = 0xFF := hf _ ⟨by omega, by omega⟩
    have hne : (0xFF : UInt8) ≠ 0x4F := by decide
    exact hne (hblank.symm.trans hfirst)
  have hgate : upd_app_valid (arrayPort info store) info f = (false, f) := by
    rw [upd_app_valid_array, decide_eq_false hinvalid]
  refine ⟨by rw [hgate], ?_, ?_⟩
  · unfold upd_boot_if_valid
    rw [bind_apply, hgate]
    rfl
  · rintro s req rfl hcmd
    rw [upd_handle_boot store s f rspCap hcmd (by decide), if_neg hinvalid]

/-- The guarantee over a run's record: from the end of the first erase until the footer page is
programmed, there is no path to the app. -/
def FooterCommits (info : PortInfo) (log : List Moment) : Prop :=
  ∀ past m rest, log = past ++ m :: rest → (∃ g, Moment.erased g ∈ past ++ [m]) →
    (∀ g, Moment.programming (info.app_pages.toNat - 1) g ∉ past ++ [m]) → GateClosed info m.flash

end Commit

/-- However an update goes, the app it is writing cannot start before its footer page is programmed. -/
theorem flash_commits {ε : Type} (img : Image) (schedule : Nat → Attempt ε)
    (htear : ∀ i k tear, Happening.cut k tear ∈ (schedule i).before → Honest tear) (s : UpdSession)
    (hps : s.info.page_size = img.page_size) (hap : s.info.app_pages = img.app_pages) (f : Flash)
    (buf : List UInt8) :
    FooterCommits s.info (flash (faultyLink schedule) img
      (freshSession { s, f, log := [] } buf)).2.transport.dev.log := by
  have hpages : 0 < s.info.app_pages.toNat := by
    rw [hap]
    exact img.app_pages_pos
  have hlow : 16 ≤ s.info.page_size.toNat := by
    rw [hps]
    exact img.footer_fits
  have hstart : DevSafe s.info { s, f, log := [] } := by
    refine ⟨rfl, ?_, ?_⟩
    · intro past m rest hsplit
      cases past <;> cases hsplit
    · rintro ⟨⟨g, hg⟩, -⟩
      cases hg
  have hstages := flash_stages img (faultyLink schedule) buf.length
    (fun _ _ w => DevSafe s.info w.dev) (fun w => DevSafe s.info w.dev) []
    (fun _ _ h => h) (fun _ _ _ h => h) ?_
  · have hrun := hstages (freshSession { s, f, log := [] } buf) ⟨hstart, rfl, rfl⟩
    have hend : DevSafe s.info (flash (faultyLink schedule) img
        (freshSession { s, f, log := [] } buf)).2.transport.dev := by
      rcases hflash : flash (faultyLink schedule) img (freshSession { s, f, log := [] } buf) with
        ⟨e | _, s'⟩
      · rw [hflash] at hrun
        exact hrun
      · rw [hflash] at hrun
        exact hrun.transport
    intro past m rest hsplit herased hnone
    exact gate_closed hlow hpages m.flash (hend.guarded past m rest hsplit ⟨herased, hnone⟩)
  · intro n hn
    have hserves := faultyLink_serves schedule (request img n).1 (request img n).2
      (responseRoom n) (request_fits img n) (fun d hd => happen_safe hpages _ d .handled (by simp) hd)
      (fun i h hmem d hd => happen_safe hpages _ d h
        (fun k tear hcut => htear i k tear (hcut ▸ hmem)) hd)
    refine hserves.weaken _ ?_ (fun _ h => h)
    rintro rest w ⟨d, hd, -, hafter⟩
    have hnext : DevSafe s.info w.dev := by
      rw [hafter]
      exact happen_safe hpages _ d .handled (by simp) hd
    exact ⟨fun _ => hnext, fun _ => hnext⟩

def tornSchedule (i : Nat) : Attempt Unit :=
  if i % 4 = 1 then { before := [.cut 1 (fun old new off => if off % 2 = 0 then old else new)]
                      outcome := .noise silence }
  else { before := [.handled], outcome := .answers 0 }

theorem flash_commits_torn :
    FooterCommits patchyDev.s.info (flash (faultyLink tornSchedule) patchyImage
      (freshSession { s := patchyDev.s, f := patchyDev.f, log := [] }
        (List.replicate 36 0))).2.transport.dev.log := by
  apply flash_commits patchyImage tornSchedule _ patchyDev.s rfl rfl
  intro i k tear hmem
  unfold tornSchedule at hmem
  split at hmem
  · cases List.mem_singleton.mp hmem
    intro old new off
    dsimp only
    split
    · exact Or.inl rfl
    · exact Or.inr rfl
  · cases List.mem_singleton.mp hmem

end OtaUpdater.System
