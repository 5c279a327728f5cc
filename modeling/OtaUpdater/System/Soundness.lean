import OtaUpdater.System.Recovery

/-!
# What a finished update means

Over any link, with any reboots and power cuts: once `flash` says it is done, the
region holds the image and the boot gate is open.
-/

open OtaUpdater.Lib.State OtaUpdater.Device OtaUpdater.Host OtaUpdater.Agreement

namespace OtaUpdater.System

section Flash

variable {ε : Type} {img : Image} {info : PortInfo} (hps : info.page_size = img.page_size)
  (hap : info.app_pages = img.app_pages) (schedule : Nat → Attempt ε)

include hps hap

theorem flash_stage (room : Nat) (calls : List (UInt16 × UInt16)) :
    Spec (flash (faultyLink schedule) img)
      (Session.At room calls (fun w => Stage img info 0 w.dev))
      (fun _ => Session.At room (calls ++ progressCalls img.pages.length img.pages.length)
        (fun w => Stage img info (3 + img.pages.length) w.dev))
      (fun _ => True) := by
  apply flash_stages img (faultyLink schedule) room (fun n _ w => Stage img info n w.dev)
    (fun _ => True) calls
  · intros
    trivial
  · intros
    trivial
  · intro n hn
    have hserves := faultyLink_serves schedule (request img n).1 (request img n).2
      (responseRoom n) (request_fits img n) (fun d hd => stage_happen hps hap n d .handled hd)
      (fun i h _ d hd => stage_happen hps hap n d h hd)
    refine hserves.weaken _ ?_ (fun _ _ => trivial)
    intro rest w hgranted
    exact ⟨fun _ => stage_granted hps hap n rest w.dev hgranted, fun _ => trivial⟩

end Flash

theorem flatMap_page_into (img : Image) :
    (List.range img.app_pages.toNat).flatMap (fun i =>
      (img.page_into (UInt16.ofNat i) (List.replicate img.page_size.toNat 0)).2) = img.content := by
  rw [← img.flatMap_page, List.flatMap_def, List.flatMap_def]
  congr 1
  apply List.map_congr_left
  intro i hi
  have hlt := List.mem_range.mp hi
  have hpages := img.app_pages.toNat_lt
  have hindex : (UInt16.ofNat i).toNat = i := by
    rw [UInt16.toNat_ofNat', Nat.mod_eq_of_lt (by omega)]
  rw [img.page_into_eq _ _ (by rw [UInt16.lt_iff_toNat_lt, hindex]; exact hlt) (by simp), hindex]
  simp

/-- An update that reports success leaves exactly the rendered pages, and a valid app. -/
theorem flash_sound {ε : Type} (img : Image) (schedule : Nat → Attempt ε) (d : Dev)
    (hps : d.s.info.page_size = img.page_size) (hap : d.s.info.app_pages = img.app_pages)
    (buf : List UInt8) (hok : (flash (faultyLink schedule) img (freshSession d buf)).1 = .ok ()) :
    let f := (flash (faultyLink schedule) img (freshSession d buf)).2.transport.dev.f
    region d.s.info f = (List.range img.app_pages.toNat).flatMap (fun i =>
        (img.page_into (UInt16.ofNat i) (List.replicate img.page_size.toNat 0)).2) ∧
      (upd_app_valid (arrayPort d.s.info store) d.s.info f).1 = true := by
  have hrun := flash_stage hps hap schedule buf.length [] (freshSession d buf)
    ⟨⟨rfl, fun i hi => by omega⟩, rfl, rfl⟩
  rcases hflash : flash (faultyLink schedule) img (freshSession d buf) with ⟨e | _, s⟩
  · rw [hflash] at hok
    cases hok
  · rw [hflash] at hrun
    obtain ⟨hstage, -, -⟩ := hrun
    have hregion := region_of_stage hps hap s.transport.dev hstage
    dsimp only
    rw [flatMap_page_into, upd_app_valid_array, decide_eq_true_iff, hregion]
    exact ⟨rfl, appValid_content img⟩

theorem flash_sound_patchy :
    let f := (flash (faultyLink patchySchedule) patchyImage
      (freshSession patchyDev (List.replicate 36 0))).2.transport.dev.f
    region patchyDev.s.info f = (List.range patchyImage.app_pages.toNat).flatMap (fun i =>
        (patchyImage.page_into (UInt16.ofNat i) (List.replicate patchyImage.page_size.toNat 0)).2) ∧
      (upd_app_valid (arrayPort patchyDev.s.info store) patchyDev.s.info f).1 = true := by
  obtain ⟨s, hflash, -⟩ := flash_fresh patchyImage patchySchedule patchySchedule_calm patchyDev
    rfl rfl (List.replicate 36 0) (by decide)
  apply flash_sound patchyImage patchySchedule patchyDev rfl rfl
  rw [hflash]

end OtaUpdater.System
