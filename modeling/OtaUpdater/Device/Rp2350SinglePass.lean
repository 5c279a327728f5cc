import Mathlib.Data.List.Induction
import OtaUpdater.Device.Rp2350FlashRules

/-!
# One program per flash page

Written in ascending order, no flash page of the RP2350 is programmed twice between two
erases: its even half waits in the holdback for the odd one.
-/

open OtaUpdater.Lib.Bytes OtaUpdater.Lib.State OtaUpdater.Lib.Repeat

namespace OtaUpdater.Device.Rp2350

/-! ## What is programmed -/

/-- The flash page, counted from the start of the flash, that protocol page `page` is half of. -/
def flashPage (page : UInt16) : Nat := (appOffset (page.toNat * 128)) / 256

def FlashCall.Programs (x : Nat) : FlashCall → Prop
  | .flash_range_program offs count => offs.toNat < (x + 1) * 256 ∧ x * 256 < offs.toNat + count.toNat
  | .flash_range_erase _ _ => False

instance (x : Nat) (call : FlashCall) : Decidable (call.Programs x) :=
  match call with
  | .flash_range_program _ _ => inferInstanceAs (Decidable (_ ∧ _))
  | .flash_range_erase _ _ => inferInstanceAs (Decidable False)

/-- How often flash page `x` is programmed. -/
def programs (calls : List FlashCall) (x : Nat) : Nat := calls.countP fun call => call.Programs x

def programAt (even_page : UInt16) : FlashCall :=
  .flash_range_program (UPDATER_APP_FLASH_OFFSET + even_page.toUInt32 * UPDATER_PAGE_SIZE) FLASH_PAGE_SIZE

def held (b : Board) : List UInt16 := if b.hold_valid then [b.hold_page] else []

theorem flashPage_eq (page : UInt16) : flashPage page = 256 + page.toNat / 2 := by
  have hoffset : UPDATER_APP_FLASH_OFFSET.toNat = 0x10000 := rfl
  unfold flashPage appOffset
  omega

theorem programs_append (calls calls' : List FlashCall) (x : Nat) :
    programs (calls ++ calls') x = programs calls x + programs calls' x := List.countP_append

theorem programAt_programs (page : UInt16) (hpage : page.toNat < 8192) (heven : page.toNat % 2 = 0)
    (x : Nat) : (programAt page).Programs x ↔ flashPage page = x := by
  have hcount : FLASH_PAGE_SIZE.toNat = 256 := rfl
  have hoffset : UPDATER_APP_FLASH_OFFSET.toNat = 0x10000 := rfl
  have haddress := page_address page hpage
  rw [flashPage_eq]
  unfold appOffset at haddress
  unfold programAt FlashCall.Programs
  dsimp only
  rw [haddress, hcount, hoffset]
  omega

theorem programs_map (pages : List UInt16)
    (hpages : ∀ page ∈ pages, page.toNat < 8192 ∧ page.toNat % 2 = 0) (x : Nat) :
    programs (pages.map programAt) x = (pages.map flashPage).count x := by
  unfold programs List.count
  rw [List.countP_map, List.countP_map]
  apply List.countP_congr
  intro page hmem
  obtain ⟨hpage, heven⟩ := hpages page hmem
  simp [programAt_programs page hpage heven x]

/-! ## The operations -/

theorem prog_flash_page_made (page : UInt16) (lo hi : Option (List UInt8)) (b : Board) :
    (prog_flash_page page lo hi b).2.calls = b.calls ++ [programAt page] ∧
      held (prog_flash_page page lo hi b).2 = held b := ⟨rfl, rfl⟩

theorem hold_flush_made (b : Board) :
    (hold_flush b).2.calls = b.calls ++ (held b).map programAt ∧ held (hold_flush b).2 = [] := by
  unfold hold_flush held
  cases hvalid : b.hold_valid with
  | false => simp [hvalid]
  | true => exact ⟨rfl, rfl⟩

theorem port_flash_read_byte_made (offset : UInt32) (b : Board) :
    (port_flash_read_byte offset b).2.calls = b.calls ++ (held b).map programAt ∧
      held (port_flash_read_byte offset b).2 = [] := hold_flush_made b

theorem port_flash_write_page_partner (q : UInt16) (data : List UInt8) (b : Board)
    (hheld : held b = [q]) :
    (port_flash_write_page (q + 1) data b).2.calls = b.calls ++ [programAt q] ∧
      held (port_flash_write_page (q + 1) data b).2 = [] := by
  have hvalid : b.hold_valid = true ∧ b.hold_page = q := by
    unfold held at hheld
    split_ifs at hheld with h
    exact ⟨h, List.head_eq_of_cons_eq hheld⟩
  have hne : q + 1 ≠ q := by
    intro h
    simp at h
  unfold port_flash_write_page
  rw [hvalid.1, hvalid.2, if_neg (fun h => hne h.2), if_pos ⟨rfl, rfl⟩]
  exact ⟨rfl, rfl⟩

theorem port_flash_write_page_apart (page : UInt16) (data : List UInt8) (b : Board)
    (hheld : ∀ q ∈ held b, page ≠ q ∧ page ≠ q + 1) :
    let b' := (port_flash_write_page page data b).2
    if page.toNat % 2 = 0 then
      b'.calls = b.calls ++ (held b).map programAt ∧ held b' = [page]
    else
      b'.calls = b.calls ++ (held b).map programAt ++ [programAt (page - 1)] ∧ held b' = [] := by
  have hfirst : ¬ (b.hold_valid = true ∧ page = b.hold_page) := by
    rintro ⟨hvalid, rfl⟩
    exact (hheld b.hold_page (by simp [held, hvalid])).1 rfl
  have hsecond : ¬ (b.hold_valid = true ∧ page = b.hold_page + 1) := by
    rintro ⟨hvalid, rfl⟩
    exact (hheld b.hold_page (by simp [held, hvalid])).2 rfl
  obtain ⟨hcalls, hnone⟩ := hold_flush_made b
  intro b'
  have hb' : b' = (if page &&& 1 = 0 then
      ((), { (hold_flush b).2 with
        hold := data.take UPDATER_PAGE_SIZE.toNat, hold_page := page, hold_valid := true })
    else prog_flash_page (page - 1) none (some data) (hold_flush b).2).2 := by
    unfold b' port_flash_write_page
    rw [if_neg hfirst, if_neg hsecond]
    rfl
  simp only [low_bit] at hb'
  split_ifs at hb' ⊢ with heven
  · rw [hb']
    exact ⟨hcalls, rfl⟩
  · obtain ⟨hmade, hsame⟩ := prog_flash_page_made (page - 1) none (some data) (hold_flush b).2
    rw [hb', hmade, hsame, hcalls]
    exact ⟨rfl, hnone⟩

theorem erase_pages_made (k : Nat) (page : UInt16) (b : Board) :
    (∃ erases, (erase_pages rp2350Port k page b).2.calls = b.calls ++ erases ∧
      ∀ x, programs erases x = 0) ∧
    (0 < k ∨ held b = [] → held (erase_pages rp2350Port k page b).2 = []) := by
  induction k generalizing page b with
  | zero =>
    refine ⟨⟨[], (List.append_nil _).symm, fun x => rfl⟩, ?_⟩
    rintro (h | h)
    · omega
    · exact h
  | succ k ih =>
    have hstep : erase_pages rp2350Port (k + 1) page b =
        erase_pages rp2350Port k (page + 1) (port_flash_erase_page page b).2 := rfl
    have hdropped : held (port_flash_erase_page page b).2 = [] := by
      unfold held
      rw [port_flash_erase_page_drops page b]
      rfl
    have hone : ∃ erases, (port_flash_erase_page page b).2.calls = b.calls ++ erases ∧
        ∀ x, programs erases x = 0 := by
      unfold port_flash_erase_page
      dsimp only
      split
      · exact ⟨[], (List.append_nil _).symm, fun x => rfl⟩
      · exact ⟨_, rfl, fun x => rfl⟩
    obtain ⟨⟨more, hmore, hnone⟩, hlast⟩ := ih (page + 1) (port_flash_erase_page page b).2
    obtain ⟨erases, herases, hfirst⟩ := hone
    rw [hstep]
    refine ⟨⟨erases ++ more, ?_, ?_⟩, fun _ => hlast (Or.inr hdropped)⟩
    · rw [hmore, herases, List.append_assoc]
    · intro x
      rw [programs_append, hfirst, hnone]

/-! ## Runs -/

/-- After the writes of `pages`, in order: what was programmed and what is held back are the flash
pages that were touched, each once, and the last page is held back if it is even. -/
structure SinglePass (calls : List FlashCall) (pages done : List UInt16) (b : Board) : Prop where
  made : b.calls = calls ++ done.map programAt
  even : ∀ page ∈ done ++ held b, page.toNat < 8192 ∧ page.toNat % 2 = 0
  ascending : ((done ++ held b).map flashPage).Pairwise (· < ·)
  touched : ∀ x, x ∈ (done ++ held b).map flashPage ↔ x ∈ pages.map flashPage
  holdback : held b = (pages.getLast?.filter fun page => page.toNat % 2 = 0).toList

theorem held_eq {b : Board} {q : UInt16} (h : q ∈ held b) : held b = [q] := by
  unfold held at h ⊢
  split_ifs at h ⊢
  · rw [List.mem_singleton.mp h]
  · cases h

theorem getLast?_of_next {pages : List UInt16} {page p : UInt16}
    (hsorted : (pages ++ [page]).Pairwise (· < ·)) (hp : p ∈ pages) (hnext : page.toNat = p.toNat + 1) :
    pages.getLast? = some p := by
  rcases List.eq_nil_or_concat pages with rfl | ⟨init, last, rfl⟩
  · cases hp
  · obtain ⟨hpages, -, hbelow⟩ := List.pairwise_append.mp hsorted
    have hlast := UInt16.lt_iff_toNat_lt.mp (hbelow last (by simp) page (List.mem_singleton_self _))
    rw [List.concat_eq_append] at hp hpages ⊢
    rw [List.getLast?_concat]
    rcases List.mem_append.mp hp with hinit | hend
    · have hlt := (List.pairwise_append.mp hpages).2.2 p hinit last (List.mem_singleton_self _)
      have hlt' := UInt16.lt_iff_toNat_lt.mp hlt
      omega
    · rw [List.mem_singleton.mp hend]

theorem SinglePass.holdback_concat {pages : List UInt16} {page : UInt16} :
    ((pages ++ [page]).getLast?.filter fun page => page.toNat % 2 = 0).toList =
      if page.toNat % 2 = 0 then [page] else [] := by
  rw [List.getLast?_concat, Option.filter_some]
  split_ifs with heven hodd hodd
  · rfl
  · exact absurd (of_decide_eq_true heven) hodd
  · exact absurd (decide_eq_true hodd) heven
  · rfl

theorem SinglePass.grow {calls : List FlashCall} {pages done done' : List UInt16} {b b' : Board}
    (h : SinglePass calls pages done b) {page e : UInt16}
    (hfresh : ∀ x ∈ pages.map flashPage, x < flashPage page)
    (hseen : done' ++ held b' = done ++ held b ++ [e]) (he : e.toNat < 8192 ∧ e.toNat % 2 = 0)
    (hsame : flashPage e = flashPage page) (hcalls : b'.calls = calls ++ done'.map programAt)
    (hheld : held b' = if page.toNat % 2 = 0 then [page] else []) :
    SinglePass calls (pages ++ [page]) done' b' := by
  refine ⟨hcalls, ?_, ?_, ?_, ?_⟩
  · rw [hseen]
    intro p hp
    rcases List.mem_append.mp hp with hp | hp
    · exact h.even p hp
    · rw [List.mem_singleton.mp hp]
      exact he
  · rw [hseen, List.map_append, List.pairwise_append]
    refine ⟨h.ascending, List.pairwise_singleton _ _, ?_⟩
    intro x hx y hy
    rw [List.mem_singleton.mp hy, hsame]
    exact hfresh x ((h.touched x).mp hx)
  · intro x
    have hold := h.touched x
    rw [hseen, List.map_append, List.mem_append, hold, List.map_append, List.mem_append,
      List.map_singleton, List.map_singleton, hsame]
  · rw [hheld, SinglePass.holdback_concat]

section Written

variable {calls : List FlashCall} {pages done : List UInt16} {b : Board} (h : SinglePass calls pages done b)

include h in
/-- With its partner the held page goes out; their flash page counts as touched already. -/
theorem SinglePass.write_partner {q : UInt16} (hq : q ∈ held b) (data : List UInt8) :
    SinglePass calls (pages ++ [q + 1]) (done ++ [q]) (port_flash_write_page (q + 1) data b).2 := by
  have hheld := held_eq hq
  obtain ⟨hcalls, hnone⟩ := port_flash_write_page_partner q data b hheld
  obtain ⟨hrange, heven⟩ := h.even q (List.mem_append_right done hq)
  have hnext : (q + 1).toNat = q.toNat + 1 := succ_toNat16 (by omega)
  have hseen : done ++ [q] ++ held (port_flash_write_page (q + 1) data b).2 = done ++ held b := by
    rw [hnone, hheld, List.append_nil]
  have hsame : flashPage (q + 1) = flashPage q := by
    rw [flashPage_eq, flashPage_eq]
    omega
  have hin : flashPage q ∈ pages.map flashPage :=
    (h.touched _).mp (List.mem_map_of_mem (List.mem_append_right done hq))
  refine ⟨?_, ?_, ?_, ?_, ?_⟩
  · rw [hcalls, h.made, List.map_append, List.append_assoc]
    rfl
  · rw [hseen]
    exact h.even
  · rw [hseen]
    exact h.ascending
  · intro x
    rw [hseen, h.touched x, List.map_append, List.mem_append]
    constructor
    · exact Or.inl
    · rintro (hx | hx)
      · exact hx
      · rw [List.mem_singleton.mp hx, hsame]
        exact hin
  · rw [hnone, SinglePass.holdback_concat, if_neg (by omega)]

variable {page : UInt16} (hpage : page.toNat < 8192) (hpartner : ¬ ∃ q ∈ held b, page = q + 1)

include h hpage hpartner

/-- If nothing waits for the page, its flash page has not been touched. -/
theorem SinglePass.fresh (hsorted : (pages ++ [page]).Pairwise (· < ·)) :
    ∀ x ∈ pages.map flashPage, x < flashPage page := by
  intro x hx
  obtain ⟨p, hp, rfl⟩ := List.mem_map.mp hx
  have hlt := (List.pairwise_append.mp hsorted).2.2 p hp page (List.mem_singleton_self _)
  have hlt' := UInt16.lt_iff_toNat_lt.mp hlt
  rw [flashPage_eq, flashPage_eq]
  by_contra hge
  have hnext : page.toNat = p.toNat + 1 := by omega
  have heven : p.toNat % 2 = 0 := by omega
  apply hpartner
  refine ⟨p, ?_, ?_⟩
  · rw [h.holdback, getLast?_of_next hsorted hp hnext]
    simp [heven]
  · apply UInt16.toNat_inj.mp
    rw [succ_toNat16 (by omega)]
    exact hnext

theorem SinglePass.write_apart (data : List UInt8)
    (hfresh : ∀ x ∈ pages.map flashPage, x < flashPage page) :
    ∃ done', SinglePass calls (pages ++ [page]) done' (port_flash_write_page page data b).2 := by
  have hapart := port_flash_write_page_apart page data b ?_
  · dsimp only at hapart
    split_ifs at hapart with heven
    · refine ⟨done ++ held b, h.grow hfresh (e := page) ?_ ⟨hpage, heven⟩ rfl ?_ ?_⟩
      · rw [hapart.2]
      · rw [hapart.1, h.made, List.map_append, List.append_assoc]
      · rw [hapart.2, if_pos heven]
    · have hprev := pred_toNat page (by omega)
      refine ⟨done ++ held b ++ [page - 1], h.grow hfresh (e := page - 1) ?_ ?_ ?_ ?_ ?_⟩
      · rw [hapart.2, List.append_nil]
      · omega
      · rw [flashPage_eq, flashPage_eq]
        omega
      · rw [hapart.1, h.made, List.map_append, List.map_append, List.append_assoc, List.append_assoc,
          List.append_assoc]
        rfl
      · rw [hapart.2, if_neg heven]
  · intro q hq
    refine ⟨?_, fun hnext => hpartner ⟨q, hq, hnext⟩⟩
    rintro rfl
    have hin := (h.touched _).mp (List.mem_map_of_mem (List.mem_append_right done hq))
    exact absurd (hfresh _ hin) (Nat.lt_irrefl _)

omit hpartner in
theorem SinglePass.write (data : List UInt8) (hsorted : (pages ++ [page]).Pairwise (· < ·)) :
    ∃ done', SinglePass calls (pages ++ [page]) done' (port_flash_write_page page data b).2 := by
  by_cases hpartner : ∃ q ∈ held b, page = q + 1
  · obtain ⟨q, hq, rfl⟩ := hpartner
    exact ⟨done ++ [q], h.write_partner hq data⟩
  · exact h.write_apart hpage hpartner data (h.fresh hpage hpartner hsorted)

end Written

theorem writes_single_pass {b : Board} (hnone : held b = []) (writes : List (UInt16 × List UInt8))
    (hrange : ∀ w ∈ writes, w.1.toNat < 8192) (hsorted : (writes.map Prod.fst).Pairwise (· < ·)) :
    ∃ done, SinglePass b.calls (writes.map Prod.fst) done
      (runAll (flashStep port_info rp2350Port) b (writes.map fun w => .write_page w.1 w.2)).2 := by
  induction writes using List.reverseRecOn with
  | nil =>
    refine ⟨[], (List.append_nil _).symm, ?_, ?_, ?_, hnone⟩
    · intro page hpage
      change page ∈ [] ++ held b at hpage
      rw [hnone] at hpage
      cases hpage
    · change (([] ++ held b).map flashPage).Pairwise (· < ·)
      rw [hnone]
      exact List.Pairwise.nil
    · intro x
      change x ∈ ([] ++ held b).map flashPage ↔ _
      rw [hnone]
      rfl
  | append_singleton writes w ih =>
    rw [List.map_append, List.map_singleton] at hsorted
    obtain ⟨done, hdone⟩ := ih (fun v hv => hrange v (List.mem_append_left _ hv))
      (List.pairwise_append.mp hsorted).1
    have hw := hrange w (List.mem_append_right _ (List.mem_singleton_self w))
    rw [List.map_append, List.map_append, List.map_singleton, List.map_singleton, runAll_concat]
    exact hdone.write hw w.2 hsorted

theorem reads_made (reads : List UInt32) (hreads : reads ≠ []) (b : Board) :
    (runAll (flashStep port_info rp2350Port) b (reads.map .read_byte)).2.calls =
      b.calls ++ (held b).map programAt := by
  induction reads generalizing b with
  | nil => exact absurd rfl hreads
  | cons offset rest ih =>
    obtain ⟨hcalls, hnone⟩ := port_flash_read_byte_made offset b
    have hstep : (runAll (flashStep port_info rp2350Port) b ((offset :: rest).map .read_byte)).2 =
        (runAll (flashStep port_info rp2350Port) (port_flash_read_byte offset b).2
          (rest.map .read_byte)).2 := rfl
    rw [hstep]
    rcases rest with _ | ⟨next, rest⟩
    · exact hcalls
    · rw [ih (List.cons_ne_nil _ _), hnone, hcalls]
      exact List.append_nil _

theorem flashStep_erase_app {σ : Type} (info : PortInfo) (P : Port σ) (s : σ) :
    (flashStep info P s .erase_app).2 = (erase_pages P info.app_pages.toNat 0 s).2 := rfl

theorem single_pass_programs (b : Board) (writes : List (UInt16 × List UInt8)) (reads : List UInt32)
    (hrange : ∀ w ∈ writes, w.1.toNat < 8192) (hsorted : (writes.map Prod.fst).Pairwise (· < ·))
    (hreads : reads ≠ []) (x : Nat) :
    let ops := FlashOp.erase_app :: writes.map (fun w => .write_page w.1 w.2) ++ reads.map .read_byte
    programs ((runAll (flashStep port_info rp2350Port) b ops).2.calls.drop b.calls.length) x =
      if x ∈ (writes.map Prod.fst).map flashPage then 1 else 0 := by
  have herase := flashStep_erase_app port_info rp2350Port b
  obtain ⟨⟨erases, herases, hzero⟩, hdrop⟩ := erase_pages_made port_info.app_pages.toNat 0 b
  have hnone := hdrop (Or.inl (by decide))
  rw [← herase] at herases hnone
  intro ops
  unfold ops
  rw [List.cons_append, runAll_cons, runAll_append]
  dsimp only
  generalize (flashStep port_info rp2350Port b .erase_app).2 = erased at herases hnone ⊢
  obtain ⟨done, h⟩ := writes_single_pass hnone writes hrange hsorted
  rw [reads_made reads hreads, h.made, herases, List.append_assoc, List.append_assoc,
    ← List.map_append, List.drop_left]
  have hnodup := h.ascending.imp (fun hlt => Nat.ne_of_lt hlt)
  rw [programs_append, hzero, Nat.zero_add, programs_map _ h.even, List.Nodup.count hnodup]
  simp only [h.touched x]

/-- Pages that ascend from an erase to the first read: no flash page is programmed twice, and
those of the pages written are programmed. -/
theorem single_pass (b : Board) (writes : List (UInt16 × List UInt8)) (reads : List UInt32)
    (hrange : ∀ w ∈ writes, w.1.toNat < 8192) (hsorted : (writes.map Prod.fst).Pairwise (· < ·))
    (hreads : reads ≠ []) :
    let ops := FlashOp.erase_app :: writes.map (fun w => .write_page w.1 w.2) ++ reads.map .read_byte
    let made := (runAll (flashStep port_info rp2350Port) b ops).2.calls.drop b.calls.length
    ∀ x, programs made x ≤ 1 ∧ (programs made x = 1 ↔ ∃ w ∈ writes, flashPage w.1 = x) := by
  intro ops made x
  have hcount : programs made x = if x ∈ (writes.map Prod.fst).map flashPage then 1 else 0 :=
    single_pass_programs b writes reads hrange hsorted hreads x
  have hin : x ∈ (writes.map Prod.fst).map flashPage ↔ ∃ w ∈ writes, flashPage w.1 = x := by
    rw [List.map_map, List.mem_map]
    rfl
  rw [hcount, ← hin]
  split_ifs with hx
  · exact ⟨Nat.le_refl 1, iff_of_true rfl hx⟩
  · exact ⟨Nat.zero_le 1, iff_of_false (by decide) hx⟩

theorem single_pass_gaps :
    let d := List.replicate 128 0x5A
    let writes : List (UInt16 × List UInt8) := [(0, d), (1, d), (5, d), (8, d)]
    let b : Board :=
      { hold := [], hold_page := 0, hold_valid := false, flash := fun _ => 0, calls := [] }
    let ops := FlashOp.erase_app :: writes.map (fun w => .write_page w.1 w.2) ++ [0].map .read_byte
    let made := (runAll (flashStep port_info rp2350Port) b ops).2.calls.drop b.calls.length
    ∀ x, programs made x ≤ 1 ∧ (programs made x = 1 ↔ ∃ w ∈ writes, flashPage w.1 = x) := by
  intro d writes b
  apply single_pass b writes [0]
  · simp [writes]
  · simp [writes]
  · simp

end OtaUpdater.Device.Rp2350
