import Mathlib.Data.List.Basic
import OtaUpdater.Host.Image

/-!
# What an image renders

Which images there are, which pages they ask for, and what a region that starts out
erased holds once it has those.
-/

open OtaUpdater.Lib.Paged

namespace OtaUpdater.Host

/-! ## The constructor -/

theorem from_bin_eq_ok (bytes : List UInt8) (page_size app_pages : UInt16)
    (hpages : 0 < app_pages.toNat) (hlow : FOOTER_LEN ≤ page_size.toNat)
    (hhigh : page_size.toNat ≤ PAGE_SIZE_MAX)
    (hfits : bytes.length + FOOTER_LEN ≤ page_size.toNat * app_pages.toNat) :
    ∃ img, Image.from_bin bytes page_size app_pages = .ok img ∧ img.data = bytes := by
  have hregion : page_size.toNat * app_pages.toNat < 2 ^ 32 := by
    have hps := page_size.toNat_lt
    have hap := app_pages.toNat_lt
    calc page_size.toNat * app_pages.toNat ≤ 65535 * 65535 := Nat.mul_le_mul (by omega) (by omega)
      _ < 2 ^ 32 := by decide
  have hne : app_pages ≠ 0 := by
    rintro rfl
    simp at hpages
  unfold Image.from_bin
  dsimp only
  rw [dif_neg (by simp [hne, hlow, hhigh]), dif_neg (by omega), dif_neg (by omega),
    dif_neg (by omega)]
  exact ⟨_, rfl, rfl⟩

theorem from_bin_fields {bytes : List UInt8} {page_size app_pages : UInt16} {img : Image}
    (h : Image.from_bin bytes page_size app_pages = .ok img) :
    img.data = bytes ∧ img.page_size = page_size ∧ img.app_pages = app_pages := by
  unfold Image.from_bin at h
  dsimp only at h
  split_ifs at h
  rw [Except.ok.injEq] at h
  subst h
  exact ⟨rfl, rfl, rfl⟩

theorem from_bin_ok_iff (bytes : List UInt8) (page_size app_pages : UInt16) :
    (∃ img, Image.from_bin bytes page_size app_pages = .ok img) ↔
      0 < app_pages.toNat ∧ FOOTER_LEN ≤ page_size.toNat ∧ page_size.toNat ≤ PAGE_SIZE_MAX ∧
        bytes.length ≤ page_size.toNat * app_pages.toNat - FOOTER_LEN := by
  constructor
  · rintro ⟨img, h⟩
    obtain ⟨rfl, rfl, rfl⟩ := from_bin_fields h
    have hfits := img.data_fits
    exact ⟨img.app_pages_pos, img.footer_fits, img.page_fits, by omega⟩
  · rintro ⟨hpages, hlow, hhigh, hfits⟩
    have hroom : page_size.toNat * 1 ≤ page_size.toNat * app_pages.toNat :=
      Nat.mul_le_mul_left _ hpages
    obtain ⟨img, h, -⟩ := from_bin_eq_ok bytes page_size app_pages hpages hlow hhigh (by omega)
    exact ⟨img, h⟩

/-! ## The pages -/

section Rendered

variable (self : Image)

def Image.rendered (index : UInt16) : List UInt8 :=
  (self.page_into index (List.replicate self.page_size.toNat 0)).2

theorem Image.page_into_page (index : UInt16) (out : List UInt8) (hindex : index < self.app_pages)
    (hout : out.length = self.page_size.toNat) :
    self.page_into index out = (.ok (), self.page index.toNat) := by
  rw [self.page_into_eq index out hindex (Nat.le_of_eq hout.symm),
    List.drop_of_length_le (Nat.le_of_eq hout), List.append_nil]

theorem Image.rendered_eq (index : UInt16) (hindex : index < self.app_pages) :
    self.rendered index = self.page index.toNat := by
  unfold Image.rendered
  rw [self.page_into_page index _ hindex List.length_replicate]

theorem Image.index_lt {i : Nat} (hi : i < self.app_pages.toNat) :
    UInt16.ofNat i < self.app_pages ∧ (UInt16.ofNat i).toNat = i := by
  have hlt := self.app_pages.toNat_lt
  have hindex : (UInt16.ofNat i).toNat = i := by
    apply UInt16.toNat_ofNat_of_lt'
    unfold UInt16.size
    omega
  rw [UInt16.lt_iff_toNat_lt, hindex]
  exact ⟨hi, rfl⟩

theorem Image.flatMap_rendered :
    (List.range self.app_pages.toNat).flatMap (fun i => self.rendered (UInt16.ofNat i)) =
      self.content := by
  rw [← self.flatMap_page, List.flatMap_def, List.flatMap_def]
  congr 1
  apply List.map_congr_left
  intro i hi
  obtain ⟨hlt, hindex⟩ := self.index_lt (List.mem_range.mp hi)
  rw [self.rendered_eq _ hlt, hindex]

theorem Image.pages_ascending : self.pages.Pairwise (· < ·) := by
  rw [self.pages_eq]
  apply List.Pairwise.filter
  rw [List.pairwise_map]
  have hall : (List.range self.app_pages.toNat).Pairwise (· < ·) := List.pairwise_lt_range
  refine hall.imp_of_mem ?_
  intro i j hi hj hij
  rw [UInt16.lt_iff_toNat_lt, (self.index_lt (List.mem_range.mp hi)).2,
    (self.index_lt (List.mem_range.mp hj)).2]
  exact hij

theorem Image.mem_pages_iff_page (index : UInt16) (hindex : index < self.app_pages) :
    index ∈ self.pages ↔
      index.toNat + 1 = self.app_pages.toNat ∨ ∃ b ∈ self.page index.toNat, b ≠ 0xFF := by
  have hpos := self.app_pages_pos
  have hlast : index = self.footer_page_index ↔ index.toNat + 1 = self.app_pages.toNat := by
    rw [← UInt16.toNat_inj, self.footer_page_index_toNat]
    omega
  rw [self.mem_pages_iff, ← hlast]
  constructor
  · rintro ⟨-, hwrite⟩
    rcases eq_or_ne index self.footer_page_index with heq | hne
    · exact Or.inl heq
    · exact Or.inr (self.page_of_must_write index hindex hne hwrite)
  · rintro (heq | ⟨b, hb, hbyte⟩)
    · refine ⟨hindex, ?_⟩
      unfold Image.must_write
      rw [if_pos heq]
    · refine ⟨hindex, ?_⟩
      rcases hwrite : self.must_write index
      · rw [self.page_of_not_must_write index hindex hwrite] at hb
        exact absurd (List.eq_of_mem_replicate hb) hbyte
      · rfl

theorem Image.footer_page_mem : self.footer_page_index ∈ self.pages := by
  have hpos := self.app_pages_pos
  have hfooter := self.footer_page_index_toNat
  apply (self.mem_pages_iff_page _ _).mpr
  · left
    omega
  · rw [UInt16.lt_iff_toNat_lt]
    omega

theorem Image.last_page (i : Nat) (hi : i < self.pages.length) (hlast : i + 1 = self.pages.length) :
    self.pages[i].toNat + 1 = self.app_pages.toNat := by
  have hpos := self.app_pages_pos
  have hfooter := self.footer_page_index_toNat
  have hlt := ((self.mem_pages_iff self.pages[i]).mp (List.getElem_mem hi)).1
  rw [UInt16.lt_iff_toNat_lt] at hlt
  obtain ⟨j, hj, hpage⟩ := List.mem_iff_getElem.mp self.footer_page_mem
  rcases Nat.lt_or_ge j i with hbefore | hafter
  · have hordered := (List.pairwise_iff_getElem.mp self.pages_ascending) j i hj hi hbefore
    rw [hpage, UInt16.lt_iff_toNat_lt] at hordered
    omega
  · have hsame : j = i := by omega
    subst hsame
    rw [hpage]
    omega

theorem Image.overwrite_erased (indices : List UInt16) (hrange : ∀ i ∈ indices, i < self.app_pages)
    (hall : ∀ i ∈ self.pages, i ∈ indices) :
    indices.foldl (fun R i => overwrite R (i.toNat * self.page_size.toNat) (self.page i.toNat))
      (List.replicate self.region 0xFF) = self.content := by
  have hregion : self.region = self.app_pages.toNat * self.page_size.toNat := Nat.mul_comm _ _
  have hpages : overwriteAll self.page_size.toNat self.content (indices.map UInt16.toNat)
      (List.replicate self.region 0xFF) = self.content := by
    apply overwriteAll_eq _ (self.length_content.trans hregion) (List.length_replicate.trans hregion)
    · intro i hi
      obtain ⟨index, hindex, rfl⟩ := List.mem_map.mp hi
      exact UInt16.lt_iff_toNat_lt.mp (hrange index hindex)
    · intro i hi hnot
      obtain ⟨hlt, htoNat⟩ := self.index_lt hi
      -- A page that is left out reads as erased, and that is what it should hold.
      have hskipped : self.must_write (UInt16.ofNat i) = false := by
        rw [Bool.eq_false_iff]
        intro hwrite
        apply hnot
        have hmem := hall _ ((self.mem_pages_iff _).mpr ⟨hlt, hwrite⟩)
        exact List.mem_map.mpr ⟨_, hmem, htoNat⟩
      have hpage := self.page_of_not_must_write _ hlt hskipped
      rw [htoNat] at hpage
      have hend := self.page_end_le i hi
      have herased : pageAt self.page_size.toNat (List.replicate self.region (0xFF : UInt8)) i =
          List.replicate self.page_size.toNat 0xFF := by
        unfold pageAt
        rw [List.drop_replicate, List.take_replicate, Nat.min_eq_left (by omega)]
      exact herased.trans hpage.symm
  unfold overwriteAll at hpages
  rw [List.foldl_map] at hpages
  exact hpages

end Rendered

/-- The pages of an image, all of them or only the yielded ones, are its data, padding and footer. -/
theorem from_bin_renders (data : List UInt8) (page_size app_pages : UInt16) :
    ((∃ img, Image.from_bin data page_size app_pages = .ok img) ↔
      0 < app_pages.toNat ∧ 16 ≤ page_size.toNat ∧ page_size.toNat ≤ 250 ∧
        data.length ≤ page_size.toNat * app_pages.toNat - 16) ∧
    ∀ img, Image.from_bin data page_size app_pages = .ok img →
      let region := page_size.toNat * app_pages.toNat
      let whole := data ++ List.replicate (region - 16 - data.length) 0xFF ++ img.footer
      (∀ out : Nat → List UInt8, (∀ i, (out i).length = page_size.toNat) →
        (∀ i < app_pages.toNat, (img.page_into (UInt16.ofNat i) (out i)).1 = .ok ()) ∧
        (List.range app_pages.toNat).flatMap (fun i => (img.page_into (UInt16.ofNat i) (out i)).2) =
          whole) ∧
      img.pages.Pairwise (· < ·) ∧
      (∀ i < app_pages, i ∈ img.pages ↔ i = app_pages - 1 ∨ ∃ b ∈ img.rendered i, b ≠ 0xFF) ∧
      (∀ i ∈ img.pages, i < app_pages) ∧
      img.pages.foldl (fun R i => overwrite R (i.toNat * page_size.toNat) (img.rendered i))
        (List.replicate region 0xFF) = whole := by
  refine ⟨from_bin_ok_iff data page_size app_pages, ?_⟩
  intro img h
  obtain ⟨rfl, rfl, rfl⟩ := from_bin_fields h
  refine ⟨?_, img.pages_ascending, ?_, fun i hi => ((img.mem_pages_iff i).mp hi).1, ?_⟩
  · intro out hout
    constructor
    · intro i hi
      rw [img.page_into_page _ _ (img.index_lt hi).1 (hout i)]
    · refine Eq.trans ?_ img.flatMap_page
      rw [List.flatMap_def, List.flatMap_def]
      congr 1
      apply List.map_congr_left
      intro i hi
      obtain ⟨hlt, hindex⟩ := img.index_lt (List.mem_range.mp hi)
      rw [img.page_into_page _ _ hlt (hout i), hindex]
  · intro i hi
    have hlast : i = img.app_pages - 1 ↔ i.toNat + 1 = img.app_pages.toNat := by
      have hpos := img.app_pages_pos
      have hfooter := img.footer_page_index_toNat
      unfold Image.footer_page_index at hfooter
      rw [← UInt16.toNat_inj, hfooter]
      omega
    rw [img.mem_pages_iff_page i hi, img.rendered_eq i hi, hlast]
  · have hsame : img.pages.foldl
        (fun R i => overwrite R (i.toNat * img.page_size.toNat) (img.rendered i))
        (List.replicate img.region 0xFF) = img.pages.foldl
        (fun R i => overwrite R (i.toNat * img.page_size.toNat) (img.page i.toNat))
        (List.replicate img.region 0xFF) := by
      apply List.foldl_ext
      intro R i hi
      rw [img.rendered_eq i ((img.mem_pages_iff i).mp hi).1]
    exact hsame.trans (img.overwrite_erased img.pages
      (fun i hi => ((img.mem_pages_iff i).mp hi).1) (fun i hi => hi))

end OtaUpdater.Host
