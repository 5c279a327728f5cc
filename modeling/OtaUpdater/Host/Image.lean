import OtaUpdater.Lib.Bytes
import OtaUpdater.Lib.Paged
import OtaUpdater.Host.Frame

/-!
# Image handling: footer and page iteration (`image.rs`)
-/

open OtaUpdater.Lib.Bytes

namespace OtaUpdater.Host

def FOOTER_LEN : Nat := 16
def FOOTER_MAGIC : List UInt8 := [0x4F, 0x54, 0x41, 0x55]
def PAGE_SIZE_MAX : Nat := PAYLOAD_MAX - 2

/-! ## CRC-32 -/

def crc32_bit (crc : UInt32) : UInt32 :=
  if crc &&& 1 ≠ 0 then (crc >>> 1) ^^^ 0xEDB88320 else crc >>> 1

def crc32 (data : List UInt8) : UInt32 :=
  data.foldl (fun crc byte => Nat.repeat crc32_bit 8 (crc ^^^ byte.toUInt32)) 0xFFFFFFFF ^^^
    0xFFFFFFFF

/-! ## Images -/

/-- The fields are private and `from_bin` is the only constructor: what it checks is a field here. -/
structure Image where
  data : List UInt8
  page_size : UInt16
  app_pages : UInt16
  len : UInt32
  crc : UInt32
  app_pages_pos : 0 < app_pages.toNat
  footer_fits : FOOTER_LEN ≤ page_size.toNat
  page_fits : page_size.toNat ≤ PAGE_SIZE_MAX
  data_fits : data.length + FOOTER_LEN ≤ page_size.toNat * app_pages.toNat
  len_eq : len.toNat = data.length
  crc_eq : crc = crc32 data

def Image.from_bin (bytes : List UInt8) (page_size app_pages : UInt16) :
    Except (Error Empty) Image :=
  let ps := page_size.toNat
  if hgeometry : app_pages = 0 ∨ ¬ (FOOTER_LEN ≤ ps ∧ ps ≤ PAGE_SIZE_MAX) then
    .error (.BadGeometry page_size app_pages)
  else
    let region := ps * app_pages.toNat
    if hregion : region < FOOTER_LEN then .error (.BadGeometry page_size app_pages)
    else
      let capacity := region - FOOTER_LEN
      if hcapacity : capacity < bytes.length then .error (.ImageTooLarge bytes.length capacity)
      else if hlen : 2 ^ 32 ≤ bytes.length then .error (.ImageTooLarge bytes.length capacity)
      else .ok
        { data := bytes, page_size, app_pages, len := UInt32.ofNat bytes.length, crc := crc32 bytes
          app_pages_pos := by
            rw [not_or, ← UInt16.toNat_inj] at hgeometry
            exact Nat.pos_of_ne_zero hgeometry.1
          footer_fits := by
            rw [not_or, not_not] at hgeometry
            exact hgeometry.2.1
          page_fits := by
            rw [not_or, not_not] at hgeometry
            exact hgeometry.2.2
          data_fits := by
            change bytes.length + FOOTER_LEN ≤ region
            omega
          len_eq := by
            rw [UInt32.toNat_ofNat', Nat.mod_eq_of_lt (by omega)]
          crc_eq := rfl }

section Accessors

variable (self : Image)

def Image.page_count : UInt16 := self.app_pages

def Image.footer_page_index : UInt16 := self.app_pages - 1

def Image.footer : List UInt8 :=
  FOOTER_MAGIC ++ leBytes 4 self.len.toNat ++ leBytes 4 self.crc.toNat ++ [0xFF, 0xFF, 0xFF, 0xFF]

/-- Render page `index` into `out`, which comes back as the second result. -/
def Image.page_into (index : UInt16) (out : List UInt8) : Except (Error Empty) Unit × List UInt8 :=
  if index ≥ self.app_pages then (.error (.PageOutOfRange index), out)
  else
    let ps := self.page_size.toNat
    if out.length < ps then (.error (.BufferTooSmall ps), out)
    else
      let start := index.toNat * ps
      let payload_tail := self.data.drop start
      let page := (payload_tail ++ List.replicate ps 0xFF).take ps
      let page :=
        if index = self.footer_page_index then page.take (ps - FOOTER_LEN) ++ self.footer else page
      (.ok (), page ++ out.drop ps)

def Image.must_write (index : UInt16) : Bool :=
  if index = self.footer_page_index then true
  else
    let ps := self.page_size.toNat
    let start := index.toNat * ps
    let stop := min (start + ps) self.data.length
    if start ≤ stop then ((self.data.drop start).take (stop - start)).any (· ≠ 0xFF) else false

end Accessors

/-! ## The page iterator -/

structure Pages where
  img : Image
  cursor : UInt32

/-- `Iterator::next`; the iterator comes back as the second result. -/
def Pages.next (self : Pages) : Option UInt16 × Pages :=
  if _h : self.cursor.toNat < self.img.app_pages.toNat then
    let index := UInt16.ofNat self.cursor.toNat
    let advanced : Pages := { self with cursor := self.cursor + 1 }
    if self.img.must_write index then (some index, advanced) else advanced.next
  else (none, self)
termination_by self.img.app_pages.toNat - self.cursor.toNat
decreasing_by
  have hlt := self.img.app_pages.toNat_lt
  rw [succ_toNat32 (by omega)]
  omega

def Pages.remaining (self : Pages) : Nat := self.img.app_pages.toNat - self.cursor.toNat

theorem Pages.advance_toNat (self : Pages) (h : self.cursor.toNat < self.img.app_pages.toNat) :
    (self.cursor + 1).toNat = self.cursor.toNat + 1 := by
  have hlt := self.img.app_pages.toNat_lt
  exact succ_toNat32 (by omega)

theorem Pages.next_remaining_lt (self : Pages) (h : self.next.1.isSome) :
    self.next.2.remaining < self.remaining := by
  have hadvance : ∀ p : Pages, p.cursor.toNat < p.img.app_pages.toNat →
      Pages.remaining { p with cursor := p.cursor + 1 } < p.remaining := by
    intro p hlt
    simp only [Pages.remaining, p.advance_toNat hlt]
    omega
  revert h
  fun_induction Pages.next self with
  | case1 self hlt index advanced hwrite =>
    intro _
    exact hadvance self hlt
  | case2 self hlt index advanced hwrite ih =>
    intro h
    exact Nat.lt_trans (ih h) (hadvance self hlt)
  | case3 self hlt =>
    intro h
    simp at h

/-- The rounds of a `for` loop over the iterator. -/
def Pages.collect (self : Pages) : List UInt16 :=
  match h : self.next with
  | (none, _) => []
  | (some index, rest) =>
    have : rest.remaining < self.remaining := by
      have := self.next_remaining_lt (by rw [h]; rfl)
      rwa [h] at this
    index :: rest.collect
termination_by self.remaining

def Image.pages (self : Image) : List UInt16 := Pages.collect { img := self, cursor := 0 }

/-! ## The pages of an image -/

theorem Pages.collect_eq (self : Pages) :
    self.collect = if self.cursor.toNat < self.img.app_pages.toNat then
        let index := UInt16.ofNat self.cursor.toNat
        let rest := Pages.collect { self with cursor := self.cursor + 1 }
        if self.img.must_write index then index :: rest else rest
      else [] := by
  have hunfold : ∀ p : Pages, p.collect = match p.next with
      | (none, _) => []
      | (some index, rest) => index :: rest.collect := by
    intro p
    rw [Pages.collect]
    split <;> rename_i hnext <;> simp only [hnext]
  rw [hunfold self, Pages.next]
  by_cases hlt : self.cursor.toNat < self.img.app_pages.toNat
  · rw [dif_pos hlt, if_pos hlt]
    dsimp only
    by_cases hwrite : self.img.must_write (UInt16.ofNat self.cursor.toNat)
    · rw [if_pos hwrite, if_pos hwrite]
    · rw [if_neg hwrite, if_neg hwrite, ← hunfold]
  · rw [dif_neg hlt, if_neg hlt]

theorem Pages.collect_filter (img : Image) (k : Nat) (cursor : UInt32)
    (hk : cursor.toNat + k = img.app_pages.toNat) :
    Pages.collect { img, cursor } =
      ((List.range' cursor.toNat k).map UInt16.ofNat).filter img.must_write := by
  induction k generalizing cursor with
  | zero =>
    rw [Pages.collect_eq]
    simp only [List.range'_zero, List.map_nil, List.filter_nil]
    rw [if_neg (by omega)]
  | succ k ih =>
    have hadvance := Pages.advance_toNat { img, cursor } (by dsimp only; omega)
    rw [Pages.collect_eq]
    dsimp only at hadvance ⊢
    rw [if_pos (by omega), ih _ (by omega), hadvance, List.range'_succ, List.map_cons,
      List.filter_cons]

/-- The iterator yields exactly the pages that must be written, in ascending order. -/
theorem Image.pages_eq (self : Image) :
    self.pages = ((List.range self.app_pages.toNat).map UInt16.ofNat).filter self.must_write := by
  rw [Image.pages, Pages.collect_filter _ self.app_pages.toNat _ (by simp), List.range_eq_range']
  rfl

theorem Image.mem_pages_iff (self : Image) (index : UInt16) :
    index ∈ self.pages ↔ index < self.app_pages ∧ self.must_write index := by
  have hlt := self.app_pages.toNat_lt
  rw [self.pages_eq, List.mem_filter, List.mem_map, UInt16.lt_iff_toNat_lt]
  constructor
  · rintro ⟨⟨i, hi, rfl⟩, hwrite⟩
    rw [List.mem_range] at hi
    rw [UInt16.toNat_ofNat', Nat.mod_eq_of_lt (by omega)]
    exact ⟨hi, hwrite⟩
  · rintro ⟨hi, hwrite⟩
    exact ⟨⟨index.toNat, List.mem_range.mpr hi, UInt16.ofNat_toNat⟩, hwrite⟩

section Content

variable (self : Image)

@[simp] theorem Image.length_footer : self.footer.length = FOOTER_LEN := by
  simp [Image.footer, FOOTER_MAGIC, FOOTER_LEN]

def Image.region : Nat := self.page_size.toNat * self.app_pages.toNat

/-- What the whole region holds after an update. -/
def Image.content : List UInt8 :=
  self.data ++ List.replicate (self.region - FOOTER_LEN - self.data.length) 0xFF ++ self.footer

@[simp] theorem Image.length_content : self.content.length = self.region := by
  have hfits := self.data_fits
  simp only [Image.content, List.length_append, List.length_replicate, Image.length_footer]
  simp only [Image.region]
  omega

def Image.page (index : Nat) : List UInt8 :=
  (self.content.drop (index * self.page_size.toNat)).take self.page_size.toNat

theorem Image.page_end_le (index : Nat) (h : index < self.app_pages.toNat) :
    index * self.page_size.toNat + self.page_size.toNat ≤ self.region := by
  calc index * self.page_size.toNat + self.page_size.toNat
      = (index + 1) * self.page_size.toNat := by rw [Nat.add_mul, Nat.one_mul]
    _ ≤ self.app_pages.toNat * self.page_size.toNat := Nat.mul_le_mul_right _ h
    _ = self.region := Nat.mul_comm _ _

theorem Image.length_page (index : Nat) (h : index < self.app_pages.toNat) :
    (self.page index).length = self.page_size.toNat := by
  have hend := self.page_end_le index h
  simp only [Image.page, List.length_take, List.length_drop, Image.length_content]
  omega

theorem Image.footer_page_index_toNat :
    self.footer_page_index.toNat = self.app_pages.toNat - 1 := by
  have hpos := self.app_pages_pos
  have hone : (1 : UInt16).toNat = 1 := rfl
  rw [Image.footer_page_index, UInt16.toNat_sub_of_le _ _ (by rw [UInt16.le_iff_toNat_le]; omega),
    hone]

theorem Image.footer_page_end :
    (self.app_pages.toNat - 1) * self.page_size.toNat + self.page_size.toNat = self.region := by
  have hpos := self.app_pages_pos
  rw [← Nat.succ_mul, Nat.succ_eq_add_one, Nat.sub_add_cancel hpos, Nat.mul_comm]
  rfl

theorem take_drop_padded (xs : List UInt8) (c : UInt8) (k m start n : Nat)
    (hk : start + n ≤ xs.length + k) (hm : n ≤ m) :
    ((xs ++ List.replicate k c).drop start).take n =
      (xs.drop start ++ List.replicate m c).take n := by
  rw [List.drop_append, List.drop_replicate, List.take_append, List.take_append,
    List.take_replicate, List.take_replicate, List.length_drop]
  congr 2
  omega

theorem Image.page_into_eq (index : UInt16) (out : List UInt8) (hindex : index < self.app_pages)
    (hout : self.page_size.toNat ≤ out.length) :
    self.page_into index out = (.ok (), self.page index.toNat ++ out.drop self.page_size.toNat) := by
  have hlt : index.toNat < self.app_pages.toNat := UInt16.lt_iff_toNat_lt.mp hindex
  have hps : 16 ≤ self.page_size.toNat := self.footer_fits
  have hend := self.page_end_le _ hlt
  have hlast := self.footer_page_end
  have hfits := self.data_fits
  have hfooter : FOOTER_LEN = 16 := rfl
  have hregion : self.region = self.page_size.toNat * self.app_pages.toNat := rfl
  have hpage_iff : index = self.footer_page_index ↔ index.toNat + 1 = self.app_pages.toNat := by
    rw [← UInt16.toNat_inj, self.footer_page_index_toNat]
    omega
  rw [Image.page_into, if_neg (by rw [ge_iff_le, UInt16.not_le]; exact hindex)]
  dsimp only
  rw [if_neg (by omega)]
  congr 2
  simp only [hpage_iff, Image.page, Image.content]
  generalize hstart : index.toNat * self.page_size.toNat = start at hend ⊢
  generalize hgap : self.region - FOOTER_LEN - self.data.length = gap
  have hsize : self.data.length + gap = self.region - 16 := by omega
  have hlength : ∀ n, ((self.data ++ List.replicate gap 0xFF).drop n).length =
      self.region - 16 - n := by
    intro n
    rw [List.length_drop, List.length_append, List.length_replicate, hsize]
  have hsplit : (self.data ++ List.replicate gap 0xFF ++ self.footer).drop start =
      (self.data ++ List.replicate gap 0xFF).drop start ++ self.footer :=
    List.drop_append_of_le_length (by rw [List.length_append, List.length_replicate]; omega)
  rw [hsplit]
  by_cases hlast_page : index.toNat + 1 = self.app_pages.toNat
  · have hclose : start + self.page_size.toNat = self.region := by
      rw [← hlast, ← hstart, ← hlast_page, Nat.add_sub_cancel]
    have hfront : ((self.data.drop start ++ List.replicate self.page_size.toNat 0xFF).take
        self.page_size.toNat).take (self.page_size.toNat - 16) =
        (self.data ++ List.replicate gap 0xFF).drop start := by
      rw [List.take_take, Nat.min_eq_left (by omega),
        ← take_drop_padded _ _ gap _ _ _ (by omega) (by omega)]
      exact List.take_of_length_le (by rw [hlength]; omega)
    have hwhole : ((self.data ++ List.replicate gap 0xFF).drop start ++ self.footer).length ≤
        self.page_size.toNat := by
      rw [List.length_append, hlength, self.length_footer]
      omega
    rw [if_pos hlast_page, hfooter, hfront, List.take_of_length_le hwhole]
  · have hbefore : start + 2 * self.page_size.toNat ≤ self.region := by
      have hnext := self.page_end_le (index.toNat + 1) (by omega)
      rw [Nat.add_mul, Nat.one_mul, hstart] at hnext
      omega
    have hinside : self.page_size.toNat ≤ ((self.data ++ List.replicate gap 0xFF).drop start).length := by
      rw [hlength]
      omega
    rw [if_neg hlast_page, List.take_append_of_le_length hinside,
      take_drop_padded _ _ _ self.page_size.toNat _ _ (by omega) (by omega)]

theorem Image.page_of_ne_footer (index : UInt16) (hindex : index < self.app_pages)
    (hne : index ≠ self.footer_page_index) :
    self.page index.toNat = (self.data.drop (index.toNat * self.page_size.toNat) ++
      List.replicate self.page_size.toNat 0xFF).take self.page_size.toNat := by
  have hrender := self.page_into_eq index (List.replicate self.page_size.toNat 0) hindex (by simp)
  rw [Image.page_into, if_neg (by rw [ge_iff_le, UInt16.not_le]; exact hindex)] at hrender
  dsimp only at hrender
  rw [if_neg (by simp), if_neg hne] at hrender
  have hpage := (Prod.mk.inj hrender).2
  simpa using hpage.symm

theorem Image.page_of_not_must_write (index : UInt16) (hindex : index < self.app_pages)
    (h : self.must_write index = false) :
    self.page index.toNat = List.replicate self.page_size.toNat 0xFF := by
  have hlt : index.toNat < self.app_pages.toNat := UInt16.lt_iff_toNat_lt.mp hindex
  rw [Image.must_write] at h
  split at h
  · cases h
  rename_i hnot_last
  have hpage := self.page_of_ne_footer index hindex hnot_last
  dsimp only at h
  generalize index.toNat * self.page_size.toNat = start at hpage h
  -- Every byte the page takes from the payload is 0xFF, like the padding.
  have hpayload : ∀ b ∈ (self.data.drop start).take self.page_size.toNat, b = 0xFF := by
    intro b hb
    split at h
    · rename_i hstart
      have hwindow : (self.data.drop start).take (min (start + self.page_size.toNat)
          self.data.length - start) = (self.data.drop start).take self.page_size.toNat := by
        rw [List.take_eq_take_iff, List.length_drop]
        omega
      rw [hwindow, List.any_eq_false] at h
      simpa using h b hb
    · rw [List.drop_of_length_le (by omega)] at hb
      simp at hb
  rw [List.eq_replicate_iff, self.length_page _ hlt]
  refine ⟨rfl, ?_⟩
  intro b hb
  rw [hpage, List.take_append, List.mem_append] at hb
  rcases hb with hb | hb
  · exact hpayload b hb
  · exact List.eq_of_mem_replicate (List.mem_of_mem_take hb)

theorem Image.page_of_must_write (index : UInt16) (hindex : index < self.app_pages)
    (hne : index ≠ self.footer_page_index) (h : self.must_write index = true) :
    ∃ b ∈ self.page index.toNat, b ≠ 0xFF := by
  rw [Image.must_write, if_neg hne] at h
  dsimp only at h
  split at h
  · rename_i hstart
    rw [List.any_eq_true] at h
    obtain ⟨b, hb, hbyte⟩ := h
    refine ⟨b, ?_, by simpa using hbyte⟩
    rw [self.page_of_ne_footer index hindex hne, List.take_append, List.mem_append]
    left
    exact List.take_subset_take_left _ (by omega) hb
  · cases h

theorem Image.flatMap_page :
    (List.range self.app_pages.toNat).flatMap self.page = self.content := by
  have hwhole : self.content.length ≤ self.app_pages.toNat * self.page_size.toNat :=
    Nat.le_of_eq (self.length_content.trans (Nat.mul_comm _ _))
  calc (List.range self.app_pages.toNat).flatMap self.page
      = self.content.take (self.app_pages.toNat * self.page_size.toNat) :=
        Lib.Paged.flatMap_pageAt self.content self.app_pages.toNat
    _ = self.content := List.take_of_length_le hwhole

end Content

end OtaUpdater.Host
