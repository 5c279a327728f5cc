import Mathlib.Data.List.GetD
import OtaUpdater.Lib.Overlay
import OtaUpdater.Host.IhexDigits

/-!
# Images in Intel HEX

What `parse` makes of a file that some tool wrote: records in any order, as text
in any of its spellings.
-/

open OtaUpdater.Lib.Overlay OtaUpdater.Lib.Paged OtaUpdater.Lib.Text

namespace OtaUpdater.Host

/-! ## Records -/

structure Record where
  rtype : UInt8
  addr : UInt16
  data : List UInt8
  fits : data.length ≤ 255

def Record.body (r : Record) : List UInt8 :=
  UInt8.ofNat r.data.length :: UInt8.ofNat (r.addr.toNat / 256) :: UInt8.ofNat r.addr.toNat ::
    r.rtype :: r.data

def Record.checksum (r : Record) : UInt8 := -(r.body.foldl (· + ·) 0)

def Record.bytes (r : Record) : List UInt8 := r.body ++ [r.checksum]

theorem record_sum (r : Record) : r.bytes.foldl (· + ·) 0 = 0 := by
  have hzero : ∀ sum : UInt8, sum + -sum = 0 := by
    intro sum
    rw [UInt8.add_neg_eq_sub, UInt8.sub_self]
  unfold Record.bytes Record.checksum
  rw [List.foldl_append]
  exact hzero _

inductive Line where
  | blank
  | record (r : Record)

def Line.patch : Line → Option (Patch UInt8)
  | blank => none
  | record r => if r.rtype = 0x00 then some ⟨r.addr.toNat, r.data⟩ else none

theorem put_data_eq_place (out : List UInt8) (addr : Nat) (data : List UInt8) :
    put_data out addr data = place GAP out ⟨addr, data⟩ := by
  have hgrown : (if out.length < addr + data.length then resize out (addr + data.length) GAP else out) =
      grow GAP out (addr + data.length) := by
    unfold resize grow
    split_ifs with hshort
    · rw [List.take_of_length_le (Nat.le_of_lt hshort)]
    · have hnone : addr + data.length - out.length = 0 := by omega
      rw [hnone, List.replicate_zero, List.append_nil]
  unfold put_data
  dsimp only
  rw [hgrown]
  rfl

theorem parse_record_bytes (lineno : Nat) (r : Record) (st : Parsing) :
    (r.rtype = 0x00 → parse_record lineno r.bytes st =
      .ok { st with out := place GAP st.out ⟨r.addr.toNat, r.data⟩ }) ∧
    (r.rtype = 0x01 → parse_record lineno r.bytes st = .ok { st with saw_eof := true }) ∧
    (r.rtype = 0x03 ∨ r.rtype = 0x05 → parse_record lineno r.bytes st = .ok st) := by
  have hsum := record_sum r
  have haddr : (UInt8.ofNat (r.addr.toNat / 256)).toNat * 256 + (UInt8.ofNat r.addr.toNat).toNat =
      r.addr.toNat := by
    have hword := r.addr.toNat_lt
    rw [UInt8.toNat_ofNat', UInt8.toNat_ofNat']
    omega
  have hlen : (UInt8.ofNat r.data.length).toNat = r.data.length := by
    have hfits := r.fits
    rw [UInt8.toNat_ofNat', Nat.mod_eq_of_lt (by omega)]
  obtain ⟨rtype, addr, data, fits⟩ := r
  unfold Record.bytes Record.body at hsum ⊢
  simp only [List.cons_append] at hsum haddr hlen ⊢
  unfold parse_record
  simp only [List.getLast?_concat, List.dropLast_concat]
  rw [hlen, if_neg (by simp), hsum, if_neg (by simp), haddr, put_data_eq_place]
  refine ⟨?_, ?_, ?_⟩
  · rintro rfl
    rfl
  · rintro rfl
    rfl
  · rintro (rfl | rfl)
    · rfl
    · rfl

/-! ## Lines -/

def Line.Content : Line → List Char → Prop
  | blank, content => content = []
  | record r, content => ∃ digits, content = ':' :: digits ∧ Spells digits r.bytes

/-- White space may stand around what a line says, but does not end it. -/
def Line.Text (l : Line) (text : List Char) : Prop :=
  ∃ before content after, text = before ++ content ++ after ∧ l.Content content ∧
    ∀ c ∈ before ++ after, isWhitespace c ∧ c ≠ '\n'

theorem content_not_white {l : Line} {content : List Char} (h : l.Content content) :
    ∀ c ∈ content, isWhitespace c = false := by
  cases l with
  | blank =>
    rw [show content = [] from h]
    intro c hc
    cases hc
  | record r =>
    obtain ⟨digits, rfl, hdigits⟩ := h
    intro c hc
    rcases List.mem_cons.mp hc with rfl | hc
    · rfl
    · exact spells_not_white hdigits c hc

theorem trim_text {l : Line} {text : List Char} (h : l.Text text) :
    '\n' ∉ text ∧ l.Content (trim text) := by
  obtain ⟨before, content, after, rfl, hcontent, hwhite⟩ := h
  have hsolid := content_not_white hcontent
  constructor
  · intro hmem
    rw [List.append_assoc, List.mem_append, List.mem_append] at hmem
    rcases hmem with hbefore | hmem | hafter
    · exact (hwhite _ (List.mem_append_left after hbefore)).2 rfl
    · exact Bool.false_ne_true (hsolid _ hmem).symm
    · exact (hwhite _ (List.mem_append_right before hafter)).2 rfl
  · rw [trim_append_white _ (fun c hc => (hwhite c (List.mem_append_right before hc)).1),
      trim_white_append _ (fun c hc => (hwhite c (List.mem_append_left after hc)).1),
      trim_eq_self _ hsolid]
    exact hcontent

theorem parse_line_hex (lineno : Nat) {raw_line digits : List Char} {bytes : List UInt8}
    (out : List UInt8) (htrim : trim raw_line = ':' :: digits)
    (hdigits : decode_hex digits = .ok bytes) :
    parse_line lineno raw_line ⟨out, false⟩ = parse_record lineno bytes ⟨out, false⟩ := by
  unfold parse_line
  dsimp only
  rw [htrim, if_neg (List.cons_ne_nil _ _), if_neg Bool.false_ne_true]
  simp [hdigits]

theorem parse_line_record (lineno : Nat) (r : Record) (raw_line : List Char) (out : List UInt8)
    (hline : (Line.record r).Content (trim raw_line)) :
    parse_line lineno raw_line ⟨out, false⟩ = parse_record lineno r.bytes ⟨out, false⟩ := by
  obtain ⟨digits, htrim, hdigits⟩ := hline
  exact parse_line_hex lineno out htrim (decode_hex_spells hdigits)

theorem parse_line_blank (lineno : Nat) {raw_line : List Char} (st : Parsing)
    (hempty : trim raw_line = []) : parse_line lineno raw_line st = .ok st := by
  unfold parse_line
  dsimp only
  rw [if_pos hempty]

theorem parse_line_text (lineno : Nat) (l : Line) (raw_line : List Char) (out : List UInt8)
    (hline : l.Content (trim raw_line))
    (hkind : ∀ r, l = .record r → r.rtype = 0x00 ∨ r.rtype = 0x03 ∨ r.rtype = 0x05) :
    parse_line lineno raw_line ⟨out, false⟩ = .ok ⟨l.patch.toList.foldl (place GAP) out, false⟩ := by
  cases l with
  | blank =>
    rw [parse_line_blank lineno _ hline]
    rfl
  | record r =>
    obtain ⟨hdata, -, hstart⟩ := parse_record_bytes lineno r ⟨out, false⟩
    rw [parse_line_record lineno r raw_line out hline]
    unfold Line.patch
    dsimp only
    rcases hkind r rfl with h | h
    · rw [hdata h, if_pos h]
      rfl
    · have hne : r.rtype ≠ 0x00 := by
        rcases h with h | h <;> simp [h]
      rw [hstart h, if_neg hne]
      rfl

theorem parse_line_eof (lineno : Nat) (eof : Record) (raw_line : List Char) (out : List UInt8)
    (hline : (Line.record eof).Content (trim raw_line)) (hkind : eof.rtype = 0x01) :
    parse_line lineno raw_line ⟨out, false⟩ = .ok ⟨out, true⟩ := by
  obtain ⟨-, hend, -⟩ := parse_record_bytes lineno eof ⟨out, false⟩
  rw [parse_line_record lineno eof raw_line out hline]
  exact hend hkind

/-! ## Files -/

/-- The texts of a file that says `ls` and then closes with `eof`, whose line need not be ended. -/
inductive Renders (eof : Record) : List Line → List Char → Prop
  | closing {text : List Char} (stop : List Char) : (Line.record eof).Text text →
      stop ∈ [[], ['\n'], ['\r', '\n']] → Renders eof [] (text ++ stop)
  | line {l : Line} {ls : List Line} {text rest : List Char} (stop : List Char) : l.Text text →
      stop ∈ [['\n'], ['\r', '\n']] → Renders eof ls rest →
      Renders eof (l :: ls) (text ++ stop ++ rest)

theorem lines_text {l : Line} {text stop : List Char} (h : l.Text text)
    (hstop : stop ∈ [['\n'], ['\r', '\n']]) (rest : List Char) :
    ∃ raw_line, lines (text ++ stop ++ rest) = raw_line :: lines rest ∧ l.Content (trim raw_line) := by
  obtain ⟨hended, hcontent⟩ := trim_text h
  simp only [List.mem_cons, List.not_mem_nil, or_false] at hstop
  rcases hstop with rfl | rfl
  · refine ⟨stripCr text, ?_, ?_⟩
    · rw [List.append_assoc]
      exact lines_ended hended rest
    · rw [trim_stripCr]
      exact hcontent
  · refine ⟨stripCr (text ++ ['\r']), ?_, ?_⟩
    · have hended' : '\n' ∉ text ++ ['\r'] := by
        simp [hended]
      rw [← lines_ended hended' rest]
      simp
    · rw [trim_stripCr, trim_append_white _ (by simp [isWhitespace])]
      exact hcontent

theorem parse_lines_renders {eof : Record} (heof : eof.rtype = 0x01) {ls : List Line}
    {text : List Char} (h : Renders eof ls text)
    (hkinds : ∀ r, Line.record r ∈ ls → r.rtype = 0x00 ∨ r.rtype = 0x03 ∨ r.rtype = 0x05) :
    ∀ idx out, parse_lines idx (lines text) ⟨out, false⟩ =
      .ok ⟨(ls.filterMap Line.patch).foldl (place GAP) out, true⟩ := by
  induction h with
  | @closing text stop htext hstop =>
    intro idx out
    have hline : ∃ raw_line, lines (text ++ stop) = [raw_line] ∧
        (Line.record eof).Content (trim raw_line) := by
      rcases List.mem_cons.mp hstop with rfl | hstop
      · obtain ⟨hended, hcontent⟩ := trim_text htext
        have hne : text ≠ [] := by
          rintro rfl
          obtain ⟨digits, hnil, -⟩ := hcontent
          cases hnil
        rw [List.append_nil]
        exact ⟨text, lines_last hended hne, hcontent⟩
      · have hlines := lines_text htext hstop []
        rw [List.append_nil] at hlines
        exact hlines
    obtain ⟨raw_line, hlines, hcontent⟩ := hline
    rw [hlines, parse_lines, parse_line_eof _ eof raw_line out hcontent heof]
    rfl
  | @line l ls text rest stop htext hstop hrest ih =>
    intro idx out
    obtain ⟨raw_line, hlines, hcontent⟩ := lines_text htext hstop rest
    rw [hlines, parse_lines, parse_line_text _ l raw_line out hcontent
      (fun r hr => hkinds r (by rw [hr]; exact List.mem_cons_self))]
    dsimp only
    rw [ih (fun r hr => hkinds r (List.mem_cons_of_mem l hr)), List.filterMap_cons]
    rcases l.patch with _ | p
    · rfl
    · rfl

/-- The image is as long as the data reaches, the last record that covers a place decides what
is there, and a place that none covers is erased. -/
theorem parse_renders (eof : Record) (ls : List Line) (text : List Char) (heof : eof.rtype = 0x01)
    (hkinds : ∀ r, Line.record r ∈ ls → r.rtype = 0x00 ∨ r.rtype = 0x03 ∨ r.rtype = 0x05)
    (htext : Renders eof ls text) :
    let patches := ls.filterMap Line.patch
    ∃ out, parse text = .ok out ∧
      out.length = (patches.map Patch.stop).foldl max 0 ∧
      ∀ a, a < out.length → out[a]? = some ((written patches a).getD 0xFF) := by
  intro patches
  refine ⟨overlay GAP patches, ?_, length_overlay GAP patches, ?_⟩
  · unfold parse
    rw [parse_lines_renders heof htext hkinds]
    rfl
  · intro a ha
    have hbyte := getD_overlay GAP patches a
    rw [List.getD_eq_getElem _ _ ha] at hbyte
    rw [List.getElem?_eq_getElem ha, hbyte]
    rfl

/-- The second record takes a byte from the first, and three places stay erased. -/
theorem parse_renders_overlap :
    let patches : List (Patch UInt8) := [⟨4, [0x11, 0x22]⟩, ⟨3, [0x33, 0x44]⟩]
    ∃ out, parse (":020004001122C7".toList ++ ['\r', '\n'] ++ ([] ++ ['\n'] ++
        (":02000300334484".toList ++ ['\n'] ++ (":00000001Ff".toList ++ [])))) = .ok out ∧
      out.length = (patches.map Patch.stop).foldl max 0 ∧
      ∀ a, a < out.length → out[a]? = some ((written patches a).getD 0xFF) := by
  let eof : Record := ⟨0x01, 0, [], by decide⟩
  let first : Record := ⟨0x00, 4, [0x11, 0x22], by decide⟩
  let second : Record := ⟨0x00, 3, [0x33, 0x44], by decide⟩
  have htext : ∀ (r : Record) (digits : List Char), Spells digits r.bytes →
      (Line.record r).Text (':' :: digits) :=
    fun r digits h => ⟨[], _, [], (List.append_nil _).symm, ⟨digits, rfl, h⟩, by simp⟩
  have hblank : Line.blank.Text [] := ⟨[], [], [], rfl, rfl, by simp⟩
  apply parse_renders eof [.record first, .blank, .record second]
  · rfl
  · simp [first, second]
  · apply Renders.line ['\r', '\n'] (htext first "020004001122C7".toList (by decide)) (by decide)
    apply Renders.line ['\n'] hblank (by decide)
    apply Renders.line ['\n'] (htext second "02000300334484".toList (by decide)) (by decide)
    exact Renders.closing [] (htext eof "00000001Ff".toList (by decide)) (by decide)

end OtaUpdater.Host
