import Mathlib.Data.List.Forall2
import OtaUpdater.Host.IhexRules

/-!
# What the Intel-HEX parser takes

The parser takes a little more than its grammar. A plus sign may stand in place of the
first digit of a pair, and data may run past the last 16-bit address.
-/

open OtaUpdater.Lib.Text

namespace OtaUpdater.Host

/-! ## The grammar -/

/-- A line is the text of a record, its bytes written as `spell` says. -/
def Says (spell : List Char → List UInt8 → Prop) (line : List Char) (r : Record) : Prop :=
  ∃ digits, line = ':' :: digits ∧ spell digits r.bytes

def nonblank (raw_lines : List (List Char)) : List (List Char) :=
  (raw_lines.map trim).filter fun line => line ≠ []

/-- Records of the known types, and the EOF record after all others. -/
structure Fits (spell : List Char → List UInt8 → Prop) (raw_lines : List (List Char))
    (init : List Record) (eof : Record) : Prop where
  said : List.Forall₂ (Says spell) (nonblank raw_lines) (init ++ [eof])
  others : ∀ r ∈ init, r.rtype = 0x00 ∨ r.rtype = 0x03 ∨ r.rtype = 0x05
  last : eof.rtype = 0x01

/-- Every byte of data has a 16-bit address. -/
def Record.InSpace (r : Record) : Prop :=
  r.rtype = 0x00 → ∀ i < r.data.length, r.addr.toNat + i ≤ 0xFFFF

def InGrammar (text : List Char) : Prop :=
  ∃ init eof, Fits Spells (lines text) init eof ∧ ∀ r ∈ init, r.InSpace

/-- A text that fits but for a plus sign in place of a digit, or data past the last address. -/
def Strays (text : List Char) : Prop :=
  ∃ init eof, Fits Reads (lines text) init eof ∧
    ((∃ line ∈ nonblank (lines text), '+' ∈ line) ∨ ∃ r ∈ init, ¬ r.InSpace)

theorem nonblank_cons (raw_line : List Char) (rest : List (List Char)) :
    nonblank (raw_line :: rest) =
      if trim raw_line = [] then nonblank rest else trim raw_line :: nonblank rest := by
  unfold nonblank
  rw [List.map_cons, List.filter_cons]
  split_ifs with hblank <;> simp_all

/-! ## Records -/

theorem record_bytes_injective {r r' : Record} (h : r.bytes = r'.bytes) : r = r' := by
  obtain ⟨rtype, addr, data, fits⟩ := r
  obtain ⟨rtype', addr', data', fits'⟩ := r'
  unfold Record.bytes Record.body at h
  simp only [List.cons_append, List.cons.injEq] at h
  obtain ⟨-, hhi, hlo, rfl, hrest⟩ := h
  obtain ⟨rfl, -⟩ := List.append_inj' hrest rfl
  have hword : addr = addr' := by
    have hhi' := congrArg UInt8.toNat hhi
    have hlo' := congrArg UInt8.toNat hlo
    have haddr := addr.toNat_lt
    have haddr' := addr'.toNat_lt
    simp only [UInt8.toNat_ofNat'] at hhi' hlo'
    apply UInt16.toNat_inj.mp
    omega
  rw [hword]

theorem record_of_bytes {ll cc : UInt8} {data : List UInt8} (addr_hi addr_lo rtype : UInt8)
    (hlen : data.length = ll.toNat)
    (hsum : (ll :: addr_hi :: addr_lo :: rtype :: (data ++ [cc])).foldl (· + ·) 0 = 0) :
    ∃ r : Record, r.rtype = rtype ∧
      r.bytes = ll :: addr_hi :: addr_lo :: rtype :: (data ++ [cc]) := by
  have hll := ll.toNat_lt
  have hhi := addr_hi.toNat_lt
  have hlo := addr_lo.toNat_lt
  let addr := UInt16.ofNat (addr_hi.toNat * 256 + addr_lo.toNat)
  have haddr : addr.toNat = addr_hi.toNat * 256 + addr_lo.toNat := by
    rw [UInt16.toNat_ofNat', Nat.mod_eq_of_lt (by omega)]
  let r : Record := ⟨rtype, addr, data, by omega⟩
  have hbody : r.body = ll :: addr_hi :: addr_lo :: rtype :: data := by
    unfold Record.body
    have hhigh : UInt8.ofNat (addr.toNat / 256) = addr_hi := by
      rw [haddr, show (addr_hi.toNat * 256 + addr_lo.toNat) / 256 = addr_hi.toNat by omega,
        UInt8.ofNat_toNat]
    have hlow : UInt8.ofNat addr.toNat = addr_lo := by
      apply UInt8.toNat_inj.mp
      rw [UInt8.toNat_ofNat', haddr]
      omega
    change UInt8.ofNat data.length :: UInt8.ofNat (addr.toNat / 256) :: UInt8.ofNat addr.toNat ::
      rtype :: data = _
    rw [hlen, UInt8.ofNat_toNat, hhigh, hlow]
  have hcheck : r.checksum = cc := by
    have hall : r.body.foldl (· + ·) 0 + cc = 0 := by
      rw [← List.cons_append, ← List.cons_append, ← List.cons_append, ← List.cons_append, ← hbody,
        List.foldl_append] at hsum
      exact hsum
    unfold Record.checksum
    grind
  refine ⟨r, rfl, ?_⟩
  unfold Record.bytes
  rw [hcheck, hbody]
  rfl

theorem parse_record_ok {lineno : Nat} {bytes : List UInt8} {st st' : Parsing}
    (h : parse_record lineno bytes st = .ok st') :
    ∃ r : Record, r.bytes = bytes ∧
      (r.rtype = 0x01 ∧ st'.saw_eof = true ∨
        (r.rtype = 0x00 ∨ r.rtype = 0x03 ∨ r.rtype = 0x05) ∧ st'.saw_eof = st.saw_eof) := by
  unfold parse_record at h
  split at h
  case h_2 => cases h
  case h_1 ll addr_hi addr_lo rtype rest =>
    split at h
    case h_1 => cases h
    case h_2 cc hlast =>
      obtain ⟨data, rfl⟩ := List.getLast?_eq_some_iff.mp hlast
      rw [List.dropLast_concat] at h
      dsimp only at h
      split_ifs at h with hlen hsum
      obtain ⟨r, htype, hbytes⟩ :=
        record_of_bytes addr_hi addr_lo rtype (not_not.mp hlen) (not_not.mp hsum)
      refine ⟨r, hbytes, ?_⟩
      rw [htype]
      split at h
      · cases h
        exact Or.inr ⟨Or.inl rfl, rfl⟩
      · cases h
        exact Or.inl ⟨rfl, rfl⟩
      · cases h
      · cases h
      · cases h
        exact Or.inr ⟨Or.inr (Or.inl rfl), rfl⟩
      · cases h
        exact Or.inr ⟨Or.inr (Or.inr rfl), rfl⟩
      · cases h

/-! ## Lines -/

theorem parse_line_spoken (lineno : Nat) {raw_line : List Char} {r : Record} (out : List UInt8)
    (hline : Says Reads (trim raw_line) r) :
    parse_line lineno raw_line ⟨out, false⟩ = parse_record lineno r.bytes ⟨out, false⟩ := by
  obtain ⟨digits, htrim, hdigits⟩ := hline
  exact parse_line_hex lineno out htrim ((decode_hex_iff digits r.bytes).mpr hdigits)

theorem parse_line_ok {lineno : Nat} {raw_line : List Char} {out : List UInt8} {st : Parsing}
    (h : parse_line lineno raw_line ⟨out, false⟩ = .ok st) :
    trim raw_line = [] ∧ st.saw_eof = false ∨
      trim raw_line ≠ [] ∧ ∃ r, Says Reads (trim raw_line) r ∧
        (r.rtype = 0x01 ∧ st.saw_eof = true ∨
          (r.rtype = 0x00 ∨ r.rtype = 0x03 ∨ r.rtype = 0x05) ∧ st.saw_eof = false) := by
  by_cases hblank : trim raw_line = []
  · left
    rw [parse_line_blank lineno _ hblank] at h
    cases h
    exact ⟨hblank, rfl⟩
  · right
    refine ⟨hblank, ?_⟩
    have hshape : ∃ digits bytes, trim raw_line = ':' :: digits ∧ decode_hex digits = .ok bytes := by
      unfold parse_line at h
      dsimp only at h
      rw [if_neg hblank, if_neg Bool.false_ne_true] at h
      split at h
      case h_1 digits htrim =>
        cases hhex : decode_hex digits with
        | error e => simp [hhex] at h
        | ok bytes => exact ⟨digits, bytes, htrim, hhex⟩
      case h_2 => cases h
    obtain ⟨digits, bytes, htrim, hhex⟩ := hshape
    rw [parse_line_hex lineno out htrim hhex] at h
    obtain ⟨r, hbytes, hkind⟩ := parse_record_ok h
    refine ⟨r, ⟨digits, htrim, ?_⟩, hkind⟩
    rw [hbytes]
    exact (decode_hex_iff digits bytes).mp hhex

theorem parse_lines_after (out : List UInt8) (raw_lines : List (List Char)) : ∀ idx st,
    parse_lines idx raw_lines ⟨out, true⟩ = .ok st ↔ nonblank raw_lines = [] ∧ st = ⟨out, true⟩ := by
  induction raw_lines with
  | nil =>
    intro idx st
    simp [parse_lines, nonblank, eq_comm]
  | cons raw_line rest ih =>
    intro idx st
    rw [nonblank_cons, parse_lines]
    by_cases hblank : trim raw_line = []
    · rw [parse_line_blank _ _ hblank, if_pos hblank]
      exact ih (idx + 1) st
    · have herror : parse_line (idx + 1) raw_line ⟨out, true⟩ = .error (.AfterEof (idx + 1)) := by
        unfold parse_line
        simp [hblank]
      rw [herror, if_neg hblank]
      simp

/-! ## Files -/

theorem fits_blank {spell : List Char → List UInt8 → Prop} {raw_line : List Char}
    {rest : List (List Char)} {init : List Record} {eof : Record} (hblank : trim raw_line = []) :
    Fits spell (raw_line :: rest) init eof ↔ Fits spell rest init eof := by
  have hsame : nonblank (raw_line :: rest) = nonblank rest := by
    rw [nonblank_cons, if_pos hblank]
  constructor
  · rintro ⟨hsaid, hothers, hlast⟩
    exact ⟨hsame ▸ hsaid, hothers, hlast⟩
  · rintro ⟨hsaid, hothers, hlast⟩
    exact ⟨hsame ▸ hsaid, hothers, hlast⟩

theorem parse_lines_fits {raw_lines : List (List Char)} : ∀ {idx out st},
    parse_lines idx raw_lines ⟨out, false⟩ = .ok st → st.saw_eof = true →
    ∃ init eof, Fits Reads raw_lines init eof := by
  induction raw_lines with
  | nil =>
    intro idx out st h hseen
    cases h
    cases hseen
  | cons raw_line rest ih =>
    intro idx out st h hseen
    unfold parse_lines at h
    split at h
    case h_1 => cases h
    case h_2 mid hline =>
      obtain ⟨out', seen⟩ := mid
      rcases parse_line_ok hline with ⟨hblank, hmid⟩ | ⟨hne, r, hr, hkind⟩
      · obtain rfl : seen = false := hmid
        obtain ⟨init, eof, hfits⟩ := ih h hseen
        exact ⟨init, eof, (fits_blank hblank).mpr hfits⟩
      have hcons : nonblank (raw_line :: rest) = trim raw_line :: nonblank rest := by
        rw [nonblank_cons, if_neg hne]
      rcases hkind with ⟨heof, hmid⟩ | ⟨hother, hmid⟩
      · obtain rfl : seen = true := hmid
        obtain ⟨hrest, -⟩ := (parse_lines_after out' rest (idx + 1) st).mp h
        refine ⟨[], r, ?_, by simp, heof⟩
        rw [hcons, hrest]
        exact List.Forall₂.cons hr List.Forall₂.nil
      · obtain rfl : seen = false := hmid
        obtain ⟨init, eof, hsaid, hothers, hlast⟩ := ih h hseen
        refine ⟨r :: init, eof, ?_, ?_, hlast⟩
        · rw [hcons]
          exact List.Forall₂.cons hr hsaid
        · intro r' hr'
          rcases List.mem_cons.mp hr' with rfl | hr'
          · exact hother
          · exact hothers r' hr'

theorem parse_lines_of_fits {raw_lines : List (List Char)} : ∀ idx out {init eof},
    Fits Reads raw_lines init eof →
    ∃ st, parse_lines idx raw_lines ⟨out, false⟩ = .ok st ∧ st.saw_eof = true := by
  induction raw_lines with
  | nil =>
    rintro idx out init eof ⟨hsaid, -, -⟩
    have hlen : 0 = (init ++ [eof]).length := hsaid.length_eq
    simp at hlen
  | cons raw_line rest ih =>
    intro idx out init eof hfits
    rw [parse_lines]
    by_cases hblank : trim raw_line = []
    · rw [parse_line_blank _ _ hblank]
      exact ih _ _ ((fits_blank hblank).mp hfits)
    obtain ⟨hsaid, hothers, hlast⟩ := hfits
    rw [nonblank_cons, if_neg hblank] at hsaid
    cases init with
    | nil =>
      obtain ⟨hr, hrest⟩ := List.forall₂_cons.mp hsaid
      obtain ⟨-, hend, -⟩ := parse_record_bytes (idx + 1) eof ⟨out, false⟩
      have hblanks : nonblank rest = [] := List.forall₂_nil_right_iff.mp hrest
      rw [parse_line_spoken _ out hr, hend hlast]
      exact ⟨⟨out, true⟩, (parse_lines_after out rest (idx + 1) _).mpr ⟨hblanks, rfl⟩, rfl⟩
    | cons r init =>
      obtain ⟨hr, hrest⟩ := List.forall₂_cons.mp hsaid
      obtain ⟨hdata, -, hstart⟩ := parse_record_bytes (idx + 1) r ⟨out, false⟩
      have hfits : Fits Reads rest init eof :=
        ⟨hrest, fun r' hr' => hothers r' (List.mem_cons_of_mem r hr'), hlast⟩
      rw [parse_line_spoken _ out hr]
      rcases hothers r List.mem_cons_self with h | h
      · rw [hdata h]
        exact ih _ _ hfits
      · rw [hstart h]
        exact ih _ _ hfits

theorem parse_ok_iff_fits (text : List Char) :
    (∃ out, parse text = .ok out) ↔ ∃ init eof, Fits Reads (lines text) init eof := by
  constructor
  · rintro ⟨out, h⟩
    unfold parse at h
    split at h
    case h_1 => cases h
    case h_2 st hlines =>
      split_ifs at h with hseen
      exact parse_lines_fits hlines hseen
  · rintro ⟨init, eof, hfits⟩
    obtain ⟨st, hlines, hseen⟩ := parse_lines_of_fits 0 [] hfits
    refine ⟨st.out, ?_⟩
    unfold parse
    rw [hlines]
    exact if_pos hseen

/-! ## The difference -/

theorem reads_unique {s : List Char} {bytes bytes' : List UInt8} (h : Reads s bytes)
    (h' : Reads s bytes') : bytes = bytes' := by
  rw [← decode_hex_iff] at h h'
  exact Except.ok.inj (h.symm.trans h')

theorem says_unique {line : List Char} {r r' : Record} (h : Says Reads line r)
    (h' : Says Reads line r') : r = r' := by
  obtain ⟨digits, rfl, hdigits⟩ := h
  obtain ⟨digits', heq, hdigits'⟩ := h'
  obtain rfl := (List.cons.inj heq).2
  exact record_bytes_injective (reads_unique hdigits hdigits')

theorem fits_unique {raw_lines : List (List Char)} {init init' : List Record} {eof eof' : Record}
    (h : Fits Reads raw_lines init eof) (h' : Fits Reads raw_lines init' eof') : init = init' := by
  have hall : ∀ (said : List (List Char)) (rs rs' : List Record),
      List.Forall₂ (Says Reads) said rs → List.Forall₂ (Says Reads) said rs' → rs = rs' := by
    intro said rs rs' hrs
    induction hrs generalizing rs' with
    | nil =>
      intro hrs'
      exact (List.forall₂_nil_left_iff.mp hrs').symm
    | cons hr _ ih =>
      intro hrs'
      cases hrs' with
      | cons hr' hrest => rw [says_unique hr hr', ih _ hrest]
  exact (List.append_inj' (hall _ _ _ h.said h'.said) rfl).1

/-- A plus sign is all that `Reads` allows beyond digits. -/
theorem spells_iff (s : List Char) (bytes : List UInt8) :
    Spells s bytes ↔ Reads s bytes ∧ '+' ∉ s := by
  constructor
  · intro h
    refine ⟨reads_spells h, ?_⟩
    induction h with
    | nil => simp
    | @cons hi lo digits b bytes hhi hlo _ ih =>
      have hb := b.toNat_lt
      have hplus : ∀ {c v}, v < 16 → IsDigit c v → c ≠ '+' := by
        rintro c v hv hc rfl
        obtain ⟨-, x, hx, -, -, hsign⟩ := digit_byte hc hv
        obtain rfl : 0x2B = x := (List.cons.inj hx).1
        exact hsign rfl
      rw [List.mem_cons, List.mem_cons, not_or, not_or]
      exact ⟨(hplus (by omega) hhi).symm, (hplus (by omega) hlo).symm, ih⟩
  · rintro ⟨h, hplus⟩
    induction h with
    | nil => exact Spells.nil
    | digits hhi hlo _ ih =>
      rw [List.mem_cons, List.mem_cons, not_or, not_or] at hplus
      exact Spells.cons hhi hlo (ih hplus.2.2)
    | plus => simp at hplus

theorem says_spells_iff (line : List Char) (r : Record) :
    Says Spells line r ↔ Says Reads line r ∧ '+' ∉ line := by
  constructor
  · rintro ⟨digits, rfl, hdigits⟩
    obtain ⟨hreads, hplus⟩ := (spells_iff digits r.bytes).mp hdigits
    refine ⟨⟨digits, rfl, hreads⟩, ?_⟩
    rw [List.mem_cons, not_or]
    exact ⟨by decide, hplus⟩
  · rintro ⟨⟨digits, rfl, hreads⟩, hplus⟩
    rw [List.mem_cons, not_or] at hplus
    exact ⟨digits, rfl, (spells_iff digits r.bytes).mpr ⟨hreads, hplus.2⟩⟩

theorem fits_spells_iff (raw_lines : List (List Char)) (init : List Record) (eof : Record) :
    Fits Spells raw_lines init eof ↔
      Fits Reads raw_lines init eof ∧ ∀ line ∈ nonblank raw_lines, '+' ∉ line := by
  have hall : List.Forall₂ (Says Spells) (nonblank raw_lines) (init ++ [eof]) ↔
      List.Forall₂ (Says Reads) (nonblank raw_lines) (init ++ [eof]) ∧
        ∀ line ∈ nonblank raw_lines, '+' ∉ line := by
    rw [and_comm, ← List.forall₂_and_left]
    apply Eq.to_iff
    congr 1
    funext line r
    rw [says_spells_iff, and_comm]
  constructor
  · rintro ⟨hsaid, hothers, hlast⟩
    obtain ⟨hreads, hplus⟩ := hall.mp hsaid
    exact ⟨⟨hreads, hothers, hlast⟩, hplus⟩
  · rintro ⟨⟨hsaid, hothers, hlast⟩, hplus⟩
    exact ⟨hall.mpr ⟨hsaid, hplus⟩, hothers, hlast⟩

theorem not_grammar_of_strays {text : List Char} (h : Strays text) : ¬ InGrammar text := by
  rintro ⟨init', eof', hfits', hspace⟩
  obtain ⟨init, eof, hfits, hstray⟩ := h
  obtain ⟨hreads, hplus⟩ := (fits_spells_iff _ _ _).mp hfits'
  rcases hstray with ⟨line, hline, hmem⟩ | ⟨r, hr, hout⟩
  · exact hplus line hline hmem
  · rw [fits_unique hfits hreads] at hr
    exact hout (hspace r hr)

/-- The parser is right about every text that does not stray. -/
theorem parse_ok_iff_grammar (text : List Char) :
    ((∃ out, parse text = .ok out) ↔ InGrammar text) ↔ ¬ Strays text := by
  rw [parse_ok_iff_fits]
  constructor
  · intro hiff hstrays
    have hnot := not_grammar_of_strays hstrays
    obtain ⟨init, eof, hfits, _⟩ := hstrays
    exact hnot (hiff.mp ⟨init, eof, hfits⟩)
  · intro hstrays
    constructor
    · rintro ⟨init, eof, hfits⟩
      refine ⟨init, eof, (fits_spells_iff _ _ _).mpr ⟨hfits, ?_⟩, ?_⟩
      · intro line hline hmem
        exact hstrays ⟨init, eof, hfits, Or.inl ⟨line, hline, hmem⟩⟩
      · intro r hr
        by_contra hout
        exact hstrays ⟨init, eof, hfits, Or.inr ⟨r, hr, hout⟩⟩
    · rintro ⟨init, eof, hfits, _⟩
      exact ⟨init, eof, ((fits_spells_iff _ _ _).mp hfits).1⟩

/-- A plus sign in the EOF record, and a byte of data at address 0x10000. -/
theorem parse_strays :
    ¬ ((∃ out, parse ":+0000001FF".toList = .ok out) ↔ InGrammar ":+0000001FF".toList) ∧
    ¬ ((∃ out, parse (":02FFFF00AABB9B".toList ++ '\n' :: ":00000001FF".toList) = .ok out) ↔
      InGrammar (":02FFFF00AABB9B".toList ++ '\n' :: ":00000001FF".toList)) := by
  let eof : Record := ⟨0x01, 0, [], by decide⟩
  let past : Record := ⟨0x00, 0xFFFF, [0xAA, 0xBB], by decide⟩
  have hspoken : ∀ (r : Record) (digits : List Char), decode_hex digits = .ok r.bytes →
      Says Reads (':' :: digits) r :=
    fun r digits h => ⟨digits, rfl, (decode_hex_iff digits r.bytes).mp h⟩
  have hok : ∀ {text}, Strays text → ¬ ((∃ out, parse text = .ok out) ↔ InGrammar text) := by
    rintro text ⟨init, eof, hfits, hstray⟩ hiff
    exact not_grammar_of_strays ⟨init, eof, hfits, hstray⟩
      (hiff.mp ((parse_ok_iff_fits text).mpr ⟨init, eof, hfits⟩))
  constructor
  · apply hok
    have hlines : nonblank (lines ":+0000001FF".toList) = [":+0000001FF".toList] := by decide
    refine ⟨[], eof, ⟨?_, by simp, rfl⟩, Or.inl ?_⟩
    · rw [hlines]
      exact List.Forall₂.cons (hspoken eof "+0000001FF".toList (by decide)) List.Forall₂.nil
    · rw [hlines]
      exact ⟨_, List.mem_singleton_self _, by decide⟩
  · apply hok
    have hlines : nonblank (lines (":02FFFF00AABB9B".toList ++ '\n' :: ":00000001FF".toList)) =
        [":02FFFF00AABB9B".toList, ":00000001FF".toList] := by decide
    refine ⟨[past], eof, ⟨?_, by simp [past], rfl⟩, Or.inr ⟨past, List.mem_singleton_self _, ?_⟩⟩
    · rw [hlines]
      exact List.Forall₂.cons (hspoken past "02FFFF00AABB9B".toList (by decide))
        (List.Forall₂.cons (hspoken eof "00000001FF".toList (by decide)) List.Forall₂.nil)
    · intro hspace
      have hbyte := hspace rfl 1 (by decide)
      revert hbyte
      decide

end OtaUpdater.Host
