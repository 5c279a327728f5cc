import Mathlib.Data.List.DropRight

/-!
# Text

A text as its characters: white space, lines, and the bytes it is kept as.
-/

namespace OtaUpdater.Lib.Text

/-! ## White space -/

def isWhitespace (c : Char) : Bool :=
  let v := c.toNat
  (0x09 ≤ v && v ≤ 0x0D) || v == 0x20 || v == 0x85 || v == 0xA0 || v == 0x1680 ||
    (0x2000 ≤ v && v ≤ 0x200A) || v == 0x2028 || v == 0x2029 || v == 0x202F || v == 0x205F ||
    v == 0x3000

/-- A text without the white space around it. -/
def trim (text : List Char) : List Char := (text.dropWhile isWhitespace).rdropWhile isWhitespace

section Trim

variable (text : List Char) {ws : List Char}

theorem trim_append_white (h : ∀ c ∈ ws, isWhitespace c) : trim (text ++ ws) = trim text := by
  have hdrop : ∀ xs, (xs ++ ws).rdropWhile isWhitespace = xs.rdropWhile isWhitespace := by
    intro xs
    unfold List.rdropWhile
    rw [List.reverse_append, List.dropWhile_append_of_pos (fun c hc => h c (List.mem_reverse.mp hc))]
  unfold trim
  rw [List.dropWhile_append]
  split_ifs with hempty
  · rw [List.isEmpty_iff.mp hempty, List.dropWhile_eq_nil_iff.mpr h]
  · exact hdrop _

theorem trim_white_append (h : ∀ c ∈ ws, isWhitespace c) : trim (ws ++ text) = trim text := by
  unfold trim
  rw [List.dropWhile_append_of_pos h]

theorem trim_eq_self (h : ∀ c ∈ text, isWhitespace c = false) : trim text = text := by
  unfold trim
  cases text with
  | nil => rfl
  | cons c text =>
    rw [List.dropWhile_cons, h c List.mem_cons_self, if_neg Bool.false_ne_true,
      List.rdropWhile_eq_self_iff]
    intro hne hlast
    rw [h _ (List.getLast_mem hne)] at hlast
    cases hlast

end Trim

/-! ## Lines -/

/-- A line without the carriage return that ended it. -/
def stripCr (line : List Char) : List Char :=
  if line.getLast? = some '\r' then line.dropLast else line

/-- The lines of a text whose first line began with `line`. -/
def linesFrom (line : List Char) : List Char → List (List Char)
  | [] => if line = [] then [] else [line]
  | c :: text => if c = '\n' then stripCr line :: linesFrom [] text else linesFrom (line ++ [c]) text

def lines (text : List Char) : List (List Char) := linesFrom [] text

theorem trim_stripCr (line : List Char) : trim (stripCr line) = trim line := by
  unfold stripCr
  split_ifs with hcr
  · obtain ⟨init, rfl⟩ := List.getLast?_eq_some_iff.mp hcr
    rw [List.dropLast_concat, trim_append_white]
    intro c hc
    rw [List.mem_singleton.mp hc]
    rfl
  · rfl

section Lines

variable {line : List Char} (h : '\n' ∉ line)

include h in
theorem linesFrom_append (before text : List Char) :
    linesFrom before (line ++ text) = linesFrom (before ++ line) text := by
  induction line generalizing before with
  | nil => rw [List.nil_append, List.append_nil]
  | cons c line ih =>
    rw [List.mem_cons, not_or] at h
    rw [List.cons_append, linesFrom, if_neg (Ne.symm h.1), ih h.2, List.append_assoc]
    rfl

include h in
theorem lines_ended (text : List Char) : lines (line ++ '\n' :: text) = stripCr line :: lines text := by
  unfold lines
  rw [linesFrom_append h, List.nil_append, linesFrom, if_pos rfl]

include h in
theorem lines_last (hne : line ≠ []) : lines line = [line] := by
  have hall := linesFrom_append h [] []
  rw [List.append_nil, List.nil_append] at hall
  unfold lines
  rw [hall, linesFrom, if_neg hne]

end Lines

/-! ## Searching -/

def cut (c : Char) : List Char → Option (List Char × List Char)
  | [] => none
  | d :: text => if d = c then some ([], text) else (cut c text).map fun (before, after) => (d :: before, after)

theorem cut_eq_none_iff (c : Char) (text : List Char) : cut c text = none ↔ c ∉ text := by
  induction text with
  | nil => simp [cut]
  | cons d text ih =>
    unfold cut
    split_ifs with hd
    · simp [hd]
    · simp [ih, Ne.symm hd]

theorem cut_eq_some_iff (c : Char) (text before after : List Char) :
    cut c text = some (before, after) ↔ text = before ++ c :: after ∧ c ∉ before := by
  induction text generalizing before with
  | nil => simp [cut]
  | cons d text ih =>
    unfold cut
    split_ifs with hd
    · subst hd
      rcases before with _ | ⟨e, before⟩
      · simp
      · simp only [Option.some.injEq, Prod.mk.injEq, List.nil_eq, reduceCtorEq, false_and,
          List.cons_append, List.cons.injEq, List.mem_cons, not_or, false_iff]
        rintro ⟨⟨rfl, -⟩, hne, -⟩
        exact hne rfl
    · rcases before with _ | ⟨e, before⟩
      · simp [hd]
      · simp only [Option.map_eq_some_iff, Prod.exists, Prod.mk.injEq, List.cons.injEq]
        constructor
        · rintro ⟨before', after', hcut, ⟨rfl, rfl⟩, rfl⟩
          obtain ⟨rfl, hmem⟩ := (ih before').mp hcut
          exact ⟨rfl, by simp [hmem, Ne.symm hd]⟩
        · rintro ⟨htext, hmem⟩
          rw [List.cons_append, List.cons.injEq] at htext
          rw [List.mem_cons, not_or] at hmem
          exact ⟨before, after, (ih before).mpr ⟨htext.2, hmem.2⟩, ⟨htext.1, rfl⟩, rfl⟩

/-! ## Bytes -/

def utf8 (text : List Char) : List UInt8 := text.flatMap String.utf8EncodeChar

theorem utf8_cons (c : Char) (text : List Char) : utf8 (c :: text) = String.utf8EncodeChar c ++ utf8 text := rfl

/-- Every byte of a longer character has its high bit set, the first one too. -/
theorem utf8EncodeChar_ascii {c : Char} {b : UInt8} {bs : List UInt8}
    (h : String.utf8EncodeChar c = b :: bs) (hb : b < 0x80) :
    bs = [] ∧ b.toNat < 128 ∧ c = Char.ofNat b.toNat := by
  have hlow : b.toNat < 128 := UInt8.lt_iff_toNat_lt.mp hb
  have hlead : ∀ n bit, bit ∈ [0xC0, 0xE0, 0xF0] → n + bit < 256 → UInt8.ofNat (n + bit) ≠ b := by
    intro n bit hbit hn heq
    have hvalue := congrArg UInt8.toNat heq
    rw [UInt8.toNat_ofNat', Nat.mod_eq_of_lt hn] at hvalue
    simp only [List.mem_cons, List.not_mem_nil, or_false] at hbit
    omega
  unfold String.utf8EncodeChar at h
  dsimp only at h
  split_ifs at h with hone htwo hthree
  · obtain ⟨rfl, rfl⟩ := List.cons.inj h
    have hvalue : (UInt8.ofNat c.val.toNat).toNat = c.val.toNat := by
      rw [UInt8.toNat_ofNat', Nat.mod_eq_of_lt (by omega)]
    refine ⟨rfl, hlow, ?_⟩
    rw [hvalue]
    exact (Char.ofNat_toNat c).symm
  · exact absurd (List.cons.inj h).1 (hlead _ _ (by simp) (by omega))
  · exact absurd (List.cons.inj h).1 (hlead _ _ (by simp) (by omega))
  · exact absurd (List.cons.inj h).1 (hlead _ _ (by simp) (by omega))

end OtaUpdater.Lib.Text
