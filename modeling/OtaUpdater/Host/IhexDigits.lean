import OtaUpdater.Host.Ihex

/-!
# Hex text

Which texts `decode_hex` takes: a byte is two digits, and a plus sign may stand in place of
the first one.
-/

open OtaUpdater.Lib.Text

namespace OtaUpdater.Host

/-! ## Spellings -/

def IsDigit (c : Char) (v : Nat) : Prop := c = Nat.digitChar v ∨ c = (Nat.digitChar v).toUpper

instance (c : Char) (v : Nat) : Decidable (IsDigit c v) :=
  inferInstanceAs (Decidable (c = Nat.digitChar v ∨ c = (Nat.digitChar v).toUpper))

inductive Spells : List Char → List UInt8 → Prop
  | nil : Spells [] []
  | cons {hi lo : Char} {digits : List Char} {b : UInt8} {bytes : List UInt8} :
      IsDigit hi (b.toNat / 16) → IsDigit lo (b.toNat % 16) → Spells digits bytes →
      Spells (hi :: lo :: digits) (b :: bytes)

instance spellsDecidable : (digits : List Char) → (bytes : List UInt8) → Decidable (Spells digits bytes)
  | [], [] => isTrue .nil
  | [], _ :: _ => isFalse (by rintro ⟨⟩)
  | [_], _ => isFalse (by rintro ⟨⟩)
  | _ :: _ :: _, [] => isFalse (by rintro ⟨⟩)
  | hi :: lo :: digits, b :: bytes =>
    have := spellsDecidable digits bytes
    decidable_of_iff (IsDigit hi (b.toNat / 16) ∧ IsDigit lo (b.toNat % 16) ∧ Spells digits bytes)
      ⟨fun h => .cons h.1 h.2.1 h.2.2, fun h => by
        cases h with
        | cons hhi hlo hrest => exact ⟨hhi, hlo, hrest⟩⟩

theorem digit_byte {c : Char} {v : Nat} (h : IsDigit c v) (hv : v < 16) :
    isWhitespace c = false ∧
      ∃ b, String.utf8EncodeChar c = [b] ∧ to_digit b = some v ∧ b < 0x80 ∧ b ≠ 0x2B := by
  have hall : ∀ (v : Fin 16) (upper : Bool),
      let c := if upper then (Nat.digitChar v).toUpper else Nat.digitChar v
      isWhitespace c = false ∧ String.utf8EncodeChar c = [UInt8.ofNat c.toNat] ∧
        to_digit (UInt8.ofNat c.toNat) = some v.val ∧ UInt8.ofNat c.toNat < 0x80 ∧
        UInt8.ofNat c.toNat ≠ 0x2B := by decide
  obtain ⟨upper, rfl⟩ : ∃ upper : Bool, c = if upper then (Nat.digitChar v).toUpper else Nat.digitChar v := by
    rcases h with rfl | rfl
    · exact ⟨false, rfl⟩
    · exact ⟨true, rfl⟩
  obtain ⟨hwhite, hbyte, hdigit, hascii, hsign⟩ := hall ⟨v, hv⟩ upper
  exact ⟨hwhite, _, hbyte, hdigit, hascii, hsign⟩

theorem decode_pair_digits {a b : UInt8} {hi lo : Nat} (ha : to_digit a = some hi)
    (hb : to_digit b = some lo) (hascii : a < 0x80 ∧ b < 0x80) (hsign : a ≠ 0x2B)
    (hlt : hi * 16 + lo < 256) : decode_pair a b = .ok (UInt8.ofNat (hi * 16 + lo)) := by
  have hpair : is_utf8_pair a b = true := by
    unfold is_utf8_pair
    simp [hascii]
  have hradix : from_str_radix_16 [a, b] = some (UInt8.ofNat (hi * 16 + lo)) := by
    have hbyte : hi % 256 = hi := Nat.mod_eq_of_lt (by omega)
    have hhi : hi < 256 := by omega
    unfold from_str_radix_16 from_digits
    simp [hsign, ha, hb, hbyte, hhi, hlt]
  unfold decode_pair
  rw [if_pos hpair, hradix]

theorem spells_not_white {digits : List Char} {bytes : List UInt8} (h : Spells digits bytes) :
    ∀ c ∈ digits, isWhitespace c = false := by
  induction h with
  | nil =>
    intro c hc
    cases hc
  | @cons hi lo digits b bytes hhi hlo hrest ih =>
    have hb := b.toNat_lt
    intro c hc
    rcases List.mem_cons.mp hc with rfl | hc
    · exact (digit_byte hhi (by omega)).1
    rcases List.mem_cons.mp hc with rfl | hc
    · exact (digit_byte hlo (by omega)).1
    · exact ih c hc

/-! ## Pairs of characters -/

/-- The bytes that `decode_hex` reads in a text. -/
inductive Reads : List Char → List UInt8 → Prop
  | nil : Reads [] []
  | digits {hi lo : Char} {rest : List Char} {b : UInt8} {bytes : List UInt8} :
      IsDigit hi (b.toNat / 16) → IsDigit lo (b.toNat % 16) → Reads rest bytes →
      Reads (hi :: lo :: rest) (b :: bytes)
  | plus {lo : Char} {rest : List Char} {b : UInt8} {bytes : List UInt8} :
      b.toNat < 16 → IsDigit lo b.toNat → Reads rest bytes →
      Reads ('+' :: lo :: rest) (b :: bytes)

theorem reads_spells {digits : List Char} {bytes : List UInt8} (h : Spells digits bytes) :
    Reads digits bytes := by
  induction h with
  | nil => exact Reads.nil
  | cons hhi hlo _ ih => exact Reads.digits hhi hlo ih

theorem to_digit_lt {b : UInt8} {v : Nat} (h : to_digit b = some v) : b < 0x80 ∧ v < 16 := by
  rw [show b < 0x80 ↔ b.toNat < 128 from UInt8.lt_iff_toNat_lt]
  unfold to_digit at h
  simp only [UInt8.le_iff_toNat_le, UInt8.reduceToNat] at h
  split_ifs at h with hdec hupper hlower
  · have hv := Option.some.inj h
    omega
  · have hv := Option.some.inj h
    omega
  · have hv := Option.some.inj h
    omega

/-- A byte below 0x80 is the whole of its character. -/
theorem digit_char {c : Char} {b : UInt8} {bs : List UInt8} {v : Nat}
    (hc : String.utf8EncodeChar c = b :: bs) (hb : to_digit b = some v) : bs = [] ∧ IsDigit c v := by
  have hall : ∀ n : Fin 128, ∀ v ∈ to_digit (UInt8.ofNat n), IsDigit (Char.ofNat n) v := by decide
  obtain ⟨rfl, hn, hchar⟩ := utf8EncodeChar_ascii hc (to_digit_lt hb).1
  refine ⟨rfl, ?_⟩
  have hdigit := hall ⟨b.toNat, hn⟩ v (by rw [UInt8.ofNat_toNat]; exact hb)
  rw [hchar]
  exact hdigit

theorem decode_pair_ok {a b value : UInt8} (h : decode_pair a b = .ok value) :
    (∃ hi lo, to_digit a = some hi ∧ to_digit b = some lo ∧ value.toNat = hi * 16 + lo) ∨
    (a = 0x2B ∧ to_digit b = some value.toNat) := by
  have hradix : from_str_radix_16 [a, b] = some value := by
    unfold decode_pair at h
    split_ifs at h
    cases hr : from_str_radix_16 [a, b] with
    | none => simp [hr] at h
    | some byte => simpa [hr] using h
  unfold from_str_radix_16 at hradix
  dsimp only at hradix
  split_ifs at hradix with hplus
  · right
    refine ⟨hplus, ?_⟩
    cases hb : to_digit b with
    | none => simp [from_digits, hb] at hradix
    | some lo =>
      have hlo := (to_digit_lt hb).2
      have hvalue : UInt8.ofNat lo = value := by
        simpa [from_digits, hb, show lo < 256 by omega] using hradix
      rw [← hvalue, UInt8.toNat_ofNat', Nat.mod_eq_of_lt (by omega)]
  · left
    cases ha : to_digit a with
    | none => simp [from_digits, ha] at hradix
    | some hi =>
      cases hb : to_digit b with
      | none =>
        have hhi := (to_digit_lt ha).2
        simp [from_digits, ha, hb, show hi < 256 by omega] at hradix
      | some lo =>
        have hhi := (to_digit_lt ha).2
        have hlo := (to_digit_lt hb).2
        have hvalue : UInt8.ofNat (hi * 16 + lo) = value := by
          simpa [from_digits, ha, hb, show hi < 256 by omega, show hi % 256 = hi by omega,
            show hi * 16 + lo < 256 by omega] using hradix
        refine ⟨hi, lo, rfl, rfl, ?_⟩
        rw [← hvalue, UInt8.toNat_ofNat', Nat.mod_eq_of_lt (by omega)]

theorem decode_pair_plus {b value : UInt8} (hb : to_digit b = some value.toNat) :
    decode_pair 0x2B b = .ok value := by
  have hvalue := value.toNat_lt
  have hpair : is_utf8_pair 0x2B b = true := by
    unfold is_utf8_pair
    simp [(to_digit_lt hb).1]
  have hradix : from_str_radix_16 [0x2B, b] = some value := by
    unfold from_str_radix_16 from_digits
    simp [hb, hvalue]
  unfold decode_pair
  rw [if_pos hpair, hradix]

/-! ## Hex text -/

theorem decode_pairs_ok {a b : UInt8} {rest bytes : List UInt8}
    (h : decode_pairs (a :: b :: rest) = .ok bytes) :
    ∃ value values, bytes = value :: values ∧ decode_pair a b = .ok value ∧
      decode_pairs rest = .ok values := by
  unfold decode_pairs at h
  cases hpair : decode_pair a b with
  | error e => simp [hpair] at h
  | ok value =>
    cases hrest : decode_pairs rest with
    | error e => simp [hpair, hrest] at h
    | ok values =>
      refine ⟨value, values, ?_, rfl, rfl⟩
      simpa [hpair, hrest, eq_comm] using h

theorem pair_lead {c : Char} {a b value : UInt8} {more : List UInt8}
    (hc : String.utf8EncodeChar c = a :: more) (h : decode_pair a b = .ok value) : more = [] := by
  rcases decode_pair_ok h with ⟨hi, _, ha, _⟩ | ⟨rfl, _⟩
  · exact (digit_char hc ha).1
  · exact (utf8EncodeChar_ascii hc (by decide)).1

theorem reads_pair {hi lo : Char} {a b value : UInt8} {more : List UInt8}
    {rest : List Char} {bytes : List UInt8} (ha : String.utf8EncodeChar hi = [a])
    (hb : String.utf8EncodeChar lo = b :: more) (h : decode_pair a b = .ok value)
    (hrest : Reads rest bytes) : Reads (hi :: lo :: rest) (value :: bytes) := by
  rcases decode_pair_ok h with ⟨vhi, vlo, hhi, hlo, hvalue⟩ | ⟨rfl, hlo⟩
  · have hlow := (to_digit_lt hlo).2
    apply Reads.digits
    · rw [show value.toNat / 16 = vhi by omega]
      exact (digit_char ha hhi).2
    · rw [show value.toNat % 16 = vlo by omega]
      exact (digit_char hb hlo).2
    · exact hrest
  · obtain ⟨-, -, rfl⟩ := utf8EncodeChar_ascii ha (by decide)
    exact Reads.plus (to_digit_lt hlo).2 (digit_char hb hlo).2 hrest

theorem decode_pairs_reads (s : List Char) : ∀ bytes, (utf8 s).length % 2 = 0 →
    decode_pairs (utf8 s) = .ok bytes → Reads s bytes := by
  induction s using List.twoStepInduction with
  | nil =>
    intro bytes _ h
    cases h
    exact Reads.nil
  | singleton c =>
    intro bytes heven h
    obtain ⟨a, more, hc⟩ := List.exists_cons_of_ne_nil (String.utf8EncodeChar_ne_nil (c := c))
    rw [utf8_cons, hc] at heven h
    -- An even number of bytes is a longer character, and no pair is taken from one.
    cases more with
    | nil => simp [utf8] at heven
    | cons b more =>
      obtain ⟨value, _, _, hpair, _⟩ := decode_pairs_ok h
      cases pair_lead hc hpair
  | cons_cons hi lo rest ih _ =>
    intro bytes heven h
    obtain ⟨a, amore, ha⟩ := List.exists_cons_of_ne_nil (String.utf8EncodeChar_ne_nil (c := hi))
    obtain ⟨b, bmore, hb⟩ := List.exists_cons_of_ne_nil (String.utf8EncodeChar_ne_nil (c := lo))
    rw [utf8_cons, utf8_cons, ha, hb] at heven h
    cases amore with
    | cons b' amore =>
      obtain ⟨value, _, _, hpair, _⟩ := decode_pairs_ok h
      cases pair_lead ha hpair
    | nil =>
      obtain ⟨value, values, rfl, hpair, hrest⟩ := decode_pairs_ok h
      have hbmore : bmore = [] := by
        rcases decode_pair_ok hpair with ⟨_, _, _, hlo, _⟩ | ⟨_, hlo⟩
        · exact (digit_char hb hlo).1
        · exact (digit_char hb hlo).1
      subst hbmore
      have heven' : (utf8 rest).length % 2 = 0 := by
        simp at heven
        omega
      exact reads_pair ha hb hpair (ih values heven' hrest)

theorem decode_pairs_of_reads {s : List Char} {bytes : List UInt8} (h : Reads s bytes) :
    (utf8 s).length % 2 = 0 ∧ decode_pairs (utf8 s) = .ok bytes := by
  have hstep : ∀ (hi lo : Char) (a b : UInt8) (rest : List Char) (value : UInt8)
      (values : List UInt8), String.utf8EncodeChar hi = [a] → String.utf8EncodeChar lo = [b] →
      decode_pair a b = .ok value →
      ((utf8 rest).length % 2 = 0 ∧ decode_pairs (utf8 rest) = .ok values) →
      (utf8 (hi :: lo :: rest)).length % 2 = 0 ∧
        decode_pairs (utf8 (hi :: lo :: rest)) = .ok (value :: values) := by
    intro hi lo a b rest value values ha hb hpair ih
    have htext : utf8 (hi :: lo :: rest) = a :: b :: utf8 rest := by
      rw [utf8_cons, utf8_cons, ha, hb]
      rfl
    constructor
    · rw [htext, List.length_cons, List.length_cons]
      omega
    · rw [htext, decode_pairs, hpair]
      dsimp only
      rw [ih.2]
  induction h with
  | nil => exact ⟨rfl, rfl⟩
  | @digits hi lo rest b bytes hhi hlo _ ih =>
    have hb := b.toNat_lt
    obtain ⟨-, x, hx, hxdigit, hxascii, hxsign⟩ := digit_byte hhi (by omega)
    obtain ⟨-, y, hy, hydigit, hyascii, -⟩ := digit_byte hlo (by omega)
    have hvalue : b.toNat / 16 * 16 + b.toNat % 16 = b.toNat := Nat.div_add_mod' b.toNat 16
    have hpair := decode_pair_digits hxdigit hydigit ⟨hxascii, hyascii⟩ hxsign (by omega)
    rw [hvalue, UInt8.ofNat_toNat] at hpair
    exact hstep hi lo x y rest b bytes hx hy hpair ih
  | @plus lo rest b bytes hsmall hlo _ ih =>
    obtain ⟨-, y, hy, hydigit, -, -⟩ := digit_byte hlo hsmall
    exact hstep '+' lo 0x2B y rest b bytes rfl hy (decode_pair_plus hydigit) ih

theorem decode_hex_iff (s : List Char) (bytes : List UInt8) :
    decode_hex s = .ok bytes ↔ Reads s bytes := by
  unfold decode_hex
  constructor
  · intro h
    split_ifs at h with hodd
    exact decode_pairs_reads s bytes (not_not.mp hodd) h
  · intro h
    obtain ⟨heven, hpairs⟩ := decode_pairs_of_reads h
    rw [if_neg (not_not.mpr heven), hpairs]

theorem decode_hex_spells {digits : List Char} {bytes : List UInt8} (h : Spells digits bytes) :
    decode_hex digits = .ok bytes :=
  (decode_hex_iff digits bytes).mpr (reads_spells h)

end OtaUpdater.Host
