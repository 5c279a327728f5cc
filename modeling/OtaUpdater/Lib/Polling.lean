import OtaUpdater.Lib.Serial

/-!
# Hunting for start bits

A receiver that samples a serial line every now and then, and takes the times of its
samples from each start edge it sees.
-/

namespace OtaUpdater.Lib.Serial

section Polling

variable {T : Type} [Field T] [LinearOrder T]

/-- Every sample falls inside its cell, for all start edges that are seen up to `late` late. -/
def Centred (B first bit late : T) : Prop :=
  ∀ k : Nat, k ≤ 8 → (k + 1) * B < first + k * bit ∧ first + k * bit + late < (k + 2) * B

def starts (B : T) : T → List UInt8 → List T
  | _, [] => []
  | start, _ :: bytes => start :: starts B (start + 10 * B) bytes

/-- From `now` on there are the `bytes` on the line, the first of them from `start`. -/
structure Awaits (line : T → Bool) (B start now : T) (bytes : List UInt8) : Prop where
  ahead : bytes = [] ∨ now ≤ start
  same : ∀ t, now ≤ t → line t = (sent B bytes).line start t

/-- No edge is past at `now + gap` by more than `late`. -/
def Prompt (edges : List T) (late now gap : T) : Prop :=
  ∀ edge ∈ edges, now ≤ edge → edge ≤ now + gap → now + gap ≤ edge + late

def heard (gots : List Got) : List Got := gots.filter (· ≠ .Idle)

/-- What came of hunting until `last` are the bytes that were sent, in order, and nothing else;
and all of them, once the last of them has started. -/
structure Hears (B start last : T) (bytes : List UInt8) (gots : List Got) : Prop where
  in_order : heard gots <+: bytes.map .Byte
  complete : (∀ edge ∈ starts B start bytes, edge < last) → heard gots = bytes.map .Byte

section Hears

variable {line : T → Bool} {B start now last : T} {bytes : List UInt8} {gots : List Got}

theorem hears_nil (h : Awaits line B start now bytes) : Hears B start now bytes [] where
  in_order := List.nil_prefix
  complete hedges := by
    rcases h.ahead with rfl | hahead
    · rfl
    · cases bytes with
      | nil => rfl
      | cons b rest => exact absurd (hedges start List.mem_cons_self) (not_lt.mpr hahead)

theorem hears_idle (h : Hears B start last bytes gots) : Hears B start last bytes (.Idle :: gots) :=
  ⟨h.in_order, h.complete⟩

theorem hears_byte {b : UInt8} (h : Hears B (start + 10 * B) last bytes gots) :
    Hears B start last (b :: bytes) (.Byte b :: gots) where
  in_order := List.cons_prefix_cons.mpr ⟨rfl, h.in_order⟩
  complete hedges := by
    have hrest := h.complete fun edge hmem => hedges edge (List.mem_cons_of_mem start hmem)
    exact congrArg (Got.Byte b :: ·) hrest

end Hears

def polls (get : T → Got × T) : T → List T → List Got × T
  | now, [] => ([], now)
  | now, gap :: gaps =>
    let (got, now) := get (now + gap)
    let (gots, last) := polls get now gaps
    (got :: gots, last)

/-- Every start edge is seen within `late`. -/
def Watched (get : T → Got × T) (edges : List T) (late : T) : T → List T → Prop
  | _, [] => True
  | now, gap :: gaps =>
    0 ≤ gap ∧ Prompt edges late now gap ∧ Watched get edges late (get (now + gap)).2 gaps

theorem watched_tail {get : T → Got × T} {edge late : T} {edges : List T} (gaps : List T) :
    ∀ now, Watched get (edge :: edges) late now gaps → Watched get edges late now gaps := by
  induction gaps with
  | nil =>
    intro now _
    exact trivial
  | cons gap gaps ih =>
    rintro now ⟨hgap, hseen, hrest⟩
    exact ⟨hgap, fun e he => hseen e (List.mem_cons_of_mem edge he), ih _ hrest⟩

variable [IsStrictOrderedRing T] {line : T → Bool} {B start now first bit half late gap : T}
  {bytes : List UInt8}

/-- With `9.5 |R - B|` and the latency below half a bit all samples are in their cells. -/
theorem centred_of_budget (slack : T) (hslack : |first - 3 / 2 * bit| ≤ slack)
    (h : 19 / 2 * |bit - B| + slack + late < B / 2) (hlate : 0 ≤ late) : Centred B first bit late := by
  intro k hk
  have hk₀ : (0 : T) ≤ k := Nat.cast_nonneg k
  have hk₈ : (k : T) ≤ 8 := by exact_mod_cast hk
  obtain ⟨hfirst₁, hfirst₂⟩ := abs_le.mp hslack
  obtain ⟨hrate₁, hrate₂⟩ := abs_le.mp (le_refl |bit - B|)
  have hdrift : (k + 3 / 2) * |bit - B| ≤ 19 / 2 * |bit - B| :=
    mul_le_mul_of_nonneg_right (by linarith) (abs_nonneg _)
  have hlow : -((k + 3 / 2) * |bit - B|) ≤ (k + 3 / 2) * (bit - B) := by
    rw [← mul_neg]
    exact mul_le_mul_of_nonneg_left hrate₁ (by linarith)
  have hhigh : (k + 3 / 2) * (bit - B) ≤ (k + 3 / 2) * |bit - B| :=
    mul_le_mul_of_nonneg_left hrate₂ (by linarith)
  constructor
  · linarith
  · linarith

theorem centred_late (h : Centred B first bit late) : late < B := by
  obtain ⟨hlow, hhigh⟩ := h 0 (by decide)
  rw [Nat.cast_zero] at hlow hhigh
  linarith

section Poll

theorem awaits_idle (h : Awaits line B start now bytes) (hgap : 0 ≤ gap)
    (hidle : bytes = [] ∨ now + gap < start) :
    receive_from line first bit half (now + gap) = (.Idle, now + gap) ∧
      Awaits line B start (now + gap) bytes := by
  have hhigh : line (now + gap) = true := by
    rw [h.same _ (by linarith)]
    rcases hidle with rfl | hbefore
    · exact line_empty
    · exact line_before bytes hbefore
  refine ⟨receive_idle (m := Id) hhigh, ?_, ?_⟩
  · exact hidle.imp_right le_of_lt
  · intro t ht
    exact h.same t (by linarith)

theorem awaits_byte {b : UInt8} (hB : 0 < B) (hcentred : Centred B first bit late)
    (h : Awaits line B start now (b :: bytes)) (hgap : 0 ≤ gap) (hstart : start ≤ now + gap)
    (hlate : now + gap ≤ start + late) :
    receive_from line first bit half (now + gap) = (.Byte b, now + gap + first + 8 * bit) ∧
      Awaits line B (start + 10 * B) (now + gap + first + 8 * bit) bytes := by
  have hsmall := centred_late hcentred
  have hcell : ∀ (k : Nat) (t : T), k < 10 → now ≤ t → start + k * B ≤ t → t < start + (k + 1) * B →
      line t = (cells b).getD k true := by
    intro k t hk hnow hle hlt
    rw [h.same t hnow]
    exact line_cell b bytes hB k hk hle hlt
  -- Sample `k`, of the data bits and the stop bit, falls into cell `k + 1`.
  have hsample : ∀ k : Nat, k ≤ 8 →
      line (now + gap + first + k * bit) = (cells b).getD (k + 1) true := by
    intro k hk
    obtain ⟨hlow, hhigh⟩ := hcentred k hk
    have hpos : 0 ≤ ((k : T) + 1) * B := mul_nonneg (by positivity) hB.le
    apply hcell (k + 1) _ (by omega)
    · linarith
    · push_cast
      linarith
    · push_cast
      linarith
  obtain ⟨hlow, hhigh⟩ := hcentred 8 (Nat.le_refl 8)
  push_cast at hlow hhigh
  refine ⟨receive_byte (m := Id) b ?_ ?_ ?_, ?_, ?_⟩
  · exact hcell 0 _ (by decide) (by linarith) (by push_cast; linarith) (by push_cast; linarith)
  · intro i hi
    rw [hsample i hi.le, cells_data b hi]
  · have hstop := hsample 8 (Nat.le_refl 8)
    push_cast at hstop
    exact hstop
  · right
    linarith
  · intro t ht
    rw [h.same t (by linarith)]
    exact line_next b bytes hB (by linarith)

theorem awaits_poll (half : T) (hB : 0 < B) (hcentred : Centred B first bit late)
    (h : Awaits line B start now bytes) (hgap : 0 ≤ gap)
    (hprompt : Prompt (starts B start bytes) late now gap) :
    (receive_from line first bit half (now + gap) = (.Idle, now + gap) ∧
      Awaits line B start (now + gap) bytes) ∨
    ∃ b rest, bytes = b :: rest ∧
      receive_from line first bit half (now + gap) = (.Byte b, now + gap + first + 8 * bit) ∧
      Awaits line B (start + 10 * B) (now + gap + first + 8 * bit) rest := by
  cases bytes with
  | nil => exact Or.inl (awaits_idle h hgap (Or.inl rfl))
  | cons b rest =>
    rcases lt_or_ge (now + gap) start with hbefore | hpast
    · exact Or.inl (awaits_idle h hgap (Or.inr hbefore))
    · have hahead := h.ahead.resolve_left (List.cons_ne_nil b rest)
      have hlate := hprompt start List.mem_cons_self hahead hpast
      exact Or.inr ⟨b, rest, rfl, awaits_byte hB hcentred h hgap hpast hlate⟩

end Poll

/-- A run in which every start edge is seen in time hears what is sent. -/
theorem polls_hear (hB : 0 < B) (hcentred : Centred B first bit late) (gaps : List T) :
    ∀ start now bytes, Awaits line B start now bytes →
      Watched (receive_from line first bit half) (starts B start bytes) late now gaps →
      Hears B start (polls (receive_from line first bit half) now gaps).2 bytes
        (polls (receive_from line first bit half) now gaps).1 := by
  induction gaps with
  | nil =>
    intro start now bytes h _
    exact hears_nil h
  | cons gap gaps ih =>
    rintro start now bytes h ⟨hgap, hprompt, hwatched⟩
    rcases awaits_poll half hB hcentred h hgap hprompt with ⟨hget, hnext⟩ | ⟨b, rest, rfl, hget, hnext⟩
    · rw [hget] at hwatched
      unfold polls
      rw [hget]
      exact hears_idle (ih _ _ _ hnext hwatched)
    · rw [hget] at hwatched
      unfold polls
      rw [hget]
      exact hears_byte (ih _ _ _ hnext (watched_tail gaps _ hwatched))

end Polling

end OtaUpdater.Lib.Serial
