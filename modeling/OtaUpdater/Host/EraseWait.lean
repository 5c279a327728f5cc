import OtaUpdater.Host.Transport
import OtaUpdater.Lib.Bytes

/-!
# How long an erase is waited for

A loop that sleeps between its attempts sleeps once less often than it attempts, so
the number `erase_poll_attempts` raises the budget to falls short of the erase.
-/

namespace OtaUpdater.Host

open OtaUpdater.Lib.Bytes

/-! ## Numbers -/

theorem u32_max_toNat (a b : UInt32) : (u32_max a b).toNat = max a.toNat b.toNat := by
  unfold u32_max
  split_ifs with h
  · rw [Nat.max_eq_right (Nat.le_of_lt (UInt32.lt_iff_toNat_lt.mp h))]
  · rw [Nat.max_eq_left (UInt32.le_iff_toNat_le.mp (UInt32.not_lt.mp h))]

theorem saturating_mul_toNat (a b : UInt32) :
    (saturating_mul a b).toNat = min (a.toNat * b.toNat) (2 ^ 32 - 1) := by
  have hmin : min (a.toNat * b.toNat) 0xFFFFFFFF < 2 ^ 32 := by omega
  unfold saturating_mul
  rw [UInt32.toNat_ofNat']
  exact Nat.mod_eq_of_lt hmin

theorem clamped_toNat (n : UInt32) : (if n < 1 then 1 else n).toNat = max n.toNat 1 := by
  have hone : (1 : UInt32).toNat = 1 := rfl
  have hlt : n < 1 ↔ n.toNat < 1 := UInt32.lt_iff_toNat_lt
  split_ifs with h
  · rw [hlt] at h
    omega
  · rw [hlt] at h
    omega

theorem div_ceil_short (total delay : Nat) (hdelay : 0 < delay) (htotal : 0 < total) :
    ((total + delay - 1) / delay - 1) * delay < total := by
  have hmul := Nat.div_mul_le_self (total + delay - 1) delay
  rw [Nat.sub_mul, Nat.one_mul]
  omega

theorem erase_poll_attempts_toNat (app_pages : UInt16) (poll : PollBudget) :
    (erase_poll_attempts app_pages poll).toNat = max poll.attempts.toNat
      ((app_pages.toNat * 10 + max poll.delay_ms.toNat 1 - 1) / max poll.delay_ms.toNat 1) := by
  have hpages := app_pages.toNat_lt
  have hten : PER_PAGE_ERASE_WORST_MS.toNat = 10 := rfl
  have hone : (1 : UInt32).toNat = 1 := rfl
  unfold erase_poll_attempts
  dsimp only
  rw [u32_max_toNat]
  congr 1
  unfold div_ceil
  rw [saturating_mul_toNat, u32_max_toNat, UInt16.toNat_toUInt32, hten, hone,
    Nat.min_eq_left (by omega), UInt32.toNat_ofNat', Nat.mod_eq_of_lt]
  have hpos := Nat.le_max_right poll.delay_ms.toNat 1
  rw [Nat.div_lt_iff_lt_mul (by omega)]
  omega

/-- Whether the delays of a budget cover the erase is up to the budget that was asked for: where
`erase_poll_attempts` raises it, they never do. -/
theorem wait_covers_iff (pages attempts delay interval scale : Nat) (hinterval : interval ≤ delay * scale)
    (hscale : 0 < scale) :
    pages * 10 * scale ≤
        (max (max attempts ((pages * 10 + max delay 1 - 1) / max delay 1)) 1 - 1) * interval ↔
      pages = 0 ∨ pages * 10 * scale ≤ (attempts - 1) * interval := by
  have hone := Nat.le_max_right delay 1
  rcases Nat.eq_zero_or_pos pages with rfl | hpages
  · simp
  have hneeded : 0 < (pages * 10 + max delay 1 - 1) / max delay 1 :=
    Nat.div_pos (by omega) (by omega)
  have hshort := div_ceil_short (pages * 10) (max delay 1) (by omega) (by omega)
  generalize (pages * 10 + max delay 1 - 1) / max delay 1 = needed at hneeded hshort ⊢
  have hfalls : (needed - 1) * interval < pages * 10 * scale := by
    calc (needed - 1) * interval ≤ (needed - 1) * (max delay 1 * scale) := by
          apply Nat.mul_le_mul_left
          exact Nat.le_trans hinterval (Nat.mul_le_mul_right scale (Nat.le_max_left delay 1))
      _ = (needed - 1) * max delay 1 * scale := (Nat.mul_assoc _ _ _).symm
      _ < pages * 10 * scale := Nat.mul_lt_mul_of_pos_right hshort hscale
  rw [Nat.max_eq_left (Nat.le_trans hneeded (Nat.le_max_right attempts needed))]
  rcases Nat.le_total attempts needed with hraised | hkept
  · have hless : (attempts - 1) * interval ≤ (needed - 1) * interval :=
      Nat.mul_le_mul_right interval (by omega)
    rw [Nat.max_eq_right hraised]
    omega
  · rw [Nat.max_eq_left hkept]
    omega

/-! ## The loops -/

section Loops

variable {E : Type}

theorem delays_left (attempt budget delay : Nat) (h : attempt + 1 < budget) :
    (budget - 1 - attempt) * delay = delay + (budget - 1 - (attempt + 1)) * delay := by
  have hsplit : budget - 1 - attempt = 1 + (budget - 1 - (attempt + 1)) := by omega
  rw [hsplit, Nat.add_mul, Nat.one_mul]

theorem succ_toNat_of_lt {attempt budget : UInt32} (h : attempt.toNat < budget.toNat) :
    (attempt + 1).toNat = attempt.toNat + 1 := by
  have hbudget := budget.toNat_lt
  exact succ_toNat32 (by omega)

theorem i2c_loop_slept (i2c : LinuxI2c) (reads : Nat → Except E (List UInt8)) (fuel : Nat) :
    ∀ attempt rsp slept n last rsp' slept', attempt.toNat < i2c.poll_attempts.toNat →
      i2c_loop i2c reads fuel attempt rsp slept = some (.error (.Exhausted n last), rsp', slept') →
      slept' = slept + (i2c.poll_attempts.toNat - 1 - attempt.toNat) * i2c.poll_interval := by
  induction fuel with
  | zero =>
    intro attempt rsp slept n last rsp' slept' _ h
    cases h
  | succ fuel ih =>
    intro attempt rsp slept n last rsp' slept' hlt h
    have hnext := succ_toNat_of_lt hlt
    unfold i2c_loop at h
    dsimp only at h
    split at h
    case h_1 bytes hread => simp at h
    case h_2 e hread =>
      split_ifs at h with hexhausted
      · have hle := UInt32.le_iff_toNat_le.mp hexhausted
        have hzero : i2c.poll_attempts.toNat - 1 - attempt.toNat = 0 := by omega
        rw [hzero, Nat.zero_mul, Nat.add_zero]
        simp at h
        exact h.2.2.symm
      · have hmore := UInt32.lt_iff_toNat_lt.mp (UInt32.not_le.mp hexhausted)
        have hwait := ih _ _ _ _ _ _ _ hmore h
        rw [hnext] at hwait hmore
        rw [delays_left attempt.toNat _ _ hmore, ← Nat.add_assoc]
        exact hwait

theorem i2c_loop_silent (i2c : LinuxI2c) (e : E) (fuel : Nat) :
    ∀ attempt rsp slept, attempt.toNat < i2c.poll_attempts.toNat →
      i2c.poll_attempts.toNat ≤ attempt.toNat + fuel →
      ∃ n slept', i2c_loop i2c (fun _ => .error e) fuel attempt rsp slept =
        some (.error (.Exhausted n e), rsp, slept') := by
  induction fuel with
  | zero =>
    intro attempt rsp slept hlt hfuel
    omega
  | succ fuel ih =>
    intro attempt rsp slept hlt hfuel
    have hnext := succ_toNat_of_lt hlt
    unfold i2c_loop
    dsimp only
    split_ifs with hexhausted
    · exact ⟨_, _, rfl⟩
    · have hmore := UInt32.lt_iff_toNat_lt.mp (UInt32.not_le.mp hexhausted)
      exact ih _ _ _ hmore (by omega)

theorem paced_loop_slept (spi : PacedSpi) (reads : Nat → Except E UInt8) (fuel : Nat) :
    ∀ c slept n c' slept', c.attempts.toNat < spi.poll_attempts.toNat →
      paced_loop spi reads fuel c slept = some (.error (.Exhausted n), c', slept') →
      slept + (spi.poll_attempts.toNat - 1 - c.attempts.toNat) * spi.poll_interval_ns.toNat ≤ slept' := by
  induction fuel with
  | zero =>
    intro c slept n c' slept' _ h
    cases h
  | succ fuel ih =>
    intro c slept n c' slept' hlt h
    have hnext := succ_toNat_of_lt hlt
    have hpoll : ∀ c₁ : Clocking, c₁.attempts = c.attempts + 1 →
        (if c₁.attempts ≥ spi.poll_attempts then some (.error (.Exhausted c₁.attempts), c₁, slept)
          else paced_loop spi reads fuel c₁ (slept + spi.poll_interval_ns.toNat)) =
            some (.error (.Exhausted n), c', slept') →
        slept + (spi.poll_attempts.toNat - 1 - c.attempts.toNat) * spi.poll_interval_ns.toNat ≤ slept' := by
      intro c₁ hattempts h
      split_ifs at h with hexhausted
      · have hle := UInt32.le_iff_toNat_le.mp hexhausted
        rw [hattempts, hnext] at hle
        have hzero : spi.poll_attempts.toNat - 1 - c.attempts.toNat = 0 := by omega
        rw [hzero, Nat.zero_mul, Nat.add_zero]
        simp at h
        omega
      · have hmore := UInt32.lt_iff_toNat_lt.mp (UInt32.not_le.mp hexhausted)
        have hwait := ih _ _ _ _ _ hmore h
        rw [hattempts, hnext] at hwait hmore
        rw [delays_left c.attempts.toNat _ _ hmore, ← Nat.add_assoc]
        exact hwait
    unfold paced_loop at h
    dsimp only at h
    split at h
    case h_1 e hread => simp at h
    case h_2 byte hread =>
      generalize c.scanner.push byte c.rsp = pushed at h
      obtain ⟨scan, scanner, rsp⟩ := pushed
      dsimp only at h
      cases scan with
      | Done len => simp at h
      | Frame =>
        have hwait := ih ⟨scanner, c.attempts, rsp, c.clocked + 1⟩ _ _ _ _ hlt h
        dsimp only at hwait
        omega
      | Hunt => exact hpoll ⟨scanner, c.attempts + 1, rsp, c.clocked + 1⟩ rfl h
      | Dropped => exact hpoll ⟨scanner, c.attempts + 1, rsp, c.clocked + 1⟩ rfl h

theorem paced_loop_busy (spi : PacedSpi) (fuel : Nat) :
    ∀ c slept, c.scanner.in_frame = false → c.attempts.toNat < spi.poll_attempts.toNat →
      spi.poll_attempts.toNat ≤ c.attempts.toNat + fuel →
      ∃ n c', paced_loop (E := E) spi (fun _ => .ok 0x00) fuel c slept =
        some (.error (.Exhausted n), c',
          slept + (spi.poll_attempts.toNat - 1 - c.attempts.toNat) * spi.poll_interval_ns.toNat) := by
  induction fuel with
  | zero =>
    intro c slept _ hlt hfuel
    omega
  | succ fuel ih =>
    intro c slept hhunt hlt hfuel
    have hnext := succ_toNat_of_lt hlt
    have hpush : c.scanner.push 0x00 c.rsp = (.Hunt, c.scanner, c.rsp) := by
      have hbusy : ¬ ((0x00 : UInt8) = SYNC ∧ c.rsp.length ≥ FRAME_OVERHEAD) := by
        rintro ⟨hsync, -⟩
        exact absurd hsync (by decide)
      unfold RxScanner.push
      rw [hhunt, Bool.not_false, if_pos rfl, if_neg hbusy]
    unfold paced_loop
    dsimp only
    rw [hpush]
    dsimp only
    split_ifs with hexhausted
    · have hle := UInt32.le_iff_toNat_le.mp hexhausted
      have hzero : spi.poll_attempts.toNat - 1 - c.attempts.toNat = 0 := by omega
      rw [hzero, Nat.zero_mul, Nat.add_zero]
      exact ⟨_, _, rfl⟩
    · have hmore := UInt32.lt_iff_toNat_lt.mp (UInt32.not_le.mp hexhausted)
      have hbusy := ih ⟨c.scanner, c.attempts + 1, c.rsp, c.clocked + 1⟩
        (slept + spi.poll_interval_ns.toNat) hhunt hmore (by dsimp only; omega)
      dsimp only at hbusy
      rw [hnext] at hbusy hmore
      rw [delays_left c.attempts.toNat _ _ hmore, ← Nat.add_assoc]
      exact hbusy

/-! ## A request -/

theorem i2c_budget_toNat (i2c : LinuxI2c) (poll : PollBudget) :
    (i2c.set_poll_budget poll).poll_attempts.toNat = max poll.attempts.toNat 1 :=
  u32_max_toNat poll.attempts 1

theorem spi_budget_toNat (spi : PacedSpi) (poll : PollBudget) :
    (spi.set_poll_budget poll).poll_attempts.toNat = max poll.attempts.toNat 1 :=
  clamped_toNat poll.attempts

theorem spi_interval_toNat (spi : PacedSpi) (poll : PollBudget) :
    (spi.set_poll_budget poll).poll_interval_ns.toNat =
      min (from_millis poll.delay_ms.toNat) (2 ^ 32 - 1) :=
  saturating_mul_toNat poll.delay_ms 1000000

section Request

variable (poll : PollBudget)

theorem i2c_request_slept (i2c : LinuxI2c) {write : List UInt8 → Except E Unit}
    {reads : Nat → Except E (List UInt8)} {req rsp rsp' : List UInt8} {fuel slept : Nat} {n : UInt32} {last : E}
    (h : (i2c.set_poll_budget poll).request write reads req rsp fuel =
      some (.error (.Exhausted n last), rsp', slept)) :
    slept = (max poll.attempts.toNat 1 - 1) * from_millis poll.delay_ms.toNat := by
  have hbudget := i2c_budget_toNat i2c poll
  unfold LinuxI2c.request at h
  split at h
  case h_1 e hwrite => simp at h
  case h_2 hwrite =>
    have hzero : (0 : UInt32).toNat = 0 := rfl
    have hslept := i2c_loop_slept _ _ _ _ _ _ _ _ _ _ (by omega) h
    rw [hslept, hbudget, Nat.zero_add]
    rfl

theorem i2c_request_silent (i2c : LinuxI2c) (e : E) (req : List UInt8) :
    ∃ n, (i2c.set_poll_budget poll).request (fun _ => .ok ()) (fun _ => .error e) req []
        (max poll.attempts.toNat 1) =
      some (.error (.Exhausted n e), [], (max poll.attempts.toNat 1 - 1) * from_millis poll.delay_ms.toNat) := by
  have hbudget := i2c_budget_toNat i2c poll
  have hzero : (0 : UInt32).toNat = 0 := rfl
  obtain ⟨n, slept, hloop⟩ := i2c_loop_silent (i2c.set_poll_budget poll) e (max poll.attempts.toNat 1)
    0 [] 0 (by omega) (by omega)
  have hreq : (i2c.set_poll_budget poll).request (fun _ => .ok ()) (fun _ => .error e) req []
      (max poll.attempts.toNat 1) = some (.error (.Exhausted n e), [], slept) := hloop
  rw [i2c_request_slept poll i2c hreq] at hreq
  exact ⟨n, hreq⟩

theorem spi_request_slept (spi : PacedSpi) {transaction : List (List UInt8) → Except E Unit}
    {reads : Nat → Except E UInt8} {req rsp rsp' : List UInt8} {fuel slept : Nat} {n : UInt32}
    (h : (spi.set_poll_budget poll).request transaction reads req rsp fuel =
      some (.error (.Exhausted n), rsp', slept)) :
    (max poll.attempts.toNat 1 - 1) * min (from_millis poll.delay_ms.toNat) (2 ^ 32 - 1) ≤ slept := by
  have hbudget := spi_budget_toNat spi poll
  have hinterval := spi_interval_toNat spi poll
  unfold PacedSpi.request at h
  split at h
  case h_1 e hwrite => simp at h
  case h_2 hwrite =>
    obtain ⟨⟨out, c, slept₁⟩, hloop, heq⟩ := Option.map_eq_some_iff.mp h
    simp at heq
    obtain ⟨rfl, -, rfl⟩ := heq
    have hzero : (Clocking.new rsp).attempts.toNat = 0 := rfl
    have hslept := paced_loop_slept _ _ _ _ _ _ _ _ (by omega) hloop
    rw [hbudget, hinterval, hzero, Nat.zero_add] at hslept
    exact hslept

theorem spi_request_busy (spi : PacedSpi) (req : List UInt8) :
    ∃ n rsp, (spi.set_poll_budget poll).request (E := E) (fun _ => .ok ()) (fun _ => .ok 0x00) req []
        (max poll.attempts.toNat 1) =
      some (.error (.Exhausted n), rsp,
        (max poll.attempts.toNat 1 - 1) * min (from_millis poll.delay_ms.toNat) (2 ^ 32 - 1)) := by
  have hbudget := spi_budget_toNat spi poll
  have hinterval := spi_interval_toNat spi poll
  have hzero : (Clocking.new []).attempts.toNat = 0 := rfl
  obtain ⟨n, c, hloop⟩ := paced_loop_busy (E := E) (spi.set_poll_budget poll) (max poll.attempts.toNat 1)
    (.new []) 0 rfl (by omega) (by omega)
  rw [hbudget, hinterval, hzero, Nat.zero_add] at hloop
  refine ⟨n, c.rsp, ?_⟩
  unfold PacedSpi.request
  dsimp only
  rw [hloop]
  rfl

end Request

end Loops

/-! ## The transport in use -/

section Use

variable {B Wire Out : Type} (P : PollTransport B Wire Out)

/-- What is done with a transport between its opening and the erase. -/
inductive DynOp (Wire : Type) where
  | set_erase_attempts (attempts : UInt32)
  | request (wire : Wire) (req rsp : List UInt8)

def DynTransport.step (t : DynTransport B) : DynOp Wire → DynTransport B
  | .set_erase_attempts attempts => t.set_erase_attempts attempts
  | .request wire req rsp => (t.request P wire req rsp).2

def DynTransport.run (t : DynTransport B) (ops : List (DynOp Wire)) : DynTransport B :=
  ops.foldl (DynTransport.step P) t

/-- The budget set last is the one that counts. -/
def PollTransport.Overwrites : Prop :=
  ∀ b p q, P.set_poll_budget (P.set_poll_budget b p) q = P.set_poll_budget b q

/-- Between two requests the backend is on the base budget. -/
structure DynTransport.InUse (inner : B) (base : PollBudget) (t : DynTransport B) : Prop where
  on_base : t.base = base
  on_inner : t.inner = P.set_poll_budget inner base

theorem step_in_use (hP : P.Overwrites) {inner : B} {base : PollBudget} {t : DynTransport B}
    (h : t.InUse P inner base) (op : DynOp Wire) : (t.step P op).InUse P inner base := by
  cases op with
  | set_erase_attempts attempts => exact ⟨h.on_base, h.on_inner⟩
  | request wire req rsp =>
    refine ⟨h.on_base, ?_⟩
    unfold DynTransport.step DynTransport.request
    dsimp only
    rw [h.on_inner, h.on_base]
    split_ifs
    · rw [hP, hP]
    · rfl

theorem run_in_use (hP : P.Overwrites) (inner : B) (base : PollBudget) (ops : List (DynOp Wire)) :
    ((open_with P inner base).run P ops).InUse P inner base := by
  have hall : ∀ t : DynTransport B, t.InUse P inner base → (t.run P ops).InUse P inner base := by
    induction ops with
    | nil =>
      intro t h
      exact h
    | cons op ops ih =>
      intro t h
      exact ih _ (step_in_use P hP h op)
  exact hall _ ⟨rfl, rfl⟩

theorem erase_request (hP : P.Overwrites) {inner : B} {base : PollBudget} {t : DynTransport B}
    (h : t.InUse P inner base) (attempts : UInt32) :
    ∃ most : UInt32, most.toNat = max base.attempts.toNat attempts.toNat ∧
      ∀ wire req rsp, ((t.set_erase_attempts attempts).request P wire (CMD_ERASE_APP :: req) rsp).1 =
        P.request (P.set_poll_budget inner ⟨most, base.delay_ms⟩) wire (CMD_ERASE_APP :: req) rsp := by
  have hmax := u32_max_toNat attempts base.attempts
  unfold DynTransport.set_erase_attempts DynTransport.request
  dsimp only
  rw [h.on_base, h.on_inner]
  by_cases hraised : u32_max attempts base.attempts > base.attempts
  · refine ⟨u32_max attempts base.attempts, by rw [hmax, Nat.max_comm], ?_⟩
    intro wire req rsp
    rw [if_pos ⟨rfl, hraised⟩, hP]
  · have hle := UInt32.le_iff_toNat_le.mp (UInt32.not_lt.mp hraised)
    rw [hmax] at hle
    refine ⟨base.attempts, by omega, ?_⟩
    intro wire req rsp
    rw [if_neg fun hand => hraised hand.2]

end Use

/-! ## The wait -/

section Wait

variable {B Wire Out : Type} (P : PollTransport B Wire Out) (gave_up : Out → Nat → Prop)
  (app_pages : UInt16) (base : PollBudget)

/-- Whatever the transport was used for before and whatever the bus does: an erase is given up
only after delays of 10 ms for each page. -/
def Covers : Prop :=
  ∀ (inner : B) (ops : List (DynOp Wire)) (wire : Wire) (req rsp : List UInt8) (slept : Nat),
    let t := ((open_with P inner base).run P ops).set_erase_attempts (erase_poll_attempts app_pages base)
    gave_up (t.request P wire (CMD_ERASE_APP :: req) rsp).1 slept →
      app_pages.toNat * from_millis 10 ≤ slept

variable {P gave_up app_pages base}

def erase_delays (app_pages : UInt16) (base : PollBudget) : Nat :=
  max (max base.attempts.toNat (erase_poll_attempts app_pages base).toNat) 1 - 1

theorem covers_of_delays (hP : P.Overwrites) (interval : Nat)
    (hslept : ∀ inner most wire req rsp slept,
      gave_up (P.request (P.set_poll_budget inner ⟨most, base.delay_ms⟩) wire req rsp) slept →
        (max most.toNat 1 - 1) * interval ≤ slept)
    (hdelays : app_pages.toNat * from_millis 10 ≤ erase_delays app_pages base * interval) :
    Covers P gave_up app_pages base := by
  intro inner ops wire req rsp slept t hgave
  have huse := run_in_use P hP inner base ops
  obtain ⟨most, hmost, hreq⟩ := erase_request P hP huse (erase_poll_attempts app_pages base)
  rw [hreq wire req rsp] at hgave
  have hle := hslept inner most wire _ rsp slept hgave
  rw [hmost] at hle
  exact Nat.le_trans hdelays hle

theorem delays_of_covers (hP : P.Overwrites) (interval : Nat) (inner : B)
    (hsilent : ∀ most, ∃ wire,
      gave_up (P.request (P.set_poll_budget inner ⟨most, base.delay_ms⟩) wire [CMD_ERASE_APP] [])
        ((max most.toNat 1 - 1) * interval))
    (hcovers : Covers P gave_up app_pages base) :
    app_pages.toNat * from_millis 10 ≤ erase_delays app_pages base * interval := by
  have huse := run_in_use P hP inner base []
  obtain ⟨most, hmost, hreq⟩ := erase_request P hP huse (erase_poll_attempts app_pages base)
  obtain ⟨wire, hgave⟩ := hsilent most
  rw [← hreq wire [] []] at hgave
  have hle := hcovers inner [] wire [] [] _ hgave
  rw [hmost] at hle
  exact hle

end Wait

section Backends

variable (app_pages : UInt16) (base : PollBudget)

def I2cCovers : Prop :=
  ∀ E : Type, Covers (i2cTransport E)
    (fun out slept => ∃ n last rsp, out = some (.error (.Exhausted n last), rsp, slept)) app_pages base

def SpiCovers : Prop :=
  ∀ E : Type, Covers (spiTransport E)
    (fun out slept => ∃ n rsp, out = some (.error (.Exhausted n), rsp, slept)) app_pages base

theorem i2c_overwrites (E : Type) : (i2cTransport E).Overwrites := fun _ _ _ => rfl

theorem spi_overwrites (E : Type) : (spiTransport E).Overwrites := fun _ _ _ => rfl

variable {app_pages base}

theorem erase_delays_cover_iff {interval : Nat} (h : interval ≤ from_millis base.delay_ms.toNat) :
    app_pages.toNat * from_millis 10 ≤ erase_delays app_pages base * interval ↔
      app_pages.toNat = 0 ∨
        app_pages.toNat * from_millis 10 ≤ (base.attempts.toNat - 1) * interval := by
  have hten : app_pages.toNat * from_millis 10 = app_pages.toNat * 10 * 1000000 :=
    (Nat.mul_assoc _ _ _).symm
  unfold erase_delays
  rw [erase_poll_attempts_toNat, ← Nat.max_assoc, Nat.max_self, hten]
  exact wait_covers_iff _ _ _ _ 1000000 h (by decide)

theorem i2c_covers_iff :
    I2cCovers app_pages base ↔ app_pages.toNat = 0 ∨
      app_pages.toNat * from_millis 10 ≤ (base.attempts.toNat - 1) * from_millis base.delay_ms.toNat := by
  rw [← erase_delays_cover_iff (Nat.le_refl _)]
  constructor
  · intro hcovers
    apply delays_of_covers (i2c_overwrites Unit) _ .new ?_ (hcovers Unit)
    intro most
    obtain ⟨n, hsilent⟩ := i2c_request_silent ⟨most, base.delay_ms⟩ .new () [CMD_ERASE_APP]
    exact ⟨⟨fun _ => .ok (), fun _ => .error (), max most.toNat 1⟩, n, (), [], hsilent⟩
  · intro hdelays E
    apply covers_of_delays (i2c_overwrites E) _ ?_ hdelays
    rintro inner most wire req rsp slept ⟨n, last, rsp', hgave⟩
    exact Nat.le_of_eq (i2c_request_slept _ inner hgave).symm

theorem spi_covers_iff :
    SpiCovers app_pages base ↔ app_pages.toNat = 0 ∨
      app_pages.toNat * from_millis 10 ≤
        (base.attempts.toNat - 1) * min (from_millis base.delay_ms.toNat) (2 ^ 32 - 1) := by
  rw [← erase_delays_cover_iff (Nat.min_le_left _ _)]
  constructor
  · intro hcovers
    apply delays_of_covers (spi_overwrites Unit) _ .new ?_ (hcovers Unit)
    intro most
    obtain ⟨n, rsp, hbusy⟩ := spi_request_busy (E := Unit) ⟨most, base.delay_ms⟩ .new [CMD_ERASE_APP]
    exact ⟨⟨fun _ => .ok (), fun _ => .ok 0x00, max most.toNat 1⟩, n, rsp, hbusy⟩
  · intro hdelays E
    apply covers_of_delays (spi_overwrites E) _ ?_ hdelays
    rintro inner most wire req rsp slept ⟨n, rsp', hgave⟩
    exact spi_request_slept _ inner hgave

end Backends

/-- The wait covers the erase just when the delays of the budget that was asked for do. -/
theorem erase_wait_iff (app_pages : UInt16) (base : PollBudget) :
    (I2cCovers app_pages base ↔ app_pages.toNat = 0 ∨
      app_pages.toNat * from_millis 10 ≤
        (base.attempts.toNat - 1) * from_millis base.delay_ms.toNat) ∧
    (SpiCovers app_pages base ↔ app_pages.toNat = 0 ∨
      app_pages.toNat * from_millis 10 ≤
        (base.attempts.toNat - 1) * min (from_millis base.delay_ms.toNat) (2 ^ 32 - 1)) :=
  ⟨i2c_covers_iff, spi_covers_iff⟩

theorem erase_wait_short : ¬ I2cCovers 480 ⟨100, 10⟩ ∧ ¬ SpiCovers 480 ⟨100, 10⟩ := by
  constructor
  · rw [i2c_covers_iff]
    decide
  · rw [spi_covers_iff]
    decide

end OtaUpdater.Host
