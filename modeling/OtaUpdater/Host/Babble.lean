import OtaUpdater.Host.Spi
import OtaUpdater.Host.Uart

/-!
# Requests on a line that babbles

Bytes inside a frame cost the loops nothing. But the scanner is inside one for
no longer than its buffer, so every unit of a budget buys so many bytes and no
more, and both transports return.
-/

namespace OtaUpdater.Host

/-! ## The scanner's hold -/

/-- The bytes that the scanner has taken in without a verdict. -/
def RxScanner.held (s : RxScanner) : Nat := if s.in_frame then s.n + 1 else 0

/-- Inside a frame, there is room for the next byte. -/
def RxScanner.Fits (s : RxScanner) (room : Nat) : Prop :=
  s.in_frame = true → FRAME_OVERHEAD ≤ room ∧ s.n < room

theorem RxScanner.Fits.held_le {s : RxScanner} {room : Nat} (h : s.Fits room) : s.held ≤ room := by
  unfold RxScanner.held
  split_ifs with hin
  · exact (h hin).2
  · exact Nat.zero_le _

theorem push_held (s : RxScanner) (b : UInt8) (buf : List UInt8) (h : s.Fits buf.length) :
    let p := s.push b buf
    p.2.2.length = buf.length ∧ p.2.1.Fits buf.length ∧
      match p.1 with
      | .Frame => p.2.1.held = s.held + 1
      | .Hunt | .Dropped => p.2.1.held = 0
      | .Done _ => True := by
  obtain ⟨n, in_frame⟩ := s
  have hover : FRAME_OVERHEAD = 3 := rfl
  have hidle : ∀ m room, RxScanner.Fits ⟨m, false⟩ room := fun m room hin => by cases hin
  cases in_frame with
  | false =>
    unfold RxScanner.push
    dsimp only
    rw [Bool.not_false, if_pos rfl]
    split_ifs with hsync
    · exact ⟨rfl, fun _ => ⟨hsync.2, by dsimp only; omega⟩, rfl⟩
    · exact ⟨rfl, hidle _ _, rfl⟩
  | true =>
    obtain ⟨hroom, hn⟩ := h rfl
    dsimp only at hn
    have hset : (buf.set n b).length = buf.length := List.length_set
    have hpush := push_in_frame n b buf hn
    dsimp only at hpush ⊢
    rw [hpush]
    split_ifs with hfirst hbig hmore hok
    · exact ⟨hset, fun _ => ⟨hroom, by dsimp only; omega⟩, rfl⟩
    · exact ⟨hset, hidle _ _, rfl⟩
    · exact ⟨hset, fun _ => ⟨hroom, by dsimp only; omega⟩, rfl⟩
    · exact ⟨hset, hidle _ _, trivial⟩
    · exact ⟨hset, hidle _ _, rfl⟩

/-- So many bytes can go into the scanner for so many units of a budget. -/
def RxScanner.Paid (s : RxScanner) (room units pushed : Nat) : Prop :=
  pushed ≤ units * (room + 1) + s.held

theorem RxScanner.Paid.lt {s : RxScanner} {room units pushed limit : Nat}
    (h : s.Paid room units pushed) (hfits : s.Fits room) (hunits : units < limit) :
    pushed < limit * (room + 1) := by
  have hheld := hfits.held_le
  unfold RxScanner.Paid at h
  calc pushed < units * (room + 1) + (room + 1) := by omega
    _ = (units + 1) * (room + 1) := (Nat.succ_mul units (room + 1)).symm
    _ ≤ limit * (room + 1) := Nat.mul_le_mul_right (room + 1) hunits

/-- A unit pays for all that was held, and for the byte behind it. -/
theorem push_paid (s : RxScanner) (b : UInt8) (buf : List UInt8) (units pushed : Nat)
    (hfits : s.Fits buf.length) (h : s.Paid buf.length units pushed) :
    let p := s.push b buf
    match p.1 with
    | .Frame => p.2.1.Paid buf.length units (pushed + 1)
    | .Hunt | .Dropped => p.2.1.Paid buf.length (units + 1) (pushed + 1)
    | .Done _ => pushed + 1 ≤ (units + 1) * (buf.length + 1) := by
  have hlt := h.lt hfits (Nat.lt_succ_self units)
  obtain ⟨-, -, hheld⟩ := push_held s b buf hfits
  unfold RxScanner.Paid at h ⊢
  generalize s.push b buf = p at hheld ⊢
  obtain ⟨_ | _ | len | _, s', buf'⟩ := p
  · dsimp only at hheld ⊢
    rw [hheld]
    exact hlt
  · dsimp only at hheld ⊢
    omega
  · exact hlt
  · dsimp only at hheld ⊢
    rw [hheld]
    exact hlt

theorem spent_toNat (n limit : UInt32) (h : n.toNat < limit.toNat) : (n + 1).toNat = n.toNat + 1 := by
  have hword := limit.toNat_lt
  rw [UInt32.toNat_add, UInt32.toNat_one, Nat.mod_eq_of_lt (by omega)]

/-! ## The SPI loop -/

section Spi

variable {E : Type} (spi : SpiTransport)

/-- The loop has a poll left, and has clocked no more than the spent ones pay for. -/
structure Clocking.Within (c : Clocking) (room : Nat) : Prop where
  window : c.rsp.length = room
  fits : c.scanner.Fits room
  left : c.attempts.toNat < spi.poll_attempts.toNat
  paid : c.scanner.Paid room c.attempts.toNat c.clocked

theorem clocking_new_within (rsp : List UInt8) : (Clocking.new rsp).Within spi rsp.length where
  window := rfl
  fits := fun h => by cases h
  left := UInt32.le_iff_toNat_le.mp spi.poll_attempts_pos
  paid := Nat.zero_le _

theorem clock_loop_returns (reads : Nat → Except E UInt8) (room fuel : Nat) :
    ∀ c : Clocking, c.Within spi room → spi.poll_attempts.toNat * (room + 1) ≤ fuel + c.clocked →
      ∃ result c', clock_loop spi reads fuel c = some (result, c') ∧
        c'.clocked ≤ spi.poll_attempts.toNat * (room + 1) := by
  induction fuel with
  | zero =>
    intro c hc hfuel
    have hlt := hc.paid.lt hc.fits hc.left
    omega
  | succ fuel ih =>
    intro c hc hfuel
    have hlt := hc.paid.lt hc.fits hc.left
    unfold clock_loop
    dsimp only
    rcases reads c.clocked with e | b
    · exact ⟨_, _, rfl, hlt⟩
    · obtain ⟨scanner, attempts, rsp, clocked⟩ := c
      obtain ⟨rfl, hfits, hleft, hpaid⟩ := hc
      dsimp only at hfits hleft hpaid hlt hfuel ⊢
      obtain ⟨hlength, hfits', -⟩ := push_held scanner b rsp hfits
      have hpaid' := push_paid scanner b rsp attempts.toNat clocked hfits hpaid
      generalize scanner.push b rsp = p at hlength hfits' hpaid' ⊢
      obtain ⟨scan, scanner', rsp'⟩ := p
      dsimp only at hlength hfits' hpaid' ⊢
      have hnext := spent_toNat attempts spi.poll_attempts hleft
      have hspend : scanner'.Paid rsp.length (attempts.toNat + 1) (clocked + 1) →
          ∃ result c', (if attempts + 1 ≥ spi.poll_attempts then
              some (.error (.Exhausted (attempts + 1)), ⟨scanner', attempts + 1, rsp', clocked + 1⟩)
            else clock_loop spi reads fuel ⟨scanner', attempts + 1, rsp', clocked + 1⟩) =
              some (result, c') ∧ c'.clocked ≤ spi.poll_attempts.toNat * (rsp.length + 1) := by
        intro hpaid
        split_ifs with hexhausted
        · exact ⟨_, _, rfl, hlt⟩
        · apply ih _ ⟨hlength, hfits', ?_, ?_⟩ (by dsimp only; omega)
          · exact UInt32.lt_iff_toNat_lt.mp (UInt32.not_le.mp hexhausted)
          · rw [hnext]
            exact hpaid
      cases scan with
      | Done len => exact ⟨_, _, rfl, hlt⟩
      | Frame => exact ih _ ⟨hlength, hfits', hleft, hpaid'⟩ (by dsimp only; omega)
      | Hunt => exact hspend hpaid'
      | Dropped => exact hspend hpaid'

end Spi

/-! ## The UART loop -/

section Uart

variable {E : Type} (uart : UartTransport)

structure Receiving.Within (r : Receiving) (room idle pushed : Nat) : Prop where
  window : r.rsp.length = room
  fits : r.scanner.Fits room
  polls : r.attempts.toNat = idle
  waiting : idle < uart.poll_attempts.toNat
  left : r.junk.toNat < uart.scan_limit.toNat
  paid : r.scanner.Paid room r.junk.toNat pushed

theorem receiving_new_within (rsp : List UInt8) : (Receiving.new rsp).Within uart rsp.length 0 0 where
  window := rfl
  fits := fun h => by cases h
  polls := rfl
  waiting := UInt32.le_iff_toNat_le.mp uart.poll_attempts_pos
  left := UInt32.le_iff_toNat_le.mp uart.scan_limit_pos
  paid := Nat.zero_le _

/-- What a scan of `len` bytes comes to: each of them that is not left over was paid for. -/
def ScanWithin (room idle pushed len : Nat) (p : Turn E × Receiving × List UInt8) : Prop :=
  p.2.2.length ≤ len ∧
    pushed + (len - p.2.2.length) ≤ uart.scan_limit.toNat * (room + 1) ∧
    (p.1 = .again → p.2.2 = [] ∧ p.2.1.Within uart room idle (pushed + len))

variable {uart} in
theorem ScanWithin.cons {room idle pushed len : Nat} {p : Turn E × Receiving × List UInt8}
    (h : ScanWithin uart room idle (pushed + 1) len p) :
    ScanWithin uart room idle pushed (len + 1) p := by
  obtain ⟨hrest, hbound, hagain⟩ := h
  rw [Nat.add_right_comm, Nat.add_assoc] at hagain
  exact ⟨by omega, by omega, hagain⟩

theorem scan_chunk_within (room idle : Nat) (chunk : List UInt8) :
    ∀ (r : Receiving) (pushed : Nat), r.Within uart room idle pushed →
      ScanWithin uart room idle pushed chunk.length (scan_chunk (E := E) uart r chunk) := by
  induction chunk with
  | nil =>
    intro r pushed hr
    exact ⟨Nat.le_refl 0, Nat.le_of_lt (hr.paid.lt hr.fits hr.left), fun _ => ⟨rfl, hr⟩⟩
  | cons b chunk ih =>
    intro r pushed hr
    have hlt := hr.paid.lt hr.fits hr.left
    obtain ⟨scanner, attempts, junk, rsp⟩ := r
    obtain ⟨hwindow, hfits, hpolls, hwaiting, hleft, hpaid⟩ := hr
    dsimp only at hwindow hfits hpolls hleft hpaid
    subst hwindow
    obtain ⟨hlength, hfits', -⟩ := push_held scanner b rsp hfits
    have hpaid' := push_paid scanner b rsp junk.toNat pushed hfits hpaid
    unfold scan_chunk
    dsimp only
    generalize scanner.push b rsp = p at hlength hfits' hpaid' ⊢
    obtain ⟨scan, scanner', rsp'⟩ := p
    dsimp only at hlength hfits' hpaid' ⊢
    have hnext := spent_toNat junk uart.scan_limit hleft
    -- A turn that ends here has pushed this byte and left the rest of the chunk.
    have hends : ∀ (turn : Turn E) (r' : Receiving), turn ≠ .again →
        ScanWithin uart rsp.length idle pushed (chunk.length + 1) (turn, r', chunk) :=
      fun turn r' hturn =>
        ⟨Nat.le_succ _, by dsimp only; omega, fun hagain => absurd hagain hturn⟩
    have hspend : scanner'.Paid rsp.length (junk.toNat + 1) (pushed + 1) →
        ScanWithin uart rsp.length idle pushed (chunk.length + 1)
          (if junk + 1 ≥ uart.scan_limit then
            (.fail (.Desync (junk + 1)), ⟨scanner', attempts, junk + 1, rsp'⟩, chunk)
          else scan_chunk (E := E) uart ⟨scanner', attempts, junk + 1, rsp'⟩ chunk) := by
      intro hpaid
      split_ifs with hdesync
      · exact hends _ _ (by rintro ⟨⟩)
      · apply ScanWithin.cons
        apply ih _ _ ⟨hlength, hfits', hpolls, hwaiting, ?_, ?_⟩
        · exact UInt32.lt_iff_toNat_lt.mp (UInt32.not_le.mp hdesync)
        · dsimp only
          rw [hnext]
          exact hpaid
    cases scan with
    | Done len => exact hends _ _ (by rintro ⟨⟩)
    | Frame => exact (ih _ _ ⟨hlength, hfits', hpolls, hwaiting, hleft, hpaid'⟩).cons
    | Hunt => exact hspend hpaid'
    | Dropped => exact hspend hpaid'

theorem read_turn_within (r : Receiving) (room : Nat) (tally : Tally)
    (hr : r.Within uart room tally.idle tally.pushed) (read : Except E (List UInt8)) :
    let p := read_turn uart r read
    let tally' := tally.count read p.2.2
    (tally'.idle ≤ uart.poll_attempts.toNat ∧
      tally'.pushed ≤ uart.scan_limit.toNat * (room + 1)) ∧
    (p.1 = .again → p.2.1.Within uart room tally'.idle tally'.pushed ∧
      tally.idle + tally.pushed < tally'.idle + tally'.pushed) := by
  have hlt := hr.paid.lt hr.fits hr.left
  have hwaiting := hr.waiting
  rcases read with e | _ | ⟨b, chunk⟩
  · exact ⟨⟨by dsimp only [Tally.count]; omega, by dsimp only [Tally.count]; omega⟩, fun h => by cases h⟩
  · have hnext := spent_toNat r.attempts uart.poll_attempts (by rw [hr.polls]; exact hwaiting)
    rw [hr.polls] at hnext
    unfold read_turn
    dsimp only [Tally.count]
    refine ⟨⟨by omega, by omega⟩, ?_⟩
    split_ifs with hexhausted
    · intro h
      cases h
    · have hleft := UInt32.lt_iff_toNat_lt.mp (UInt32.not_le.mp hexhausted)
      rw [hnext] at hleft
      exact fun _ => ⟨⟨hr.window, hr.fits, hnext, hleft, hr.left, hr.paid⟩, by omega⟩
  · obtain ⟨hrest, hbound, hagain⟩ :=
      scan_chunk_within (E := E) uart room tally.idle (b :: chunk) r tally.pushed hr
    unfold read_turn
    dsimp only [Tally.count]
    refine ⟨⟨by omega, hbound⟩, ?_⟩
    intro h
    obtain ⟨hrest, hwithin⟩ := hagain h
    rw [hrest]
    exact ⟨hwithin, by rw [List.length_cons, List.length_nil]; omega⟩

theorem read_loop_returns (reads : Nat → Except E (List UInt8)) (room fuel : Nat) :
    ∀ (r : Receiving) (tally : Tally), r.Within uart room tally.idle tally.pushed →
      uart.poll_attempts.toNat + uart.scan_limit.toNat * (room + 1) ≤
        fuel + (tally.idle + tally.pushed) →
      ∃ result rsp tally', read_loop uart reads fuel r tally = some (result, rsp, tally') ∧
        tally'.idle ≤ uart.poll_attempts.toNat ∧
        tally'.pushed ≤ uart.scan_limit.toNat * (room + 1) := by
  induction fuel with
  | zero =>
    intro r tally hr hfuel
    have hlt := hr.paid.lt hr.fits hr.left
    have hwaiting := hr.waiting
    omega
  | succ fuel ih =>
    intro r tally hr hfuel
    obtain ⟨hbounds, hagain⟩ := read_turn_within uart r room tally hr (reads tally.turns)
    unfold read_loop
    dsimp only
    generalize read_turn uart r (reads tally.turns) = p at hbounds hagain ⊢
    obtain ⟨turn, r', rest⟩ := p
    cases turn with
    | done len => exact ⟨_, _, _, rfl, hbounds⟩
    | fail e => exact ⟨_, _, _, rfl, hbounds⟩
    | again =>
      obtain ⟨hwithin, hmoved⟩ := hagain rfl
      dsimp only at hmoved
      exact ih r' _ hwithin (by dsimp only; omega)

end Uart

/-! ## Both transports -/

/-- Whatever the line brings, a request over either transport is back within its budget. -/
theorem requests_return {E : Type} (uart : UartTransport) (spi : SpiTransport)
    (wrote : List UInt8 → Except E Unit) (transaction : List (List UInt8) → Except E Unit)
    (reads : Nat → Except E (List UInt8)) (clocks : Nat → Except E UInt8)
    (req rsp : List UInt8) (fuel : Nat)
    (huart : uart.poll_attempts.toNat + uart.scan_limit.toNat * (rsp.length + 1) ≤ fuel)
    (hspi : spi.poll_attempts.toNat * (rsp.length + 1) ≤ fuel) :
    (∃ result rsp' tally, uart.request wrote reads req rsp fuel = some (result, rsp', tally) ∧
      tally.idle ≤ uart.poll_attempts.toNat ∧
      tally.pushed ≤ uart.scan_limit.toNat * (rsp.length + 1)) ∧
    ∃ result c, spi.request transaction clocks req rsp fuel = some (result, c) ∧
      c.clocked ≤ spi.poll_attempts.toNat * (rsp.length + 1) := by
  constructor
  · unfold UartTransport.request
    rcases wrote (request_bytes req) with e | _
    · exact ⟨_, _, _, rfl, Nat.zero_le _, Nat.zero_le _⟩
    · exact read_loop_returns uart reads rsp.length fuel _ _ (receiving_new_within uart rsp) huart
  · unfold SpiTransport.request
    rcases transaction [[SYNC], req] with e | _
    · exact ⟨_, _, rfl, Nat.zero_le _⟩
    · exact clock_loop_returns spi clocks rsp.length fuel _ (clocking_new_within spi rsp) hspi

theorem requests_return_sync :
    let uart := (UartTransport.new.set_poll 2).with_scan_limit 3
    let spi : SpiTransport := ⟨4, by decide⟩
    (∃ result rsp' tally,
      uart.request (E := Empty) (fun _ => .ok ()) (fun _ => .ok [SYNC, SYNC]) [1, 0, 7]
        [0, 0, 0, 0] 20 = some (result, rsp', tally) ∧
      tally.idle ≤ uart.poll_attempts.toNat ∧ tally.pushed ≤ uart.scan_limit.toNat * 5) ∧
    ∃ result c,
      spi.request (E := Empty) (fun _ => .ok ()) (fun _ => .ok SYNC) [1, 0, 7] [0, 0, 0, 0] 20 =
        some (result, c) ∧
      c.clocked ≤ spi.poll_attempts.toNat * 5 :=
  requests_return _ _ _ _ _ _ _ _ _ (by decide) (by decide)

end OtaUpdater.Host
