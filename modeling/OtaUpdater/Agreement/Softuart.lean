import Mathlib.Tactic.NormNum
import OtaUpdater.Device.SoftuartPump
import OtaUpdater.Host.SoftUart

/-!
# The timing budget of the bit-banged UART

Either side hears what either side sends, as long as their clocks are close and start
edges are seen soon.
-/

namespace OtaUpdater.Agreement

open OtaUpdater.Lib.Serial OtaUpdater.Device.Softuart OtaUpdater.Host

section Budget

variable {B R late start now : ℚ} (bytes : List UInt8)

theorem bit_pos (hlate : 0 ≤ late) (hbudget : 19 / 2 * |R - B| + late < B / 2) : 0 < B := by
  have hrate := abs_nonneg (R - B)
  linarith

theorem centred_exact {first : ℚ} (hlate : 0 ≤ late) (hbudget : 19 / 2 * |R - B| + late < B / 2)
    (hfirst : first = 3 / 2 * R) : Centred B first R late := by
  subst hfirst
  apply centred_of_budget 0 _ _ hlate
  · rw [sub_self, abs_zero]
  · rwa [add_zero]

theorem awaits_sent (hnow : now ≤ start) : Awaits ((sent B bytes).line start) B start now bytes :=
  ⟨Or.inr hnow, fun _ _ => rfl⟩

end Budget

theorem request_heard {us ns late start now : ℚ} {E : Type} {pin : Tx ℚ → Bool → Except E Unit}
    {req : List UInt8} {tx : Tx ℚ} (gaps : List ℚ) (hlate : 0 ≤ late)
    (hbudget : 19 / 2 * |delay_us us SOFTUART_BIT_US - delay_ns ns SOFTUART_BIT_NS| + late <
      delay_ns ns SOFTUART_BIT_NS / 2)
    (hsend : send_request ns pin req = .ok tx) (hnow : now ≤ start + delay_ns ns SOFTUART_BIT_NS)
    (hwatched : Watched (pump_get us (tx.line start))
      (starts (delay_ns ns SOFTUART_BIT_NS) (start + delay_ns ns SOFTUART_BIT_NS) (request_bytes req))
      late now gaps) :
    Hears (delay_ns ns SOFTUART_BIT_NS) (start + delay_ns ns SOFTUART_BIT_NS)
      (polls (pump_get us (tx.line start)) now gaps).2 (request_bytes req)
      (polls (pump_get us (tx.line start)) now gaps).1 := by
  have hB := bit_pos hlate hbudget
  have hline : tx.line start =
      (sent (delay_ns ns SOFTUART_BIT_NS) (request_bytes req)).line (start + delay_ns ns SOFTUART_BIT_NS) := by
    rcases send_request_sent ns pin req with hok | ⟨e, tx', level, -, herror⟩
    · rw [hsend] at hok
      cases hok
      funext t
      exact line_mark hB.le _ start t
    · rw [hsend] at herror
      cases herror
  rw [hline] at hwatched ⊢
  exact polls_hear hB (centred_exact hlate hbudget (first_sample us)) gaps _ now _
    (awaits_sent _ hnow) hwatched

end OtaUpdater.Agreement
