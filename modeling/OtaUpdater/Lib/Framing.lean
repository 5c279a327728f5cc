import OtaUpdater.Lib.Mealy

/-!
# Frames in a stream

A machine that hunts for a sync symbol and then takes in a frame. Fed with
frames and with noise between them it gives each frame on its last symbol, as
soon as it does so for one.
-/

open OtaUpdater.Lib.Mealy

namespace OtaUpdater.Lib.Framing

variable {σ β γ : Type}

/-! ## Counted runs -/

/-- A machine that counts its inputs, and notes the state in which an output left it. -/
def counted (step : σ → β → σ × Option γ) (s : σ × Nat) (b : β) :
    (σ × Nat) × Option (Nat × γ × σ) :=
  let (s', out) := step s.1 b
  ((s', s.2 + 1), out.map (fun c => (s.2 + 1, c, s')))

section Counted

variable (step : σ → β → σ × Option γ)

theorem feed_counted_state (s : σ) (k : Nat) (xs : List β) :
    (feed (counted step) (s, k) xs).2 = ((feed step s xs).2, k + xs.length) := by
  induction xs generalizing s k with
  | nil => rfl
  | cons x xs ih =>
    rw [feed_cons, feed_cons, List.length_cons, Nat.add_comm xs.length, ← Nat.add_assoc]
    exact ih _ _

theorem feed_counted_outputs (s : σ) (k : Nat) (xs : List β) :
    (feed (counted step) (s, k) xs).1.map (fun d => d.2.1) = (feed step s xs).1 := by
  induction xs generalizing s k with
  | nil => rfl
  | cons x xs ih =>
    have hrest := ih (step s x).1 (k + 1)
    have hhead : ((counted step (s, k) x).2.toList).map (fun d => d.2.1) = (step s x).2.toList := by
      unfold counted
      rcases step s x with ⟨s', _ | c⟩ <;> rfl
    rw [feed_cons, feed_cons, List.map_append, hhead, ← hrest]
    rfl

theorem feed_counted_silent {s s' : σ} {xs : List β} (h : feed step s xs = ([], s')) (k : Nat) :
    feed (counted step) (s, k) xs = ([], (s', k + xs.length)) := by
  have hstate := feed_counted_state step s k xs
  have houtputs := feed_counted_outputs step s k xs
  rw [h] at hstate houtputs
  rw [List.map_eq_nil_iff] at houtputs
  exact Prod.ext houtputs hstate

end Counted

/-! ## Frames and noise -/

/-- Noise, then frames, each behind a sync symbol and with noise behind it. -/
def stream (sync : β) (noise : List β) (sent : List (List β × List β)) : List β :=
  noise ++ sent.flatMap (fun p => sync :: p.1 ++ p.2)

/-- The frames, each with the number of symbols up to its last, behind `k` of them. -/
def due (k : Nat) : List (List β × List β) → List (Nat × List β)
  | [] => []
  | (frame, noise) :: sent =>
    let ends := k + 1 + frame.length
    (ends, frame) :: due (ends + noise.length) sent

/-- From between two frames, `frame` comes out with its last symbol and not before. -/
def Takes (step : σ → β → σ × Option γ) (idle : σ → Prop) (shows : γ → σ → List β → Prop)
    (sync : β) (s : σ) (frame : List β) : Prop :=
  ∃ init last mid c s', frame = init ++ [last] ∧ feed step s (sync :: init) = ([], mid) ∧
    step mid last = (s', some c) ∧ idle s' ∧ shows c s' frame

section Stream

variable {step : σ → β → σ × Option γ} {idle : σ → Prop} {shows : γ → σ → List β → Prop} {sync : β}

theorem feed_counted_takes {s : σ} {frame : List β} (h : Takes step idle shows sync s frame)
    (k : Nat) :
    ∃ c s', feed (counted step) (s, k) (sync :: frame) =
        ([(k + 1 + frame.length, c, s')], (s', k + 1 + frame.length)) ∧
      idle s' ∧ shows c s' frame := by
  obtain ⟨init, last, mid, c, s', rfl, hsilent, hlast, hidle, hshows⟩ := h
  have hcount : k + (sync :: init).length + 1 = k + 1 + (init ++ [last]).length := by
    simp
    omega
  refine ⟨c, s', ?_, hidle, hshows⟩
  rw [← List.cons_append, feed_append, feed_counted_silent step hsilent k, feed_cons, ← hcount]
  simp [counted, hlast]

/-- Frame after frame: each comes out with its last symbol, and nothing else does. -/
theorem feed_counted_stream (idle : σ → Prop) (shows : γ → σ → List β → Prop)
    (hskip : ∀ s b, idle s → b ≠ sync → step s b = (s, none)) (s : σ) (k : Nat) (noise : List β) (sent : List (List β × List β)) (hs : idle s)
    (hnoise : sync ∉ noise) (hnoises : ∀ p ∈ sent, sync ∉ p.2)
    (htakes : ∀ p ∈ sent, ∀ s, idle s → Takes step idle shows sync s p.1) :
    List.Forall₂ (fun d e => d.1 = e.1 ∧ shows d.2.1 d.2.2 e.2)
      (feed (counted step) (s, k) (stream sync noise sent)).1 (due (k + noise.length) sent) := by
  have hquiet : ∀ (s : σ) (k : Nat) (noise rest : List β), idle s → sync ∉ noise →
      feed (counted step) (s, k) (noise ++ rest) =
        feed (counted step) (s, k + noise.length) rest := by
    intro s k noise rest hs hnoise
    have hsilent : feed step s noise = ([], s) := by
      have hskips := feed_skip step s noise []
        (fun b hb => hskip s b hs (fun hsync => hnoise (hsync ▸ hb)))
      rwa [List.append_nil] at hskips
    rw [feed_append, feed_counted_silent step hsilent k]
    rfl
  induction sent generalizing s k noise with
  | nil =>
    unfold stream due
    rw [hquiet s k noise _ hs hnoise]
    exact List.Forall₂.nil
  | cons p sent ih =>
    obtain ⟨frame, behind⟩ := p
    obtain ⟨c, s', hrun, hidle, hshows⟩ :=
      feed_counted_takes (htakes _ List.mem_cons_self s hs) (k + noise.length)
    have hrest := ih s' (k + noise.length + 1 + frame.length) behind hidle
      (hnoises _ List.mem_cons_self) (fun q hq => hnoises q (List.mem_cons_of_mem _ hq))
      (fun q hq => htakes q (List.mem_cons_of_mem _ hq))
    have hsplit : stream sync noise ((frame, behind) :: sent) =
        noise ++ ((sync :: frame) ++ stream sync behind sent) := by
      simp [stream]
    rw [hsplit, hquiet s k noise _ hs hnoise, feed_append, hrun]
    exact List.Forall₂.cons ⟨rfl, hshows⟩ hrest

end Stream

end OtaUpdater.Lib.Framing
