import Mathlib.Tactic.Common

/-!
# Bounded retries

An attempt on a state ends the exchange, for good or for bad, or asks for another
one. `retry` makes so many attempts at most and then reports the last failure.
-/

namespace OtaUpdater.Lib.Retry

variable {σ α ε : Type}

inductive Attempt (α ε : Type) where
  | done (a : α)
  | again (e : ε)
  | stop (e : ε)

def retry (attempt : σ → Attempt α ε × σ) : Nat → ε → σ → Except ε α × σ
  | 0, last, s => (.error last, s)
  | k + 1, _, s =>
    match attempt s with
    | (.done a, s) => (.ok a, s)
    | (.again e, s) => retry attempt k e s
    | (.stop e, s) => (.error e, s)

/-- `inv k` holds while `k` attempts are left: a failed attempt uses one up, and the last one errs. -/
theorem retry_rule (attempt : σ → Attempt α ε × σ) (inv : Nat → σ → Prop) (post : α → σ → Prop)
    (err : σ → Prop) (hzero : ∀ s, inv 0 s → err s)
    (hstep : ∀ k s, inv (k + 1) s → match attempt s with
      | (.done a, s') => post a s'
      | (.again _, s') => inv k s'
      | (.stop _, s') => err s')
    (k : Nat) (last : ε) (s : σ) (h : inv k s) :
    match retry attempt k last s with
    | (.ok a, s') => post a s'
    | (.error _, s') => err s' := by
  induction k generalizing last s with
  | zero => exact hzero s h
  | succ k ih =>
    have hnow := hstep k s h
    unfold retry
    rcases hattempt : attempt s with ⟨a | e | e, s'⟩
    · rw [hattempt] at hnow
      exact hnow
    · rw [hattempt] at hnow
      exact ih e s' hnow
    · rw [hattempt] at hnow
      exact hnow

def stateAt (attempt : σ → Attempt α ε × σ) (s : σ) : Nat → σ
  | 0 => s
  | j + 1 => (attempt (stateAt attempt s j)).2

theorem retry_again (attempt : σ → Attempt α ε × σ) (s : σ) (failure : Nat → ε) (k j : Nat) (hj : j ≤ k)
    (h : ∀ i, i < j → (attempt (stateAt attempt s i)).1 = .again (failure i)) (last : ε) :
    ∃ last', (0 < j → last' = failure (j - 1)) ∧
      retry attempt k last s = retry attempt (k - j) last' (stateAt attempt s j) := by
  induction j with
  | zero => exact ⟨last, fun hpos => absurd hpos (Nat.lt_irrefl 0), rfl⟩
  | succ j ih =>
    obtain ⟨last', -, hrun⟩ := ih (by omega) (fun i hi => h i (by omega))
    have hnow := h j (Nat.lt_succ_self j)
    have hmore : k - j = k - (j + 1) + 1 := by omega
    refine ⟨failure j, fun _ => rfl, ?_⟩
    rw [hrun, hmore, retry, stateAt]
    rcases hattempt : attempt (stateAt attempt s j) with ⟨out, s'⟩
    rw [hattempt] at hnow
    dsimp only at hnow
    rw [hnow]

def Attempt.Fails (fails : ε → Prop) : Attempt α ε → Prop
  | .done _ => True
  | .again e | .stop e => fails e

theorem retry_error (attempt : σ → Attempt α ε × σ) (fails : ε → Prop)
    (hstep : ∀ s, (attempt s).1.Fails fails)
    (k : Nat) (last : ε) (hlast : fails last) (s : σ) (e : ε)
    (h : (retry attempt k last s).1 = .error e) : fails e := by
  induction k generalizing last s with
  | zero =>
    cases h
    exact hlast
  | succ k ih =>
    have hnow := hstep s
    unfold retry at h
    rcases hattempt : attempt s with ⟨a | e' | e', s'⟩
    · rw [hattempt] at h
      cases h
    · rw [hattempt] at h hnow
      exact ih e' hnow s' h
    · rw [hattempt] at h hnow
      cases h
      exact hnow

end OtaUpdater.Lib.Retry
