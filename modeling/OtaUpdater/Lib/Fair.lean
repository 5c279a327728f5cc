import Mathlib.Tactic.Common

/-!
# Fair schedules

A step either lowers a measure or changes nothing. In a schedule of enough rounds, where a round
holds every move in some order, the system comes to rest.
-/

namespace OtaUpdater.Lib.Fair

variable {σ μ : Type} (step : σ → μ → σ) (inv : σ → Prop) (effort : σ → Nat)

def Rest (s : σ) : Prop := ∀ m, step s m = s

def Round (moves : List μ) : Prop := ∀ m, m ∈ moves

def Working : Prop := ∀ s m, inv s → step s m = s ∨ effort (step s m) < effort s

section Runs

variable {step inv effort} (hinv : ∀ s m, inv s → inv (step s m)) (h : Working step inv effort)

theorem foldl_rest {s : σ} (hrest : Rest step s) (moves : List μ) : moves.foldl step s = s := by
  induction moves with
  | nil => rfl
  | cons m moves ih => rw [List.foldl_cons, hrest m, ih]

include hinv

theorem foldl_inv (moves : List μ) (s : σ) (hs : inv s) : inv (moves.foldl step s) := by
  induction moves generalizing s with
  | nil => exact hs
  | cons m moves ih => exact ih (step s m) (hinv s m hs)

include h

theorem foldl_effort_le (moves : List μ) (s : σ) (hs : inv s) :
    effort (moves.foldl step s) ≤ effort s := by
  induction moves generalizing s with
  | nil => exact Nat.le_refl _
  | cons m moves ih =>
    have hrest := ih (step s m) (hinv s m hs)
    rw [List.foldl_cons]
    rcases h s m hs with hsame | hless
    · rw [hsame] at hrest ⊢
      exact hrest
    · exact Nat.le_trans hrest (Nat.le_of_lt hless)

theorem foldl_idle (moves : List μ) (s : σ) (hs : inv s)
    (hsame : effort s ≤ effort (moves.foldl step s)) : ∀ m ∈ moves, step s m = s := by
  induction moves with
  | nil => exact fun m hm => nomatch hm
  | cons m moves ih =>
    rw [List.foldl_cons] at hsame
    have hfirst : step s m = s := by
      rcases h s m hs with hfirst | hless
      · exact hfirst
      · have hrest := foldl_effort_le hinv h moves (step s m) (hinv s m hs)
        omega
    rw [hfirst] at hsame
    intro m' hm'
    rw [List.mem_cons] at hm'
    rcases hm' with rfl | hm'
    · exact hfirst
    · exact ih hsame m' hm'

theorem round_rests_or_lowers (moves : List μ) (hround : Round moves) (s : σ) (hs : inv s) :
    Rest step s ∨ effort (moves.foldl step s) < effort s := by
  by_cases hless : effort (moves.foldl step s) < effort s
  · exact Or.inr hless
  · exact Or.inl (fun m => foldl_idle hinv h moves s hs (Nat.le_of_not_lt hless) m (hround m))

/-- As many rounds as there is effort to spend are enough. -/
theorem rounds_rest (rounds : List (List μ)) (hrounds : ∀ moves ∈ rounds, Round moves) (s : σ)
    (hs : inv s) (henough : effort s < rounds.length) : Rest step (rounds.flatten.foldl step s) := by
  induction rounds generalizing s with
  | nil => exact absurd henough (Nat.not_lt_zero _)
  | cons moves rounds ih =>
    rw [List.flatten_cons, List.foldl_append]
    rcases round_rests_or_lowers hinv h moves (hrounds moves List.mem_cons_self) s hs with hrest | hless
    · rw [foldl_rest hrest, foldl_rest hrest]
      exact hrest
    · apply ih (fun m hm => hrounds m (List.mem_cons_of_mem _ hm)) _ (foldl_inv hinv moves s hs)
      rw [List.length_cons] at henough
      omega

end Runs

end OtaUpdater.Lib.Fair
