import Mathlib.Data.List.Induction
import Mathlib.Tactic.Common

/-!
# Repeated inputs

A step that answers and does the same when it is taken again is idempotent. For a run
of such steps, being given every input at least once is being given it once.
-/

namespace OtaUpdater.Lib.Repeat

variable {σ ι ο : Type}

/-- All answers of a run, in order, and the state it ends in. -/
def runAll (step : σ → ι → ο × σ) : σ → List ι → List ο × σ
  | s, [] => ([], s)
  | s, i :: rest =>
    let (o, s) := step s i
    let (os, s) := runAll step s rest
    (o :: os, s)

section Runs

variable (step : σ → ι → ο × σ)

theorem runAll_cons (s : σ) (i : ι) (rest : List ι) :
    runAll step s (i :: rest) =
      ((step s i).1 :: (runAll step (step s i).2 rest).1, (runAll step (step s i).2 rest).2) := rfl

theorem length_runAll (s : σ) (inputs : List ι) : (runAll step s inputs).1.length = inputs.length := by
  induction inputs generalizing s with
  | nil => rfl
  | cons i rest ih => rw [runAll_cons, List.length_cons, List.length_cons, ih]

theorem runAll_append (s : σ) (xs ys : List ι) :
    runAll step s (xs ++ ys) = ((runAll step s xs).1 ++ (runAll step (runAll step s xs).2 ys).1,
      (runAll step (runAll step s xs).2 ys).2) := by
  induction xs generalizing s with
  | nil => rfl
  | cons x xs ih => rw [List.cons_append, runAll_cons, ih, runAll_cons]; rfl

theorem runAll_concat (s : σ) (xs : List ι) (x : ι) :
    runAll step s (xs ++ [x]) = ((runAll step s xs).1 ++ [(step (runAll step s xs).2 x).1],
      (step (runAll step s xs).2 x).2) := runAll_append step s xs [x]

/-- What two steps keep between their states, given what they have answered so far, two runs keep. -/
theorem runAll_simulates {τ ο' : Type} (step' : τ → ι → ο' × τ)
    (rel : List ο → List ο' → σ → τ → Prop) (inputs : List ι)
    (hstep : ∀ os os' s t, ∀ i ∈ inputs, rel os os' s t →
      rel (os ++ [(step s i).1]) (os' ++ [(step' t i).1]) (step s i).2 (step' t i).2)
    (s : σ) (t : τ) (h : rel [] [] s t) :
    rel (runAll step s inputs).1 (runAll step' t inputs).1 (runAll step s inputs).2
      (runAll step' t inputs).2 := by
  induction inputs using List.reverseRecOn with
  | nil => exact h
  | append_singleton inputs i ih =>
    rw [runAll_concat, runAll_concat]
    apply hstep _ _ _ _ i (List.mem_append_right _ (List.mem_singleton_self i))
    apply ih
    intro os os' s t j hj
    exact hstep os os' s t j (List.mem_append_left _ hj)

def Idempotent : Prop := ∀ s i, step (step s i).2 i = step s i

variable {step}

theorem runAll_replicate (h : Idempotent step) (s : σ) (i : ι) (m : Nat) :
    runAll step s (List.replicate (m + 1) i) = (List.replicate (m + 1) (step s i).1, (step s i).2) := by
  induction m generalizing s with
  | zero => rfl
  | succ m ih =>
    rw [List.replicate_succ, runAll_cons, ih, h s i]
    rfl

theorem runAll_repeated (h : Idempotent step) (inputs : List (ι × Nat))
    (hpos : ∀ i ∈ inputs, 1 ≤ i.2) (s : σ) :
    runAll step s (inputs.flatMap (fun i => List.replicate i.2 i.1)) =
      ((List.zipWith (fun i o => List.replicate i.2 o) inputs
          (runAll step s (inputs.map Prod.fst)).1).flatten,
        (runAll step s (inputs.map Prod.fst)).2) := by
  induction inputs generalizing s with
  | nil => rfl
  | cons i inputs ih =>
    obtain ⟨i, m⟩ := i
    obtain ⟨m, rfl⟩ : ∃ k, m = k + 1 := Nat.exists_eq_add_of_le' (hpos (i, m) List.mem_cons_self)
    rw [List.flatMap_cons, runAll_append, runAll_replicate h]
    dsimp only
    rw [ih (fun j hj => hpos j (List.mem_cons_of_mem _ hj)), List.map_cons, runAll_cons,
      List.zipWith_cons_cons, List.flatten_cons]

end Runs

end OtaUpdater.Lib.Repeat
