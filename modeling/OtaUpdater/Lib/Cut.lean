import Mathlib.Tactic.Common

/-!
# A power cut in a list of operations

So many operations are done whole, the next one in part, and none after it.
-/

namespace OtaUpdater.Lib.Cut

variable {σ ω : Type} (whole part : σ → ω → σ)

/-- `left` says how many operations will still be done whole; without it, all of them. -/
structure Powered (σ : Type) where
  store : σ
  left : Option Nat
  dead : Bool

def Powered.perform (p : Powered σ) (op : ω) : Powered σ :=
  if p.dead then p
  else
    match p.left with
    | none => { p with store := whole p.store op }
    | some 0 => { store := part p.store op, left := none, dead := true }
    | some (k + 1) => { p with store := whole p.store op, left := some k }

def interrupted : Nat → List ω → σ → σ
  | _, [], s => s
  | 0, op :: _, s => part s op
  | k + 1, op :: ops, s => interrupted k ops (whole s op)

theorem foldl_dead (ops : List ω) (s : σ) (left : Option Nat) :
    ops.foldl (Powered.perform whole part) ⟨s, left, true⟩ = ⟨s, left, true⟩ := by
  induction ops with
  | nil => rfl
  | cons op ops ih => exact ih

theorem foldl_powered (ops : List ω) (s : σ) :
    ops.foldl (Powered.perform whole part) ⟨s, none, false⟩ = ⟨ops.foldl whole s, none, false⟩ := by
  induction ops generalizing s with
  | nil => rfl
  | cons op ops ih => exact ih (whole s op)

theorem foldl_cut (ops : List ω) (k : Nat) (s : σ) :
    ops.foldl (Powered.perform whole part) ⟨s, some k, false⟩ =
      if k < ops.length then ⟨interrupted whole part k ops s, none, true⟩
      else ⟨ops.foldl whole s, some (k - ops.length), false⟩ := by
  induction ops generalizing k s with
  | nil => rfl
  | cons op ops ih =>
    cases k with
    | zero => exact foldl_dead whole part ops (part s op) none
    | succ k =>
      have hrest := ih k (whole s op)
      rw [List.length_cons, Nat.add_sub_add_right]
      simp only [Nat.add_lt_add_iff_right]
      exact hrest

theorem interrupted_eq (ops : List ω) (k : Nat) (hk : k < ops.length) (s : σ) :
    interrupted whole part k ops s = part ((ops.take k).foldl whole s) ops[k] := by
  induction ops generalizing k s with
  | nil => exact absurd hk (Nat.not_lt_zero k)
  | cons op ops ih =>
    cases k with
    | zero => rfl
    | succ k => exact ih k (Nat.lt_of_succ_lt_succ hk) (whole s op)

end OtaUpdater.Lib.Cut
