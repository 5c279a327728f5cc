import Mathlib.Tactic.Common

/-!
# Byte-driven machines

A machine takes one input at a time and may give one output. `feed` runs it over
a whole input, and a simulation between two machines carries over to `feed`.
-/

namespace OtaUpdater.Lib.Mealy

variable {σ τ β γ : Type}

/-- All outputs of a run, in order, and the state it ends in. -/
def feed (step : σ → β → σ × Option γ) : σ → List β → List γ × σ
  | s, [] => ([], s)
  | s, b :: rest =>
    let (s', out) := step s b
    let (outs, last) := feed step s' rest
    (out.toList ++ outs, last)

section Feed

variable (step : σ → β → σ × Option γ)

@[simp] theorem feed_nil (s : σ) : feed step s [] = ([], s) := rfl

theorem feed_cons (s : σ) (b : β) (rest : List β) :
    feed step s (b :: rest) = ((step s b).2.toList ++ (feed step (step s b).1 rest).1,
      (feed step (step s b).1 rest).2) := rfl

theorem feed_append (s : σ) (xs ys : List β) :
    feed step s (xs ++ ys) = ((feed step s xs).1 ++ (feed step (feed step s xs).2 ys).1,
      (feed step (feed step s xs).2 ys).2) := by
  induction xs generalizing s with
  | nil => simp
  | cons x xs ih => simp [feed_cons, ih]

theorem feed_invariant (inv : σ → Prop) (hstep : ∀ s b, inv s → inv (step s b).1) (s : σ)
    (xs : List β) (h : inv s) : inv (feed step s xs).2 := by
  induction xs generalizing s with
  | nil => exact h
  | cons x xs ih => exact ih _ (hstep s x h)

theorem feed_skip (s : σ) (xs ys : List β) (h : ∀ x ∈ xs, step s x = (s, none)) :
    feed step s (xs ++ ys) = feed step s ys := by
  induction xs with
  | nil => rfl
  | cons x xs ih =>
    have hx := h x List.mem_cons_self
    rw [List.cons_append, feed_cons, hx, ih (fun y hy => h y (List.mem_cons_of_mem _ hy))]
    simp

end Feed

theorem feed_simulation (step₁ : σ → β → σ × Option γ) (step₂ : τ → β → τ × Option γ)
    (rel : σ → τ → Prop)
    (hstep : ∀ s t b, rel s t →
      rel (step₁ s b).1 (step₂ t b).1 ∧ (step₁ s b).2 = (step₂ t b).2)
    (s : σ) (t : τ) (xs : List β) (h : rel s t) :
    (feed step₁ s xs).1 = (feed step₂ t xs).1 ∧ rel (feed step₁ s xs).2 (feed step₂ t xs).2 := by
  induction xs generalizing s t with
  | nil => exact ⟨rfl, h⟩
  | cons x xs ih =>
    obtain ⟨hrel, hout⟩ := hstep s t x h
    obtain ⟨houts, hlast⟩ := ih _ _ hrel
    simp only [feed_cons]
    exact ⟨by rw [hout, houts], hlast⟩

/-! ## Watching a machine -/

section Watched

variable {δ : Type} (step : σ → β → σ × Option γ) (rel : σ → τ → Prop)

def Judged (next : τ → γ → τ) (ok : τ → γ → Prop) (t : τ) (r : σ × Option γ) : Prop :=
  match r.2 with
  | none => rel r.1 t
  | some c => ok t c ∧ rel r.1 (next t c)

variable {rel} in
theorem Judged.mono {next : τ → γ → τ} {ok ok' : τ → γ → Prop} {t : τ} {r : σ × Option γ}
    (h : Judged rel next ok t r) (hok : ∀ t c, ok t c → ok' t c) : Judged rel next ok' t r := by
  obtain ⟨s, _ | c⟩ := r
  · exact h
  · exact ⟨hok t c h.1, h.2⟩

/-- Every output is judged by what the ones before it say, if each step keeps the two related. -/
theorem feed_judged (next : τ → γ → τ) (ok : τ → γ → Prop)
    (hstep : ∀ s t b, rel s t → Judged rel next ok t (step s b))
    (s : σ) (t : τ) (xs : List β) (h : rel s t) :
    rel (feed step s xs).2 ((feed step s xs).1.foldl next t) ∧
      ∀ before c after, (feed step s xs).1 = before ++ c :: after → ok (before.foldl next t) c := by
  induction xs generalizing s t with
  | nil =>
    refine ⟨h, ?_⟩
    intro before c after hsplit
    exact absurd hsplit (by simp)
  | cons x xs ih =>
    have hnow := hstep s t x h
    unfold Judged at hnow
    rw [feed_cons]
    rcases hout : (step s x).2 with _ | c
    · rw [hout] at hnow
      exact ih _ _ hnow
    · rw [hout] at hnow
      obtain ⟨hok, hrel⟩ := hnow
      obtain ⟨hlast, hall⟩ := ih _ _ hrel
      refine ⟨hlast, ?_⟩
      rintro (_ | ⟨first, before⟩) d after hsplit
      · rw [← (List.cons.inj hsplit).1]
        exact hok
      · obtain ⟨hfirst, hrest⟩ := List.cons.inj hsplit
        rw [List.foldl_cons, ← hfirst]
        exact hall before d after hrest

/-- What the outputs carry is what another machine makes of them, as far as `p` lets it. -/
theorem feed_cascade (watch : τ → γ → τ × Option δ) (carry : γ → Option δ) (p : δ → Bool)
    (hstep : ∀ s t b, rel s t → Judged rel (fun t c => (watch t c).1)
      (fun t c => carry c = (watch t c).2.filter p) t (step s b))
    (s : σ) (t : τ) (xs : List β) (h : rel s t) :
    (feed step s xs).1.filterMap carry = (feed watch t (feed step s xs).1).1.filter p := by
  induction xs generalizing s t with
  | nil => rfl
  | cons x xs ih =>
    have hnow := hstep s t x h
    unfold Judged at hnow
    rw [feed_cons]
    rcases hout : (step s x).2 with _ | c
    · rw [hout] at hnow
      exact ih _ _ hnow
    · rw [hout] at hnow
      obtain ⟨hcarry, hrel⟩ := hnow
      have hrest := ih _ _ hrel
      dsimp only [Option.toList_some, List.cons_append, List.nil_append]
      rw [feed_cons, List.filter_append, ← hrest]
      rcases hwatched : (watch t c).2 with _ | d
      · rw [hwatched] at hcarry
        rw [List.filterMap_cons_none hcarry]
        rfl
      · rw [hwatched] at hcarry
        rcases hp : p d
        · rw [List.filterMap_cons_none (by rw [hcarry]; simp [hp])]
          simp [hp]
        · rw [List.filterMap_cons_some (b := d) (by rw [hcarry]; simp [hp])]
          simp [hp]

end Watched

end OtaUpdater.Lib.Mealy
