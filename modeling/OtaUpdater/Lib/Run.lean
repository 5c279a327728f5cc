import Mathlib.Tactic.Common

/-!
# Runs with a history

A run of a step function leaves one record per input. What is known about the
records so far and the state they led to is carried along as one invariant.
-/

namespace OtaUpdater.Lib.Run

variable {σ ι ο : Type}

structure Record (σ ι ο : Type) where
  before : σ
  input : ι
  output : ο
  after : σ

def record (step : σ → ι → ο × σ) (s : σ) (i : ι) : Record σ ι ο :=
  { before := s, input := i, output := (step s i).1, after := (step s i).2 }

def records (step : σ → ι → ο × σ) : σ → List ι → List (Record σ ι ο)
  | _, [] => []
  | s, i :: rest => record step s i :: records step (step s i).2 rest

section History

variable (step : σ → ι → ο × σ) (inv : List (Record σ ι ο) → σ → Prop)

/-- What every step keeps holds at every record of every run, about the records before it. -/
theorem records_history (hstep : ∀ past s i, inv past s → inv (past ++ [record step s i]) (step s i).2)
    (past : List (Record σ ι ο)) (s : σ) (h : inv past s) (inputs : List ι)
    (pre post : List (Record σ ι ο)) (r : Record σ ι ο)
    (hrun : records step s inputs = pre ++ r :: post) :
    inv (past ++ pre) r.before ∧ r = record step r.before r.input := by
  induction inputs generalizing past s pre with
  | nil => simp [records] at hrun
  | cons i rest ih =>
    cases pre with
    | nil =>
      simp only [records, List.nil_append, List.cons.injEq] at hrun
      rw [← hrun.1, List.append_nil]
      exact ⟨h, rfl⟩
    | cons first pre =>
      simp only [records, List.cons_append, List.cons.injEq] at hrun
      have hnext := ih _ _ (hstep past s i h) pre hrun.2
      rw [← hrun.1, List.append_cons]
      exact hnext

theorem records_guarded (guard : List (Record σ ι ο) → σ → ι → Prop)
    (hstep : ∀ past s i, inv past s → guard past s i →
      inv (past ++ [record step s i]) (step s i).2)
    (past : List (Record σ ι ο)) (s : σ) (h : inv past s) (inputs : List ι)
    (hguard : ∀ pre r post, records step s inputs = pre ++ r :: post →
      guard (past ++ pre) r.before r.input) :
    ∃ last, inv (past ++ records step s inputs) last := by
  induction inputs generalizing past s with
  | nil =>
    rw [records, List.append_nil]
    exact ⟨s, h⟩
  | cons i rest ih =>
    have hnow := hguard [] _ _ rfl
    rw [List.append_nil] at hnow
    rw [records, List.append_cons]
    apply ih _ _ (hstep past s i h hnow)
    intro pre r post hrun
    have hlater := hguard (record step s i :: pre) r post (by rw [records, hrun]; rfl)
    rw [List.append_cons] at hlater
    exact hlater

end History

theorem flatMap_split {α β : Type} (g : α → List β) (xs : List α) (pre post : List β) (e : β)
    (h : xs.flatMap g = pre ++ e :: post) :
    ∃ before x after l r, xs = before ++ x :: after ∧ g x = l ++ e :: r ∧
      pre = before.flatMap g ++ l ∧ post = r ++ after.flatMap g := by
  induction xs generalizing pre with
  | nil => simp at h
  | cons x xs ih =>
    -- The entry is in a later record.
    have hlater : ∀ pre', pre = g x ++ pre' → xs.flatMap g = pre' ++ e :: post →
        ∃ before y after l r, x :: xs = before ++ y :: after ∧ g y = l ++ e :: r ∧
          pre = before.flatMap g ++ l ∧ post = r ++ after.flatMap g := by
      intro pre' hpre hrest
      obtain ⟨before, y, after, l, r, hxs, hy, hl, hr⟩ := ih pre' hrest
      refine ⟨x :: before, y, after, l, r, by rw [hxs]; rfl, hy, ?_, hr⟩
      rw [hpre, hl, List.flatMap_cons, List.append_assoc]
    rw [List.flatMap_cons] at h
    rcases List.append_eq_append_iff.mp h with ⟨pre', hpre, hrest⟩ | ⟨mine, hmine, hrest⟩
    · exact hlater pre' hpre hrest
    · cases mine with
      | nil =>
        rw [List.append_nil] at hmine
        exact hlater [] (by rw [hmine, List.append_nil]) hrest.symm
      | cons first mine =>
        rw [List.cons_append, List.cons.injEq] at hrest
        obtain ⟨rfl, hpost⟩ := hrest
        exact ⟨[], x, xs, pre, mine, rfl, hmine, rfl, hpost⟩

end OtaUpdater.Lib.Run
