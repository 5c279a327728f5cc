import Mathlib.Tactic.Common

/-!
# Rules for state-passing code

`Agree` says that two pieces of code over different states return the same and
stay related; `Keeps`, its diagonal, that one piece of code preserves a property.
`Agree` goes through sequencing and branching, so a function built from a few
operations has it as soon as the operations do.
-/

namespace OtaUpdater.Lib.State

variable {σ τ α β : Type}

@[simp] theorem pure_apply (a : α) (s : σ) : (pure a : StateM σ α) s = (a, s) := rfl

@[simp] theorem bind_apply (m : StateM σ α) (f : α → StateM σ β) (s : σ) :
    (m >>= f) s = f (m s).1 (m s).2 := rfl

theorem bind_run {m : StateM σ α} {f : α → StateM σ β} {s s' : σ} {a : α} (h : m s = (a, s')) :
    (m >>= f) s = f a s' := by
  rw [bind_apply, h]

@[simp] theorem map_apply (m : StateM σ α) (f : α → β) (s : σ) :
    (f <$> m) s = (f (m s).1, (m s).2) := rfl

@[simp] theorem ite_run (c : Prop) [Decidable c] (m n : StateM σ α) (s : σ) :
    (if c then m else n) s = if c then m s else n s := by
  split <;> rfl

@[simp] theorem get_apply (s : σ) : (get : StateM σ σ) s = (s, s) := rfl

@[simp] theorem set_apply (s s' : σ) : (set s' : StateM σ PUnit) s = ((), s') := rfl

@[simp] theorem modify_apply (f : σ → σ) (s : σ) : (modify f : StateM σ PUnit) s = ((), f s) := rfl

/-! ## Two runs -/

def Agree (rel : σ → τ → Prop) (m : StateM σ α) (n : StateM τ α) : Prop :=
  ∀ s t, rel s t → (m s).1 = (n t).1 ∧ rel (m s).2 (n t).2

section Agree

variable {rel : σ → τ → Prop}

theorem Agree.pure (a : α) : Agree rel (pure a : StateM σ α) (pure a : StateM τ α) :=
  fun _ _ h => ⟨rfl, h⟩

theorem Agree.bind {m : StateM σ α} {n : StateM τ α} {f : α → StateM σ β} {g : α → StateM τ β}
    (hm : Agree rel m n) (hf : ∀ a, Agree rel (f a) (g a)) : Agree rel (m >>= f) (n >>= g) := by
  intro s t h
  obtain ⟨heq, hrel⟩ := hm s t h
  simp only [bind_apply]
  rw [← heq]
  exact hf _ _ _ hrel

theorem Agree.ite {c : Prop} [Decidable c] {m m' : StateM σ α} {n n' : StateM τ α}
    (hm : c → Agree rel m n) (hn : ¬ c → Agree rel m' n') :
    Agree rel (if c then m else m') (if c then n else n') := by
  split
  · exact hm ‹_›
  · exact hn ‹_›

end Agree

/-! ## One run -/

def Keeps (inv : σ → Prop) (m : StateM σ α) : Prop := ∀ s, inv s → inv (m s).2

/-- A property is kept exactly when the code agrees with itself on the states that have it. -/
theorem keeps_iff_agree (inv : σ → Prop) (m : StateM σ α) :
    Keeps inv m ↔ Agree (fun s t => s = t ∧ inv s) m m := by
  constructor
  · rintro h s t ⟨rfl, hs⟩
    exact ⟨rfl, rfl, h s hs⟩
  · intro h s hs
    exact (h s s ⟨rfl, hs⟩).2.2

/-! ## Code that can fail -/

/-- From `pre`, a result has `ok` and a failure has `err`, which may depend on what failed. -/
def Triple {ε : Type} (m : ExceptT ε (StateM σ) α) (pre : σ → Prop) (ok : α → σ → Prop)
    (err : ε → σ → Prop) : Prop :=
  ∀ s, pre s → match m s with
    | (.ok a, s') => ok a s'
    | (.error e, s') => err e s'

theorem except_bind_apply {ε : Type} (m : ExceptT ε (StateM σ) α)
    (f : α → ExceptT ε (StateM σ) β) (s : σ) :
    (m >>= f) s = match m s with
      | (.ok a, s') => f a s'
      | (.error e, s') => (.error e, s') := by
  rcases hrun : m s with ⟨e | a, s'⟩
  · simp only [bind, ExceptT.bind, ExceptT.mk, StateT.bind, hrun]
    rfl
  · simp only [bind, ExceptT.bind, ExceptT.mk, StateT.bind, hrun]
    rfl

section Triple

variable {ε : Type} {pre : σ → Prop} {err : ε → σ → Prop}

theorem Triple.pure {ok : α → σ → Prop} (a : α) (h : ∀ s, pre s → ok a s) :
    Triple (pure a : ExceptT ε (StateM σ) α) pre ok err := h

theorem Triple.throw {ok : α → σ → Prop} (e : ε) (h : ∀ s, pre s → err e s) :
    Triple (throw e : ExceptT ε (StateM σ) α) pre ok err := h

theorem Triple.bind {m : ExceptT ε (StateM σ) α} {f : α → ExceptT ε (StateM σ) β}
    {mid : α → σ → Prop} {ok : β → σ → Prop} (hm : Triple m pre mid err)
    (hf : ∀ a, Triple (f a) (mid a) ok err) : Triple (m >>= f) pre ok err := by
  intro s hs
  have hnow := hm s hs
  rw [except_bind_apply]
  rcases hrun : m s with ⟨e | a, s'⟩
  · rw [hrun] at hnow
    exact hnow
  · rw [hrun] at hnow
    exact hf a s' hnow

theorem Triple.weaken {m : ExceptT ε (StateM σ) α} {pre' : σ → Prop} {ok ok' : α → σ → Prop}
    {err' : ε → σ → Prop} (h : Triple m pre ok err) (hpre : ∀ s, pre' s → pre s)
    (hok : ∀ a s, ok a s → ok' a s) (herr : ∀ e s, err e s → err' e s) : Triple m pre' ok' err' := by
  intro s hs
  have hnow := h s (hpre s hs)
  rcases hrun : m s with ⟨e | a, s'⟩
  · rw [hrun] at hnow
    exact herr e s' hnow
  · rw [hrun] at hnow
    exact hok a s' hnow

end Triple

/-- From `pre`, a result has `ok` and a failure has `err`. -/
def Spec {ε : Type} (m : ExceptT ε (StateM σ) α) (pre : σ → Prop) (ok : α → σ → Prop)
    (err : σ → Prop) : Prop :=
  ∀ s, pre s → match m s with
    | (.ok a, s') => ok a s'
    | (.error _, s') => err s'

section Spec

variable {ε : Type} {pre : σ → Prop} {err : σ → Prop}

theorem spec_iff {ok : α → σ → Prop} {m : ExceptT ε (StateM σ) α} :
    Spec m pre ok err ↔ Triple m pre ok (fun _ => err) := Iff.rfl

theorem Spec.pure {ok : α → σ → Prop} (a : α) (h : ∀ s, pre s → ok a s) :
    Spec (pure a : ExceptT ε (StateM σ) α) pre ok err := h

theorem Spec.throw {ok : α → σ → Prop} (e : ε) (h : ∀ s, pre s → err s) :
    Spec (throw e : ExceptT ε (StateM σ) α) pre ok err := h

theorem Spec.bind {m : ExceptT ε (StateM σ) α} {f : α → ExceptT ε (StateM σ) β}
    {mid : α → σ → Prop} {ok : β → σ → Prop} (hm : Spec m pre mid err)
    (hf : ∀ a, Spec (f a) (mid a) ok err) : Spec (m >>= f) pre ok err := by
  rw [spec_iff] at hm ⊢
  exact hm.bind (fun a => spec_iff.mp (hf a))

theorem Spec.weaken {m : ExceptT ε (StateM σ) α} {pre' : σ → Prop} {ok ok' : α → σ → Prop}
    {err' : σ → Prop} (h : Spec m pre ok err) (hpre : ∀ s, pre' s → pre s)
    (hok : ∀ a s, ok a s → ok' a s) (herr : ∀ s, err s → err' s) : Spec m pre' ok' err' := by
  rw [spec_iff] at h ⊢
  exact h.weaken hpre hok (fun _ => herr)

end Spec

end OtaUpdater.Lib.State
