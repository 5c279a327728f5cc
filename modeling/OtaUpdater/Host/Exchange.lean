import OtaUpdater.Host.SessionRules

/-!
# The retry discipline of an exchange

`exchange` over a transport that answers request after request with whatever
outcome comes next.
-/

open OtaUpdater.Lib.Retry

namespace OtaUpdater.Host

/-! ## Outcomes -/

structure Scripted (ε : Type) where
  result : Except ε Nat
  place : List UInt8 → List UInt8
  length_place : ∀ rsp, (place rsp).length = rsp.length

section Script

variable {ε : Type} (outcomes : Nat → Scripted ε)

/-- The requests made so far decide which outcome comes next. -/
def script : Transport (List (List UInt8)) ε where
  request sent req rsp :=
    let o := outcomes sent.length
    ((o.result, o.place rsp), sent ++ [req])
  length_rsp _ _ _ := (outcomes _).length_place _

/-- The receive window after so many requests; what an earlier one left there stays. -/
def windowAt (rx : List UInt8) : Nat → List UInt8
  | 0 => rx
  | i + 1 => (outcomes i).place (windowAt rx i)

/-- What the host looks at after request `i`. -/
def seenAt (rx : List UInt8) (i : Nat) : Except ε (List UInt8) :=
  received ((outcomes i).result, windowAt outcomes rx (i + 1))

end Script

/-- The status that ends an exchange: a padded frame with the expected command carries it. -/
def finalStatus {ε : Type} (expect_cmd : UInt8) : Except ε (List UInt8) → Option UInt8
  | .error _ => none
  | .ok raw =>
    match decode_padded raw with
    | .ok ⟨cmd, st :: _⟩ => if cmd = expect_cmd ∧ st ≠ ST_BAD_FRAME then some st else none
    | _ => none

/-- The error that an outcome which is not final stands for. -/
def outcomeError {ε : Type} (expect_cmd : UInt8) : Except ε (List UInt8) → Error ε
  | .error e => .Transport e
  | .ok raw =>
    match decode_padded raw with
    | .ok ⟨cmd, st :: _⟩ =>
      if cmd = expect_cmd ∧ st = ST_BAD_FRAME then .Device ST_BAD_FRAME else .BadFrame
    | _ => .BadFrame

/-! ## One attempt -/

theorem exchange_attempt_outcome {τ ε : Type} (T : Transport τ ε) (tx : List UInt8)
    (expect_cmd : UInt8) (t : τ) (rx : List UInt8) :
    let r := T.request t tx rx
    let attempt := exchange_attempt T tx expect_cmd (t, rx)
    attempt.2 = (r.2, r.1.2) ∧
      match finalStatus expect_cmd (received r.1) with
      | none => attempt.1 = .again (outcomeError expect_cmd (received r.1))
      | some st => if st = ST_OK then ∃ n, attempt.1 = .done n else attempt.1 = .stop (.Device st) := by
  have hne : ST_BAD_FRAME ≠ ST_OK := by decide
  unfold exchange_attempt
  dsimp only
  generalize T.request t tx rx = r
  obtain ⟨⟨_ | n, rx'⟩, t'⟩ := r
  · exact ⟨rfl, rfl⟩
  · have hseen : received ((.ok n, rx') : Except ε Nat × List UInt8) =
        .ok (rx'.take (min n rx'.length)) := rfl
    dsimp only
    rw [hseen]
    unfold validate finalStatus outcomeError
    dsimp only
    rcases decode_padded (rx'.take (min n rx'.length)) with e | ⟨cmd, _ | ⟨st, rest⟩⟩
    · exact ⟨rfl, rfl⟩
    · dsimp only
      split_ifs <;> exact ⟨rfl, rfl⟩
    · by_cases hcmd : cmd = expect_cmd
      · by_cases hbad : st = ST_BAD_FRAME
        · simp [hcmd, hbad, hne]
        · by_cases hok : st = ST_OK
          · simp [hcmd, hok, hne.symm]
          · simp [hcmd, hbad, hok]
      · simp [hcmd]

theorem exchange_refused {τ ε : Type} (T : Transport τ ε) (t : τ) (tx rx : List UInt8)
    (expect_cmd st : UInt8) (hst : st ≠ ST_OK)
    (hfinal : finalStatus expect_cmd (received (T.request t tx rx).1) = some st) :
    exchange T t tx rx expect_cmd =
      (.error (.Device st), ((T.request t tx rx).2, (T.request t tx rx).1.2)) := by
  obtain ⟨hstate, hattempt⟩ := exchange_attempt_outcome T tx expect_cmd t rx
  rw [hfinal] at hattempt
  dsimp only at hattempt
  rw [if_neg hst] at hattempt
  have hmore : 1 + RETRY_BUDGET = 3 + 1 := rfl
  unfold exchange
  rw [hmore, retry]
  rcases hfirst : exchange_attempt T tx expect_cmd (t, rx) with ⟨out, s⟩
  rw [hfirst] at hattempt hstate
  dsimp only at hattempt hstate ⊢
  rw [hattempt, hstate]

/-! ## The whole exchange -/

section Discipline

variable {ε : Type} (outcomes : Nat → Scripted ε) (tx rx : List UInt8) (expect_cmd : UInt8)

/-- Before attempt `j`: so many requests went out, and the window is what they left of it. -/
theorem stateAt_script (j : Nat) :
    stateAt (exchange_attempt (script outcomes) tx expect_cmd) ([], rx) j =
      (List.replicate j tx, windowAt outcomes rx j) := by
  induction j with
  | zero => rfl
  | succ j ih =>
    obtain ⟨hstate, -⟩ := exchange_attempt_outcome (script outcomes) tx expect_cmd
      (List.replicate j tx) (windowAt outcomes rx j)
    rw [stateAt, ih, hstate]
    simp [script, windowAt, List.replicate_succ']

theorem received_script (j : Nat) :
    received ((script outcomes).request (List.replicate j tx) tx (windowAt outcomes rx j)).1 =
      seenAt outcomes rx j := by
  simp [script, seenAt, windowAt]

theorem exchange_script (j : Nat) (hj : j ≤ 4)
    (hnone : ∀ i, i < j → finalStatus expect_cmd (seenAt outcomes rx i) = none) :
    ∃ last, (0 < j → last = outcomeError expect_cmd (seenAt outcomes rx (j - 1))) ∧
      exchange (script outcomes) [] tx rx expect_cmd =
        retry (exchange_attempt (script outcomes) tx expect_cmd) (4 - j) last
          (List.replicate j tx, windowAt outcomes rx j) := by
  obtain ⟨last, hlast, hrun⟩ := retry_again (exchange_attempt (script outcomes) tx expect_cmd) ([], rx)
    (fun i => outcomeError expect_cmd (seenAt outcomes rx i)) 4 j hj (by
      intro i hi
      obtain ⟨-, hattempt⟩ := exchange_attempt_outcome (script outcomes) tx expect_cmd
        (List.replicate i tx) (windowAt outcomes rx i)
      rw [received_script, hnone i hi] at hattempt
      rw [stateAt_script]
      exact hattempt) .BadFrame
  rw [stateAt_script] at hrun
  exact ⟨last, hlast, hrun⟩

theorem exchange_script_final (j : Nat) (hj : j < 4) (st : UInt8)
    (hnone : ∀ i, i < j → finalStatus expect_cmd (seenAt outcomes rx i) = none)
    (hfinal : finalStatus expect_cmd (seenAt outcomes rx j) = some st) :
    let r := exchange (script outcomes) [] tx rx expect_cmd
    r.2.1 = List.replicate (j + 1) tx ∧
      if st = ST_OK then ∃ n, r.1 = .ok n else r.1 = .error (.Device st) := by
  intro r
  obtain ⟨last, -, hrun⟩ := exchange_script outcomes tx rx expect_cmd j (by omega) hnone
  obtain ⟨hstate, hattempt⟩ := exchange_attempt_outcome (script outcomes) tx expect_cmd
    (List.replicate j tx) (windowAt outcomes rx j)
  have hsent := stateAt_script outcomes tx rx expect_cmd (j + 1)
  rw [stateAt, stateAt_script] at hsent
  rw [received_script, hfinal] at hattempt
  have hmore : 4 - j = 3 - j + 1 := by omega
  have hr : r = _ := hrun
  rw [hr, hmore, retry]
  generalize exchange_attempt (script outcomes) tx expect_cmd
    (List.replicate j tx, windowAt outcomes rx j) = attempt at hattempt hsent
  obtain ⟨out, sent, window⟩ := attempt
  rw [Prod.mk.injEq] at hsent
  dsimp only at hattempt
  split_ifs at hattempt with hok
  · obtain ⟨n, rfl⟩ := hattempt
    rw [if_pos hok]
    exact ⟨hsent.1, n, rfl⟩
  · subst hattempt
    rw [if_neg hok]
    exact ⟨hsent.1, rfl⟩

theorem exchange_script_exhausted
    (hnone : ∀ i, i < 4 → finalStatus expect_cmd (seenAt outcomes rx i) = none) :
    let r := exchange (script outcomes) [] tx rx expect_cmd
    r.2.1 = List.replicate 4 tx ∧ r.1 = .error (outcomeError expect_cmd (seenAt outcomes rx 3)) := by
  intro r
  obtain ⟨last, hlast, hrun⟩ := exchange_script outcomes tx rx expect_cmd 4 (Nat.le_refl 4) hnone
  have hr : r = _ := hrun
  rw [hr, hlast (by omega)]
  exact ⟨rfl, rfl⟩

theorem first_final (final : Nat → Option UInt8) (n : Nat) :
    (∃ j st, j < n ∧ final j = some st ∧ ∀ i, i < j → final i = none) ∨ ∀ i, i < n → final i = none := by
  induction n with
  | zero => exact Or.inr (fun i hi => absurd hi (Nat.not_lt_zero i))
  | succ n ih =>
    rcases ih with ⟨j, st, hj, hst, hbefore⟩ | hnone
    · exact Or.inl ⟨j, st, by omega, hst, hbefore⟩
    · rcases hlast : final n with _ | st
      · right
        intro i hi
        rcases Nat.lt_succ_iff_lt_or_eq.mp hi with hlt | rfl
        · exact hnone i hlt
        · exact hlast
      · exact Or.inl ⟨n, st, Nat.lt_succ_self n, hlast, hnone⟩

theorem exchange_script_sent :
    ∃ k, 1 ≤ k ∧ k ≤ 4 ∧
      (exchange (script outcomes) [] tx rx expect_cmd).2.1 = List.replicate k tx := by
  rcases first_final (fun i => finalStatus expect_cmd (seenAt outcomes rx i)) 4 with
    ⟨j, st, hj, hst, hbefore⟩ | hnone
  · exact ⟨j + 1, by omega, by omega,
      (exchange_script_final outcomes tx rx expect_cmd j hj st hbefore hst).1⟩
  · exact ⟨4, by omega, Nat.le_refl 4, (exchange_script_exhausted outcomes tx rx expect_cmd hnone).1⟩

end Discipline

/-- Up to four identical requests, and the first final outcome among them decides. -/
theorem exchange_discipline {ε : Type} (outcomes : Nat → Scripted ε) (tx rx : List UInt8)
    (expect_cmd : UInt8) :
    let final := fun i => finalStatus expect_cmd (seenAt outcomes rx i)
    let first := fun j => final j ≠ none ∧ ∀ i, i < j → final i = none
    let r := exchange (script outcomes) [] tx rx expect_cmd
    (∀ j, first j → r.2.1 = List.replicate (min 4 (1 + j)) tx) ∧
    ((∀ i, final i = none) → r.2.1 = List.replicate 4 tx) ∧
    ((∃ n, r.1 = .ok n) ↔ ∃ j, j < 4 ∧ first j ∧ final j = some ST_OK) ∧
    (∀ j st, j < 4 → first j → final j = some st → st ≠ ST_OK → r.1 = .error (.Device st)) ∧
    ((∀ i, i < 4 → final i = none) → r.1 = .error (outcomeError expect_cmd (seenAt outcomes rx 3))) := by
  intro final first r
  have hdecided : ∀ j st, j < 4 → first j → final j = some st → r.2.1 = List.replicate (j + 1) tx ∧
      if st = ST_OK then ∃ n, r.1 = .ok n else r.1 = .error (.Device st) :=
    fun j st hj hfirst hst => exchange_script_final outcomes tx rx expect_cmd j hj st hfirst.2 hst
  have hexhausted := exchange_script_exhausted outcomes tx rx expect_cmd
  refine ⟨?_, ?_, ?_, ?_, ?_⟩
  · intro j hfirst
    rcases Nat.lt_or_ge j 4 with hj | hj
    · obtain ⟨st, hst⟩ := Option.ne_none_iff_exists'.mp hfirst.1
      have hcount : min 4 (1 + j) = j + 1 := by omega
      rw [hcount]
      exact (hdecided j st hj hfirst hst).1
    · have hcount : min 4 (1 + j) = 4 := by omega
      rw [hcount]
      exact (hexhausted (fun i hi => hfirst.2 i (by omega))).1
  · intro hnone
    exact (hexhausted (fun i _ => hnone i)).1
  · constructor
    · rintro ⟨n, hok⟩
      rcases first_final final 4 with ⟨j, st, hj, hst, hbefore⟩ | hnone
      · have hfirst : first j := ⟨by rw [hst]; exact Option.some_ne_none st, hbefore⟩
        have hstatus := (hdecided j st hj hfirst hst).2
        split_ifs at hstatus with hst_ok
        · exact ⟨j, hj, hfirst, by rw [hst, hst_ok]⟩
        · rw [hok] at hstatus
          cases hstatus
      · have herror : r.1 = .error _ := (hexhausted hnone).2
        rw [hok] at herror
        cases herror
    · rintro ⟨j, hj, hfirst, hst⟩
      have hstatus := (hdecided j ST_OK hj hfirst hst).2
      rw [if_pos rfl] at hstatus
      exact hstatus
  · intro j st hj hfirst hst hne
    have hstatus := (hdecided j st hj hfirst hst).2
    rw [if_neg hne] at hstatus
    exact hstatus
  · intro hnone
    exact (hexhausted hnone).2

end OtaUpdater.Host
