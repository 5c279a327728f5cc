import Mathlib.Data.List.Infix
import Mathlib.Data.List.ReduceOption

/-!
# A queue behind a register

Items leave through a register that is loaded one send ahead. With nothing to load, it
gets a filler, `none`.
-/

namespace OtaUpdater.Lib.Lag

variable {α : Type}

structure Outbox (α : Type) where
  waiting : List α
  staked : Option α
  unsent : Bool
  sent : List (Option α)
deriving DecidableEq

inductive Move (α : Type) where
  | put (a : α)
  | clear
  | send
  | stake
deriving DecidableEq

def Outbox.empty : Outbox α := { waiting := [], staked := none, unsent := true, sent := [] }

/-- The register is loaded again only after a send. -/
def Outbox.step (q : Outbox α) : Move α → Outbox α
  | .put a => { q with waiting := q.waiting ++ [a] }
  | .clear => { q with waiting := [] }
  | .send => { q with sent := q.sent ++ [q.staked], unsent := false }
  | .stake =>
    if q.unsent then q
    else { q with waiting := q.waiting.tail, staked := q.waiting.head?, unsent := true }

def Outbox.run (q : Outbox α) (moves : List (Move α)) : Outbox α := moves.foldl Outbox.step q

/-- What is to go out next, if nothing comes in between. -/
def Outbox.line (q : Outbox α) : List (Option α) :=
  (if q.unsent then [q.staked] else []) ++ q.waiting.map some

/-- The register is loaded before every send. -/
def Paced : Bool → List (Move α) → Prop
  | _, [] => True
  | unsent, .put _ :: rest => Paced unsent rest
  | unsent, .clear :: rest => Paced unsent rest
  | unsent, .send :: rest => unsent = true ∧ Paced false rest
  | _, .stake :: rest => Paced true rest

def puts (moves : List (Move α)) : List α :=
  moves.filterMap fun
    | .put a => some a
    | _ => none

section Rules

variable (q : Outbox α)

theorem run_cons (m : Move α) (rest : List (Move α)) : q.run (m :: rest) = (q.step m).run rest := rfl

theorem line_put (a : α) : (q.step (.put a)).line = q.line ++ [some a] := by
  unfold Outbox.step Outbox.line
  rw [List.map_append, List.append_assoc]
  rfl

theorem line_send (h : q.unsent = true) : q.line = q.staked :: (q.step .send).line := by
  unfold Outbox.step Outbox.line
  simp [h]

theorem stake_unsent : (q.step .stake).unsent = true := by
  unfold Outbox.step
  split_ifs with h
  · exact h
  · rfl

theorem line_stake : (q.step .stake).line = q.line ∨ q.line = [] ∧ (q.step .stake).line = [none] := by
  unfold Outbox.step Outbox.line
  cases hunsent : q.unsent with
  | true => simp [hunsent]
  | false =>
    cases hwaiting : q.waiting with
    | nil => simp
    | cons a rest => simp

end Rules

/-- Without a clear, the line goes out as it stands, and what is put goes out behind it: in order,
each item once, and with no filler before the line is through. -/
theorem run_delivers (moves : List (Move α)) (q : Outbox α) (hpaced : Paced q.unsent moves)
    (hclear : .clear ∉ moves) :
    ∃ out, (q.run moves).sent = q.sent ++ out ∧
      out.reduceOption ++ (q.run moves).line.reduceOption = q.line.reduceOption ++ puts moves ∧
      (out <+: q.line ∨ q.line <+: out) := by
  induction moves generalizing q with
  | nil => exact ⟨[], by simp [Outbox.run], by simp [Outbox.run, puts], Or.inl (List.nil_prefix)⟩
  | cons m rest ih =>
    have hrest : .clear ∉ rest := fun h => hclear (List.mem_cons_of_mem m h)
    rw [run_cons]
    cases m with
    | clear => exact absurd List.mem_cons_self hclear
    | put a =>
      obtain ⟨out, hsent, hall, hprefix⟩ := ih (q.step (.put a)) hpaced hrest
      rw [line_put] at hall hprefix
      refine ⟨out, hsent, ?_, ?_⟩
      · rw [hall, List.reduceOption_append, List.append_assoc]
        rfl
      · rcases hprefix with h | h
        · exact List.prefix_or_prefix_of_prefix h (List.prefix_append _ _)
        · exact Or.inr ((List.prefix_append _ _).trans h)
    | send =>
      obtain ⟨hunsent, hpaced⟩ := hpaced
      obtain ⟨out, hsent, hall, hprefix⟩ := ih (q.step .send) hpaced hrest
      rw [line_send q hunsent]
      refine ⟨q.staked :: out, ?_, ?_, ?_⟩
      · rw [hsent]
        exact List.append_assoc _ _ _
      · rw [← List.singleton_append, ← List.singleton_append (l := (q.step .send).line),
          List.reduceOption_append, List.reduceOption_append, List.append_assoc, hall, List.append_assoc]
        rfl
      · rcases hprefix with h | h
        · exact Or.inl (List.cons_prefix_cons.mpr ⟨rfl, h⟩)
        · exact Or.inr (List.cons_prefix_cons.mpr ⟨rfl, h⟩)
    | stake =>
      have hnext : Paced (q.step .stake).unsent rest := by
        rw [stake_unsent]
        exact hpaced
      obtain ⟨out, hsent, hall, hprefix⟩ := ih (q.step .stake) hnext hrest
      have hsame : (q.step .stake).sent = q.sent := by
        unfold Outbox.step
        split_ifs <;> rfl
      refine ⟨out, by rw [hsent, hsame], ?_⟩
      rcases line_stake q with h | ⟨hempty, hfiller⟩
      · rw [h] at hall hprefix
        exact ⟨hall, hprefix⟩
      · rw [hfiller] at hall
        rw [hempty]
        exact ⟨hall, Or.inr List.nil_prefix⟩

end OtaUpdater.Lib.Lag
