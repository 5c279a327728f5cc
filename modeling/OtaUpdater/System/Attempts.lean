import OtaUpdater.System.Bench

/-!
# Exchanges over the faulty link

What befalls the device between two requests, and what an accepted response says
about it, for any property of the device that the happenings keep.
-/

open OtaUpdater.Lib.State OtaUpdater.Wire OtaUpdater.Device OtaUpdater.Host

namespace OtaUpdater.System

def Grants (cmd : UInt8) (payload rest : List UInt8) (d : Dev) : Prop :=
  (transaction (wire cmd payload) d).1 = wire (cmd ||| UPD_RSP_FLAG) (UPD_ST_OK :: rest)

def Granted (cmd : UInt8) (payload rest : List UInt8) (D : Dev → Prop) (d' : Dev) : Prop :=
  ∃ d, D d ∧ Grants cmd payload rest d ∧ d' = (transaction (wire cmd payload) d).2

theorem grants_iff {cmd : UInt8} {payload : List UInt8} {req : UpdFrame} (d : Dev)
    (rest : List UInt8) (hreq : parseFrame (wire cmd payload) = some req) (hcmd : req.cmd = cmd) :
    Grants cmd payload rest d ↔
      (upd_handle (arrayPort d.s.info store) d.s req rspCap d.f).1.2 = UPD_ST_OK :: rest := by
  obtain ⟨hanswer, -, -⟩ := transaction_eq d hreq
  unfold Grants
  rw [hanswer, hcmd]
  constructor
  · intro h
    exact (wire_injective _ _ _ _ h).2
  · intro h
    rw [h]

theorem foldl_happen_keeps {D : Dev → Prop} (frame : List UInt8) (before : List Happening) (d : Dev)
    (hkeep : ∀ h ∈ before, ∀ d, D d → D (happen frame d h)) (hd : D d) :
    D (before.foldl (happen frame) d) := by
  induction before generalizing d with
  | nil => exact hd
  | cons h before ih =>
    apply ih
    · intro h' hmem
      exact hkeep h' (List.mem_cons_of_mem _ hmem)
    · exact hkeep h List.mem_cons_self d hd

section Attempts

variable {ε : Type} {schedule : Nat → Attempt ε} (cmd : UInt8) (payload : List UInt8) (room : Nat)

theorem noise_not_accepted (n : Noise ε) (rest : List UInt8) :
    ¬ Accepted ((n.seen (wire cmd payload) room).map (fun bytes => bytes.take room))
      (cmd ||| RSP_FLAG) rest := by
  rintro ⟨raw, hraw, hdecode⟩
  rcases hseen : n.seen (wire cmd payload) room with e | bytes
  · rw [hseen] at hraw
    cases hraw
  · rw [hseen] at hraw
    have htake : bytes.take room = raw := Except.ok.inj hraw
    apply n.rejected _ _ _ hseen
    rw [htake]
    exact (validate_ok_iff _ _).mpr ⟨rest, hdecode⟩

theorem grants_of_accepted (hmax : payload.length ≤ payloadMax) (d : Dev) (pad : Nat)
    (rest : List UInt8) (h : Accepted (ε := ε)
      (.ok (((transaction (wire cmd payload) d).1 ++ List.replicate pad 0xFF).take room))
      (cmd ||| RSP_FLAG) rest) : Grants cmd payload rest d := by
  obtain ⟨req, hreq, hcmd, -⟩ := parseFrame_wire cmd payload hmax
  obtain ⟨hanswer, -, -⟩ := transaction_eq d hreq
  rw [grants_iff d rest hreq hcmd]
  rw [hanswer] at h
  apply accepted_answer _ _ _ _ _ _ _ h
  exact (upd_handle_answer_length _ _ _ _ _).1

theorem accepted_of_grants (hmax : payload.length ≤ payloadMax) (d : Dev) (pad : Nat)
    (rest : List UInt8) (hgrant : Grants cmd payload rest d) (hfits : rest.length + 4 ≤ room) :
    Accepted (ε := ε)
      (.ok (((transaction (wire cmd payload) d).1 ++ List.replicate pad 0xFF).take room))
      (cmd ||| RSP_FLAG) rest := by
  have hsmall : (UPD_ST_OK :: rest).length ≤ payloadMax := by
    obtain ⟨req, hreq, hcmd, -⟩ := parseFrame_wire cmd payload hmax
    rw [← (grants_iff _ rest hreq hcmd).mp hgrant]
    exact (upd_handle_answer_length _ _ _ _ _).1
  have hframe : (wire (cmd ||| UPD_RSP_FLAG) (UPD_ST_OK :: rest)).length = rest.length + 4 := by
    rw [length_wire, List.length_cons]
  have hwhole : ((transaction (wire cmd payload) d).1 ++ List.replicate pad 0xFF).take room =
      wire (cmd ||| UPD_RSP_FLAG) (UPD_ST_OK :: rest) ++
        List.replicate (min (room - (rest.length + 4)) pad) 0xFF := by
    rw [hgrant, List.take_append, List.take_of_length_le (by rw [hframe]; exact hfits), hframe,
      List.take_replicate]
  rw [hwhole]
  exact ⟨_, rfl, decode_padded_wire _ _ _ hsmall⟩

variable (schedule) in
theorem faultyLink_serves {D : Dev → Prop} (hmax : payload.length ≤ payloadMax)
    (hhandled : ∀ d, D d → D (happen (wire cmd payload) d .handled))
    (hkeep : ∀ i, ∀ h ∈ (schedule i).before, ∀ d, D d → D (happen (wire cmd payload) d h)) :
    Serves (faultyLink schedule) (wire cmd payload) room (cmd ||| RSP_FLAG) (fun _ w => D w.dev)
      (fun rest w => Granted cmd payload rest D w.dev) (fun w => D w.dev) := by
  intro k w rx hw hrx
  have hbefore := foldl_happen_keeps (wire cmd payload) _ w.dev (hkeep w.clock) hw
  dsimp only
  rcases faultyLink_cases schedule w (wire cmd payload) rx with
    ⟨n, -, hdev, hseen⟩ | ⟨pad, -, hdev, hseen⟩
  · rw [hdev, hseen, hrx]
    refine ⟨?_, fun _ => hbefore, fun _ _ => hbefore⟩
    intro rest haccept
    exact absurd haccept (noise_not_accepted cmd payload room n rest)
  · rw [hdev, hseen, hrx]
    refine ⟨?_, fun _ => hhandled _ hbefore, fun _ _ => hhandled _ hbefore⟩
    intro rest haccept
    exact ⟨_, hbefore, grants_of_accepted cmd payload room hmax _ pad rest haccept, rfl⟩

/-! ## Links that go through in time -/

/-- No reboots, nothing but retryable failures, and never more of those in a row than the budget. -/
structure Calm (schedule : Nat → Attempt ε) : Prop where
  powered : ∀ i, ∀ h ∈ (schedule i).before, h = .handled
  retryable : ∀ i n, (schedule i).outcome = .noise n → ∀ req room,
    Retryable ((n.seen req room).map (fun bytes => bytes.take room)) (req.getD 0 0 ||| RSP_FLAG)
  budget : ∀ i, ∃ j ≤ RETRY_BUDGET, ∃ pad, (schedule (i + j)).outcome = .answers pad

/-- `k` attempts are left, and one of them will get an answer; `done` went before this exchange. -/
structure World.Trying (schedule : Nat → Attempt ε) (D : Dev → Prop) (done : List (List UInt8))
    (frame : List UInt8) (k : Nat) (w : World) : Prop where
  dev : D w.dev
  left : k ≤ 1 + RETRY_BUDGET
  sent : w.sent = done ++ List.replicate (1 + RETRY_BUDGET - k) frame
  answered : ∃ j < k, ∃ pad, (schedule (w.clock + j)).outcome = .answers pad

theorem Calm.trying (hcalm : Calm schedule) {D : Dev → Prop} (w : World) (frame : List UInt8)
    (hw : D w.dev) : w.Trying schedule D w.sent frame (1 + RETRY_BUDGET) := by
  obtain ⟨j, hj, hanswers⟩ := hcalm.budget w.clock
  refine ⟨hw, Nat.le_refl _, ?_, j, by omega, hanswers⟩
  rw [Nat.sub_self, List.replicate_zero, List.append_nil]

theorem Calm.serves (hcalm : Calm schedule) {D : Dev → Prop} (hmax : payload.length ≤ payloadMax)
    (done : List (List UInt8))
    (hkeep : ∀ d, D d → D (transaction (wire cmd payload) d).2)
    (hgrants : ∀ d, D d → ∃ rest, Grants cmd payload rest d ∧ rest.length + 4 ≤ room) :
    Serves (faultyLink schedule) (wire cmd payload) room (cmd ||| RSP_FLAG)
      (World.Trying schedule D done (wire cmd payload))
      (fun rest w => Granted cmd payload rest D w.dev ∧
        ∃ t, 1 ≤ t ∧ t ≤ 1 + RETRY_BUDGET ∧ w.sent = done ++ List.replicate t (wire cmd payload))
      (fun _ => False) := by
  intro k w rx hw hrx
  obtain ⟨hdev, hleft, hsent, hanswered⟩ := hw
  have hbefore := foldl_happen_keeps (D := D) (wire cmd payload) (schedule w.clock).before w.dev
    (fun h hmem d hd => hcalm.powered _ h hmem ▸ hkeep d hd) hdev
  have hworld := faultyLink_world schedule w (wire cmd payload) rx
  have hclock : ((faultyLink schedule).request w (wire cmd payload) rx).2.clock = w.clock + 1 := by
    rw [hworld]
  have hnow : ((faultyLink schedule).request w (wire cmd payload) rx).2.sent =
      done ++ List.replicate (1 + RETRY_BUDGET - k) (wire cmd payload) := by
    have hcount : 1 + RETRY_BUDGET - k = 1 + RETRY_BUDGET - (k + 1) + 1 := by omega
    rw [hworld, hcount, List.replicate_succ', ← List.append_assoc, ← hsent]
  dsimp only
  rcases faultyLink_cases schedule w (wire cmd payload) rx with
    ⟨n, houtcome, hafter, hseen⟩ | ⟨pad, -, hafter, hseen⟩
  · have hretry := hcalm.retryable _ n houtcome (wire cmd payload) room
    rw [hseen, hrx]
    refine ⟨?_, fun _ => ?_, fun _ hfinal => absurd hretry hfinal⟩
    · intro rest haccept
      exact absurd haccept (noise_not_accepted cmd payload room n rest)
    · refine ⟨hafter ▸ hbefore, by omega, hnow, ?_⟩
      obtain ⟨j, hj, pad, hanswers⟩ := hanswered
      -- This attempt is not the one that gets an answer.
      cases j with
      | zero =>
        rw [Nat.add_zero, houtcome] at hanswers
        cases hanswers
      | succ j =>
        refine ⟨j, by omega, pad, ?_⟩
        rw [hclock, Nat.add_assoc, Nat.add_comm 1]
        exact hanswers
  · obtain ⟨rest, hgrant, hfits⟩ := hgrants _ hbefore
    have haccepted := accepted_of_grants (ε := ε) cmd payload room hmax _ pad rest hgrant hfits
    rw [hseen, hrx]
    refine ⟨?_, fun hretry => absurd hretry haccepted.not_retryable, ?_⟩
    · intro rest' haccept
      refine ⟨⟨_, hbefore, grants_of_accepted cmd payload room hmax _ pad rest' haccept, hafter⟩, ?_⟩
      exact ⟨1 + RETRY_BUDGET - k, by omega, by omega, hnow⟩
    · intro hnone _
      exact hnone rest haccepted

end Attempts

end OtaUpdater.System
