import OtaUpdater.System.Recovery

/-!
# Updates of any device over a faulty link

What a device has to keep for an update to mean something: between two requests whatever
can befall it, and at a request it grants the step to the next one.
-/

open OtaUpdater.Lib.State OtaUpdater.Wire OtaUpdater.Device OtaUpdater.Host

namespace OtaUpdater.System

/-- A device as a link sees it: its answer to a frame, and what else can befall it on account of
one. -/
structure Plant (δ η : Type) where
  serve : List UInt8 → δ → List UInt8 × δ
  befall : List UInt8 → δ → η → δ

namespace Plant

variable {δ η ε : Type}

structure Attempt (η ε : Type) where
  before : List η
  outcome : Outcome ε

structure World (δ : Type) where
  dev : δ
  clock : Nat

/-! ## The link -/

section Link

variable (P : Plant δ η) (schedule : Nat → Attempt η ε)

def World.after (w : World δ) (req : List UInt8) : δ :=
  (schedule w.clock).before.foldl (P.befall req) w.dev

def World.attempt (w : World δ) (req : List UInt8) (room : Nat) : Except ε (List UInt8) × δ :=
  match (schedule w.clock).outcome with
  | .noise n => (n.seen req room, w.after P schedule req)
  | .answers pad =>
    let r := P.serve req (w.after P schedule req)
    (.ok (r.1 ++ List.replicate pad 0xFF), r.2)

def link : Transport (World δ) ε where
  request w req rsp :=
    let r := w.attempt P schedule req rsp.length
    match r.1 with
    | .error e => ((.error e, rsp), { dev := r.2, clock := w.clock + 1 })
    | .ok bytes =>
      ((.ok (min bytes.length rsp.length), fill rsp bytes), { dev := r.2, clock := w.clock + 1 })
  length_rsp := by
    intro w req rsp
    dsimp only
    split
    · rfl
    · exact length_fill _ _

theorem received_fill (rsp bytes : List UInt8) :
    received ((.ok (min bytes.length rsp.length), fill rsp bytes) : Except ε Nat × List UInt8) =
      .ok (bytes.take rsp.length) := by
  have hcount : min (min bytes.length rsp.length) (fill rsp bytes).length =
      min rsp.length bytes.length := by
    rw [length_fill]
    omega
  simp only [received, Except.map, Except.ok.injEq, hcount]
  unfold fill
  rw [List.take_take, Nat.min_eq_left (by omega), List.take_append_of_le_length (by omega),
    ← List.take_eq_take_min]

theorem link_cases (w : World δ) (req rsp : List UInt8) :
    let r := (P.link schedule).request w req rsp
    let dev := w.after P schedule req
    r.2.clock = w.clock + 1 ∧
    ((∃ n, (schedule w.clock).outcome = .noise n ∧ r.2.dev = dev ∧
      received r.1 = (n.seen req rsp.length).map (fun bytes => bytes.take rsp.length)) ∨
    (∃ pad, (schedule w.clock).outcome = .answers pad ∧ r.2.dev = (P.serve req dev).2 ∧
      received r.1 = .ok (((P.serve req dev).1 ++ List.replicate pad 0xFF).take rsp.length))) := by
  have hlink : (P.link schedule).request w req rsp =
      match (w.attempt P schedule req rsp.length).1 with
      | .error e => ((.error e, rsp), { dev := (w.attempt P schedule req rsp.length).2, clock := w.clock + 1 })
      | .ok bytes => ((.ok (min bytes.length rsp.length), fill rsp bytes),
        { dev := (w.attempt P schedule req rsp.length).2, clock := w.clock + 1 }) := rfl
  dsimp only
  rw [hlink]
  rcases houtcome : (schedule w.clock).outcome with n | pad
  · have hattempt : w.attempt P schedule req rsp.length =
        (n.seen req rsp.length, w.after P schedule req) := by
      unfold World.attempt
      rw [houtcome]
    rw [hattempt]
    rcases hseen : n.seen req rsp.length with e | bytes
    · exact ⟨rfl, Or.inl ⟨n, rfl, rfl, by rw [hseen]; rfl⟩⟩
    · refine ⟨rfl, Or.inl ⟨n, rfl, rfl, ?_⟩⟩
      rw [hseen]
      exact received_fill rsp bytes
  · have hattempt : w.attempt P schedule req rsp.length =
        (.ok ((P.serve req (w.after P schedule req)).1 ++ List.replicate pad 0xFF),
          (P.serve req (w.after P schedule req)).2) := by
      unfold World.attempt
      rw [houtcome]
    rw [hattempt]
    exact ⟨rfl, Or.inr ⟨pad, rfl, rfl, received_fill rsp _⟩⟩

end Link

/-! ## What an update asks of a device -/

section Course

variable (P : Plant δ η) (allowed : η → Prop) (img : Image) (D : Nat → δ → Prop)

/-- `D n` is what is known of the device before request `n` of the update. -/
structure Course : Prop where
  answers : ∀ n d, D n d → ∃ answer, answer.length ≤ payloadMax ∧
    (P.serve (requestFrame img n) d).1 = wire ((request img n).1 ||| RSP_FLAG) answer
  befalls : ∀ n d h, allowed h → D n d → D n (P.befall (requestFrame img n) d h)
  served : ∀ n d, D n d → D n (P.serve (requestFrame img n) d).2
  granted : ∀ n d rest, D n d →
    (P.serve (requestFrame img n) d).1 = wire ((request img n).1 ||| RSP_FLAG) (ST_OK :: rest) →
    InfoMatches (ε := ε) img rest ∨ n ≠ 0 → D (n + 1) (P.serve (requestFrame img n) d).2

variable {P allowed img D} (hcourse : Course (ε := ε) P allowed img D)
  {schedule : Nat → Attempt η ε} (hallowed : ∀ i, ∀ h ∈ (schedule i).before, allowed h)

include hcourse hallowed in
theorem Course.after (n : Nat) (w : World δ) (h : D n w.dev) :
    D n (w.after P schedule (requestFrame img n)) := by
  unfold World.after
  have hbefore := hallowed w.clock
  generalize (schedule w.clock).before = before at hbefore
  generalize w.dev = d at h
  induction before generalizing d with
  | nil => exact h
  | cons b before ih =>
    apply ih
    · intro h' hmem
      exact hbefore h' (List.mem_cons_of_mem _ hmem)
    · exact hcourse.befalls n d b (hbefore b List.mem_cons_self) h

include hcourse in
theorem Course.grants (n : Nat) (d : δ) (h : D n d) (pad room : Nat) (rest : List UInt8)
    (haccepted : Accepted (ε := ε)
      (.ok (((P.serve (requestFrame img n) d).1 ++ List.replicate pad 0xFF).take room))
      ((request img n).1 ||| RSP_FLAG) rest) :
    (P.serve (requestFrame img n) d).1 = wire ((request img n).1 ||| RSP_FLAG) (ST_OK :: rest) := by
  obtain ⟨answer, hmax, hanswer⟩ := hcourse.answers n d h
  rw [hanswer] at haccepted ⊢
  rw [accepted_answer _ _ answer rest pad room hmax haccepted]

include hcourse hallowed in
theorem Course.serves (n : Nat) :
    Serves (P.link schedule) (requestFrame img n) (responseRoom n) ((request img n).1 ||| RSP_FLAG)
      (fun _ w => D n w.dev)
      (fun rest w => InfoMatches (ε := ε) img rest ∨ n ≠ 0 → D (n + 1) w.dev) (fun _ => True) := by
  intro k w rx hw hrx
  have hafter := hcourse.after hallowed n w hw
  dsimp only
  rcases (link_cases P schedule w (requestFrame img n) rx).2 with
    ⟨noise, -, hdev, hseen⟩ | ⟨pad, -, hdev, hseen⟩
  · rw [hdev, hseen, hrx]
    refine ⟨?_, fun _ => hafter, fun _ _ => trivial⟩
    intro rest haccepted
    exact absurd haccepted (noise_not_accepted _ _ _ noise rest)
  · rw [hdev, hseen, hrx]
    refine ⟨?_, fun _ => hcourse.served n _ hafter, fun _ _ => trivial⟩
    intro rest haccepted
    exact hcourse.granted n _ rest hafter (hcourse.grants n _ hafter pad _ rest haccepted)

include hcourse hallowed in
/-- Whatever the link does, an update that gets through has been through all its requests. -/
theorem Course.update (room : Nat) (calls : List (UInt16 × UInt16)) :
    Spec (flash (P.link schedule) img) (Session.At room calls (fun w => D 0 w.dev))
      (fun _ => Session.At room (calls ++ progressCalls img.pages.length img.pages.length)
        (fun w => D (3 + img.pages.length) w.dev))
      (fun _ => True) := by
  apply flash_stages img (P.link schedule) room (fun n _ w => D n w.dev) (fun _ => True) calls
  · intros
    trivial
  · intros
    trivial
  · intro n _
    refine (hcourse.serves hallowed n).weaken _ ?_ (fun _ _ => trivial)
    intro rest w hnext
    exact ⟨hnext, fun _ => trivial⟩

/-! ## Links that go through in time -/

/-- What is allowed happens, failures are retryable, and never are more of them in a row than the
budget. -/
structure Calm (allowed : η → Prop) (schedule : Nat → Attempt η ε) : Prop where
  allowed : ∀ i, ∀ h ∈ (schedule i).before, allowed h
  retryable : ∀ i n, (schedule i).outcome = .noise n → ∀ req room,
    Retryable ((n.seen req room).map (fun bytes => bytes.take room)) (req.getD 0 0 ||| RSP_FLAG)
  budget : ∀ i, ∃ j ≤ RETRY_BUDGET, ∃ pad, (schedule (i + j)).outcome = .answers pad

variable (ε P img D) in
def Willing : Prop :=
  ∀ n d, D n d → ∃ rest,
    (P.serve (requestFrame img n) d).1 = wire ((request img n).1 ||| RSP_FLAG) (ST_OK :: rest) ∧
      rest.length + 4 ≤ responseRoom n ∧ (n = 0 → InfoMatches (ε := ε) img rest)

/-- `k` attempts are left, and one of them will get an answer. -/
def World.Trying (schedule : Nat → Attempt η ε) (D : δ → Prop) (k : Nat) (w : World δ) : Prop :=
  D w.dev ∧ ∃ j < k, ∃ pad, (schedule (w.clock + j)).outcome = .answers pad

theorem Calm.trying (hcalm : Calm allowed schedule) {D : δ → Prop} (w : World δ) (hw : D w.dev) :
    w.Trying schedule D (1 + RETRY_BUDGET) := by
  obtain ⟨j, hj, hanswers⟩ := hcalm.budget w.clock
  exact ⟨hw, j, by omega, hanswers⟩

theorem accepted_frame (cmd : UInt8) (rest : List UInt8) (pad room : Nat)
    (hmax : rest.length + 1 ≤ payloadMax) (hfits : rest.length + 4 ≤ room) :
    Accepted (ε := ε) (.ok ((wire cmd (ST_OK :: rest) ++ List.replicate pad 0xFF).take room)) cmd
      rest := by
  have hframe : (wire cmd (ST_OK :: rest)).length = rest.length + 4 := by
    rw [length_wire, List.length_cons]
  have hwhole : (wire cmd (ST_OK :: rest) ++ List.replicate pad 0xFF).take room =
      wire cmd (ST_OK :: rest) ++ List.replicate (min (room - (rest.length + 4)) pad) 0xFF := by
    rw [List.take_append, List.take_of_length_le (by rw [hframe]; exact hfits), hframe,
      List.take_replicate]
  rw [hwhole]
  exact ⟨_, rfl, decode_padded_wire _ _ _ hmax⟩

theorem accepted_unique {seen : Except ε (List UInt8)} {cmd : UInt8} {rest rest' : List UInt8}
    (h : Accepted seen cmd rest) (h' : Accepted seen cmd rest') : rest = rest' := by
  obtain ⟨raw, hseen, hraw⟩ := h
  obtain ⟨raw', hseen', hraw'⟩ := h'
  obtain rfl : raw = raw' := Except.ok.inj (hseen.symm.trans hseen')
  have hframe := Except.ok.inj (hraw.symm.trans hraw')
  exact List.tail_eq_of_cons_eq (congrArg Frame.payload hframe)

include hcourse in
theorem Course.answered (hwilling : Willing ε P img D) (n : Nat) (d : δ) (h : D n d) (pad : Nat) :
    ∃ rest, Accepted (ε := ε)
        (.ok (((P.serve (requestFrame img n) d).1 ++ List.replicate pad 0xFF).take (responseRoom n)))
        ((request img n).1 ||| RSP_FLAG) rest ∧
      D (n + 1) (P.serve (requestFrame img n) d).2 ∧ (n = 0 → InfoMatches (ε := ε) img rest) := by
  obtain ⟨rest, hgrant, hfits, hmatch⟩ := hwilling n d h
  obtain ⟨answer, hmax, hanswer⟩ := hcourse.answers n d h
  have hsame : answer = ST_OK :: rest := by
    rw [hanswer] at hgrant
    exact (wire_injective _ _ _ _ hgrant).2
  rw [hsame, List.length_cons] at hmax
  refine ⟨rest, ?_, hcourse.granted n d rest h hgrant ?_, hmatch⟩
  · rw [hgrant]
    exact accepted_frame _ rest pad _ hmax hfits
  · rcases Nat.eq_zero_or_pos n with hzero | hpos
    · exact Or.inl (hmatch hzero)
    · exact Or.inr (by omega)

include hcourse in
theorem Course.serves_calm (hwilling : Willing ε P img D) (hcalm : Calm allowed schedule) (n : Nat) :
    Serves (P.link schedule) (requestFrame img n) (responseRoom n) ((request img n).1 ||| RSP_FLAG)
      (World.Trying schedule (D n))
      (fun rest w => D (n + 1) w.dev ∧ (n = 0 → InfoMatches (ε := ε) img rest)) (fun _ => False) := by
  rintro k w rx ⟨hw, j, hj, pad', hanswered⟩ hrx
  have hafter := hcourse.after hcalm.allowed n w hw
  obtain ⟨hclock, hcases⟩ := link_cases P schedule w (requestFrame img n) rx
  dsimp only at hclock hcases ⊢
  rcases hcases with ⟨noise, houtcome, hdev, hseen⟩ | ⟨pad, -, hdev, hseen⟩
  · have hretry := hcalm.retryable _ noise houtcome (requestFrame img n) (responseRoom n)
    have hcmd : (requestFrame img n).getD 0 0 = (request img n).1 := rfl
    rw [hcmd] at hretry
    rw [hseen, hrx]
    refine ⟨?_, fun _ => ?_, fun _ hfinal => absurd hretry hfinal⟩
    · intro rest haccepted
      exact absurd haccepted (noise_not_accepted _ _ _ noise rest)
    · refine ⟨hdev ▸ hafter, ?_⟩
      cases j with
      | zero =>
        rw [Nat.add_zero, houtcome] at hanswered
        cases hanswered
      | succ j =>
        refine ⟨j, by omega, pad', ?_⟩
        rw [hclock, Nat.add_assoc, Nat.add_comm 1]
        exact hanswered
  · obtain ⟨rest, haccepted, hnext, hmatch⟩ := hcourse.answered hwilling n _ hafter pad
    rw [← hrx, ← hseen] at haccepted
    refine ⟨?_, fun hretry => absurd hretry haccepted.not_retryable,
      fun hnone => absurd haccepted (hnone rest)⟩
    intro rest' haccepted'
    obtain rfl : rest' = rest := accepted_unique haccepted' haccepted
    rw [hdev]
    exact ⟨hnext, hmatch⟩

include hcourse in
/-- An update of a willing device over a calm link comes to its end. -/
theorem Course.update_calm (hwilling : Willing ε P img D) (hcalm : Calm allowed schedule) (room : Nat)
    (hroom : img.page_size.toNat + 20 ≤ room) (calls : List (UInt16 × UInt16)) :
    Spec (flash (P.link schedule) img) (Session.At room calls (fun w => D 0 w.dev))
      (fun _ => Session.At room (calls ++ progressCalls img.pages.length img.pages.length)
        (fun w => D (3 + img.pages.length) w.dev))
      (fun _ => False) := by
  have hstages := flash_stages img (P.link schedule) room
    (fun n => World.Trying schedule (D n)) (fun _ => False) calls ?_ ?_ ?_
  · refine hstages.weaken ?_ ?_ (fun s h => h)
    · rintro s ⟨hw, hlength, hcalls⟩
      exact ⟨hcalm.trying s.transport hw, hlength, hcalls⟩
    · rintro _ s ⟨htrying, hlength, hcalls⟩
      exact ⟨htrying.1, hlength, hcalls⟩
  · rintro n w ⟨-, j, hj, -⟩
    omega
  · intro hsmall
    omega
  · intro n _
    refine (hcourse.serves_calm hwilling hcalm n).weaken _ ?_ (fun _ h => h)
    rintro rest w ⟨hnext, hmatch⟩
    refine ⟨fun _ => hcalm.trying w hnext, ?_⟩
    rintro ⟨hmismatch, hzero⟩
    exact hmismatch (hmatch hzero)

end Course

end Plant

end OtaUpdater.System
