import OtaUpdater.Device.Replies
import OtaUpdater.Lib.Fair
import Mathlib.Data.List.Induction

/-!
# The transmitter behind the loop (`uart_pump.c`, `avr_ea_uart/uart.c`, `rp2350_uart/uart.c`)

The loop hands over byte after byte and waits for the last of them before it leaves for the app.
The hardware shifts them out at its own pace, between any two accesses of the loop.
-/

open OtaUpdater.Lib.Run OtaUpdater.Wire

namespace OtaUpdater.Device.UartPump

/-! ## The hardware -/

/-- How a port sees its transmitter: the bytes it holds before the shifter, and whether the end of
a transmission is a sticky flag that each write clears first (TXCIF), or the state itself (BUSY). -/
structure UartPort where
  depth : Nat
  room : 0 < depth
  flagged : Bool

/-- USART0 of the AVR-EA: TXDATA. -/
def usart0 : UartPort := { depth := 1, room := by decide, flagged := true }

/-- The PL011 of the RP2350: its FIFO. -/
def uart0 : UartPort := { depth := 32, room := by decide, flagged := false }

/-- What has left on the line, and what has not. -/
structure Usart where
  line : List UInt8
  shifter : Option UInt8
  buffer : List UInt8
  txcif : Bool

def Usart.Dry (u : Usart) : Prop := u.shifter = none ∧ u.buffer = []

instance (u : Usart) : Decidable u.Dry := inferInstanceAs (Decidable (_ ∧ _))

/-- The shifter is done with its byte, if it has one, and takes the next. -/
def Usart.shifted (u : Usart) : Usart where
  line := u.line ++ u.shifter.toList
  shifter := u.buffer.head?
  buffer := u.buffer.tail
  txcif := u.txcif || (u.shifter.isSome && u.buffer.isEmpty)

section Port

variable (port : UartPort)

/-- A byte for a full buffer is lost. -/
def Usart.load (u : Usart) (b : UInt8) : Usart :=
  if u.buffer.length < port.depth then { u with buffer := u.buffer ++ [b] } else u

def u0_tx_ready (u : Usart) : Bool := decide (u.buffer.length < port.depth)

def drained (u : Usart) : Bool := if port.flagged then u.txcif else decide u.Dry

/-! ## The loop against it -/

inductive TxCmd where
  | put (b : UInt8)
  | drain
  | leave (flash : Flash)

/-- Where in `pump_put` the processor is. -/
inductive Phase where
  | poll
  | clear
  | load
deriving DecidableEq

structure Tx where
  usart : Usart
  phase : Phase
  todo : List TxCmd

inductive Move where
  | shifted
  | access
deriving DecidableEq

/-- One access of the processor; the app does not come back. -/
def Tx.access (s : Tx) : Tx :=
  match s.todo, s.phase with
  | .put _ :: _, .poll =>
    if u0_tx_ready port s.usart then { s with phase := if port.flagged then .clear else .load } else s
  | .put _ :: _, .clear => { s with usart := { s.usart with txcif := false }, phase := .load }
  | .put b :: rest, .load => { usart := s.usart.load port b, phase := .poll, todo := rest }
  | .drain :: rest, _ => if drained port s.usart then { s with todo := rest } else s
  | .leave _ :: _, _ | [], _ => s

def Tx.step (s : Tx) : Move → Tx
  | .shifted => { s with usart := s.usart.shifted }
  | .access => s.access port

def transmit (cmds : List TxCmd) (moves : List Move) : Tx :=
  moves.foldl (Tx.step port)
    { usart := { line := [], shifter := none, buffer := [], txcif := false }, phase := .poll, todo := cmds }

def commandsOf : Event → List TxCmd
  | .sent bytes => bytes.map .put
  | .drained => [.drain]
  | .jumped flash => [.leave flash]
  | .handled _ _ | .refused => []

def commands (events : List Event) : List TxCmd := events.flatMap commandsOf

/-- Between the clearing of TXCIF and the write of the last byte before a drain, the shifter runs
dry. -/
def Tx.Torn (s : Tx) : Prop :=
  s.phase = .load ∧ (∃ b rest, s.todo = .put b :: .drain :: rest) ∧ s.usart.shifter.isSome ∧
    s.usart.buffer = []

def Untorn (cmds : List TxCmd) (moves : List Move) : Prop :=
  ∀ pre post, moves = pre ++ .shifted :: post → ¬ (transmit port cmds pre).Torn

inductive AccessCase : Tx → Tx → Prop where
  | stay (s : Tx) : AccessCase s s
  | ready (u : Usart) (b : UInt8) (rest : List TxCmd) (hready : u.buffer.length < port.depth) :
      AccessCase ⟨u, .poll, .put b :: rest⟩
        ⟨u, if port.flagged then .clear else .load, .put b :: rest⟩
  | clear (u : Usart) (b : UInt8) (rest : List TxCmd) :
      AccessCase ⟨u, .clear, .put b :: rest⟩ ⟨{ u with txcif := false }, .load, .put b :: rest⟩
  | load (u : Usart) (b : UInt8) (rest : List TxCmd) :
      AccessCase ⟨u, .load, .put b :: rest⟩ ⟨u.load port b, .poll, rest⟩
  | drain (u : Usart) (phase : Phase) (rest : List TxCmd) (hdrained : drained port u = true) :
      AccessCase ⟨u, phase, .drain :: rest⟩ ⟨u, phase, rest⟩

theorem access_case (s : Tx) : AccessCase port s (s.access port) := by
  obtain ⟨u, phase, todo⟩ := s
  unfold Tx.access
  cases todo with
  | nil => exact .stay _
  | cons cmd rest =>
    cases cmd with
    | leave flash => exact .stay _
    | drain =>
      by_cases hdrained : drained port u = true
      · dsimp only
        rw [if_pos hdrained]
        exact .drain u phase rest hdrained
      · dsimp only
        rw [if_neg hdrained]
        exact .stay _
    | put b =>
      cases phase with
      | poll =>
        by_cases hready : u0_tx_ready port u = true
        · dsimp only
          rw [if_pos hready]
          exact .ready u b rest (of_decide_eq_true hready)
        · dsimp only
          rw [if_neg hready]
          exact .stay _
      | clear => exact .clear u b rest
      | load => exact .load u b rest

/-! ## What is always so -/

def TxCmd.byte? : TxCmd → Option UInt8
  | .put b => some b
  | _ => none

def puts (cmds : List TxCmd) : List UInt8 := cmds.filterMap TxCmd.byte?

/-- What the processor is done with is on the line, in the shifter or in the buffer. -/
structure TxInv (cmds done : List TxCmd) (s : Tx) : Prop where
  split : cmds = done ++ s.todo
  carried : s.usart.line ++ s.usart.shifter.toList ++ s.usart.buffer = puts done
  room : s.phase ≠ .poll → s.usart.buffer.length < port.depth ∧ ∃ b rest, s.todo = .put b :: rest
  primed : s.phase = .poll → (∃ before b, done = before ++ [.put b]) → s.usart.txcif = true ∨ ¬ s.usart.Dry

variable {port} in
theorem TxInv.polls {cmds done rest : List TxCmd} {usart : Usart} {phase : Phase}
    (h : TxInv port cmds done ⟨usart, phase, .drain :: rest⟩) : phase = .poll := by
  by_contra hne
  obtain ⟨-, b, rest', hput⟩ := h.room hne
  cases hput

theorem shifted_carried (u : Usart) :
    u.shifted.line ++ u.shifted.shifter.toList ++ u.shifted.buffer =
      u.line ++ u.shifter.toList ++ u.buffer := by
  unfold Usart.shifted
  cases u.buffer with
  | nil => simp
  | cons b rest => simp

theorem shifted_primed (u : Usart) (h : u.txcif = true ∨ ¬ u.Dry) :
    u.shifted.txcif = true ∨ ¬ u.shifted.Dry := by
  obtain ⟨line, shifter, buffer, txcif⟩ := u
  unfold Usart.shifted Usart.Dry at *
  cases buffer with
  | nil =>
    left
    cases shifter with
    | none =>
      rcases h with hset | hbusy
      · rw [Bool.or_eq_true]
        exact Or.inl hset
      · exact absurd ⟨rfl, rfl⟩ hbusy
    | some b => simp
  | cons b rest => simp

theorem shifted_dry {u : Usart} (h : u.Dry) : u.shifted = u := by
  obtain ⟨line, shifter, buffer, txcif⟩ := u
  obtain ⟨rfl, rfl⟩ := h
  simp [Usart.shifted]

theorem puts_append (xs ys : List TxCmd) : puts (xs ++ ys) = puts xs ++ puts ys :=
  List.filterMap_append

variable {port} in
theorem shifted_inv {cmds done : List TxCmd} {s : Tx} (h : TxInv port cmds done s) :
    TxInv port cmds done (s.step port .shifted) where
  split := h.split
  carried := (shifted_carried s.usart).trans h.carried
  room hphase := by
    obtain ⟨hroom, hhead⟩ := h.room hphase
    refine ⟨Nat.lt_of_le_of_lt ?_ hroom, hhead⟩
    rw [Tx.step, Usart.shifted, List.length_tail]
    exact Nat.sub_le _ _
  primed hphase hput := shifted_primed s.usart (h.primed hphase hput)

variable {port} in
theorem access_inv {cmds done : List TxCmd} {s : Tx} (h : TxInv port cmds done s) :
    ∃ done', TxInv port cmds done' (s.step port .access) := by
  have hcase := access_case port s
  unfold Tx.step
  generalize s.access port = s' at *
  cases hcase with
  | stay => exact ⟨done, h⟩
  | ready u b rest hready =>
    refine ⟨done, h.split, h.carried, fun _ => ⟨hready, b, rest, rfl⟩, fun hphase => ?_⟩
    dsimp only at hphase
    split_ifs at hphase
  | clear u b rest =>
    have hfree := h.room (fun hpoll => nomatch hpoll)
    exact ⟨done, h.split, h.carried, fun _ => hfree, fun hphase => by cases hphase⟩
  | load u b rest =>
    obtain ⟨hfree, -⟩ := h.room (fun hpoll => nomatch hpoll)
    have hcarried := h.carried
    have hload : u.load port b = { u with buffer := u.buffer ++ [b] } := if_pos hfree
    rw [hload]
    refine ⟨done ++ [.put b], ?_, ?_, fun hne => absurd rfl hne, fun _ _ => Or.inr ?_⟩
    · rw [List.append_assoc]
      exact h.split
    · rw [puts_append, ← hcarried, ← List.append_assoc]
      rfl
    · exact fun hdry => List.append_ne_nil_of_right_ne_nil _ (List.cons_ne_nil _ _) hdry.2
  | drain u phase rest hdrained =>
    have hphase := h.polls
    subst hphase
    refine ⟨done ++ [.drain], ?_, ?_, fun hne => absurd rfl hne, ?_⟩
    · rw [List.append_assoc]
      exact h.split
    · rw [puts_append]
      exact h.carried.trans (List.append_nil _).symm
    · rintro - ⟨before, b, hlast⟩
      cases List.append_inj_right' hlast rfl

theorem transmit_snoc (cmds : List TxCmd) (moves : List Move) (m : Move) :
    transmit port cmds (moves ++ [m]) = (transmit port cmds moves).step port m := by
  unfold transmit
  rw [List.foldl_append]
  rfl

theorem step_inv (cmds : List TxCmd) (s : Tx) (m : Move) (h : ∃ done, TxInv port cmds done s) :
    ∃ done, TxInv port cmds done (s.step port m) := by
  obtain ⟨done, h⟩ := h
  cases m with
  | shifted => exact ⟨done, shifted_inv h⟩
  | access => exact access_inv h

theorem start_inv (cmds : List TxCmd) : ∃ done, TxInv port cmds done (transmit port cmds []) := by
  refine ⟨[], rfl, rfl, fun hne => absurd rfl hne, ?_⟩
  rintro - ⟨before, b, hput⟩
  cases before <;> cases hput

theorem transmit_inv (cmds : List TxCmd) (moves : List Move) :
    ∃ done, TxInv port cmds done (transmit port cmds moves) :=
  Lib.Fair.foldl_inv (step_inv port cmds) moves _ (start_inv port cmds)

/-! ## Behind a drain -/

/-- A flag that a drain finds up means what it says. -/
structure FlagInv (s : Tx) : Prop where
  up : port.flagged = true → (∃ rest, s.todo = .drain :: rest) → s.usart.txcif = true → s.usart.Dry
  cleared : port.flagged = true → s.phase = .load → (∃ b rest, s.todo = .put b :: .drain :: rest) →
    s.usart.txcif = false

structure GateInv (cmds : List TxCmd) (s : Tx) : Prop where
  inv : ∃ done, TxInv port cmds done s
  flag : FlagInv port s
  gated : ∀ before, cmds = before ++ .drain :: s.todo → s.usart.Dry

variable {port}

theorem shifted_dry_dry {u : Usart} (h : u.Dry) : u.shifted.Dry :=
  (congrArg Usart.Dry (shifted_dry h)).mpr h

theorem shifted_flag {s : Tx} (h : FlagInv port s) (huntorn : port.flagged = true → ¬ s.Torn) :
    FlagInv port (s.step port .shifted) where
  up hflagged hdrain hset := by
    by_cases hup : s.usart.txcif = true
    · exact shifted_dry_dry (h.up hflagged hdrain hup)
    · have hlast : s.usart.shifter.isSome ∧ s.usart.buffer.isEmpty := by
        simpa [Tx.step, Usart.shifted, hup] using hset
      have hempty := List.isEmpty_iff.mp hlast.2
      constructor <;> simp [Tx.step, Usart.shifted, hempty]
  cleared hflagged hload hput := by
    have hdown := h.cleared hflagged hload hput
    rw [← Bool.not_eq_true]
    intro hset
    have hlast : s.usart.shifter.isSome ∧ s.usart.buffer.isEmpty := by
      simpa [Tx.step, Usart.shifted, hdown] using hset
    exact huntorn hflagged ⟨hload, hput, hlast.1, List.isEmpty_iff.mp hlast.2⟩

theorem drained_dry {usart : Usart} {phase : Phase} {rest : List TxCmd}
    (h : FlagInv port ⟨usart, phase, .drain :: rest⟩) (hdrained : drained port usart = true) :
    usart.Dry := by
  unfold drained at hdrained
  split_ifs at hdrained with hflagged
  · exact h.up hflagged ⟨rest, rfl⟩ hdrained
  · exact of_decide_eq_true hdrained

theorem access_flag {cmds done : List TxCmd} {s : Tx} (hinv : TxInv port cmds done s)
    (h : FlagInv port s) : FlagInv port (s.step port .access) := by
  have hcase := access_case port s
  unfold Tx.step
  generalize s.access port = s' at *
  cases hcase with
  | stay => exact h
  | ready u b rest hready =>
    refine ⟨h.up, fun hflagged hload => ?_⟩
    dsimp only at hload
    rw [if_pos hflagged] at hload
    cases hload
  | clear u b rest =>
    refine ⟨fun _ hdrain => ?_, fun _ _ _ => rfl⟩
    obtain ⟨rest', hdrain⟩ := hdrain
    cases hdrain
  | load u b rest =>
    refine ⟨fun hflagged hdrain hset => ?_, fun _ hload => by cases hload⟩
    obtain ⟨rest', rfl⟩ := hdrain
    have hdown : u.txcif = false := h.cleared hflagged rfl ⟨b, rest', rfl⟩
    have hsame : (u.load port b).txcif = u.txcif := by
      unfold Usart.load
      split_ifs
      · rfl
      · rfl
    cases (hdown.symm.trans hsame.symm).trans hset
  | drain u phase rest hdrained =>
    refine ⟨fun _ _ _ => drained_dry h hdrained, fun _ hload => ?_⟩
    cases hinv.polls.symm.trans hload

theorem shifted_gate {cmds : List TxCmd} {s : Tx} (h : GateInv port cmds s)
    (huntorn : port.flagged = true → ¬ s.Torn) : GateInv port cmds (s.step port .shifted) where
  inv := step_inv port cmds s .shifted h.inv
  flag := shifted_flag h.flag huntorn
  gated before hsplit := shifted_dry_dry (h.gated before hsplit)

theorem access_gate {cmds : List TxCmd} {s : Tx} (h : GateInv port cmds s) :
    GateInv port cmds (s.step port .access) := by
  obtain ⟨⟨done, hinv⟩, hflag, hgated⟩ := h
  refine ⟨access_inv hinv, access_flag hinv hflag, ?_⟩
  have hcase := access_case port s
  unfold Tx.step
  generalize s.access port = s' at *
  cases hcase with
  | stay => exact hgated
  | ready u b rest hready => exact hgated
  | clear u b rest => exact hgated
  | load u b rest =>
    -- What is behind this write is behind no drain.
    intro before hbehind
    cases List.append_inj_right' (hinv.split.symm.trans hbehind) rfl
  | drain u phase rest hdrained => exact fun _ _ => drained_dry hflag hdrained

theorem untorn_prefix {cmds : List TxCmd} {moves : List Move} {m : Move}
    (h : Untorn port cmds (moves ++ [m])) : Untorn port cmds moves := by
  intro pre post hsplit
  exact h pre (post ++ [m]) (by rw [hsplit, List.append_assoc]; rfl)

theorem transmit_gate (cmds : List TxCmd) (moves : List Move)
    (h : port.flagged = true → Untorn port cmds moves) :
    GateInv port cmds (transmit port cmds moves) := by
  induction moves using List.reverseRecOn with
  | nil =>
    exact ⟨start_inv port cmds, ⟨fun _ _ _ => ⟨rfl, rfl⟩, fun _ _ _ => rfl⟩, fun _ _ => ⟨rfl, rfl⟩⟩
  | append_singleton moves m ih =>
    have hbefore := ih (fun hflagged => untorn_prefix (h hflagged))
    rw [transmit_snoc]
    cases m with
    | shifted => exact shifted_gate hbefore (fun hflagged => h hflagged moves [] rfl)
    | access => exact access_gate hbefore

def Gated (cmds : List TxCmd) : Prop :=
  ∀ done flash rest, cmds = done ++ .leave flash :: rest →
    puts done = [] ∨ ∃ before, done = before ++ [.drain]

theorem transmit_leaves {cmds : List TxCmd} (hgated : Gated cmds) {moves : List Move}
    (h : port.flagged = true → Untorn port cmds moves) {flash : Flash} {rest : List TxCmd}
    (hleaves : (transmit port cmds moves).todo = .leave flash :: rest) :
    ∃ done, cmds = done ++ .leave flash :: rest ∧ (transmit port cmds moves).usart.line = puts done := by
  obtain ⟨⟨done, hinv⟩, -, hdrained⟩ := transmit_gate cmds moves h
  generalize transmit port cmds moves = s at *
  have hsplit := hinv.split
  have hcarried := hinv.carried
  rw [hleaves] at hsplit hdrained
  refine ⟨done, hsplit, ?_⟩
  rcases hgated done flash rest hsplit with hnothing | ⟨before, rfl⟩
  · rw [hnothing] at hcarried ⊢
    exact (List.append_eq_nil_iff.mp (List.append_eq_nil_iff.mp hcarried).1).1
  · obtain ⟨hshifter, hbuffer⟩ := hdrained before (by rw [hsplit, List.append_assoc]; rfl)
    rw [hshifter, hbuffer] at hcarried
    simpa using hcarried

/-! ## Coming to rest -/

/-- A drain that has no byte to wait for would wait for ever. -/
def Primed (cmds : List TxCmd) : Prop :=
  ∀ done rest, cmds = done ++ .drain :: rest → ∃ before b, done = before ++ [.put b]

def TxCmd.effort : TxCmd → Nat
  | .put _ => 5
  | .drain => 1
  | .leave _ => 0

def Phase.effort : Phase → Nat
  | .poll => 2
  | .clear => 1
  | .load => 0

def Usart.effort (u : Usart) : Nat := u.shifter.toList.length + 2 * u.buffer.length

def todoEffort : List TxCmd → Nat
  | [] => 0
  | cmd :: rest => cmd.effort + todoEffort rest

def Tx.effort (s : Tx) : Nat := todoEffort s.todo + s.phase.effort + s.usart.effort

theorem shifted_works (u : Usart) : u.shifted = u ∨ u.shifted.effort < u.effort := by
  obtain ⟨line, shifter, buffer, txcif⟩ := u
  unfold Usart.effort
  cases shifter with
  | none =>
    cases buffer with
    | nil => exact Or.inl (shifted_dry ⟨rfl, rfl⟩)
    | cons b rest => right; simp [Usart.shifted]; omega
  | some last =>
    cases buffer with
    | nil => right; simp [Usart.shifted]
    | cons b rest => right; simp [Usart.shifted]

theorem load_effort (u : Usart) (b : UInt8) : (u.load port b).effort ≤ u.effort + 2 := by
  unfold Usart.load
  split_ifs
  · simp [Usart.effort]; omega
  · omega

variable (port) in
theorem access_works (s : Tx) : s.access port = s ∨ (s.access port).effort < s.effort := by
  have hcase := access_case port s
  generalize s.access port = s' at *
  cases hcase with
  | stay => exact Or.inl rfl
  | ready u b rest hready =>
    right
    unfold Tx.effort
    cases port.flagged <;> simp [Phase.effort]
  | clear u b rest =>
    right
    simp [Tx.effort, Phase.effort, Usart.effort]
  | load u b rest =>
    right
    have hload := @load_effort port u b
    simp only [Tx.effort, todoEffort, TxCmd.effort, Phase.effort]
    omega
  | drain u phase rest hdrained =>
    right
    simp [Tx.effort, todoEffort, TxCmd.effort]

variable (port) in
theorem works : Lib.Fair.Working (Tx.step port) (fun _ => True) Tx.effort := by
  intro s m _
  cases m with
  | access => exact access_works port s
  | shifted =>
    rcases shifted_works s.usart with hsame | hless
    · left
      unfold Tx.step
      rw [hsame]
    · right
      exact Nat.add_lt_add_left hless _

/-- Nothing is left to shift, and the processor is through or gone. -/
def Tx.Finished (s : Tx) : Prop :=
  s.usart.Dry ∧ (s.todo = [] ∨ ∃ flash rest, s.todo = .leave flash :: rest)

theorem rest_finished {cmds done : List TxCmd} (hprimed : Primed cmds) {s : Tx}
    (hinv : TxInv port cmds done s) (hrest : Lib.Fair.Rest (Tx.step port) s) : s.Finished := by
  obtain ⟨usart, phase, todo⟩ := s
  have hdry : usart.Dry := by
    have hshifted : usart.shifted = usart := congrArg Tx.usart (hrest .shifted)
    have hline := congrArg Usart.line hshifted
    have hbuffer := congrArg (fun u => u.buffer.length) hshifted
    simp only [Usart.shifted, List.length_tail] at hline hbuffer
    constructor
    · simpa using hline
    · exact List.eq_nil_of_length_eq_zero (by omega)
  refine ⟨hdry, ?_⟩
  have haccess := hrest .access
  unfold Tx.step Tx.access at haccess
  dsimp only at haccess
  cases todo with
  | nil => exact Or.inl rfl
  | cons cmd rest =>
    cases cmd with
    | leave flash => exact Or.inr ⟨flash, rest, rfl⟩
    | drain =>
      exfalso
      have hphase := hinv.polls
      subst hphase
      obtain ⟨before, b, hlast⟩ := hprimed done rest hinv.split
      have hdrained : drained port usart = true := by
        unfold drained
        split_ifs
        · rcases hinv.primed rfl ⟨before, b, hlast⟩ with hset | hbusy
          · exact hset
          · exact absurd hdry hbusy
        · exact decide_eq_true hdry
      dsimp only at haccess
      rw [if_pos hdrained] at haccess
      exact List.cons_ne_self _ _ (congrArg Tx.todo haccess).symm
    | put b =>
      exfalso
      cases phase with
      | poll =>
        have hready : u0_tx_ready port usart = true := by
          rw [u0_tx_ready, hdry.2]
          exact decide_eq_true port.room
        dsimp only at haccess
        rw [if_pos hready] at haccess
        have hphase := congrArg Tx.phase haccess
        dsimp only at hphase
        split_ifs at hphase
      | clear => cases congrArg Tx.phase haccess
      | load => cases congrArg Tx.phase haccess

theorem transmit_finishes {cmds : List TxCmd} (hprimed : Primed cmds) (rounds : List (List Move))
    (hrounds : ∀ moves ∈ rounds, Lib.Fair.Round moves)
    (henough : todoEffort cmds + 2 < rounds.length) :
    (transmit port cmds rounds.flatten).Finished := by
  have hrest : Lib.Fair.Rest (Tx.step port) (transmit port cmds rounds.flatten) := by
    refine Lib.Fair.rounds_rest ?_ (works port) rounds hrounds _ trivial henough
    exact fun _ _ _ => trivial
  obtain ⟨done, hinv⟩ := transmit_inv port cmds rounds.flatten
  exact rest_finished hprimed hinv hrest

end Port

/-! ## The loop of `main` -/

def logged (laps : List LapRecord) : List Event := laps.flatMap (·.output)

theorem puts_map (bytes : List UInt8) : puts (bytes.map .put) = bytes := by
  unfold puts
  rw [List.filterMap_map]
  exact List.filterMap_some

theorem puts_commands (events : List Event) : puts (commands events) = sentBytes events := by
  induction events with
  | nil => rfl
  | cons e rest ih =>
    have hcommands : commands (e :: rest) = commandsOf e ++ commands rest := List.flatMap_cons
    rw [hcommands, puts_append, ih]
    cases e with
    | sent bytes => exact congrArg (· ++ sentBytes rest) (puts_map bytes)
    | handled req answer => rfl
    | drained => rfl
    | jumped flash => rfl
    | refused => rfl

theorem commands_split {events : List Event} {done rest : List TxCmd} {c : TxCmd}
    (h : commands events = done ++ c :: rest) (hc : c.byte? = none) :
    ∃ pre e post, events = pre ++ e :: post ∧ commandsOf e = [c] ∧ done = commands pre ∧
      rest = commands post := by
  obtain ⟨pre, e, post, l, r, hevents, hone, hdone, hrest⟩ := flatMap_split commandsOf events done rest c h
  have hends : l = [] ∧ r = [] := by
    have hlength := congrArg List.length hone
    rw [List.length_append, List.length_cons] at hlength
    cases e with
    | sent bytes =>
      exfalso
      have hmem : c ∈ commandsOf (.sent bytes) := by
        rw [hone]
        exact List.mem_append_right _ List.mem_cons_self
      obtain ⟨b, -, rfl⟩ := List.mem_map.mp hmem
      cases hc
    | handled req answer => cases l <;> cases hone
    | refused => cases l <;> cases hone
    | drained =>
      rw [commandsOf, List.length_singleton] at hlength
      exact ⟨List.eq_nil_of_length_eq_zero (by omega), List.eq_nil_of_length_eq_zero (by omega)⟩
    | jumped flash =>
      rw [commandsOf, List.length_singleton] at hlength
      exact ⟨List.eq_nil_of_length_eq_zero (by omega), List.eq_nil_of_length_eq_zero (by omega)⟩
  obtain ⟨rfl, rfl⟩ := hends
  exact ⟨pre, e, post, hevents, hone, by rw [hdone, List.append_nil]; rfl, hrest⟩

def bootReply : List UInt8 := UPD_LINK_SYNC :: wire (UPD_CMD_BOOT ||| UPD_RSP_FLAG) [UPD_ST_OK]

section Loop

variable {info : PortInfo} {t_entry tick : UInt16} {st st' : Main × Flash} {events : List Event}

theorem drains_case (h : LapCase info t_entry tick st events st') {l r : List Event}
    (hsplit : events = l ++ .drained :: r) : ∃ req, l = [.handled req [UPD_ST_OK], .sent bootReply] := by
  cases h with
  | idle m' hsame => cases l <;> cases hsplit
  | autoboot m' hresident htick hvalid hsame => rcases l with _ | ⟨a, _ | ⟨b, l⟩⟩ <;> cases hsplit
  | refuse m' hlatched => rcases l with _ | ⟨a, _ | ⟨b, l⟩⟩ <;> cases hsplit
  | answer req answer m' f' hlatched =>
    rcases l with _ | ⟨a, _ | ⟨b, _ | ⟨c, l⟩⟩⟩ <;> cases hsplit
  | boot req m' f' hcmd hvalid hlatched =>
    rcases l with _ | ⟨a, _ | ⟨b, _ | ⟨c, _ | ⟨d, _ | ⟨e, l⟩⟩⟩⟩⟩ <;> cases hsplit
    exact ⟨req, by rw [hcmd]; rfl⟩

theorem jumps_case (h : LapCase info t_entry tick st events st') {l r : List Event} {g : Flash}
    (hsplit : events = l ++ .jumped g :: r) :
    (∃ req, l = [.handled req [UPD_ST_OK], .sent bootReply, .drained]) ∨
      st.1.resident = false ∧ l = [] := by
  have hmem : .jumped g ∈ events := by
    rw [hsplit]
    exact List.mem_append_right _ List.mem_cons_self
  obtain ⟨-, -, ⟨req, -, hevents⟩ | ⟨hresident, -, hevents⟩⟩ := h.jumps hmem
  · left
    rw [hevents] at hsplit
    rcases l with _ | ⟨a, _ | ⟨b, _ | ⟨c, _ | ⟨d, l⟩⟩⟩⟩
    · cases hsplit
    · cases hsplit
    · cases hsplit
    · cases hsplit
      exact ⟨req, rfl⟩
    · simp at hsplit
  · right
    rw [hevents] at hsplit
    cases l with
    | nil => exact ⟨hresident, rfl⟩
    | cons a l => simp at hsplit

theorem silent_case (h : LapCase info t_entry tick st events st') (hopen : st'.1.resident = false) :
    sentBytes events = [] := by
  cases h with
  | idle m' hsame => rfl
  | autoboot m' hresident htick hvalid hsame => rfl
  | refuse m' hlatched => rfl
  | answer req answer m' f' hlatched => cases hlatched.symm.trans hopen
  | boot req m' f' hcmd hvalid hlatched => cases hlatched.symm.trans hopen

/-- While the window is open, nothing has been sent. -/
structure SilentInv (info : PortInfo) (past : List LapRecord) (st : Main × Flash) : Prop where
  settled : st.1.Settled info
  silent : st.1.resident = false → sentBytes (logged past) = []

theorem sentBytes_append (xs ys : List Event) : sentBytes (xs ++ ys) = sentBytes xs ++ sentBytes ys :=
  List.flatMap_append

theorem silent_step (program : Program) (t_entry : UInt16) (info : PortInfo) (past : List LapRecord)
    (st : Main × Flash) (input : List UInt8 × UInt16) (h : SilentInv info past st) :
    SilentInv info (past ++ [record (lapStep program t_entry) st input])
      (lapStep program t_entry st input).2 := by
  obtain ⟨hsettled, hcase⟩ := lapStep_cases program t_entry st input h.settled
  refine ⟨hsettled, fun hopen => ?_⟩
  have hbefore : st.1.resident = false := by
    rw [Bool.eq_false_iff]
    intro hresident
    cases (hcase.resident_mono hresident).symm.trans hopen
  have hlogged : logged (past ++ [record (lapStep program t_entry) st input]) =
      logged past ++ (lapStep program t_entry st input).1 := by
    unfold logged
    rw [List.flatMap_append, List.flatMap_singleton]
    rfl
  rw [hlogged, sentBytes_append, h.silent hbefore, silent_case hcase hopen]
  rfl

end Loop

section Main

variable (program : Program) (t_entry : UInt16) (info : PortInfo) (rx : List UInt8) (rx_size : UInt8)
  (entry : Bool) (f : Flash) (laps : List (List UInt8 × UInt16))

theorem logged_lap {pre post : List Event} {e : Event}
    (h : logged (mainRun program t_entry info rx rx_size entry f laps) = pre ++ e :: post) :
    ∃ past st tick st' events l r, pre = logged past ++ l ∧ events = l ++ e :: r ∧
      SilentInv info past st ∧ LapCase info t_entry tick st events st' := by
  obtain ⟨past, r, after, l, right, hrun, houtput, hpre, -⟩ := flatMap_split _ _ pre post e h
  have hstart : SilentInv info [] (main_init info rx rx_size entry, f) :=
    ⟨⟨rfl, rfl, List.length_replicate⟩, fun _ => rfl⟩
  obtain ⟨hinv, hr⟩ := records_history _ _ (silent_step program t_entry info) [] _ hstart laps past
    after r hrun
  rw [List.nil_append] at hinv
  obtain ⟨-, hcase⟩ := lapStep_cases program t_entry r.before r.input hinv.settled
  have hevents : (lapStep program t_entry r.before r.input).1 = r.output := by
    rw [hr]
    rfl
  exact ⟨past, r.before, _, _, _, l, right, hpre, hevents.trans houtput, hinv, hcase⟩

theorem main_primed : Primed (commands (logged (mainRun program t_entry info rx rx_size entry f laps))) := by
  intro done rest h
  obtain ⟨pre, e, post, hevents, hone, rfl, -⟩ := commands_split h rfl
  have hdrained : e = .drained := by
    cases e with
    | sent bytes => cases bytes <;> cases hone
    | handled req answer => cases hone
    | drained => rfl
    | jumped flash => cases hone
    | refused => cases hone
  subst hdrained
  obtain ⟨past, st, tick, st', events, l, r, rfl, hsplit, -, hcase⟩ :=
    logged_lap program t_entry info rx rx_size entry f laps hevents
  obtain ⟨req, rfl⟩ := drains_case hcase hsplit
  obtain ⟨front, last, hlast⟩ := (List.eq_nil_or_concat bootReply).resolve_left (List.cons_ne_nil _ _)
  refine ⟨commands (logged past) ++ front.map .put, last, ?_⟩
  have hcommands : commands (logged past ++ [.handled req [UPD_ST_OK], .sent bootReply]) =
      commands (logged past) ++ bootReply.map .put := by
    simp [commands, commandsOf]
  rw [hcommands, hlast]
  simp

/-- What has been sent before a jump is nothing, or ends with the reply to the BOOT and is drained. -/
theorem main_jumps {pre post : List Event} {flash : Flash}
    (h : logged (mainRun program t_entry info rx rx_size entry f laps) = pre ++ .jumped flash :: post) :
    sentBytes pre = [] ∨
      ∃ before, pre = before ++ [.drained] ∧ ∃ sent, sentBytes pre = sent ++ bootReply := by
  obtain ⟨past, st, tick, st', events, l, r, rfl, hsplit, hinv, hcase⟩ :=
    logged_lap program t_entry info rx rx_size entry f laps h
  rcases jumps_case hcase hsplit with ⟨req, rfl⟩ | ⟨hopen, rfl⟩
  · right
    refine ⟨logged past ++ [.handled req [UPD_ST_OK], .sent bootReply], by simp, sentBytes (logged past), ?_⟩
    rw [sentBytes_append]
    rfl
  · left
    rw [List.append_nil]
    exact hinv.silent hopen

theorem leave_jumped {e : Event} {flash : Flash} (h : commandsOf e = [.leave flash]) :
    e = .jumped flash := by
  cases e with
  | sent bytes => cases bytes <;> cases h
  | handled req answer => cases h
  | drained => cases h
  | jumped g => cases h; rfl
  | refused => cases h

theorem main_gated : Gated (commands (logged (mainRun program t_entry info rx rx_size entry f laps))) := by
  intro done flash rest h
  obtain ⟨pre, e, post, hevents, hone, rfl, -⟩ := commands_split h rfl
  have hjumped := leave_jumped hone
  subst hjumped
  rcases main_jumps program t_entry info rx rx_size entry f laps hevents with hnothing | ⟨before, rfl, -⟩
  · left
    rw [puts_commands, hnothing]
  · right
    exact ⟨commands before, by simp [commands, commandsOf]⟩

/-- Behind `main` and whatever the transmitter does meanwhile: every reply leaves once and in order;
when the loop leaves for the app, all of them are on the line, up to the reply to the BOOT, unless the
last write was torn; and the loop and the transmitter come to rest. -/
theorem uart_replies_leave (port : UartPort) :
    let events := logged (mainRun program t_entry info rx rx_size entry f laps)
    (∀ moves, (transmit port (commands events) moves).usart.line <+: sentBytes events) ∧
    (∀ moves flash rest, (port.flagged = true → Untorn port (commands events) moves) →
      (transmit port (commands events) moves).todo = .leave flash :: rest →
      ∃ pre post, events = pre ++ .jumped flash :: post ∧ rest = commands post ∧
        (transmit port (commands events) moves).usart.line = sentBytes pre ∧
        (sentBytes pre = [] ∨ ∃ sent, sentBytes pre = sent ++ bootReply)) ∧
    (∀ rounds : List (List Move), (∀ moves ∈ rounds, Lib.Fair.Round moves) →
      todoEffort (commands events) + 2 < rounds.length →
      let s := transmit port (commands events) rounds.flatten
      s.usart.Dry ∧ (s.todo = [] ∧ s.usart.line = sentBytes events ∨
        ∃ flash rest, s.todo = .leave flash :: rest)) := by
  intro events
  refine ⟨?_, ?_, ?_⟩
  · intro moves
    obtain ⟨done, hinv⟩ := transmit_inv port (commands events) moves
    have hsplit := congrArg puts hinv.split
    rw [puts_append, puts_commands, ← hinv.carried, List.append_assoc, List.append_assoc] at hsplit
    exact ⟨_, hsplit.symm⟩
  · intro moves flash rest huntorn hleaves
    have hgated := main_gated program t_entry info rx rx_size entry f laps
    obtain ⟨done, hsplit, hline⟩ := transmit_leaves hgated huntorn hleaves
    obtain ⟨pre, e, post, hevents, hone, rfl, hrest⟩ := commands_split hsplit rfl
    have hjumped := leave_jumped hone
    subst hjumped
    refine ⟨pre, post, hevents, hrest, by rw [hline, puts_commands], ?_⟩
    rcases main_jumps program t_entry info rx rx_size entry f laps hevents with hnothing | ⟨-, -, hreply⟩
    · exact Or.inl hnothing
    · exact Or.inr hreply
  · intro rounds hrounds henough
    have hprimed := main_primed program t_entry info rx rx_size entry f laps
    obtain ⟨hdry, hend⟩ := @transmit_finishes port _ hprimed rounds hrounds henough
    refine ⟨hdry, ?_⟩
    rcases hend with hend | hend
    · left
      refine ⟨hend, ?_⟩
      obtain ⟨done, hinv⟩ := transmit_inv port (commands events) rounds.flatten
      have hsplit := hinv.split
      have hcarried := hinv.carried
      rw [hend, List.append_nil] at hsplit
      rw [hdry.1, hdry.2, ← hsplit, puts_commands] at hcarried
      simpa using hcarried
    · exact Or.inr hend

end Main

/-- A byte that ends between the two writes of the next one raises the flag too early. -/
example (flash : Flash) :
    transmit usart0 [.put 1, .put 2, .drain, .leave flash]
        [.access, .access, .access, .shifted, .access, .access, .shifted, .access, .access] =
      { usart := { line := [1], shifter := none, buffer := [2], txcif := true }, phase := .poll,
        todo := [.leave flash] } := by
  simp [transmit, Tx.step, Tx.access, Usart.shifted, Usart.load, u0_tx_ready, drained, usart0]

end OtaUpdater.Device.UartPump
