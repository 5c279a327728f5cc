import OtaUpdater.Device.Replies
import OtaUpdater.Host.UartRules

/-!
# Requests over a UART line

The line is two byte queues that outlive a call. At one end the host makes calls of
`UartTransport::request`, at the other the main loop runs, and each takes what has
come through so far at its own pace. Positions in the two byte sequences, counted
from the start, say which bytes an answer is about and which bytes a result is made of.
-/

open OtaUpdater.Wire OtaUpdater.Device OtaUpdater.Host OtaUpdater.Agreement

namespace OtaUpdater.System

/-! ## The two ends and the line -/

/-- An answer that left the device: where in the host's bytes the sync byte of its request was, and
where in the device's bytes the answer ends. -/
structure Reply where
  sync : Nat
  frame : List UInt8
  finish : Nat
deriving DecidableEq, Repr

/-- An `Ok(len)` with its `rsp[..len]`: what the call had to do with the host's bytes, and where in the
device's bytes the scan ended. -/
structure Receipt where
  started : Nat
  ended : Nat
  frame : List UInt8
  finish : Nat
deriving DecidableEq, Repr

/-- Where the host is; `started` counts the bytes written before this call. -/
inductive Phase where
  | idle
  | writing (started : Nat) (left rsp : List UInt8)
  | reading (started : Nat) (r : Receiving)

structure Uart where
  transport : UartTransport
  phase : Phase
  failed : Bool
  up : List UInt8
  down : List UInt8
  main : Main
  flash : Flash
  written : Nat
  polled : Nat
  sent : Nat
  read : Nat
  replies : List Reply
  receipts : List Receipt

def Uart.start (transport : UartTransport) (main : Main) (flash : Flash) : Uart where
  transport := transport
  phase := .idle
  failed := false
  up := []
  down := []
  main := main
  flash := flash
  written := 0
  polled := 0
  sent := 0
  read := 0
  replies := []
  receipts := []

/-- `read n` is a read that brings up to `n` bytes, and `Ok(0)` when there are none; in `drain n` the
owner of the port reads them, between two calls. -/
inductive Move (E : Type) where
  | set_poll (attempts : UInt32)
  | drain (n : Nat)
  | call (req rsp : List UInt8)
  | write (n : Nat)
  | writeFails (e : E)
  | read (n : Nat)
  | readFails (e : E)
  | lap (n : Nat) (tick : UInt16)

section Moves

variable {E : Type} (program : Program) (t_entry : UInt16)

/-- `n` bytes come through to the device's FIFO, and the main loop makes a lap. -/
def Uart.lap (u : Uart) (n : Nat) (tick : UInt16) : Uart :=
  let arrived := u.up.take n
  let (out, _, rest) := link_poll u.main.lnk (u.main.fifo ++ arrived)
  let (events, main, flash) := lapStep program t_entry (u.main, u.flash) (arrived, tick)
  let bytes := sentBytes events
  let polled := u.polled + ((u.main.fifo ++ arrived).length - rest.length)
  -- The frame is the last LEN + 3 bytes that the poll took, and its sync byte the one before.
  let replies := out.toList.map (fun req =>
    { sync := polled - (req.payload.length + 4), frame := bytes.drop 1, finish := u.sent + bytes.length })
  { u with up := u.up.drop n, down := u.down ++ bytes, main, flash, polled, sent := u.sent + bytes.length
           replies := u.replies ++ replies }

/-- What a turn of the read loop makes of the call. -/
def Uart.turn (u : Uart) (started finish : Nat) : Turn E → Receiving → Uart
  | .again, r => { u with phase := .reading started r }
  | .fail _, _ => { u with phase := .idle, failed := true }
  | .done len, r =>
    { u with phase := .idle, failed := false
             receipts := u.receipts ++ [{ started, ended := u.written, frame := r.rsp.take len, finish }] }

/-- A move that does not fit the phase changes nothing. -/
def Uart.step (u : Uart) : Move E → Uart
  | .set_poll attempts =>
    match u.phase with
    | .idle => { u with transport := u.transport.set_poll attempts }
    | _ => u
  | .drain n =>
    match u.phase with
    | .idle => { u with down := u.down.drop n, read := u.read + (u.down.take n).length }
    | _ => u
  | .call req rsp =>
    match u.phase with
    | .idle => { u with phase := .writing u.written (request_bytes req) rsp }
    | _ => u
  | .write n =>
    match u.phase with
    | .writing started left rsp =>
      let phase := if left.drop n = [] then Phase.reading started (.new rsp)
        else .writing started (left.drop n) rsp
      { u with phase, up := u.up ++ left.take n, written := u.written + (left.take n).length }
    | _ => u
  | .writeFails _ =>
    match u.phase with
    | .writing _ _ _ => { u with phase := .idle, failed := true }
    | _ => u
  | .read n =>
    match u.phase with
    | .reading started r =>
      let chunk := u.down.take (min n 32)
      let (turn, r, rest) := read_turn (E := E) u.transport r (.ok chunk)
      -- A return in the middle of a chunk drops the rest of it.
      Uart.turn { u with down := u.down.drop chunk.length, read := u.read + chunk.length }
        started (u.read + (chunk.length - rest.length)) turn r
    | _ => u
  | .readFails e =>
    match u.phase with
    | .reading started r =>
      let (turn, r, _) := read_turn u.transport r (.error e)
      Uart.turn u started u.read turn r
    | _ => u
  | .lap n tick => u.lap program t_entry n tick

def Uart.run (u : Uart) (moves : List (Move E)) : Uart := moves.foldl (Uart.step program t_entry) u

def AtCalls (cond : Uart → List UInt8 → List UInt8 → Prop) (u : Uart) (moves : List (Move E)) : Prop :=
  ∀ i req rsp, moves[i]? = some (.call req rsp) → (u.run program t_entry (moves.take i)).phase = .idle →
    cond (u.run program t_entry (moves.take i)) req rsp

end Moves

/-! ## Freshness -/

/-- The very bytes of the result are an answer to a request whose sync byte the call wrote. -/
def Fresh (replies : List Reply) (r : Receipt) : Prop :=
  ∃ a ∈ replies, r.started ≤ a.sync ∧ a.sync < r.ended ∧ a.frame = r.frame ∧ a.finish = r.finish

/-- The transport's contract: one frame, which the device can hold, and room for its worst-case answer. -/
structure Proper (u : Uart) (req rsp : List UInt8) : Prop where
  request : ∃ cmd payload, req = wire cmd payload ∧ answerRoom cmd payload + 3 ≤ rsp.length
  fits : req.length ≤ u.main.lnk.buf_len.toNat

/-- Nothing is on its way in either direction, and the device is between two frames. -/
structure Quiet (u : Uart) : Prop where
  up : u.up = []
  fifo : u.main.fifo = []
  link : u.main.lnk.in_frame = false
  down : u.down = []

/-- A call keeps the contract, and does not follow a failed one while anything is on its way. -/
def Orderly (u : Uart) (req rsp : List UInt8) : Prop :=
  Proper u req rsp ∧ (u.failed = true → Quiet u)

theorem Fresh.mono {replies : List Reply} {r : Receipt} (h : Fresh replies r) (more : List Reply) :
    Fresh (replies ++ more) r := by
  obtain ⟨a, ha, hfresh⟩ := h
  exact ⟨a, List.mem_append_left _ ha, hfresh⟩

/-! ## The course of an orderly call -/

/-- What holds of the line at any time: every byte is accounted for, and every result so far is fresh. -/
structure Sound (info : PortInfo) (B : Nat) (u : Uart) : Prop where
  settled : u.main.Settled info
  good : u.main.lnk.Good
  size : u.main.lnk.buf_len.toNat = B
  written : u.written = u.polled + u.main.fifo.length + u.up.length
  sent : u.sent = u.read + u.down.length
  fresh : ∀ r ∈ u.receipts, Fresh u.replies r

/-- The request of this call is somewhere between the host and the device's poll, and nothing else is. -/
structure Asking (B : Nat) (u : Uart) (started : Nat) (left : List UInt8) (room : Nat) : Prop where
  request : ∃ cmd payload got, (wire cmd payload).length ≤ B ∧ answerRoom cmd payload + 3 ≤ room ∧
    u.main.lnk.Heard B got ∧
    UPD_LINK_SYNC :: wire cmd payload = got ++ (u.main.fifo ++ u.up ++ left) ∧
    started + (wire cmd payload).length + 1 = u.written + left.length
  missing : u.main.fifo ++ u.up ++ left ≠ []
  down : u.down = []

/-- Its answer is somewhere between the device and the host's scan, and nothing else is. -/
structure Answered (u : Uart) (started : Nat) (r : Receiving) : Prop where
  up : u.up = []
  fifo : u.main.fifo = []
  link : u.main.lnk.in_frame = false
  answer : ∃ cmd payload got, payload.length ≤ payloadMax ∧ (wire cmd payload).length ≤ r.rsp.length ∧
    r.Heard got ∧ SYNC :: wire cmd payload = got ++ u.down ∧
    ∃ a ∈ u.replies, started ≤ a.sync ∧ a.sync < u.written ∧ a.frame = wire cmd payload ∧
      a.finish = u.sent
  missing : u.down ≠ []

def OnTrack (B : Nat) (u : Uart) : Prop :=
  match u.phase with
  | .idle => u.failed = true ∨ Quiet u
  | .writing started left rsp => left ≠ [] ∧ Asking B u started left rsp.length
  | .reading started r => (r.Heard [] ∧ Asking B u started [] r.rsp.length) ∨ Answered u started r

section Course

variable {info : PortInfo} {B : Nat} (program : Program) (t_entry : UInt16)

theorem Sound.host {u : Uart} (h : Sound info B u) (transport : UartTransport) (phase : Phase)
    (failed : Bool) : Sound info B { u with transport, phase, failed } where
  settled := h.settled
  good := h.good
  size := h.size
  written := h.written
  sent := h.sent
  fresh := h.fresh

/-! ### Laps -/

theorem lap_line {u : Uart} (hu : Sound info B u) (n : Nat) (tick : UInt16) :
    let polled := link_poll u.main.lnk (u.main.fifo ++ u.up.take n)
    let u' := u.lap program t_entry n tick
    Sound info B u' ∧ u'.main.lnk = polled.2.1 ∧ u'.main.fifo = polled.2.2 ∧
      match polled.1 with
      | none => u'.down = u.down ∧ u'.replies = u.replies ∧ u'.sent = u.sent
      | some req => ∃ answer, answer.length ≤ answerRoom req.cmd req.payload ∧
          answer.length ≤ payloadMax ∧
          u'.down = u.down ++ UPD_LINK_SYNC :: wire (req.cmd ||| UPD_RSP_FLAG) answer ∧
          u'.replies = u.replies ++ [{ sync := u'.polled - (req.payload.length + 4)
                                       frame := wire (req.cmd ||| UPD_RSP_FLAG) answer
                                       finish := u'.sent }] := by
  have hsettled := (lapStep_cases program t_entry (u.main, u.flash) (u.up.take n, tick) hu.settled).1
  obtain ⟨hgood, hsize, hless⟩ := link_poll_good hu.good (u.main.fifo ++ u.up.take n)
  obtain ⟨hlnk, hfifo, hsent⟩ := lapStep_line program t_entry tick (u.main, u.flash) (u.up.take n)
    hu.settled
  have hwritten := hu.written
  have hcount := hu.sent
  have hup : (u.up.take n).length + (u.up.drop n).length = u.up.length := by
    rw [← List.length_append, List.take_append_drop]
  unfold Uart.lap
  dsimp only at hlnk hfifo hsent ⊢
  generalize link_poll u.main.lnk (u.main.fifo ++ u.up.take n) = polled at *
  generalize lapStep program t_entry (u.main, u.flash) (u.up.take n, tick) = r at *
  obtain ⟨out, lnk, rest⟩ := polled
  obtain ⟨events, main, flash⟩ := r
  dsimp only at hsettled hgood hsize hless hlnk hfifo hsent ⊢
  subst hlnk hfifo
  rw [List.length_append] at hless ⊢
  refine ⟨?_, rfl, rfl, ?_⟩
  · constructor
    · exact hsettled
    · exact hgood
    · exact (congrArg UInt8.toNat hsize).trans hu.size
    · dsimp only
      omega
    · dsimp only
      rw [List.length_append]
      omega
    · intro receipt hmem
      exact (hu.fresh receipt hmem).mono _
  · cases out with
    | none =>
      have hnone : sentBytes events = [] := hsent
      rw [hnone]
      simp
    | some req =>
      obtain ⟨answer, hbytes, hroom, hmax⟩ := hsent
      refine ⟨answer, hroom, hmax, ?_, ?_⟩
      · rw [hbytes]
      · rw [hbytes]
        rfl

theorem lap_quiet {u : Uart} (hu : Sound info B u) (n : Nat) (tick : UInt16) (hup : u.up = [])
    (hfifo : u.main.fifo = []) :
    let u' := u.lap program t_entry n tick
    u'.main.lnk = u.main.lnk ∧ u'.main.fifo = [] ∧ u'.up = [] ∧ u'.down = u.down ∧
      u'.replies = u.replies ∧ u'.sent = u.sent := by
  obtain ⟨-, hlnk, hrest, hout⟩ := lap_line program t_entry hu n tick
  rw [hup, hfifo, List.take_nil, List.append_nil] at hlnk hrest hout
  refine ⟨hlnk, hrest, ?_, hout⟩
  unfold Uart.lap
  rw [hup]
  exact List.drop_nil

theorem Sound.size_le {u : Uart} (h : Sound info B u) : B ≤ 255 := by
  have hlt := u.main.lnk.buf_len.toNat_lt
  rw [← h.size]
  omega

theorem line_split (u : Uart) (left : List UInt8) (n : Nat) :
    u.main.fifo ++ u.up ++ left = (u.main.fifo ++ u.up.take n) ++ (u.up.drop n ++ left) := by
  have hsplit : u.up = u.up.take n ++ u.up.drop n := (List.take_append_drop n u.up).symm
  calc u.main.fifo ++ u.up ++ left
      = u.main.fifo ++ (u.up.take n ++ u.up.drop n) ++ left := by rw [← hsplit]
    _ = (u.main.fifo ++ u.up.take n) ++ (u.up.drop n ++ left) := by simp only [List.append_assoc]

theorem lap_goes_on {u : Uart} (hu : Sound info B u) (n : Nat) (tick : UInt16) {started room : Nat}
    {left : List UInt8} (h : Asking B u started left room) (hmore : u.up.drop n ++ left ≠ []) :
    Asking B (u.lap program t_entry n tick) started left room := by
  obtain ⟨⟨cmd, payload, got, hfits, hroom, hheard, hstream, hwhole⟩, -, hdown⟩ := h
  obtain ⟨-, hlnk, hfifo, hout⟩ := lap_line program t_entry hu n tick
  have hup : (u.lap program t_entry n tick).up = u.up.drop n := rfl
  rw [line_split u left n, ← List.append_assoc] at hstream
  obtain ⟨l', hpoll, hnext⟩ := (link_poll_heard hfits hu.size_le _ got _ hheard hstream).1 hmore
  rw [hpoll] at hlnk hfifo hout
  obtain ⟨hsame, -, -⟩ := hout
  refine ⟨⟨cmd, payload, got ++ (u.main.fifo ++ u.up.take n), hfits, hroom, ?_, ?_, hwhole⟩, ?_, ?_⟩
  · rw [hlnk]
    exact hnext
  · rw [hfifo, hup]
    exact hstream
  · rw [hfifo, hup]
    exact hmore
  · rw [hsame]
    exact hdown

theorem lap_answers {u : Uart} (hu : Sound info B u) (n : Nat) (tick : UInt16) {started : Nat}
    {r : Receiving} (hr : r.Heard []) (h : Asking B u started [] r.rsp.length) (hall : u.up.drop n = []) :
    Answered (u.lap program t_entry n tick) started r := by
  obtain ⟨⟨cmd, payload, got, hfits, hroom, hheard, hstream, hwhole⟩, hmissing, hdown⟩ := h
  obtain ⟨hsound, hlnk, hfifo, hout⟩ := lap_line program t_entry hu n tick
  have hup : (u.lap program t_entry n tick).up = [] := hall
  have hwritten : (u.lap program t_entry n tick).written = u.written := rfl
  rw [line_split u [] n, hall] at hmissing
  rw [line_split u [] n, hall, ← List.append_assoc] at hstream
  have hsome : u.main.fifo ++ u.up.take n ≠ [] := by
    intro hnone
    apply hmissing
    rw [hnone]
    rfl
  obtain ⟨l', req, hpoll, hhunting, hcmd, hpayload⟩ :=
    (link_poll_heard hfits hu.size_le _ got _ hheard hstream).2 rfl hsome
  rw [hpoll] at hlnk hfifo hout
  obtain ⟨answer, hanswer, hmax, hbytes, hreplies⟩ := hout
  have hsize := length_wire cmd payload
  have hcount := hsound.written
  rw [hfifo, hup, hwritten] at hcount
  simp only [List.length_nil, Nat.add_zero] at hcount hwhole
  have hreply := List.mem_append_right u.replies (List.mem_singleton_self
    ({ sync := (u.lap program t_entry n tick).polled - (req.payload.length + 4)
       frame := wire (req.cmd ||| UPD_RSP_FLAG) answer
       finish := (u.lap program t_entry n tick).sent } : Reply))
  rw [← hreplies] at hreply
  refine ⟨hup, hfifo, ?_, ?_, ?_⟩
  · rw [hlnk]
    exact hhunting.in_frame
  · refine ⟨_, answer, [], hmax, ?_, hr, ?_, _, hreply, ?_, ?_, rfl, rfl⟩
    · rw [length_wire]
      rw [hcmd, hpayload] at hanswer
      omega
    · rw [hbytes, hdown]
      rfl
    · dsimp only
      rw [hpayload]
      omega
    · dsimp only
      rw [hpayload, hwritten]
      omega
  · rw [hbytes]
    exact List.append_ne_nil_of_right_ne_nil _ (List.cons_ne_nil _ _)

theorem lap_onTrack {u : Uart} (hu : Sound info B u) (h : OnTrack B u) (n : Nat) (tick : UInt16) :
    OnTrack B (u.lap program t_entry n tick) := by
  have hphase : (u.lap program t_entry n tick).phase = u.phase := rfl
  have hfailed : (u.lap program t_entry n tick).failed = u.failed := rfl
  have hwritten : (u.lap program t_entry n tick).written = u.written := rfl
  unfold OnTrack at h ⊢
  rw [hphase]
  cases hp : u.phase with
  | idle =>
    rw [hp] at h
    rcases h with hfail | hquiet
    · exact Or.inl (hfailed.trans hfail)
    · obtain ⟨hlnk, hfifo, hup, hdown, -, -⟩ :=
        lap_quiet program t_entry hu n tick hquiet.up hquiet.fifo
      exact Or.inr ⟨hup, hfifo, by rw [hlnk]; exact hquiet.link, hdown.trans hquiet.down⟩
  | writing started left rsp =>
    rw [hp] at h
    obtain ⟨hleft, hasking⟩ := h
    have hmore : u.up.drop n ++ left ≠ [] := List.append_ne_nil_of_right_ne_nil _ hleft
    exact ⟨hleft, lap_goes_on program t_entry hu n tick hasking hmore⟩
  | reading started r =>
    rw [hp] at h
    rcases h with ⟨hr, hasking⟩ | hanswered
    · rcases eq_or_ne (u.up.drop n) [] with hall | hmore
      · exact Or.inr (lap_answers program t_entry hu n tick hr hasking hall)
      · have hsome : u.up.drop n ++ [] ≠ [] := List.append_ne_nil_of_left_ne_nil hmore _
        exact Or.inl ⟨hr, lap_goes_on program t_entry hu n tick hasking hsome⟩
    · right
      obtain ⟨hlnk, hfifo, hup, hdown, hreplies, hsent⟩ :=
        lap_quiet program t_entry hu n tick hanswered.up hanswered.fifo
      refine ⟨hup, hfifo, by rw [hlnk]; exact hanswered.link, ?_, by rw [hdown]; exact hanswered.missing⟩
      rw [hdown, hreplies, hsent, hwritten]
      exact hanswered.answer

/-! ### Calls and writes -/

theorem call_asking {u : Uart} (hu : Sound info B u) (hquiet : Quiet u) {req rsp : List UInt8}
    (hproper : Proper u req rsp) : Asking B u u.written (request_bytes req) rsp.length := by
  obtain ⟨⟨cmd, payload, rfl, hroom⟩, hfits⟩ := hproper
  rw [hu.size] at hfits
  refine ⟨⟨cmd, payload, [], hfits, hroom, ⟨hu.good, hu.size, hquiet.link⟩, ?_, ?_⟩, ?_, hquiet.down⟩
  · rw [hquiet.fifo, hquiet.up]
    rfl
  · rfl
  · exact List.append_ne_nil_of_right_ne_nil _ (List.cons_ne_nil _ _)

theorem Asking.write {u : Uart} {started room : Nat} {left : List UInt8}
    (h : Asking B u started left room) (n : Nat) (phase : Phase) :
    Asking B { u with phase, up := u.up ++ left.take n, written := u.written + (left.take n).length }
      started (left.drop n) room := by
  have hline : u.main.fifo ++ (u.up ++ left.take n) ++ left.drop n = u.main.fifo ++ u.up ++ left := by
    simp only [List.append_assoc, List.take_append_drop]
  have hlength : (left.take n).length + (left.drop n).length = left.length := by
    rw [← List.length_append, List.take_append_drop]
  obtain ⟨⟨cmd, payload, got, hfits, hroom, hheard, hstream, hwhole⟩, hmissing, hdown⟩ := h
  refine ⟨⟨cmd, payload, got, hfits, hroom, hheard, ?_, ?_⟩, ?_, hdown⟩
  · dsimp only
    rw [hline]
    exact hstream
  · dsimp only
    omega
  · dsimp only
    rw [hline]
    exact hmissing

section Steps

variable {E : Type}

theorem set_poll_onTrack {u : Uart} (hu : Sound info B u) (h : OnTrack B u) (attempts : UInt32) :
    let u' := u.step program t_entry (.set_poll attempts : Move E)
    Sound info B u' ∧ OnTrack B u' := by
  unfold Uart.step
  dsimp only
  cases hp : u.phase with
  | idle =>
    unfold OnTrack at h
    rw [hp] at h
    refine ⟨hu.host _ _ _, ?_⟩
    rcases h with hfail | hquiet
    · exact Or.inl hfail
    · exact Or.inr ⟨hquiet.up, hquiet.fifo, hquiet.link, hquiet.down⟩
  | writing started left rsp => exact ⟨hu, h⟩
  | reading started r => exact ⟨hu, h⟩

theorem drain_onTrack {u : Uart} (hu : Sound info B u) (h : OnTrack B u) (n : Nat) :
    let u' := u.step program t_entry (.drain n : Move E)
    Sound info B u' ∧ OnTrack B u' := by
  have hsent := hu.sent
  have hlength : (u.down.take n).length + (u.down.drop n).length = u.down.length := by
    rw [← List.length_append, List.take_append_drop]
  unfold Uart.step
  dsimp only
  cases hp : u.phase with
  | idle =>
    unfold OnTrack at h
    rw [hp] at h
    refine ⟨⟨hu.settled, hu.good, hu.size, hu.written, by dsimp only; omega, hu.fresh⟩, ?_⟩
    rcases h with hfail | hquiet
    · exact Or.inl hfail
    · exact Or.inr ⟨hquiet.up, hquiet.fifo, hquiet.link, by rw [hquiet.down]; exact List.drop_nil⟩
  | writing started left rsp => exact ⟨hu, h⟩
  | reading started r => exact ⟨hu, h⟩

/-- An orderly call starts on a quiet line, whatever came before it. -/
theorem call_onTrack {u : Uart} (hu : Sound info B u) (h : OnTrack B u) {req rsp : List UInt8}
    (hcall : u.phase = .idle → Orderly u req rsp) :
    let u' := u.step program t_entry (.call req rsp : Move E)
    Sound info B u' ∧ OnTrack B u' := by
  unfold Uart.step
  dsimp only
  cases hp : u.phase with
  | idle =>
    obtain ⟨hproper, hclean⟩ := hcall hp
    have hquiet : Quiet u := by
      unfold OnTrack at h
      rw [hp] at h
      exact h.elim hclean id
    have hasking := call_asking hu hquiet hproper
    refine ⟨hu.host _ _ _, ?_⟩
    exact ⟨List.cons_ne_nil _ _, hasking.request, hasking.missing, hasking.down⟩
  | writing started left rsp => exact ⟨hu, h⟩
  | reading started r => exact ⟨hu, h⟩

theorem write_onTrack {u : Uart} (hu : Sound info B u) (h : OnTrack B u) (n : Nat) :
    let u' := u.step program t_entry (.write n : Move E)
    Sound info B u' ∧ OnTrack B u' := by
  unfold Uart.step
  dsimp only
  cases hp : u.phase with
  | idle => exact ⟨hu, h⟩
  | reading started r => exact ⟨hu, h⟩
  | writing started left rsp =>
    have hwritten := hu.written
    unfold OnTrack at h
    rw [hp] at h
    obtain ⟨hleft, hasking⟩ := h
    refine ⟨⟨hu.settled, hu.good, hu.size, ?_, hu.sent, hu.fresh⟩, ?_⟩
    · dsimp only
      rw [List.length_append]
      omega
    · unfold OnTrack
      dsimp only
      have hnext := hasking.write n
      rcases eq_or_ne (left.drop n) [] with hlast | hmore
      · rw [hlast] at hnext
        rw [if_pos hlast]
        exact Or.inl ⟨heard_new rsp, hnext _⟩
      · rw [if_neg hmore]
        exact ⟨hmore, hnext _⟩

/-! ### Reads -/

theorem idle_onTrack {u : Uart} (hu : Sound info B u) (h : OnTrack B u) {started : Nat} {r : Receiving}
    (hp : u.phase = .reading started r) (finish : Nat) :
    let read := read_turn (E := E) u.transport r (.ok [])
    let u' := Uart.turn u started finish read.1 read.2.1
    Sound info B u' ∧ OnTrack B u' := by
  unfold OnTrack at h
  rw [hp] at h
  have hcourse (r' : Receiving) (hrsp : r'.rsp.length = r.rsp.length)
      (hheard : ∀ got, r.Heard got → r'.Heard got) :
      OnTrack B { u with phase := .reading started r' } := by
    unfold OnTrack
    dsimp only
    rcases h with ⟨hr, hasking⟩ | hanswered
    · left
      rw [hrsp]
      exact ⟨hheard [] hr, ⟨hasking.request, hasking.missing, hasking.down⟩⟩
    · right
      obtain ⟨cmd, payload, got, hmax, hroom, hr, hstream, hanswer⟩ := hanswered.answer
      refine ⟨hanswered.up, hanswered.fifo, hanswered.link, ?_, hanswered.missing⟩
      exact ⟨cmd, payload, got, hmax, by rw [hrsp]; exact hroom, hheard got hr, hstream, hanswer⟩
  obtain ⟨r', hrsp, hheard, hagain | ⟨e, hfail⟩⟩ := read_turn_idle (E := E) u.transport r
  · rw [hagain]
    exact ⟨hu.host _ _ _, hcourse r' hrsp hheard⟩
  · rw [hfail]
    exact ⟨hu.host _ _ _, Or.inl rfl⟩

theorem chunk_onTrack {u : Uart} (hu : Sound info B u) {started : Nat} {r : Receiving}
    (h : Answered u started r) {chunk : List UInt8} (hchunk : chunk ≠ []) (hfront : chunk <+: u.down) :
    let read := read_turn (E := E) u.transport r (.ok chunk)
    let u' := Uart.turn { u with down := u.down.drop chunk.length, read := u.read + chunk.length }
      started (u.read + (chunk.length - read.2.2.length)) read.1 read.2.1
    Sound info B u' ∧ OnTrack B u' := by
  have hsplit : chunk ++ u.down.drop chunk.length = u.down := List.prefix_iff_eq_append.mp hfront
  have hcount : u.sent = u.read + chunk.length + (u.down.drop chunk.length).length := by
    rw [hu.sent, ← congrArg List.length hsplit, List.length_append]
    omega
  obtain ⟨cmd, payload, got, hmax, hroom, hr, hstream, a, ha, hfirst, hlast, hframe, hfinish⟩ := h.answer
  have hrest : SYNC :: wire cmd payload = got ++ chunk ++ u.down.drop chunk.length := by
    rw [List.append_assoc, hsplit]
    exact hstream
  obtain ⟨hgoes, hends⟩ := scan_chunk_heard (E := E) hmax u.transport chunk r got _ hr hrest hroom
  rw [read_turn_chunk u.transport r hchunk]
  rcases eq_or_ne (u.down.drop chunk.length) [] with hnone | hmore
  · obtain ⟨r', hscan, htaken⟩ := hends hnone hchunk
    rw [hscan]
    refine ⟨⟨hu.settled, hu.good, hu.size, hu.written, hcount, ?_⟩, ?_⟩
    · intro receipt hmem
      rcases List.mem_append.mp hmem with hold | hnew
      · exact hu.fresh receipt hold
      · obtain rfl := List.mem_singleton.mp hnew
        refine ⟨a, ha, hfirst, hlast, hframe.trans htaken.symm, ?_⟩
        rw [hnone] at hcount
        simp only [List.length_nil] at hcount ⊢
        omega
    · exact Or.inr ⟨h.up, h.fifo, h.link, hnone⟩
  · obtain ⟨r', hscan, hheard, hsame⟩ := hgoes hmore
    rw [hscan]
    refine ⟨⟨hu.settled, hu.good, hu.size, hu.written, hcount, hu.fresh⟩, Or.inr ?_⟩
    refine ⟨h.up, h.fifo, h.link, ⟨cmd, payload, got ++ chunk, hmax, ?_, hheard, ?_, ?_⟩, hmore⟩
    · rw [hsame]
      exact hroom
    · exact hrest
    · exact ⟨a, ha, hfirst, hlast, hframe, hfinish⟩

theorem read_onTrack {u : Uart} (hu : Sound info B u) (h : OnTrack B u) (n : Nat) :
    let u' := u.step program t_entry (.read n : Move E)
    Sound info B u' ∧ OnTrack B u' := by
  unfold Uart.step
  dsimp only
  cases hp : u.phase with
  | idle => exact ⟨hu, h⟩
  | writing started left rsp => exact ⟨hu, h⟩
  | reading started r =>
    dsimp only
    generalize hchunk : u.down.take (min n 32) = chunk
    have hfront : chunk <+: u.down := by
      rw [← hchunk]
      exact List.take_prefix _ _
    rcases eq_or_ne chunk [] with hnone | hsome
    · subst hnone
      exact idle_onTrack hu h hp _
    · unfold OnTrack at h
      rw [hp] at h
      rcases h with ⟨-, hasking⟩ | hanswered
      · rw [hasking.down] at hfront
        exact absurd (List.prefix_nil.mp hfront) hsome
      · exact chunk_onTrack hu hanswered hsome hfront

/-! ### Runs -/

theorem step_onTrack {u : Uart} (hu : Sound info B u) (h : OnTrack B u) (move : Move E)
    (hcall : ∀ req rsp, u.phase = .idle → move = .call req rsp → Orderly u req rsp) :
    let u' := u.step program t_entry move
    Sound info B u' ∧ OnTrack B u' := by
  cases move with
  | set_poll attempts => exact set_poll_onTrack program t_entry hu h attempts
  | drain n => exact drain_onTrack program t_entry hu h n
  | call req rsp => exact call_onTrack program t_entry hu h (fun hp => hcall req rsp hp rfl)
  | write n => exact write_onTrack program t_entry hu h n
  | writeFails e =>
    unfold Uart.step
    dsimp only
    cases u.phase with
    | idle => exact ⟨hu, h⟩
    | writing started left rsp => exact ⟨hu.host _ _ _, Or.inl rfl⟩
    | reading started r => exact ⟨hu, h⟩
  | read n => exact read_onTrack program t_entry hu h n
  | readFails e =>
    unfold Uart.step
    dsimp only
    cases u.phase with
    | idle => exact ⟨hu, h⟩
    | writing started left rsp => exact ⟨hu, h⟩
    | reading started r => exact ⟨hu.host _ _ _, Or.inl rfl⟩
  | lap n tick =>
    exact ⟨(lap_line program t_entry hu n tick).1, lap_onTrack program t_entry hu h n tick⟩

theorem run_onTrack (moves : List (Move E)) {u : Uart} (hu : Sound info B u) (h : OnTrack B u)
    (hcalls : AtCalls program t_entry Orderly u moves) :
    let u' := u.run program t_entry moves
    Sound info B u' ∧ OnTrack B u' := by
  induction moves generalizing u with
  | nil => exact ⟨hu, h⟩
  | cons move moves ih =>
    obtain ⟨hnext, htrack⟩ := step_onTrack program t_entry hu h move (fun req rsp hp hmove =>
      hcalls 0 req rsp (by rw [hmove]; rfl) hp)
    exact ih hnext htrack (fun i => hcalls (i + 1))

end Steps

end Course

/-- Every result of an orderly run is fresh: from the device's reset on, through errors and retries. -/
theorem receipts_fresh {E : Type} (transport : UartTransport) (program : Program) (t_entry : UInt16)
    (info : PortInfo) (rx : List UInt8) (rx_size : UInt8) (hrx : rx.length = rx_size.toNat)
    (entry : Bool) (flash : Flash) (moves : List (Move E))
    (hcalls : AtCalls program t_entry Orderly
      (.start transport (main_init info rx rx_size entry) flash) moves) :
    let u := Uart.run program t_entry (.start transport (main_init info rx rx_size entry) flash) moves
    ∀ r ∈ u.receipts, Fresh u.replies r := by
  have hstart : Sound info rx_size.toNat (.start transport (main_init info rx rx_size entry) flash) := {
    settled := ⟨rfl, rfl, List.length_replicate⟩
    good := link_init_good rx rx_size hrx
    size := rfl
    written := rfl
    sent := rfl
    fresh := by
      intro r hr
      cases hr }
  exact (run_onTrack program t_entry moves hstart (Or.inr ⟨rfl, rfl, rfl, rfl⟩) hcalls).1.fresh

def benchStart : Uart :=
  .start .new (main_init { page_size := 16, app_pages := 1, device_id := #v[0, 0, 0, 0], bl_version := 0 }
    (List.replicate 136 0) 136 true) (fun _ => 0xFF)

/-- An ECHO request that times out and is answered after that, then, with `between`, the very same
request again. -/
def resent (between : List (Move Unit)) : List (Move Unit) :=
  [.set_poll 1, .call (wire CMD_ECHO [0xAA]) (List.replicate 20 0), .write 5, .read 32, .lap 5 0] ++
    (between ++ [.call (wire CMD_ECHO [0xAA]) (List.replicate 20 0), .write 5, .lap 5 0, .read 32])

theorem receipts_fresh_drained :
    let u := benchStart.run store 300 (resent [.drain 32])
    (∃ r, u.receipts = [r]) ∧ ∀ r ∈ u.receipts, Fresh u.replies r := by
  have hreceived : (benchStart.run store 300 (resent [.drain 32])).receipts =
      [{ started := 5, ended := 10, frame := wire (CMD_ECHO ||| RSP_FLAG) [0, 0xAA], finish := 12 }] := by
    decide +kernel
  refine ⟨⟨_, hreceived⟩, ?_⟩
  apply receipts_fresh .new store 300 _ _ 136 List.length_replicate true _ (resent [.drain 32])
  rintro (_ | _ | _ | _ | _ | _ | _ | _ | _ | _ | i) req rsp hmove hidle
  case succ.zero =>
    obtain ⟨rfl, rfl⟩ : wire CMD_ECHO [0xAA] = req ∧ List.replicate 20 0 = rsp := by
      simpa [resent] using hmove
    refine ⟨⟨⟨CMD_ECHO, [0xAA], rfl, by decide⟩, by decide⟩, ?_⟩
    intro hfailed
    cases hfailed
  case succ.succ.succ.succ.succ.succ.zero =>
    obtain ⟨rfl, rfl⟩ : wire CMD_ECHO [0xAA] = req ∧ List.replicate 20 0 = rsp := by
      simpa [resent] using hmove
    refine ⟨⟨⟨CMD_ECHO, [0xAA], rfl, by decide⟩, by decide +kernel⟩, fun _ => ?_⟩
    exact ⟨by decide +kernel, by decide +kernel, by decide +kernel, by decide +kernel⟩
  all_goals simp [resent] at hmove

/-- Otherwise the late answer to the first call becomes the result of the second one. -/
theorem receipts_stale :
    ¬ ∀ moves : List (Move Unit), AtCalls store 300 Proper benchStart moves →
      ∀ r ∈ (benchStart.run store 300 moves).receipts,
        Fresh (benchStart.run store 300 moves).replies r := by
  intro hclaim
  have hreceived : (benchStart.run store 300 (resent [])).receipts =
      [{ started := 5, ended := 10, frame := wire (CMD_ECHO ||| RSP_FLAG) [0, 0xAA], finish := 6 }] := by
    decide +kernel
  have hreplied : (benchStart.run store 300 (resent [])).replies =
      [{ sync := 0, frame := wire (CMD_ECHO ||| RSP_FLAG) [0, 0xAA], finish := 6 },
        { sync := 5, frame := wire (CMD_ECHO ||| RSP_FLAG) [0, 0xAA], finish := 12 }] := by
    decide +kernel
  have hproper : AtCalls store 300 Proper benchStart (resent []) := by
    rintro (_ | _ | _ | _ | _ | _ | _ | _ | _ | i) req rsp hmove hidle
    case succ.zero =>
      obtain ⟨rfl, rfl⟩ : wire CMD_ECHO [0xAA] = req ∧ List.replicate 20 0 = rsp := by
        simpa [resent] using hmove
      exact ⟨⟨CMD_ECHO, [0xAA], rfl, by decide⟩, by decide +kernel⟩
    case succ.succ.succ.succ.succ.zero =>
      obtain ⟨rfl, rfl⟩ : wire CMD_ECHO [0xAA] = req ∧ List.replicate 20 0 = rsp := by
        simpa [resent] using hmove
      exact ⟨⟨CMD_ECHO, [0xAA], rfl, by decide⟩, by decide +kernel⟩
    all_goals simp [resent] at hmove
  have hfresh := hclaim (resent []) hproper
  rw [hreceived, hreplied] at hfresh
  obtain ⟨a, ha, hstarted, -, -, hfinish⟩ := hfresh _ (List.mem_singleton_self _)
  rcases List.mem_cons.mp ha with rfl | hlast
  · exact absurd hstarted (by decide)
  · obtain rfl := List.mem_singleton.mp hlast
    exact absurd hfinish (by decide)

end OtaUpdater.System
