import Mathlib.Data.List.GetD
import OtaUpdater.Lib.Lag
import OtaUpdater.Lib.Bytes

/-!
# The SPI client's pump (`spi_pump.h`, `spi_pump.c`)

The host's clock moves both directions at once, so a byte is staked one exchange ahead.
-/

open OtaUpdater.Lib.Lag OtaUpdater.Lib.Bytes

namespace OtaUpdater.Device.Spi

def SPI_PUMP_IDLE : UInt8 := 0x00

/-! ## The data register -/

/-- What the ops work on: `shift` goes out during the next exchange. Behind it, all that was
staked and all that the host has seen. -/
structure Register where
  shift : UInt8
  done : Bool
  mosi : UInt8
  written : List UInt8
  miso : List UInt8
deriving DecidableEq

/-- Before the first exchange; what the register holds is undefined. -/
def Register.powerUp (shift mosi : UInt8) : Register :=
  { shift, done := false, mosi, written := [], miso := [] }

def xfer_done (r : Register) : Bool := r.done

def data_read (r : Register) : UInt8 × Register := (r.mosi, { r with done := false })

def data_write (b : UInt8) (r : Register) : Register :=
  { r with shift := b, written := r.written ++ [b] }

/-- The host clocks one byte each way. -/
def exchange (mosi : UInt8) (r : Register) : Register :=
  { r with miso := r.miso ++ [r.shift], mosi, done := true }

/-! ## The pump -/

/-- `spi_pump_t`, with the buffer that `tx_buf` points at. -/
structure SpiPump where
  tx_buf : List UInt8
  tx_cap : UInt8
  tx_len : UInt8
  tx_idx : UInt8
  staked_from_queue : Bool
deriving DecidableEq

structure Client where
  pump : SpiPump
  reg : Register
deriving DecidableEq

def next_out (p : SpiPump) : UInt8 × SpiPump :=
  if p.tx_idx < p.tx_len then
    (p.tx_buf.getD p.tx_idx.toNat 0, { p with staked_from_queue := true, tx_idx := p.tx_idx + 1 })
  else (SPI_PUMP_IDLE, { p with staked_from_queue := false })

def pump_get (c : Client) : Option UInt8 × Client :=
  if !xfer_done c.reg then (none, c)
  else
    let (b, reg) := data_read c.reg
    let (out, pump) := next_out c.pump
    (some b, { pump, reg := data_write out reg })

/-- Beyond the buffer, a byte is dropped. -/
def pump_put (b : UInt8) (p : SpiPump) : SpiPump :=
  if p.tx_len < p.tx_cap then
    { p with tx_buf := p.tx_buf.set p.tx_len.toNat b, tx_len := p.tx_len + 1 }
  else p

def spi_pump_init (tx_buf : List UInt8) (tx_cap : UInt8) (reg : Register) : Client where
  pump := { tx_buf, tx_cap, tx_len := 0, tx_idx := 0, staked_from_queue := false }
  reg := data_write SPI_PUMP_IDLE reg

def spi_pump_tx_clear (p : SpiPump) : SpiPump := { p with tx_len := 0, tx_idx := 0 }

def spi_pump_tx_idle (p : SpiPump) : Bool := p.tx_idx == p.tx_len && !p.staked_from_queue

/-! ## Runs -/

inductive SpiMove where
  | put_byte (b : UInt8)
  | tx_clear
  | exchange (mosi : UInt8)
  | get_byte
deriving DecidableEq

def spiStep (c : Client) : SpiMove → Client
  | .put_byte b => { c with pump := pump_put b c.pump }
  | .tx_clear => { c with pump := spi_pump_tx_clear c.pump }
  | .exchange mosi => { c with reg := exchange mosi c.reg }
  | .get_byte => (pump_get c).2

def spiRun (c : Client) (moves : List SpiMove) : Client := moves.foldl spiStep c

def SpiMove.lag : SpiMove → Move UInt8
  | .put_byte b => .put b
  | .tx_clear => .clear
  | .exchange _ => .send
  | .get_byte => .stake

/-- From `n` bytes on, no more than `cap` are put between two clears. -/
def Room (cap : Nat) : Nat → List SpiMove → Prop
  | _, [] => True
  | n, .put_byte _ :: rest => n < cap ∧ Room cap (n + 1) rest
  | _, .tx_clear :: rest => Room cap 0 rest
  | n, .exchange _ :: rest => Room cap n rest
  | n, .get_byte :: rest => Room cap n rest

/-! ## The queue that the pump keeps -/

/-- After `n` puts since the last clear, the pump and its register stand for the queue `q`. -/
structure Tracks (n : Nat) (c : Client) (q : Outbox UInt8) : Prop where
  room : n ≤ c.pump.tx_cap.toNat ∧ c.pump.tx_cap.toNat ≤ c.pump.tx_buf.length
  len : c.pump.tx_len.toNat = n
  idx : c.pump.tx_idx.toNat ≤ n
  waiting : q.waiting = (c.pump.tx_buf.take n).drop c.pump.tx_idx.toNat
  staked : q.staked = if c.pump.staked_from_queue then some c.reg.shift else none
  idle : c.pump.staked_from_queue = false → c.reg.shift = SPI_PUMP_IDLE
  unsent : q.unsent = !c.reg.done
  miso : c.reg.miso = q.sent.map (·.getD SPI_PUMP_IDLE)
  written : c.reg.written = c.reg.miso ++ if c.reg.done then [] else [c.reg.shift]
  first : c.reg.written.head? = some SPI_PUMP_IDLE

section Tracks

variable {n : Nat} {c : Client} {q : Outbox UInt8}

theorem Tracks.shift (h : Tracks n c q) : q.staked.getD SPI_PUMP_IDLE = c.reg.shift := by
  rw [h.staked]
  split_ifs with hqueue
  · rfl
  · exact (h.idle (Bool.not_eq_true _ ▸ hqueue)).symm

theorem spi_pump_init_tracks (tx_buf : List UInt8) (tx_cap shift mosi : UInt8)
    (hbuf : tx_cap.toNat ≤ tx_buf.length) :
    Tracks 0 (spi_pump_init tx_buf tx_cap (.powerUp shift mosi)) .empty where
  room := ⟨Nat.zero_le _, hbuf⟩
  len := rfl
  idx := Nat.le_refl _
  waiting := rfl
  staked := rfl
  idle := fun _ => rfl
  unsent := rfl
  miso := rfl
  written := rfl
  first := rfl

theorem pump_put_tracks (h : Tracks n c q) (b : UInt8) (hroom : n < c.pump.tx_cap.toNat) :
    Tracks (n + 1) (spiStep c (.put_byte b)) (q.step (.put b)) := by
  have hcap := c.pump.tx_cap.toNat_lt
  have hlen := h.len
  have hlt : c.pump.tx_len < c.pump.tx_cap := by
    rw [UInt8.lt_iff_toNat_lt, hlen]
    exact hroom
  have hput : pump_put b c.pump =
      { c.pump with tx_buf := c.pump.tx_buf.set n b, tx_len := c.pump.tx_len + 1 } := by
    unfold pump_put
    rw [if_pos hlt, hlen]
  unfold spiStep
  dsimp only
  rw [hput]
  refine ⟨⟨hroom, ?_⟩, ?_, ?_, ?_, h.staked, h.idle, h.unsent, h.miso, h.written, h.first⟩
  · rw [List.length_set]
    exact h.room.2
  · rw [succ_toNat8 (by omega), hlen]
  · exact Nat.le_succ_of_le h.idx
  · have hbuf := h.room.2
    have hidx := h.idx
    change q.waiting ++ [b] = ((c.pump.tx_buf.set n b).take (n + 1)).drop c.pump.tx_idx.toNat
    rw [take_set_succ _ _ _ (by omega), List.drop_append_of_le_length, h.waiting]
    rw [List.length_take]
    omega

theorem tx_clear_tracks (h : Tracks n c q) : Tracks 0 (spiStep c .tx_clear) (q.step .clear) where
  room := ⟨Nat.zero_le _, h.room.2⟩
  len := rfl
  idx := Nat.le_refl _
  waiting := rfl
  staked := h.staked
  idle := h.idle
  unsent := h.unsent
  miso := h.miso
  written := h.written
  first := h.first

theorem exchange_tracks (h : Tracks n c q) (mosi : UInt8) (hunsent : q.unsent = true) :
    Tracks n (spiStep c (.exchange mosi)) (q.step .send) := by
  have hdone : c.reg.done = false := by
    have hsame := h.unsent
    rw [hunsent] at hsame
    exact Bool.not_eq_true' _ ▸ hsame.symm
  refine ⟨h.room, h.len, h.idx, h.waiting, h.staked, h.idle, rfl, ?_, ?_, h.first⟩
  · change c.reg.miso ++ [c.reg.shift] = (q.sent ++ [q.staked]).map _
    rw [List.map_append, ← h.miso, List.map_singleton, h.shift]
  · change c.reg.written = c.reg.miso ++ [c.reg.shift] ++ []
    rw [h.written, hdone, List.append_nil]
    rfl

theorem next_out_queued (h : Tracks n c q) (hlt : c.pump.tx_idx.toNat < n) :
    ∃ b, q.waiting = b :: (c.pump.tx_buf.take n).drop (c.pump.tx_idx.toNat + 1) ∧
      next_out c.pump =
        (b, { c.pump with staked_from_queue := true, tx_idx := c.pump.tx_idx + 1 }) := by
  have hbuf := h.room
  have hlength : (c.pump.tx_buf.take n).length = n := List.length_take_of_le (by omega)
  refine ⟨c.pump.tx_buf.getD c.pump.tx_idx.toNat 0, ?_, ?_⟩
  · rw [h.waiting, List.drop_eq_getElem_cons (by omega), ← getD_take _ _ _ _ hlt,
      List.getD_eq_getElem _ _ (by omega)]
  · unfold next_out
    rw [if_pos]
    rw [UInt8.lt_iff_toNat_lt, h.len]
    exact hlt

theorem next_out_dry (h : Tracks n c q) (hge : ¬ c.pump.tx_idx.toNat < n) :
    q.waiting = [] ∧ next_out c.pump = (SPI_PUMP_IDLE, { c.pump with staked_from_queue := false }) := by
  constructor
  · rw [h.waiting, List.drop_eq_nil_iff, List.length_take]
    omega
  · unfold next_out
    rw [if_neg]
    rw [UInt8.lt_iff_toNat_lt, h.len]
    exact hge

theorem pump_get_tracks (h : Tracks n c q) : Tracks n (spiStep c .get_byte) (q.step .stake) := by
  have hunsent := h.unsent
  cases hdone : c.reg.done with
  | false =>
    rw [hdone] at hunsent
    have hsame : spiStep c .get_byte = c := by
      unfold spiStep pump_get xfer_done
      simp [hdone]
    have hstep : q.step .stake = q := by
      unfold Outbox.step
      simp [hunsent]
    rw [hsame, hstep]
    exact h
  | true =>
    rw [hdone] at hunsent
    have hget : spiStep c .get_byte =
        { pump := (next_out c.pump).2
          reg := data_write (next_out c.pump).1 { c.reg with done := false } } := by
      unfold spiStep pump_get xfer_done
      simp [hdone, data_read]
    have hstep : q.step .stake =
        { q with waiting := q.waiting.tail, staked := q.waiting.head?, unsent := true } := by
      unfold Outbox.step
      simp [hunsent]
    have hwritten : ∀ b, c.reg.written ++ [b] = c.reg.miso ++ [b] := by
      intro b
      rw [h.written, hdone, if_pos rfl, List.append_nil]
    have hfirst : ∀ b, (c.reg.written ++ [b]).head? = some SPI_PUMP_IDLE := by
      intro b
      rw [List.head?_append, h.first]
      rfl
    rw [hget, hstep]
    by_cases hlt : c.pump.tx_idx.toNat < n
    · obtain ⟨b, hwaiting, hout⟩ := next_out_queued h hlt
      have hcap := c.pump.tx_cap.toNat_lt
      have hroom := h.room.1
      have hidx : (c.pump.tx_idx + 1).toNat = c.pump.tx_idx.toNat + 1 := succ_toNat8 (by omega)
      rw [hout, hwaiting]
      refine ⟨h.room, h.len, ?_, ?_, rfl, ?_, rfl, h.miso, hwritten b, hfirst b⟩
      · change (c.pump.tx_idx + 1).toNat ≤ n
        omega
      · change _ = (c.pump.tx_buf.take n).drop (c.pump.tx_idx + 1).toNat
        rw [hidx]
        rfl
      · intro hfalse
        cases hfalse
    · obtain ⟨hwaiting, hout⟩ := next_out_dry h hlt
      rw [hout, hwaiting]
      refine ⟨h.room, h.len, h.idx, ?_, rfl, fun _ => rfl, rfl, h.miso, hwritten _, hfirst _⟩
      exact hwaiting.symm.trans h.waiting

theorem tx_idle_iff (h : Tracks n c q) :
    spi_pump_tx_idle c.pump = true ↔ q.waiting = [] ∧ q.staked = none := by
  have hbuf := h.room
  have hidx := h.idx
  have hdrained : c.pump.tx_idx = c.pump.tx_len ↔ q.waiting = [] := by
    rw [← UInt8.toNat_inj, h.len, h.waiting, List.drop_eq_nil_iff, List.length_take]
    omega
  have hstaked : c.pump.staked_from_queue = false ↔ q.staked = none := by
    rw [h.staked]
    cases c.pump.staked_from_queue <;> simp
  unfold spi_pump_tx_idle
  rw [Bool.and_eq_true, beq_iff_eq, Bool.not_eq_true', hdrained, hstaked]

end Tracks

/-! ## Every run -/

theorem spiStep_cap (c : Client) (m : SpiMove) :
    (spiStep c m).pump.tx_cap = c.pump.tx_cap := by
  cases m with
  | put_byte b =>
    change (pump_put b c.pump).tx_cap = _
    unfold pump_put
    split_ifs <;> rfl
  | tx_clear => rfl
  | exchange mosi => rfl
  | get_byte =>
    unfold spiStep pump_get next_out
    dsimp only
    split_ifs <;> rfl

theorem spiRun_tracks {cap : Nat} (moves more : List SpiMove) {n : Nat} {c : Client} {q : Outbox UInt8}
    (h : Tracks n c q) (hcap : c.pump.tx_cap.toNat = cap)
    (hpaced : Paced q.unsent ((moves ++ more).map SpiMove.lag)) (hroom : Room cap n (moves ++ more)) :
    ∃ n', Tracks n' (spiRun c moves) (q.run (moves.map SpiMove.lag)) ∧
      (spiRun c moves).pump.tx_cap.toNat = cap ∧
      Paced (q.run (moves.map SpiMove.lag)).unsent (more.map SpiMove.lag) ∧ Room cap n' more := by
  induction moves generalizing n c q with
  | nil => exact ⟨n, h, hcap, hpaced, hroom⟩
  | cons m rest ih =>
    have hcap' : (spiStep c m).pump.tx_cap.toNat = cap := by
      rw [spiStep_cap, hcap]
    rw [List.map_cons, run_cons]
    cases m with
    | put_byte b =>
      obtain ⟨hlt, hrest⟩ := hroom
      exact ih (pump_put_tracks h b (by omega)) hcap' hpaced hrest
    | tx_clear => exact ih (tx_clear_tracks h) hcap' hpaced hroom
    | exchange mosi =>
      obtain ⟨hunsent, hpaced⟩ := hpaced
      exact ih (exchange_tracks h mosi hunsent) hcap' hpaced hroom
    | get_byte =>
      refine ih (pump_get_tracks h) hcap' ?_ hroom
      change Paced (q.step .stake).unsent ((rest ++ more).map SpiMove.lag)
      rw [stake_unsent]
      exact hpaced

/-- At any point of a run, `q` is the queue as the calls before it left it. The host sees each byte
one exchange after it was staked. Up to the next clear it sees what stands in line, with nothing in
between, and behind it what is put from then on, in order and each byte once; all other bytes are
idle. A clear takes away what waits, but not what is staked. -/
theorem spi_pump_output (tx_buf : List UInt8) (tx_cap shift mosi : UInt8)
    (hbuf : tx_cap.toNat ≤ tx_buf.length) (before after : List SpiMove)
    (hpaced : Paced true ((before ++ after).map SpiMove.lag))
    (hroom : Room tx_cap.toNat 0 (before ++ after)) (hclear : .tx_clear ∉ after) :
    let c := spiRun (spi_pump_init tx_buf tx_cap (.powerUp shift mosi)) before
    let c' := spiRun c after
    let q := Outbox.empty.run (before.map SpiMove.lag)
    let q' := q.run (after.map SpiMove.lag)
    (c.reg.written.head? = some 0x00 ∧
      c.reg.written = c.reg.miso ++ if c.reg.done then [] else [c.reg.shift]) ∧
    (c.reg.shift = q.staked.getD 0x00 ∧ c.reg.miso = q.sent.map (·.getD 0x00)) ∧
    (∃ out, c'.reg.miso = c.reg.miso ++ out.map (·.getD 0x00) ∧
      out.reduceOption ++ q'.line.reduceOption = q.line.reduceOption ++ puts (after.map SpiMove.lag) ∧
      (out <+: q.line ∨ q.line <+: out)) ∧
    (q.run [.clear]).line = q.line.take (if c.reg.done then 0 else 1) ∧
    (spi_pump_tx_idle c.pump = true ↔ q.waiting = [] ∧ q.staked = none) := by
  obtain ⟨n, h, hcap, hpaced', hroom'⟩ := spiRun_tracks before after
    (spi_pump_init_tracks tx_buf tx_cap shift mosi hbuf) rfl hpaced hroom
  intro c c' q q'
  obtain ⟨n', h', -⟩ := spiRun_tracks after [] h hcap (by rwa [List.append_nil]) (by rwa [List.append_nil])
  have hclear' : Move.clear ∉ after.map SpiMove.lag := by
    intro hmem
    obtain ⟨m, hm, hlag⟩ := List.mem_map.mp hmem
    cases m with
    | tx_clear => exact hclear hm
    | put_byte b => cases hlag
    | exchange b => cases hlag
    | get_byte => cases hlag
  obtain ⟨out, hsent, hall, hprefix⟩ := run_delivers (after.map SpiMove.lag) q hpaced' hclear'
  refine ⟨⟨h.first, h.written⟩, ⟨h.shift.symm, h.miso⟩, ⟨out, ?_, hall, hprefix⟩, ?_, tx_idle_iff h⟩
  · have hmiso : c'.reg.miso = q'.sent.map (·.getD SPI_PUMP_IDLE) := h'.miso
    rw [hmiso, hsent, List.map_append, ← h.miso]
    rfl
  · have hunsent : q.unsent = !c.reg.done := h.unsent
    unfold Outbox.line Outbox.run Outbox.step
    simp only [List.foldl_cons, List.foldl_nil, List.map_nil, List.append_nil, hunsent]
    cases c.reg.done with
    | true => rfl
    | false => rfl

/-- A clear between the staking of 0x7E and its exchange, and then two bytes and a late third. -/
theorem spi_pump_output_clear :
    let before : List SpiMove := [.put_byte 0x7E, .put_byte 1, .exchange 0xAA, .get_byte, .tx_clear,
      .put_byte 2, .put_byte 3]
    let after : List SpiMove := [.exchange 0, .get_byte, .exchange 0, .put_byte 4, .get_byte]
    let c := spiRun (spi_pump_init [9, 9, 9] 3 (.powerUp 0xEE 0xEE)) before
    let c' := spiRun c after
    let q := Outbox.empty.run (before.map SpiMove.lag)
    let q' := q.run (after.map SpiMove.lag)
    (c.reg.written.head? = some 0x00 ∧
      c.reg.written = c.reg.miso ++ if c.reg.done then [] else [c.reg.shift]) ∧
    (c.reg.shift = q.staked.getD 0x00 ∧ c.reg.miso = q.sent.map (·.getD 0x00)) ∧
    (∃ out, c'.reg.miso = c.reg.miso ++ out.map (·.getD 0x00) ∧
      out.reduceOption ++ q'.line.reduceOption = q.line.reduceOption ++ puts (after.map SpiMove.lag) ∧
      (out <+: q.line ∨ q.line <+: out)) ∧
    (q.run [.clear]).line = q.line.take (if c.reg.done then 0 else 1) ∧
    (spi_pump_tx_idle c.pump = true ↔ q.waiting = [] ∧ q.staked = none) := by
  intro before after
  apply spi_pump_output [9, 9, 9] 3 0xEE 0xEE (by decide) before after
  · simp [before, after, SpiMove.lag, Paced]
  · simp [before, after, Room]
  · simp [after]

end OtaUpdater.Device.Spi
