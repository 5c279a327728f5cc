import OtaUpdater.System.LineUpdate

/-!
# Updates without a failed call

As long as no call fails, each gets the answer to its own request. Then an update of a
device that fits the image cannot fail either.
-/

open OtaUpdater.Lib.Mealy OtaUpdater.Lib.Repeat OtaUpdater.Lib.State OtaUpdater.Wire OtaUpdater.Device
open OtaUpdater.Host OtaUpdater.Agreement

namespace OtaUpdater.System

/-! ## The course of one call -/

/-- A call that began with `receipts` behind it: it goes on, has failed, or has one receipt more. -/
def InCall (started : Nat) (receipts : List Receipt) (u : Uart) : Prop :=
  match u.phase with
  | .idle => (u.failed = true ∧ u.receipts = receipts) ∨
      u.failed = false ∧ ∃ r : Receipt, r.started = started ∧ u.receipts = receipts ++ [r]
  | .writing s _ _ | .reading s _ => s = started ∧ u.receipts = receipts

/-- The sync byte of every answered request has been polled. -/
def Past (u : Uart) : Prop := ∀ a ∈ u.replies, a.sync < u.polled

section Call

variable (program : Program) (t_entry : UInt16) {started : Nat} {receipts : List Receipt}

theorem turn_inCall (u : Uart) (finish : Nat) (turn : Turn Unit) (r : Receiving)
    (hreceipts : u.receipts = receipts) : InCall started receipts (Uart.turn u started finish turn r) := by
  cases turn with
  | again => exact ⟨rfl, hreceipts⟩
  | fail e => exact Or.inl ⟨rfl, hreceipts⟩
  | done len => exact Or.inr ⟨rfl, _, rfl, congrArg (· ++ _) hreceipts⟩

theorem step_inCall {u : Uart} (h : InCall started receipts u) (move : Move Unit) (hmove : move.Patient) :
    InCall started receipts (u.step program t_entry move) := by
  have hin := h
  unfold InCall at h
  cases move with
  | call req rsp => exact hmove.elim
  | writeFails e => exact hmove.elim
  | lap n tick => exact hin
  | set_poll attempts =>
    unfold Uart.step
    cases hp : u.phase with
    | idle =>
      rw [hp] at h
      unfold InCall
      dsimp only
      exact h
    | writing s left rsp => exact hin
    | reading s r => exact hin
  | drain n =>
    unfold Uart.step
    cases hp : u.phase with
    | idle =>
      rw [hp] at h
      unfold InCall
      dsimp only
      exact h
    | writing s left rsp => exact hin
    | reading s r => exact hin
  | write n =>
    unfold Uart.step
    cases hp : u.phase with
    | idle => exact hin
    | reading s r => exact hin
    | writing s left rsp =>
      rw [hp] at h
      unfold InCall
      dsimp only
      split_ifs
      · exact h
      · exact h
  | read n =>
    unfold Uart.step
    cases hp : u.phase with
    | idle => exact hin
    | writing s left rsp => exact hin
    | reading s r =>
      rw [hp] at h
      obtain ⟨rfl, hreceipts⟩ := h
      exact turn_inCall _ _ _ _ hreceipts
  | readFails e =>
    unfold Uart.step
    cases hp : u.phase with
    | idle => exact hin
    | writing s left rsp => exact hin
    | reading s r =>
      rw [hp] at h
      obtain ⟨rfl, hreceipts⟩ := h
      exact turn_inCall _ _ _ _ hreceipts

theorem run_inCall {u : Uart} (h : InCall started receipts u) (moves : List (Move Unit))
    (hmoves : ∀ move ∈ moves, move.Patient) : InCall started receipts (u.run program t_entry moves) := by
  induction moves generalizing u with
  | nil => exact h
  | cons move moves ih =>
    exact ih (step_inCall program t_entry h move (hmoves move List.mem_cons_self))
      (fun m hm => hmoves m (List.mem_cons_of_mem _ hm))

theorem turn_past (u : Uart) (s finish : Nat) (turn : Turn Unit) (r : Receiving) (h : Past u) :
    Past (Uart.turn u s finish turn r) := by
  cases turn <;> exact h

theorem lap_past {u : Uart} (h : Past u) (n : Nat) (tick : UInt16) : Past (u.lap program t_entry n tick) := by
  have hless := link_poll_rest_length u.main.lnk (u.main.fifo ++ u.up.take n)
  unfold Past Uart.lap
  dsimp only
  generalize link_poll u.main.lnk (u.main.fifo ++ u.up.take n) = polled at hless ⊢
  generalize lapStep program t_entry (u.main, u.flash) (u.up.take n, tick) = r
  obtain ⟨out, lnk, rest⟩ := polled
  obtain ⟨events, main, flash⟩ := r
  dsimp only at hless ⊢
  intro a ha
  rcases List.mem_append.mp ha with hold | hnew
  · have := h a hold
    omega
  · cases out with
    | none => cases hnew
    | some req =>
      rw [List.mem_singleton.mp hnew]
      have := hless rfl
      dsimp only
      omega

theorem step_past {u : Uart} (h : Past u) (move : Move Unit) : Past (u.step program t_entry move) := by
  cases move with
  | lap n tick => exact lap_past program t_entry h n tick
  | set_poll attempts => unfold Uart.step; cases u.phase <;> exact h
  | drain n => unfold Uart.step; cases u.phase <;> exact h
  | call req rsp => unfold Uart.step; cases u.phase <;> exact h
  | write n => unfold Uart.step; cases u.phase <;> exact h
  | writeFails e => unfold Uart.step; cases u.phase <;> exact h
  | read n =>
    unfold Uart.step
    cases u.phase with
    | idle => exact h
    | writing s left rsp => exact h
    | reading s r => exact turn_past _ _ _ _ _ h
  | readFails e =>
    unfold Uart.step
    cases u.phase with
    | idle => exact h
    | writing s left rsp => exact h
    | reading s r => exact turn_past _ _ _ _ _ h

theorem run_past {u : Uart} (h : Past u) (moves : List (Move Unit)) :
    Past (u.run program t_entry moves) := by
  induction moves generalizing u with
  | nil => exact h
  | cons move moves ih => exact ih (step_past program t_entry h move)

theorem call_inCall {u : Uart} (hidle : u.phase = .idle) (req rsp : List UInt8) :
    InCall u.written u.receipts (u.step program t_entry (.call req rsp : Move Unit)) := by
  unfold Uart.step
  rw [hidle]
  exact ⟨rfl, rfl⟩

theorem InCall.receipt {u : Uart} (h : InCall started receipts u) (hidle : u.phase = .idle)
    (hfailed : u.failed = false) : ∃ r : Receipt, r.started = started ∧ u.receipts = receipts ++ [r] := by
  unfold InCall at h
  rw [hidle] at h
  rcases h with ⟨htrue, -⟩ | ⟨-, hreceipt⟩
  · rw [hfailed] at htrue
    cases htrue
  · exact hreceipt

end Call

/-! ## Calls on a quiet line -/

/-- Nothing is under way between two calls, and the device is in update mode. -/
structure Calling (info : PortInfo) (B : Nat) (u : Uart) : Prop where
  sound : Sound info B u
  quiet : Quiet u
  idle : u.phase = .idle
  resident : u.main.resident = true
  past : Past u

section Quiet

variable {info : PortInfo} {B : Nat} (program : Program) (t_entry : UInt16)

theorem Calling.coming {u : Uart} (h : Calling info B u) : u.ahead = ([], u.main.lnk) := by
  unfold Uart.ahead Uart.coming
  rw [h.quiet.fifo, h.quiet.up, h.idle]
  rfl

theorem Calling.waiting {u : Uart} (h : Calling info B u) : Waiting info B u where
  idle := h.idle
  updating := by
    refine ⟨h.sound.settled, h.resident, ?_⟩
    rw [h.coming]
    intro req hreq
    cases hreq
  whole := by
    rw [h.coming]
    exact ⟨h.sound.good, h.sound.size, h.quiet.link⟩

structure Underway (info : PortInfo) (B : Nat) (program : Program) (began u : Uart) : Prop where
  sound : Sound info B u
  track : OnTrack B u
  call : InCall began.written began.receipts u
  past : Past u
  updating : Updating info u
  serving : Serving program began u

theorem underway_begins {u : Uart} (hu : Calling info B u) {cmd : UInt8} {payload rsp : List UInt8}
    {req : UpdFrame} (hcmd : req.cmd = cmd) (hpayload : req.payload = payload) (hboot : cmd ≠ UPD_CMD_BOOT)
    (hfits : (wire cmd payload).length ≤ B) (hroom : answerRoom cmd payload + 3 ≤ rsp.length) :
    let began := u.step program t_entry (.call (wire cmd payload) rsp : Move Unit)
    Underway info B program began began ∧ began.ahead.1 = [req] ∧
      began = { u with phase := .writing u.written (request_bytes (wire cmd payload)) rsp } := by
  have hproper : Proper u (wire cmd payload) rsp :=
    ⟨⟨cmd, payload, rfl, hroom⟩, by rw [hu.sound.size]; exact hfits⟩
  have htrack : OnTrack B u := by
    unfold OnTrack
    rw [hu.idle]
    exact Or.inr hu.quiet
  have hcall : u.step program t_entry (.call (wire cmd payload) rsp : Move Unit) =
      { u with phase := .writing u.written (request_bytes (wire cmd payload)) rsp } := by
    unfold Uart.step
    rw [hu.idle]
  obtain ⟨hsound, honTrack⟩ := call_onTrack (E := Unit) program t_entry hu.sound htrack
    (fun _ => ⟨hproper, fun _ => hu.quiet⟩)
  obtain ⟨hahead, -, hupdating, -⟩ := call_ahead program t_entry hu.waiting rsp hcmd hpayload
    hboot hfits
  have hincall := call_inCall program t_entry hu.idle (wire cmd payload) rsp
  have hpast := step_past program t_entry hu.past (.call (wire cmd payload) rsp)
  rw [hu.coming, List.nil_append] at hahead
  dsimp only at hsound honTrack hahead hupdating ⊢
  rw [hcall] at hsound honTrack hincall hpast hupdating hahead ⊢
  exact ⟨⟨hsound, honTrack, hincall, hpast, hupdating, .refl _⟩, hahead, rfl⟩

theorem underway_run {began u : Uart} (h : Underway info B program began u) (moves : List (Move Unit))
    (hmoves : ∀ move ∈ moves, move.Patient) :
    Underway info B program began (u.run program t_entry moves) := by
  obtain ⟨hsound, htrack⟩ := run_onTrack program t_entry moves h.sound h.track
    (fun i req rsp hmove _ => (hmoves _ (List.mem_of_getElem? hmove)).elim)
  obtain ⟨hserving, hupdating⟩ := run_serving program t_entry moves hmoves h.updating
  exact ⟨hsound, htrack, run_inCall program t_entry h.call moves hmoves,
    run_past program t_entry h.past moves, hupdating, h.serving.trans hserving⟩

/-- Over, it has failed, or the line is quiet again: the device took in its request and nothing else,
and the receipt is the answer. -/
theorem underway_ends {began u : Uart} (h : Underway info B program began u) {req : UpdFrame}
    (hasked : began.ahead.1 = [req]) (hbefore : ∀ a ∈ began.replies, a.sync < began.written)
    (hidle : u.phase = .idle) :
    let answered := replyStep program (began.main.s, began.flash) req
    u.receipts = began.receipts ∨
      Calling info B u ∧ (u.main.s, u.flash) = answered.2 ∧
        ∃ r : Receipt, u.receipts = began.receipts ++ [r] ∧ r.frame = answered.1 := by
  have htrack := h.track
  have hcall := h.call
  unfold OnTrack at htrack
  unfold InCall at hcall
  rw [hidle] at htrack hcall
  rcases hcall with ⟨-, hsame⟩ | ⟨hfailed, r, hstarted, hreceipts⟩
  · exact Or.inl hsame
  have hquiet : Quiet u := by
    rcases htrack with htrue | hquiet
    · rw [hfailed] at htrue
      cases htrue
    · exact hquiet
  have hcalling : Calling info B u := ⟨h.sound, hquiet, hidle, h.updating.resident, h.past⟩
  obtain ⟨done, new, hdone, hrun, hreplies⟩ := h.serving
  have hall : done = [req] := by
    have hfirst := congrArg Prod.fst hdone
    rw [hasked, hcalling.coming, List.append_nil] at hfirst
    exact hfirst.symm
  rw [hall, runAll_cons] at hrun
  obtain ⟨hframes, hstate⟩ := Prod.mk.inj hrun
  refine Or.inr ⟨hcalling, hstate.symm, r, hreceipts, ?_⟩
  obtain ⟨a, ha, hlate, -, hframe, -⟩ := h.sound.fresh r (by rw [hreceipts]; simp)
  rw [hreplies] at ha
  rcases List.mem_append.mp ha with hold | hnew
  · have := hbefore a hold
    omega
  · have hmem : a.frame ∈ new.map Reply.frame := List.mem_map_of_mem hnew
    rw [← hframes] at hmem
    rw [← hframe]
    exact List.mem_singleton.mp hmem

theorem calling_request {u : Uart} (hu : Calling info B u) {cmd : UInt8} {payload rsp : List UInt8}
    {req : UpdFrame} (hcmd : req.cmd = cmd) (hpayload : req.payload = payload) (hboot : cmd ≠ UPD_CMD_BOOT)
    (hfits : (wire cmd payload).length ≤ B) (hroom : answerRoom cmd payload + 3 ≤ rsp.length)
    (moves : List (Move Unit)) (hmoves : ∀ move ∈ moves, move.Patient) :
    let u' := u.request program t_entry (wire cmd payload) rsp moves
    let answered := replyStep program (u.main.s, u.flash) req
    u'.receipts = u.receipts ∨
      Calling info B u' ∧ (u'.main.s, u'.flash) = answered.2 ∧
        ∃ r : Receipt, u'.receipts = u.receipts ++ [r] ∧ r.frame = answered.1 := by
  obtain ⟨hbegins, hasked, hcall⟩ :=
    underway_begins program t_entry hu hcmd hpayload hboot hfits hroom
  have hrun := underway_run program t_entry hbegins moves hmoves
  have hend : Underway info B program _ (u.request program t_entry (wire cmd payload) rsp moves) :=
    underway_run program t_entry hrun [.write _, .readFails ()] (by simp [Move.Patient])
  have hbefore : ∀ a ∈ u.replies, a.sync < u.written := by
    intro a ha
    have hpolled := hu.past a ha
    have hwritten := hu.sound.written
    rw [hu.quiet.fifo, hu.quiet.up] at hwritten
    simp only [List.length_nil] at hwritten
    omega
  have hover := underway_ends program hend hasked (by rw [hcall]; exact hbefore)
    (giveUp_idle program t_entry _)
  rw [hcall] at hover
  exact hover

end Quiet

/-! ## Calls that find the device attentive -/

section Attentive

variable {info : PortInfo} {B : Nat} (program : Program) (t_entry : UInt16) {started : Nat} {r : Receiving}

/-- The request goes out in one write, a lap takes it in, and `request` reads until the answer is
complete. -/
def attentive : List (Move Unit) := [.write 256, .lap 256 0] ++ List.replicate 8 (.read 32)

theorem attentive_patient (i : Nat) : ∀ move ∈ (fun _ : Nat => attentive) i, move.Patient := by
  intro move hmove
  simp only [attentive, List.cons_append, List.nil_append, List.mem_cons, List.mem_replicate] at hmove
  rcases hmove with rfl | rfl | ⟨-, rfl⟩ <;> trivial

theorem reads_idle (k : Nat) {u : Uart} (hu : u.phase = .idle) :
    u.run program t_entry (List.replicate k (.read 32 : Move Unit)) = u := by
  induction k with
  | zero => rfl
  | succ k ih =>
    have hstep : u.step program t_entry (.read 32 : Move Unit) = u := by
      unfold Uart.step
      rw [hu]
    rw [List.replicate_succ]
    unfold Uart.run at ih ⊢
    rw [List.foldl_cons, hstep]
    exact ih

theorem answered_read {u : Uart} (hu : Sound info B u) (hp : u.phase = .reading started r)
    (h : Answered u started r) :
    let u' := u.step program t_entry (.read 32 : Move Unit)
    Sound info B u' ∧ ((u'.phase = .idle ∧ u'.failed = false) ∨
      ∃ r', u'.phase = .reading started r' ∧ Answered u' started r' ∧ u'.down.length + 32 = u.down.length) := by
  have hchunk : u.down.take (min 32 32) ≠ [] := by
    simpa using h.missing
  have hlength : (u.down.take (min 32 32)).length = min 32 u.down.length := List.length_take
  have hfront : u.down.take (min 32 32) <+: u.down := List.take_prefix _ _
  obtain ⟨hsound, honTrack⟩ := chunk_onTrack hu h hchunk hfront
  have hstep : u.step program t_entry (.read 32 : Move Unit) =
      let chunk := u.down.take (min 32 32)
      let read := read_turn (E := Unit) u.transport r (.ok chunk)
      Uart.turn { u with down := u.down.drop chunk.length, read := u.read + chunk.length }
        started (u.read + (chunk.length - read.2.2.length)) read.1 read.2.1 := by
    unfold Uart.step
    rw [hp]
  dsimp only at hsound honTrack hstep ⊢
  rw [hstep]
  refine ⟨hsound, ?_⟩
  obtain ⟨cmd, payload, got, hmax, hroom, hr, hstream, -⟩ := h.answer
  have hrest : SYNC :: wire cmd payload =
      got ++ u.down.take (min 32 32) ++ u.down.drop (u.down.take (min 32 32)).length := by
    rw [List.append_assoc, List.prefix_iff_eq_append.mp hfront]
    exact hstream
  obtain ⟨hgoes, hends⟩ := scan_chunk_heard (E := Unit) hmax u.transport _ r got _ hr hrest hroom
  rw [read_turn_chunk u.transport r hchunk] at honTrack ⊢
  rcases eq_or_ne (u.down.drop (u.down.take (min 32 32)).length) [] with hnone | hmore
  · obtain ⟨r', hscan, -⟩ := hends hnone hchunk
    rw [hscan]
    exact Or.inl ⟨rfl, rfl⟩
  · obtain ⟨r', hscan, -, -⟩ := hgoes hmore
    rw [hscan] at honTrack ⊢
    right
    refine ⟨r', rfl, ?_, ?_⟩
    · rcases honTrack with ⟨-, hasking⟩ | hanswered
      · exact absurd hasking.down hmore
      · exact hanswered
    · have hsome := List.length_pos_of_ne_nil hmore
      rw [List.length_drop] at hsome
      dsimp only [Uart.turn]
      rw [List.length_drop]
      omega

theorem answered_reads (k : Nat) {u : Uart} (hu : Sound info B u) (hp : u.phase = .reading started r)
    (h : Answered u started r) (hk : u.down.length ≤ 32 * k) :
    let u' := u.run program t_entry (List.replicate k (.read 32 : Move Unit))
    u'.phase = .idle ∧ u'.failed = false := by
  induction k generalizing u r with
  | zero => exact absurd (List.length_eq_zero_iff.mp (by omega)) h.missing
  | succ k ih =>
    obtain ⟨hsound, hdone | ⟨r', hphase, hanswered, hless⟩⟩ := answered_read program t_entry hu hp h
    · rw [List.replicate_succ]
      have hreads := reads_idle program t_entry k hdone.1
      unfold Uart.run at hreads ⊢
      rw [List.foldl_cons, hreads]
      exact hdone
    · exact ih hsound hphase hanswered (by omega)

theorem giveUp_over {u : Uart} (hidle : u.phase = .idle) : u.giveUp program t_entry = u := by
  unfold Uart.giveUp Uart.step
  simp only [hidle]

theorem attentive_written {u : Uart} (hu : Calling info B u) {req rsp : List UInt8}
    (hproper : Proper u req rsp) :
    let v := (u.step program t_entry (.call req rsp : Move Unit)).step program t_entry (.write 256 : Move Unit)
    Sound info B v ∧ v.phase = .reading u.written (.new rsp) ∧
      Asking B v u.written [] (Receiving.new rsp).rsp.length ∧ v.up.drop 256 = [] := by
  have hall : (request_bytes req).length ≤ 256 := by
    have hfits := hproper.fits
    have hsize := u.main.lnk.buf_len.toNat_lt
    unfold request_bytes
    rw [List.length_cons]
    omega
  have hwritten : (u.step program t_entry (.call req rsp : Move Unit)).step program t_entry
      (.write 256 : Move Unit) = { u with phase := .reading u.written (.new rsp)
                                          up := u.up ++ request_bytes req
                                          written := u.written + (request_bytes req).length } := by
    unfold Uart.step
    rw [hu.idle]
    dsimp only
    rw [List.take_of_length_le hall, if_pos (List.drop_of_length_le hall)]
  have hasking := (call_asking hu.sound hu.quiet hproper).write 256 (Phase.reading u.written (.new rsp))
  rw [List.take_of_length_le hall, List.drop_of_length_le hall] at hasking
  have hcount := hu.sound.written
  dsimp only
  rw [hwritten]
  refine ⟨⟨hu.sound.settled, hu.sound.good, hu.sound.size, ?_, hu.sound.sent, hu.sound.fresh⟩, rfl,
    hasking, ?_⟩
  · dsimp only
    rw [List.length_append]
    omega
  · dsimp only
    rw [hu.quiet.up]
    exact List.drop_of_length_le hall

theorem attentive_answered {u : Uart} (hu : Calling info B u) {req rsp : List UInt8}
    (hproper : Proper u req rsp) :
    let v := ((u.step program t_entry (.call req rsp : Move Unit)).step program t_entry
      (.write 256 : Move Unit)).lap program t_entry 256 0
    Sound info B v ∧ v.phase = .reading u.written (.new rsp) ∧ Answered v u.written (.new rsp) ∧
      v.down.length ≤ 32 * 8 := by
  obtain ⟨hsound, hphase, hasking, hup⟩ := attentive_written program t_entry hu hproper
  have hanswered := lap_answers program t_entry hsound 256 0 (heard_new rsp) hasking hup
  refine ⟨(lap_line program t_entry hsound 256 0).1, hphase, hanswered, ?_⟩
  obtain ⟨cmd, payload, got, hmax, -, -, hstream, -⟩ := hanswered.answer
  have hwhole := congrArg List.length hstream
  rw [List.length_cons, length_wire, List.length_append] at hwhole
  unfold payloadMax at hmax
  omega

theorem attentive_receives {u : Uart} (hu : Calling info B u) {req rsp : List UInt8}
    (hproper : Proper u req rsp) :
    (u.request program t_entry req rsp attentive).receipts ≠ u.receipts := by
  obtain ⟨hsound, hphase, hanswered, hdown⟩ := attentive_answered program t_entry hu hproper
  obtain ⟨hidle, hfailed⟩ := answered_reads program t_entry 8 hsound hphase hanswered hdown
  have hincall := run_inCall program t_entry (call_inCall program t_entry hu.idle req rsp) attentive
    (attentive_patient 0)
  have hmoves : (u.step program t_entry (.call req rsp : Move Unit)).run program t_entry attentive =
      (((u.step program t_entry (.call req rsp : Move Unit)).step program t_entry
        (.write 256 : Move Unit)).lap program t_entry 256 0).run program t_entry
          (List.replicate 8 (.read 32 : Move Unit)) := rfl
  rw [← hmoves] at hidle hfailed
  obtain ⟨r, -, hreceipts⟩ := hincall.receipt hidle hfailed
  unfold Uart.request
  dsimp only
  rw [giveUp_over program t_entry hidle, hreceipts]
  simp

end Attentive

/-! ## The session -/

section Update

variable {program : Program} (hblank : program.Fills) (hagain : program.Repeats) {info : PortInfo}
  {img : Image} {B : Nat} (t_entry : UInt16) {schedule : Nat → List (Move Unit)}

structure Prompt (img : Image) (info : PortInfo) (B n : Nat) (w : LineWorld) : Prop where
  calling : Calling info B w.u
  ready : ArrayReady img info n (w.u.main.s, w.u.flash)
  calls : w.calls = n

theorem answer_fits (img : Image) (n : Nat) : answerRoom (request img n).1 (request img n).2 + 3 ≤ responseRoom n := by
  match n with
  | 0 => exact Nat.le_refl 15
  | 1 => exact Nat.le_refl 4
  | i + 2 =>
    rcases Nat.lt_or_ge i img.pages.length with hi | hi
    · rw [request_write img i hi]
      exact Nat.le_refl 4
    · rw [request_verify img i hi]
      exact Nat.le_refl 4

section Results

variable (program : Program) (t_entry : UInt16) (schedule : Nat → List (Move Unit))

theorem line_received (w : LineWorld) (req rsp : List UInt8) (r : Receipt)
    (hreceipts : (w.u.request program t_entry req rsp (schedule w.calls)).receipts = w.u.receipts ++ [r]) :
    let result := (lineTransport program t_entry schedule).request w req rsp
    received result.1 = .ok (r.frame.take rsp.length) ∧ result.2.failures = w.failures ∧ result.2.calls = w.calls + 1 := by
  have hnew : (w.u.request program t_entry req rsp (schedule w.calls)).receipts.drop
      w.u.receipts.length = [r] := by
    rw [hreceipts, List.drop_left]
  unfold lineTransport
  dsimp only
  rw [hnew]
  refine ⟨?_, rfl, rfl⟩
  exact Plant.received_fill rsp r.frame

theorem line_failed (w : LineWorld) (req rsp : List UInt8)
    (hreceipts : (w.u.request program t_entry req rsp (schedule w.calls)).receipts = w.u.receipts) :
    ((lineTransport program t_entry schedule).request w req rsp).2.failures = w.failures + 1 := by
  have hnone : (w.u.request program t_entry req rsp (schedule w.calls)).receipts.drop
      w.u.receipts.length = [] := by
    rw [hreceipts, List.drop_length]
  unfold lineTransport
  dsimp only
  rw [hnone]

theorem line_failures (w : LineWorld) (req rsp : List UInt8) :
    w.failures ≤ ((lineTransport program t_entry schedule).request w req rsp).2.failures := by
  unfold lineTransport
  dsimp only
  split
  · exact Nat.le_succ _
  · exact Nat.le_refl _

end Results

variable (hpage : info.page_size.toNat ≤ 131) (hB : 136 ≤ B)
  (hmoves : ∀ i, ∀ move ∈ schedule i, move.Patient)

include hblank hagain hpage hB hmoves in
theorem prompt_request {n : Nat} {w : LineWorld} (hw : Prompt img info B n w) {rx : List UInt8}
    (hrx : rx.length = responseRoom n) :
    let result := (lineTransport program t_entry schedule).request w (requestFrame img n) rx
    result.2.failures = w.failures + 1 ∨ Prompt img info B (n + 1) result.2 ∧
      result.2.failures = w.failures ∧
      ∃ rest, Accepted (received result.1) ((request img n).1 ||| RSP_FLAG) rest ∧
        (n = 0 → InfoMatches (ε := Unit) img rest) := by
  obtain ⟨req, hreceive, -, hcmd, hpayload⟩ := request_received_of_fits hpage n
    (fun _ => hw.ready.fits)
  have hlength : (requestFrame img n).length ≤ B := Nat.le_trans (receiveFrame_length hreceive) hB
  have hroom := answer_fits img n
  rw [← hrx] at hroom
  obtain ⟨-, hnext, rest, hgranted, hfits, hmatch⟩ := replyStep_ready hblank hagain hpage hw.ready hreceive
  dsimp only at hnext hgranted ⊢
  rcases calling_request program t_entry hw.calling hcmd hpayload (request_not_boot n) hlength hroom
    (schedule w.calls) (hmoves w.calls) with hfail | ⟨hcalling, hstate, r, hreceipts, hframe⟩
  · exact Or.inl (line_failed program t_entry schedule w (requestFrame img n) rx hfail)
  · right
    have hwhole : r.frame.length ≤ rx.length := by
      rw [hframe, hgranted, length_wire, List.length_cons, hrx]
      omega
    obtain ⟨hreceived, hfailures, hcalls⟩ := line_received program t_entry schedule w (requestFrame img n)
      rx r hreceipts
    rw [List.take_of_length_le hwhole] at hreceived
    have hu := lineTransport_u program t_entry schedule w (requestFrame img n) rx
    refine ⟨⟨?_, ?_, by rw [hcalls, hw.calls]⟩, hfailures, rest, ?_, hmatch⟩
    · rw [hu]
      exact hcalling
    · rw [hu]
      have hstate' : ((w.u.request program t_entry (requestFrame img n) rx (schedule w.calls)).main.s,
          (w.u.request program t_entry (requestFrame img n) rx (schedule w.calls)).flash) = _ := hstate
      rw [hstate']
      exact hnext
    · have haccepted := Plant.accepted_frame (ε := Unit) ((request img n).1 ||| RSP_FLAG) rest 0
        (responseRoom n) ?_ hfits
      · rw [List.replicate_zero, List.append_nil, List.take_of_length_le] at haccepted
        · rw [hreceived, hframe, hgranted]
          exact haccepted
        · rw [length_wire, List.length_cons]
          omega
      · unfold responseRoom at hfits
        unfold INFO_RSP_PAYLOAD ST_RSP_PAYLOAD at hfits
        unfold payloadMax
        split at hfits <;> omega

include hblank hagain hpage hB hmoves in
/-- `bad` is how a failed call leaves the world, and it stays so. -/
theorem prompt_update (bad : LineWorld → Prop)
    (hfailed : ∀ n w rx, Prompt img info B n w → rx.length = responseRoom n →
      let result := (lineTransport program t_entry schedule).request w (requestFrame img n) rx
      result.2.failures = w.failures + 1 → bad result.2)
    (hbad : ∀ w req rx, bad w → bad ((lineTransport program t_entry schedule).request w req rx).2)
    (room : Nat) (hroom : img.page_size.toNat + 20 ≤ room) :
    Spec (flash (lineTransport program t_entry schedule) img)
      (Session.At room [] (fun w => Prompt img info B 0 w ∧ w.failures = 0))
      (fun _ => Session.At room (progressCalls img.pages.length img.pages.length)
        (fun w => (Prompt img info B (3 + img.pages.length) w ∧ w.failures = 0) ∨ bad w))
      (fun s => bad s.transport) := by
  have hstages := flash_stages img (lineTransport program t_entry schedule) room
    (fun n k w => (k = 1 + RETRY_BUDGET ∧ Prompt img info B n w ∧ w.failures = 0) ∨ bad w) bad [] ?_ ?_ ?_
  · refine hstages.weaken ?_ ?_ (fun s h => h)
    · rintro s ⟨hprompt, hlength, hcalls⟩
      exact ⟨Or.inl ⟨rfl, hprompt⟩, hlength, hcalls⟩
    · rintro _ s ⟨hstage, hlength, hcalls⟩
      exact ⟨hstage.imp_left And.right, hlength, hcalls⟩
  · rintro n w (⟨hzero, -⟩ | hw)
    · exact absurd hzero (by decide)
    · exact hw
  · intro hsmall
    omega
  · rintro n - k w rx hstage hrx
    rcases hstage with ⟨-, hw, hzero⟩ | hw
    · rcases prompt_request hblank hagain t_entry hpage hB hmoves hw hrx with
        hfail | ⟨hnext, hsame, rest, haccepted, hmatch⟩
      · have hend := hfailed n w rx hw hrx hfail
        exact ⟨fun _ _ => ⟨fun _ => Or.inr hend, fun _ => hend⟩, fun _ => Or.inr hend, fun _ _ => hend⟩
      · refine ⟨?_, fun hretry => absurd hretry haccepted.not_retryable,
          fun hnone => absurd haccepted (hnone rest)⟩
        intro rest' haccepted'
        obtain rfl : rest' = rest := Plant.accepted_unique haccepted' haccepted
        refine ⟨fun _ => Or.inl ⟨rfl, hnext, hsame.trans hzero⟩, ?_⟩
        rintro ⟨hmismatch, hfirst⟩
        exact absurd (hmatch hfirst) hmismatch
    · have hend := hbad w (requestFrame img n) rx hw
      exact ⟨fun _ _ => ⟨fun _ => Or.inr hend, fun _ => hend⟩, fun _ => Or.inr hend, fun _ _ => hend⟩

include hblank hagain hpage hB in
theorem attentive_update (hfits : Fits img info) {u : Uart} (hu : Calling info B u) (buf : List UInt8)
    (hbuf : img.page_size.toNat + 20 ≤ buf.length) :
    let r := flash (lineTransport program t_entry (fun _ => attentive)) img (lineSession u buf)
    r.1 = .ok () ∧ r.2.transport.failures = 0 := by
  have hready : ArrayReady img info 0 (u.main.s, u.flash) :=
    ⟨boardStage_start hu.sound.settled.geometry rfl, hfits, fun h => by omega⟩
  have hrun := prompt_update hblank hagain t_entry hpage hB attentive_patient (fun _ => False) ?_
    (fun _ _ _ h => h) buf.length hbuf (lineSession u buf) ⟨⟨⟨hu, hready, rfl⟩, rfl⟩, rfl, rfl⟩
  · dsimp only
    rcases hflash : flash (lineTransport program t_entry (fun _ => attentive)) img (lineSession u buf) with
      ⟨e | _, session⟩
    · rw [hflash] at hrun
      exact hrun.elim
    · rw [hflash] at hrun
      exact ⟨rfl, (hrun.transport.resolve_right id).2⟩
  · intro n w rx hw hrx result hfail
    obtain ⟨req, hreceive, -, hcmd, hpayload⟩ := request_received_of_fits hpage n
      (fun _ => hw.ready.fits)
    have hlength : (requestFrame img n).length ≤ B := Nat.le_trans (receiveFrame_length hreceive) hB
    have hroom := answer_fits img n
    rw [← hrx] at hroom
    have hproper : Proper w.u (requestFrame img n) rx :=
      ⟨⟨_, _, rfl, hroom⟩, by rw [hw.calling.sound.size]; exact hlength⟩
    rcases calling_request program t_entry hw.calling hcmd hpayload (request_not_boot n) hlength hroom
      attentive (attentive_patient 0) with hlost | ⟨-, -, r, hreceipts, -⟩
    · exact attentive_receives program t_entry hw.calling hproper hlost
    · obtain ⟨-, hsame, -⟩ := line_received program t_entry (fun _ => attentive) w (requestFrame img n)
        rx r hreceipts
      exact absurd (hsame.symm.trans hfail) (Nat.ne_of_lt (Nat.lt_succ_self _))

end Update

/-- As long as no call fails, no request goes out twice, and the update goes through. -/
theorem uart_flash_prompt (program : Program) (hblank : program.Fills) (hagain : program.Repeats)
    (t_entry : UInt16) (img : Image) (info : PortInfo) (hpage : info.page_size.toNat ≤ 131)
    (hps : info.page_size = img.page_size) (hap : info.app_pages = img.app_pages) (B : Nat) (hB : 136 ≤ B)
    (u : Uart) (hu : Calling info B u) (schedule : Nat → List (Move Unit))
    (hmoves : ∀ i, ∀ move ∈ schedule i, move.Patient) (buf : List UInt8)
    (hbuf : img.page_size.toNat + 20 ≤ buf.length) :
    let r := flash (lineTransport program t_entry schedule) img (lineSession u buf)
    let t := img.pages.length
    r.2.transport.failures = 0 → r.1 = .ok () ∧ r.2.transport.calls = 3 + t ∧
      r.2.progress = (List.range (t + 1)).map (fun i => (UInt16.ofNat i, UInt16.ofNat t)) ∧
      Quiet r.2.transport.u ∧ region info r.2.transport.u.flash = img.content ∧
      (upd_app_valid (arrayPort info program) info r.2.transport.u.flash).1 = true := by
  have hready : ArrayReady img info 0 (u.main.s, u.flash) :=
    ⟨boardStage_start hu.sound.settled.geometry rfl, ⟨hps, hap⟩, fun h => by omega⟩
  have hrun := prompt_update hblank hagain t_entry hpage hB hmoves (fun w => w.failures ≠ 0)
    (fun n w rx _ _ hfail => by rw [hfail]; exact Nat.succ_ne_zero _)
    (fun w req rx hw => by
      have := line_failures program t_entry schedule w req rx
      omega)
    buf.length hbuf (lineSession u buf) ⟨⟨⟨hu, hready, rfl⟩, rfl⟩, rfl, rfl⟩
  dsimp only
  rcases hflash : flash (lineTransport program t_entry schedule) img (lineSession u buf) with
    ⟨e | _, session⟩
  · rw [hflash] at hrun
    intro hnone
    exact absurd hnone hrun
  · rw [hflash] at hrun
    intro hnone
    obtain ⟨hend, -, hprogress⟩ := hrun
    obtain ⟨hprompt, -⟩ := hend.resolve_right (fun hsome => hsome hnone)
    obtain ⟨-, -, -, f, hsame, hregion⟩ := boardStage_end hprompt.ready.stage
    have hsame : session.transport.u.flash = f := hsame
    refine ⟨rfl, hprompt.calls, hprogress, hprompt.calling.quiet, ?_, ?_⟩
    · rw [hsame]
      exact hregion
    · rw [hsame, upd_app_valid_array, hregion, decide_eq_true_iff]
      exact appValid_content img

def lineStart : Uart :=
  .start .new (main_init patchyDev.s.info (List.replicate 136 0) 136 true) patchyDev.f

theorem lineStart_calling : Calling patchyDev.s.info 136 lineStart where
  sound := {
    settled := ⟨rfl, rfl, List.length_replicate⟩
    good := link_init_good _ _ rfl
    size := rfl
    written := rfl
    sent := rfl
    fresh := by
      intro r hr
      cases hr }
  quiet := ⟨rfl, rfl, rfl, rfl⟩
  idle := rfl
  resident := rfl
  past := by
    intro a ha
    cases ha

theorem lineStart_attentive :
    let r := flash (lineTransport store 300 (fun _ => attentive)) patchyImage
      (lineSession lineStart (List.replicate 36 0))
    r.1 = .ok () ∧ r.2.transport.failures = 0 :=
  attentive_update store_fills store_repeats 300 (by decide) (Nat.le_refl 136) ⟨rfl, rfl⟩ lineStart_calling
    _ (by decide)

theorem uart_flash_prompt_attentive :
    let r := flash (lineTransport store 300 (fun _ => attentive)) patchyImage
      (lineSession lineStart (List.replicate 36 0))
    let t := patchyImage.pages.length
    r.1 = .ok () ∧ r.2.transport.calls = 3 + t ∧
      r.2.progress = (List.range (t + 1)).map (fun i => (UInt16.ofNat i, UInt16.ofNat t)) ∧
      Quiet r.2.transport.u ∧ region patchyDev.s.info r.2.transport.u.flash = patchyImage.content ∧
      (upd_app_valid (arrayPort patchyDev.s.info store) patchyDev.s.info r.2.transport.u.flash).1 = true :=
  uart_flash_prompt store store_fills store_repeats 300 patchyImage patchyDev.s.info (by decide) rfl rfl
    136 (Nat.le_refl _) lineStart lineStart_calling (fun _ => attentive) attentive_patient _ (by decide)
    lineStart_attentive.2

/-- The same device, which may be late. -/
theorem uart_flash_lands_attentive :
    let u' := (flash (lineTransport store 300 (fun _ => attentive)) patchyImage
      (lineSession lineStart (List.replicate 36 0))).2.transport.u
    (∀ more : List (Move Unit), (∀ move ∈ more, move.Patient) →
      let v := u'.run store 300 more
      v.main.fifo = [] → v.up = [] → region patchyDev.s.info v.flash = patchyImage.content ∧
        (upd_app_valid (arrayPort patchyDev.s.info store) patchyDev.s.info v.flash).1 = true) ∧
    ∀ n tick, u'.up.length ≤ n →
      let v := u'.run store 300
        (List.replicate (u'.main.fifo.length + u'.up.length) (.lap n tick : Move Unit))
      v.main.fifo = [] ∧ v.up = [] :=
  uart_flash_lands store store_fills store_repeats 300 patchyImage patchyDev.s.info (by decide) rfl rfl
    136 (Nat.le_refl _) lineStart lineStart_calling.waiting (fun _ => attentive) attentive_patient _
    lineStart_attentive.1

end OtaUpdater.System
