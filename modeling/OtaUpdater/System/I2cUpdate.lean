import OtaUpdater.System.Avr
import OtaUpdater.System.I2cTransactions

/-!
# Updates over I2C

The host's session on `I2cTransport`, and at the other end of the bus the TWI main loop.
Whatever becomes of the transactions, an answer that gets through is the answer to the
request just written.
-/

open OtaUpdater.Lib.Bytes OtaUpdater.Lib.State OtaUpdater.Wire OtaUpdater.Device OtaUpdater.Host
open OtaUpdater.Agreement
open OtaUpdater.Device.Twi (BusEvent Told Call)

namespace OtaUpdater.System

variable {β κ : Type}

/-! ## A request over the bus -/

section Request

variable (port : Port β) (t_entry : UInt16) (weather : Weather) (self : I2cTransport)

theorem attempt_succ {attempt : UInt32} (h : attempt < self.poll_attempts) :
    (attempt + 1).toNat = attempt.toNat + 1 := by
  have hmax := self.poll_attempts.toNat_lt
  rw [UInt32.lt_iff_toNat_lt] at h
  rw [UInt32.toNat_add, UInt32.toNat_one]
  omega

theorem read_cut {w : BusWorld β} {st : UpdSession × β} {told : Told} (h : Answering w.board st told)
    (rsp : List UInt8) :
    let r := (twiBus port t_entry weather).read w rsp
    (∃ told', Answering r.2.board st told' ∧ told'.rsp = told.rsp) ∧ r.2.writes = w.writes ∧
      r.2.reads = w.reads + 1 ∧ (r.1.1 = .ok () ↔ (weather.read w.writes w.reads).cut = none) ∧
      (r.1.1 = .ok () → r.1.2 = (told.rsp ++ List.replicate rsp.length 0xFF).take rsp.length) := by
  unfold twiBus
  dsimp only
  generalize weather.read w.writes w.reads = fate
  have hevents := readEvents_ofRead fate.stale rsp.length
  have hhalt : ∀ halt : Halt, ∀ e ∈ halt.events, OfRead e := by
    intro halt e he
    cases halt with
    | hang => cases he
    | stop => rw [List.mem_singleton.mp he]; trivial
    | fault => rw [List.mem_singleton.mp he]; trivial
  rcases hcut : fate.cut with _ | ⟨k, halt⟩
  · have hseen : fate.seen (readEvents fate.stale rsp.length) = readEvents fate.stale rsp.length := by
      unfold Fate.seen
      rw [hcut]
    rw [hseen]
    refine ⟨read_events port t_entry _ hevents _ h, rfl, rfl, by simp, fun _ => ?_⟩
    have hwhole := read_whole port t_entry fate.stale rsp.length fate.timing h
    have hlong := congrArg List.length hwhole
    rw [List.length_take, List.length_take, List.length_append, List.length_replicate] at hlong
    rw [← hwhole]
    unfold fill
    exact List.take_append_of_le_length (by omega)
  · have hseen : fate.seen (readEvents fate.stale rsp.length) =
        (readEvents fate.stale rsp.length).take k ++ halt.events := by
      unfold Fate.seen
      rw [hcut]
    rw [hseen]
    refine ⟨read_events port t_entry _ ?_ _ h, rfl, rfl, by simp, fun hok => by cases hok⟩
    intro e he
    rcases List.mem_append.mp he with hfront | hend
    · exact hevents e (List.mem_of_mem_take hfront)
    · exact hhalt halt e hend

theorem poll_answers (attempt : UInt32) (hmore : attempt < self.poll_attempts) (w : BusWorld β)
    (rsp : List UInt8) {st : UpdSession × β} {told : Told} (h : Answering w.board st told) :
    let r := self.poll (twiBus port t_entry weather) attempt hmore w rsp
    (∃ told', Answering r.2.board st told' ∧ told'.rsp = told.rsp) ∧ r.2.writes = w.writes ∧
      ((∃ e, r.1.1 = .error e) ∨
        r.1 = (.ok rsp.length, (told.rsp ++ List.replicate rsp.length 0xFF).take rsp.length)) ∧
      (w.reads = attempt.toNat → ∀ k, attempt.toNat ≤ k → k < self.poll_attempts.toNat →
        (weather.read w.writes k).cut = none → ¬ ∃ e, r.1.1 = .error e) := by
  fun_induction I2cTransport.poll (twiBus port t_entry weather) self attempt hmore w rsp generalizing told with
  | case1 attempt hmore w rsp rsp' w' hread =>
    obtain ⟨hanswering, hwrites, -, -, hbytes⟩ := read_cut port t_entry weather h rsp
    have hlength := (twiBus port t_entry weather).length_read w rsp
    rw [hread] at hanswering hwrites hbytes hlength
    refine ⟨hanswering, hwrites, Or.inr ?_, ?_⟩
    · rw [← hbytes rfl]
      exact congrArg (fun n => (Except.ok n, rsp')) hlength
    · rintro - k - - - ⟨e, he⟩
      cases he
  | case2 attempt hmore w rsp attempt' e rsp' w' hread hnext =>
    rename_i ih
    obtain ⟨⟨told', hanswering, hsame⟩, hwrites, hreads, hcut, -⟩ := read_cut port t_entry weather h rsp
    have hlength := (twiBus port t_entry weather).length_read w rsp
    rw [hread] at hanswering hwrites hreads hcut hlength
    dsimp only at hanswering hwrites hreads hcut hlength
    have hcount : attempt'.toNat = attempt.toNat + 1 := attempt_succ self hmore
    obtain ⟨⟨told'', hlast, hsame'⟩, hwrites', hout, hthrough⟩ := ih hanswering
    rw [hsame, hlength] at hout
    refine ⟨⟨told'', hlast, hsame'.trans hsame⟩, hwrites'.trans hwrites, hout, ?_⟩
    intro hstart k hk hbudget hclear
    refine hthrough (hreads.trans (by rw [hstart, hcount])) k ?_ hbudget (hwrites ▸ hclear)
    rcases Nat.lt_or_ge attempt.toNat k with hlater | hnow
    · omega
    · obtain rfl : k = w.reads := by omega
      cases hcut.mpr hclear
  | case3 attempt hmore w rsp attempt' e rsp' w' hread =>
    rename_i hlast
    obtain ⟨hanswering, hwrites, -, hcut, -⟩ := read_cut port t_entry weather h rsp
    rw [hread] at hanswering hwrites hcut
    refine ⟨hanswering, hwrites, Or.inl ⟨_, rfl⟩, ?_⟩
    intro hstart k hk hbudget hclear
    have hcount : attempt'.toNat = attempt.toNat + 1 := attempt_succ self hmore
    rw [UInt32.not_lt, UInt32.le_iff_toNat_le] at hlast
    obtain rfl : k = w.reads := by omega
    cases hcut.mpr hclear

theorem serve_pending {frame : List UInt8} {req : UpdFrame} (hreceive : receiveFrame frame = some req)
    (hcmd : req.cmd ≠ UPD_CMD_BOOT) {st : UpdSession × β} (h : st.1.boot_pending = false) :
    (serveFrame port frame st).2.1.boot_pending = false := by
  obtain ⟨hserve, -⟩ := serveFrame_eq port hreceive st
  rw [hserve, ← Bool.not_eq_true]
  intro hnow
  rcases Twi.upd_handle_boot_pending port st.1 req UPDATER_RSP_PAYLOAD_MAX st.2 hnow with hbefore | ⟨hboot, -⟩
  · rw [h] at hbefore
    cases hbefore
  · exact hcmd hboot

/-- Call `i` of `request` gets through: its write, and a read while there are attempts left. -/
def Through (i : Nat) : Prop :=
  (weather.write i).cut = none ∧
    ∃ k < self.poll_attempts.toNat, (weather.read (i + 1) k).cut = none

variable {img : Image} (D : Nat → UpdSession × β → Prop)

def BusReady (img : Image) (n : Nat) (w : BusWorld β) : Prop :=
  Held (fun st => D n st ∧ st.1.boot_pending = false) (requestFrame img n) w.board

/-- `k` calls are left, and one of them will get through. -/
def BusTrying (img : Image) (n k : Nat) (w : BusWorld β) : Prop :=
  BusReady D img n w ∧ ∃ j < k, Through weather self (w.writes + j)

variable {D} {info : PortInfo} {lost : β → β → κ → β} {allowed : Mishap κ → Prop}

theorem i2c_write {n : Nat} {req : UpdFrame} (hreceive : receiveFrame (requestFrame img n) = some req)
    (hserved : ∀ st, D n st ∧ st.1.boot_pending = false →
      D n (serveFrame port (requestFrame img n) st).2 ∧
        (serveFrame port (requestFrame img n) st).2.1.boot_pending = false)
    {w : BusWorld β} (h : BusReady D img n w) :
    let r := (twiBus port t_entry weather).write w (requestFrame img n)
    r.2.writes = w.writes + 1 ∧
      ((r.1 = .error () ∧ BusReady D img n r.2 ∧ (weather.write w.writes).cut ≠ none) ∨
        r.1 = .ok () ∧ r.2.reads = 0 ∧ ∃ st told, (D n st ∧ st.1.boot_pending = false) ∧
          told.rsp = (serveFrame port (requestFrame img n) st).1 ∧
          Answering r.2.board (serveFrame port (requestFrame img n) st).2 told) := by
  have hlength : (requestFrame img n).length ≤ 136 := receiveFrame_length hreceive
  unfold twiBus Fate.seen
  dsimp only
  refine ⟨rfl, ?_⟩
  rcases hcut : (weather.write w.writes).cut with _ | ⟨k, halt⟩
  · exact Or.inr ⟨rfl, rfl, write_whole port t_entry hlength hserved (fun _ h => h.2) h hreceive
      (weather.write w.writes).timing⟩
  · exact Or.inl ⟨rfl, write_cut port t_entry hlength hserved (fun _ h => h.2) h _ k halt, nofun⟩

theorem i2c_poll {w : BusWorld β} (hreads : w.reads = 0) {st : UpdSession × β} {told : Told}
    (h : Answering w.board st told) (rx : List UInt8) :
    let r := self.poll (twiBus port t_entry weather) 0 self.poll_attempts_pos w rx
    r.2.writes = w.writes ∧ (∃ told', Answering r.2.board st told') ∧
      ((∃ e, received r.1 = .error e ∧
          ∀ k < self.poll_attempts.toNat, (weather.read w.writes k).cut ≠ none) ∨
        received r.1 = .ok ((told.rsp ++ List.replicate rx.length 0xFF).take rx.length)) := by
  obtain ⟨⟨told', hlast, -⟩, hwrites, hout, hthrough⟩ :=
    poll_answers port t_entry weather self 0 self.poll_attempts_pos w rx h
  refine ⟨hwrites, ⟨told', hlast⟩, ?_⟩
  rcases hout with ⟨e, he⟩ | hbytes
  · left
    refine ⟨e, ?_, fun k hk hclear => hthrough hreads k (Nat.zero_le _) hk hclear ⟨e, he⟩⟩
    unfold received
    rw [he]
    rfl
  · right
    rw [hbytes]
    refine congrArg Except.ok (List.take_of_length_le (Nat.le_min.mpr ⟨?_, Nat.le_refl _⟩))
    exact List.length_take_le _ _

theorem Answering.ready {n : Nat} {w : BusWorld β} {st : UpdSession × β} {told : Told}
    (h : Answering w.board st told) (hst : D n st) (hpending : st.1.boot_pending = false) :
    BusReady D img n w := by
  refine ⟨?_, none, told, h.listening, fun _ hbytes => by cases hbytes⟩
  rw [h.state]
  exact ⟨hst, hpending⟩

/-- A call fails, or brings the answer to its own request. -/
theorem i2c_request
    (hcourse : Plant.Course (ε := I2cTransportError Unit) (boardPlant port info lost) allowed img D)
    (n : Nat) {req : UpdFrame} (hreceive : receiveFrame (requestFrame img n) = some req)
    (hcmd : req.cmd = (request img n).1) {w : BusWorld β} (h : BusReady D img n w) (rx : List UInt8) :
    let r := (self.transport (twiBus port t_entry weather)).request w (requestFrame img n) rx
    ((∃ e, received r.1 = .error e ∧ BusReady D img n r.2 ∧ ¬ Through weather self w.writes) ∨
      ∃ st, D n st ∧ BusReady D img n r.2 ∧ received r.1 =
          .ok (((serveFrame port (requestFrame img n) st).1 ++ List.replicate rx.length 0xFF).take rx.length) ∧
        (D (n + 1) (serveFrame port (requestFrame img n) st).2 → BusReady D img (n + 1) r.2)) ∧
      r.2.writes = w.writes + 1 := by
  have hcmd : req.cmd ≠ UPD_CMD_BOOT := by
    rw [hcmd]
    exact request_not_boot n
  have hserved : ∀ st, D n st ∧ st.1.boot_pending = false →
      D n (serveFrame port (requestFrame img n) st).2 ∧
        (serveFrame port (requestFrame img n) st).2.1.boot_pending = false := by
    intro st hst
    exact ⟨hcourse.served n st hst.1, serve_pending port hreceive hcmd hst.2⟩
  obtain ⟨hwrites, hwritten⟩ := i2c_write port t_entry weather hreceive hserved h
  unfold I2cTransport.transport I2cTransport.request
  dsimp only
  rcases hwrite : (twiBus port t_entry weather).write w (requestFrame img n) with ⟨out, w'⟩
  rw [hwrite] at hwrites hwritten
  dsimp only at hwrites hwritten ⊢
  rcases hwritten with ⟨rfl, hready, hcut⟩ | ⟨rfl, hreads, st, told, hbefore, hreply, hanswering⟩
  · exact ⟨Or.inl ⟨_, rfl, hready, fun hthrough => hcut hthrough.1⟩, hwrites⟩
  · obtain ⟨hkept, hpending⟩ := hserved st hbefore
    obtain ⟨hdone, ⟨told', hlast⟩, hout⟩ := i2c_poll port t_entry weather self hreads hanswering rx
    refine ⟨?_, hdone.trans hwrites⟩
    rcases hout with ⟨e, hfailed, hcuts⟩ | hbytes
    · left
      refine ⟨e, hfailed, hlast.ready hkept hpending, ?_⟩
      rintro ⟨-, k, hk, hclear⟩
      exact hcuts k hk (hwrites ▸ hclear)
    · right
      refine ⟨st, hbefore.1, hlast.ready hkept hpending, ?_, fun hnext => hlast.ready hnext hpending⟩
      rw [← hreply]
      exact hbytes

/-! ## Updates -/

variable (hcourse : Plant.Course (ε := I2cTransportError Unit) (boardPlant port info lost) allowed img D)
  (hheard : ∀ n d, D n d → ∃ req, receiveFrame (requestFrame img n) = some req ∧ req.cmd = (request img n).1)

include hcourse hheard

theorem i2c_serves (n : Nat) :
    Serves (self.transport (twiBus port t_entry weather)) (requestFrame img n) (responseRoom n)
      ((request img n).1 ||| RSP_FLAG) (fun _ w => BusReady D img n w)
      (fun rest w => InfoMatches (ε := I2cTransportError Unit) img rest ∨ n ≠ 0 → BusReady D img (n + 1) w)
      (fun _ => True) := by
  intro k w rx hw hrx
  obtain ⟨req, hreceive, hcmd⟩ := hheard n _ hw.state.1
  dsimp only
  rcases (i2c_request port t_entry weather self hcourse n hreceive hcmd hw rx).1 with
    ⟨e, hseen, hready, -⟩ | ⟨st, hst, hready, hseen, hnext⟩
  · rw [hseen]
    refine ⟨?_, fun _ => hready, fun _ _ => trivial⟩
    rintro rest ⟨raw, hraw, -⟩
    cases hraw
  · rw [hseen]
    refine ⟨?_, fun _ => hready, fun _ _ => trivial⟩
    intro rest haccepted hmatch
    exact hnext (hcourse.granted n st rest hst (hcourse.grants n st hst _ _ rest haccepted) hmatch)

theorem i2c_update (room : Nat) (calls : List (UInt16 × UInt16)) :
    Spec (flash (self.transport (twiBus port t_entry weather)) img)
      (Session.At room calls (BusReady D img 0))
      (fun _ => Session.At room (calls ++ progressCalls img.pages.length img.pages.length)
        (BusReady D img (3 + img.pages.length)))
      (fun _ => True) := by
  apply flash_stages img _ room (fun n _ => BusReady D img n) (fun _ => True) calls
  · intros
    trivial
  · intros
    trivial
  · intro n _
    refine (i2c_serves port t_entry weather self hcourse hheard n).weaken _ ?_ (fun _ _ => trivial)
    intro rest w hnext
    exact ⟨hnext, fun _ => trivial⟩

variable (hwilling : Plant.Willing (I2cTransportError Unit) (boardPlant port info lost) img D)

include hwilling

theorem i2c_serves_calm (n : Nat) :
    Serves (self.transport (twiBus port t_entry weather)) (requestFrame img n) (responseRoom n)
      ((request img n).1 ||| RSP_FLAG) (BusTrying weather self D img n)
      (fun rest w => BusReady D img (n + 1) w ∧
        (n = 0 → InfoMatches (ε := I2cTransportError Unit) img rest))
      (fun _ => False) := by
  rintro k w rx ⟨hw, j, hj, hthrough⟩ hrx
  obtain ⟨req, hreceive, hcmd⟩ := hheard n _ hw.state.1
  obtain ⟨hcases, hwrites⟩ := i2c_request port t_entry weather self hcourse n hreceive hcmd hw rx
  dsimp only at hcases hwrites ⊢
  rcases hcases with ⟨e, hseen, hready, hblocked⟩ | ⟨st, hst, hready, hseen, hnext⟩
  · rw [hseen]
    refine ⟨?_, fun _ => ⟨hready, ?_⟩, fun _ hfinal => absurd trivial hfinal⟩
    · rintro rest ⟨raw, hraw, -⟩
      cases hraw
    · cases j with
      | zero => exact absurd hthrough hblocked
      | succ j =>
        refine ⟨j, by omega, ?_⟩
        rw [hwrites, Nat.add_assoc, Nat.add_comm 1]
        exact hthrough
  · obtain ⟨rest, haccepted, hstep, hmatch⟩ := hcourse.answered hwilling n st hst rx.length
    rw [← hrx] at haccepted
    rw [hseen]
    refine ⟨?_, fun hretry => absurd hretry haccepted.not_retryable,
      fun hnone => absurd haccepted (hnone rest)⟩
    intro rest' haccepted'
    obtain rfl : rest' = rest := Plant.accepted_unique haccepted' haccepted
    exact ⟨hnext hstep, hmatch⟩

theorem i2c_update_calm (hcalm : ∀ i, ∃ j ≤ RETRY_BUDGET, Through weather self (i + j)) (room : Nat) (hroom : img.page_size.toNat + 20 ≤ room)
    (calls : List (UInt16 × UInt16)) :
    Spec (flash (self.transport (twiBus port t_entry weather)) img)
      (Session.At room calls (BusReady D img 0))
      (fun _ => Session.At room (calls ++ progressCalls img.pages.length img.pages.length)
        (BusReady D img (3 + img.pages.length)))
      (fun _ => False) := by
  have htrying (n : Nat) (w : BusWorld β) (hw : BusReady D img n w) :
      BusTrying weather self D img n (1 + RETRY_BUDGET) w := by
    obtain ⟨j, hj, hthrough⟩ := hcalm w.writes
    exact ⟨hw, j, by omega, hthrough⟩
  have hstages := flash_stages img (self.transport (twiBus port t_entry weather)) room
    (BusTrying weather self D img) (fun _ => False) calls ?_ ?_ ?_
  · refine hstages.weaken ?_ ?_ (fun s h => h)
    · rintro s ⟨hw, hlength, hcalls⟩
      exact ⟨htrying 0 s.transport hw, hlength, hcalls⟩
    · rintro _ s ⟨hend, hlength, hcalls⟩
      exact ⟨hend.1, hlength, hcalls⟩
  · rintro n w ⟨-, j, hj, -⟩
    omega
  · intro hsmall
    omega
  · intro n _
    refine (i2c_serves_calm port t_entry weather self hcourse hheard hwilling n).weaken _ ?_
      (fun _ h => h)
    rintro rest w ⟨hnext, hmatch⟩
    refine ⟨fun _ => htrying (n + 1) w hnext, ?_⟩
    rintro ⟨hmismatch, hzero⟩
    exact hmismatch (hmatch hzero)

end Request

/-! ## The AVR-EA on its bus -/

def busSession (board : Twi.Main × β) (buf : List UInt8) : Session (BusWorld β) :=
  { transport := { board, writes := 0, reads := 0 }, buf, progress := [] }

section Board

variable {port : Port β} {info : PortInfo} {lost : β → β → κ → β} {shows : β → Flash → Prop}
  {flushed : β → Prop} {img : Image} (hstands : Stands port info lost shows flushed)
  (hpage : info.page_size.toNat ≤ 131) (t_entry : UInt16) (weather : Weather) (self : I2cTransport)
  {board : Twi.Main × β} {told : Told} (hlisten : Listening board none told) (hinfo : board.1.s.info = info)
  {f : Flash} (hshows : shows board.2 f) (buf : List UInt8)

include hpage in
theorem boardStage_heard (n : Nat) (d : UpdSession × β) (h : BoardStage img info shows flushed n d) :
    ∃ req, receiveFrame (requestFrame img n) = some req ∧ req.cmd = (request img n).1 := by
  obtain ⟨req, hreceive, -, hcmd, -⟩ := request_received_of_fits hpage n h.fits
  exact ⟨req, hreceive, hcmd⟩

include hstands hpage hlisten hinfo hshows

theorem board_i2c_sound
    (hok : (flash (self.transport (twiBus port t_entry weather)) img (busSession board buf)).1 = .ok ()) :
    let d := (flash (self.transport (twiBus port t_entry weather)) img (busSession board buf)).2.transport.board
    Fits img info ∧ flushed d.2 ∧ ∃ f, shows d.2 f ∧ region info f = img.content := by
  have hcourse : Plant.Course (ε := I2cTransportError Unit) (boardPlant port info lost) (fun _ => True) img
      (BoardStage img info shows flushed) := boardStage_course hstands hpage
  have hrun := i2c_update port t_entry weather self hcourse (boardStage_heard hpage) buf.length []
    (busSession board buf)
    ⟨⟨⟨boardStage_start hinfo hshows, hlisten.pending⟩, none, told, hlisten, fun _ h => by cases h⟩, rfl, rfl⟩
  rcases hflash : flash (self.transport (twiBus port t_entry weather)) img (busSession board buf) with
    ⟨e | _, session⟩
  · rw [hflash] at hok
    cases hok
  · rw [hflash] at hrun
    obtain ⟨hfits, -, hend⟩ := boardStage_end hrun.transport.state.1
    exact ⟨hfits, hend⟩

theorem board_i2c_completes (hfits : Fits img info)
    (hcalm : ∀ i, ∃ j ≤ RETRY_BUDGET, Through weather self (i + j))
    (hbuf : img.page_size.toNat + 20 ≤ buf.length) :
    (flash (self.transport (twiBus port t_entry weather)) img (busSession board buf)).1 = .ok () := by
  have hcourse : Plant.Course (ε := I2cTransportError Unit) (boardPlant port info lost) Mishap.Unheard img
      (BoardReady img info shows flushed) := boardReady_course hstands hpage
  have hrun := i2c_update_calm port t_entry weather self hcourse
    (fun n d h => boardStage_heard hpage n d h.stage) (boardReady_willing hstands hpage) hcalm buf.length
    hbuf [] (busSession board buf) ⟨⟨⟨⟨boardStage_start hinfo hshows, hfits, fun h => by omega⟩,
      hlisten.pending⟩, none, told, hlisten, fun _ h => by cases h⟩, rfl, rfl⟩
  rcases hflash : flash (self.transport (twiBus port t_entry weather)) img (busSession board buf) with
    ⟨e | _, session⟩
  · rw [hflash] at hrun
    exact hrun.elim
  · rfl

end Board

open Avr (Mcu avrPort)

/-- Whatever becomes of the transactions on the bus, and however the main loop is timed: an update
that says it is done leaves the image in the flash, and the bootloader where it was. -/
theorem avr_i2c_flash_sound (img : Image) (slow : Nat → Nat) (t_entry : UInt16) (weather : Weather)
    (self : I2cTransport) (board : Twi.Main × Mcu) (told : Told) (hlisten : Listening board none told)
    (hinfo : board.1.s.info = Avr.port_info) (hrest : board.2.AtRest) (buf : List UInt8)
    (hok : (flash (self.transport (twiBus (avrPort slow) t_entry weather)) img
      (busSession board buf)).1 = .ok ()) :
    let m' := (flash (self.transport (twiBus (avrPort slow) t_entry weather)) img
      (busSession board buf)).2.transport.board.2
    img.page_size = 128 ∧ img.app_pages = 480 ∧
      (∀ off < 0xF000, m'.flash (0x1000 + off) = img.content.getD off 0) ∧
      (upd_app_valid (avrPort slow) Avr.port_info m').1 = true ∧
      m'.error = false ∧ ∀ x < 0x1000, m'.flash x = board.2.flash x := by
  have hstart : AvrShows board.2.flash board.2 (fun off => board.2.flash (0x1000 + off)) :=
    ⟨hrest, fun _ _ => rfl, fun _ _ => rfl⟩
  obtain ⟨hfits, -, f, hshows, hregion⟩ := board_i2c_sound (avr_stands board.2.flash slow) (by decide)
    t_entry weather self hlisten hinfo hstart buf hok
  exact ⟨hfits.1.symm, hfits.2.symm, avrShows_image slow hshows hregion⟩

/-- If of a request and its retries one gets through, so does the update. -/
theorem avr_i2c_flash_completes (img : Image) (hps : img.page_size = 128) (hap : img.app_pages = 480)
    (slow : Nat → Nat) (t_entry : UInt16) (weather : Weather) (self : I2cTransport)
    (hcalm : ∀ i, ∃ j ≤ RETRY_BUDGET, Through weather self (i + j)) (board : Twi.Main × Mcu) (told : Told)
    (hlisten : Listening board none told) (hinfo : board.1.s.info = Avr.port_info)
    (hrest : board.2.AtRest) (buf : List UInt8) (hbuf : 148 ≤ buf.length) :
    (flash (self.transport (twiBus (avrPort slow) t_entry weather)) img (busSession board buf)).1 = .ok () :=
  board_i2c_completes (avr_stands board.2.flash slow) (by decide) t_entry weather self hlisten hinfo
    (f := fun off => board.2.flash (0x1000 + off)) ⟨hrest, fun _ _ => rfl, fun _ _ => rfl⟩ buf
    ⟨hps.symm, hap.symm⟩ hcalm (by rw [hps]; exact hbuf)

def busStart : Twi.Main × Mcu := (Twi.main_init Avr.port_info true, Mcu.powerUp (fun _ => 0x55))

theorem busStart_listening : Listening busStart none Twi.told_init where
  receiving := Twi.caller_init_receiving
  serving := Twi.caller_init_serving
  free := rfl
  tx_size := List.length_replicate
  resident := rfl
  pending := rfl

/-- Of four writes the first hangs after three bytes, the second is cut by a fault, and the reads
after the third all fail; the fourth gets through. -/
def roughWeather : Weather where
  write i :=
    { timing := fun _ => ⟨[0, 0], 0⟩, stale := true
      cut := if i % 4 = 0 then some (4, .hang) else if i % 4 = 1 then some (9, .fault) else none }
  read i k :=
    { timing := fun _ => ⟨[], 0⟩, stale := k % 2 = 0
      cut := if i % 4 = 0 ∧ k % 2 = 1 then none else some (k, .stop) }

theorem roughWeather_through (i : Nat) : ∃ j ≤ RETRY_BUDGET, Through roughWeather .new (i + j) := by
  have hfourth : (i + (3 - i % 4)) % 4 = 3 := by omega
  refine ⟨3 - i % 4, Nat.sub_le _ _, ?_, 1, by decide, ?_⟩
  · unfold roughWeather
    dsimp only
    rw [hfourth]
    rfl
  · have hnext : (i + (3 - i % 4) + 1) % 4 = 0 := by omega
    unfold roughWeather
    dsimp only
    rw [hnext]
    rfl

theorem avr_i2c_flash_completes_rough : ∃ img, Image.from_bin [1, 2, 3] 128 480 = .ok img ∧
    (flash (I2cTransport.new.transport (twiBus (avrPort (fun _ => 5)) 300 roughWeather)) img
      (busSession busStart (List.replicate 148 0))).1 = .ok () := by
  obtain ⟨img, himg, -⟩ :=
    from_bin_eq_ok [1, 2, 3] 128 480 (by decide) (by decide) (by decide) (by decide)
  obtain ⟨-, hps, hap⟩ := from_bin_fields himg
  exact ⟨img, himg, avr_i2c_flash_completes img hps hap (fun _ => 5) 300 roughWeather .new
    roughWeather_through busStart Twi.told_init busStart_listening rfl (Avr.powerUp_atRest _) _
    (Nat.le_of_eq List.length_replicate.symm)⟩

theorem avr_i2c_flash_sound_rough : ∃ img, Image.from_bin [1, 2, 3] 128 480 = .ok img ∧
    let m' := (flash (I2cTransport.new.transport (twiBus (avrPort (fun _ => 5)) 300 roughWeather)) img
      (busSession busStart (List.replicate 148 0))).2.transport.board.2
    img.page_size = 128 ∧ img.app_pages = 480 ∧
      (∀ off < 0xF000, m'.flash (0x1000 + off) = img.content.getD off 0) ∧
      (upd_app_valid (avrPort (fun _ => 5)) Avr.port_info m').1 = true ∧
      m'.error = false ∧ ∀ x < 0x1000, m'.flash x = busStart.2.flash x := by
  obtain ⟨img, himg, -⟩ :=
    from_bin_eq_ok [1, 2, 3] 128 480 (by decide) (by decide) (by decide) (by decide)
  obtain ⟨-, hps, hap⟩ := from_bin_fields himg
  refine ⟨img, himg, avr_i2c_flash_sound img (fun _ => 5) 300 roughWeather .new busStart
    Twi.told_init busStart_listening rfl (Avr.powerUp_atRest _) (List.replicate 148 0) ?_⟩
  refine board_i2c_completes (avr_stands (fun _ => 0x55) (fun _ => 5)) (by decide) 300 roughWeather .new
    busStart_listening rfl (f := fun _ => 0x55) ⟨Avr.powerUp_atRest _, fun _ _ => rfl, fun _ _ => rfl⟩ _
    ⟨hps.symm, hap.symm⟩ roughWeather_through ?_
  rw [hps, List.length_replicate]
  decide

end OtaUpdater.System
