import OtaUpdater.System.I2cBus

/-!
# Reads and writes on the bus

A whole write is answered, and every whole read after it brings that answer. A write that
is cut short leaves nothing but a part of its request, which is not taken for one.
-/

open OtaUpdater.Lib.Bytes OtaUpdater.Lib.State OtaUpdater.Wire OtaUpdater.Device OtaUpdater.Host
open OtaUpdater.Agreement
open OtaUpdater.Device.Twi (BusEvent Told Call)

namespace OtaUpdater.System

variable {β : Type}

section Transactions

variable (port : Port β) (t_entry : UInt16)

theorem transact_cons (timing : Nat → Timing) (e : BusEvent) (es : List BusEvent) (d : Twi.Main × β) :
    transact port t_entry timing (e :: es) d =
      let first := busEvent port t_entry (timing 0) e d
      let rest := transact port t_entry (fun i => timing (i + 1)) es first.2
      (first.1 ++ rest.1, rest.2) := rfl

theorem transact_append (timing : Nat → Timing) (es es' : List BusEvent) (d : Twi.Main × β) :
    transact port t_entry timing (es ++ es') d =
      let first := transact port t_entry timing es d
      let rest := transact port t_entry (fun i => timing (i + es.length)) es' first.2
      (first.1 ++ rest.1, rest.2) := by
  induction es generalizing timing d with
  | nil => rfl
  | cons e es ih =>
    rw [List.cons_append, transact_cons, transact_cons]
    dsimp only
    rw [ih]
    dsimp only
    rw [List.append_assoc]
    rfl

/-! ## Reads -/

theorem read_events (es : List BusEvent) (hes : ∀ e ∈ es, OfRead e) (timing : Nat → Timing)
    {d : Twi.Main × β} {st : UpdSession × β} {told : Told} (h : Answering d st told) :
    ∃ told', Answering (transact port t_entry timing es d).2 st told' ∧ told'.rsp = told.rsp := by
  induction es generalizing timing d told with
  | nil => exact ⟨told, h, rfl⟩
  | cons e es ih =>
    obtain ⟨told', hnext, hsame⟩ := read_event port t_entry h (timing 0) (hes e List.mem_cons_self)
    obtain ⟨told'', hlast, hsame'⟩ := ih (fun e' he' => hes e' (List.mem_cons_of_mem _ he'))
      (fun i => timing (i + 1)) hnext
    exact ⟨told'', hlast, hsame'.trans hsame⟩

theorem wants_false (n : Nat) (timing : Nat → Timing) {d : Twi.Main × β} {st : UpdSession × β} {told : Told}
    (h : Answering d st told) :
    (transact port t_entry timing (List.replicate n (.want false)) d).1 =
      (List.range n).map (fun i => told.rsp.getD (told.next + i) 0xFF) := by
  induction n generalizing timing d told with
  | zero => rfl
  | succ n ih =>
    obtain ⟨told', hnext, hsame, hloads⟩ := want_event port t_entry h (timing 0) false
    obtain ⟨hloaded, hcount⟩ := hloads (Or.inr rfl)
    rw [List.replicate_succ, List.range_succ_eq_map, List.map_cons, List.map_map]
    rw [transact_cons]
    dsimp only
    rw [hloaded, ih _ hnext, hsame, hcount]
    refine congrArg (_ :: ·) (List.map_congr_left fun i _ => ?_)
    rw [Function.comp_apply, Nat.add_assoc, Nat.add_comm 1]

theorem wants_read (stale : Bool) (n : Nat) (timing : Nat → Timing) {d : Twi.Main × β}
    {st : UpdSession × β} {told : Told} (h : Answering d st told) (hfirst : d.1.t.tx_first = true)
    (hnext : told.next = 0) :
    (transact port t_entry timing (wants stale n) d).1 =
      (List.range n).map (fun i => told.rsp.getD i 0xFF) := by
  cases n with
  | zero => rfl
  | succ n =>
    obtain ⟨told', hstep, hsame, hloads⟩ := want_event port t_entry h (timing 0) stale
    obtain ⟨hloaded, hcount⟩ := hloads (Or.inl hfirst)
    rw [List.range_succ_eq_map, List.map_cons, List.map_map]
    unfold wants
    rw [transact_cons]
    dsimp only
    rw [hloaded, wants_false port t_entry n _ hstep, hsame, hcount, hnext]
    refine congrArg (_ :: ·) (List.map_congr_left fun i _ => ?_)
    rw [Function.comp_apply, Nat.zero_add, Nat.add_comm 1]

theorem readEvents_ofRead (stale : Bool) (n : Nat) : ∀ e ∈ readEvents stale n, OfRead e := by
  have hwants : ∀ e ∈ wants stale n, OfRead e := by
    cases n with
    | zero =>
      intro e he
      cases he
    | succ n =>
      intro e he
      rcases List.mem_cons.mp he with rfl | he
      · trivial
      · rw [List.eq_of_mem_replicate he]
        trivial
  intro e he
  unfold readEvents at he
  simp only [List.mem_cons, List.mem_append, List.not_mem_nil, or_false] at he
  rcases he with rfl | hwant | rfl | rfl
  · rfl
  · exact hwants e hwant
  · trivial
  · trivial

theorem read_whole (stale : Bool) (n : Nat) (timing : Nat → Timing) {d : Twi.Main × β}
    {st : UpdSession × β} {told : Told} (h : Answering d st told) :
    (transact port t_entry timing (readEvents stale n) d).1.take n =
      (told.rsp ++ List.replicate n 0xFF).take n := by
  obtain ⟨hnone, hstate, hfirst, told', hnext, htold⟩ := address_event port t_entry h.listening (timing 0)
    true (fun rx hrx => by cases hrx)
  obtain ⟨hzero, hsame⟩ := htold rfl
  have hanswering : Answering (busEvent port t_entry (timing 0) (.address true) d).2 st told' :=
    ⟨hstate.trans h.state, hnext⟩
  have hwants := wants_read port t_entry stale n (fun i => timing (i + 1)) hanswering (hfirst rfl) hzero
  unfold readEvents
  rw [transact_cons]
  dsimp only
  rw [hnone, List.nil_append, transact_append]
  dsimp only
  rw [hwants, List.take_left' (by rw [List.length_map, List.length_range]), hsame rfl]
  apply List.ext_getElem
  · rw [List.length_map, List.length_range, List.length_take, List.length_append, List.length_replicate]
    omega
  · intro i hi hi'
    rw [List.length_map, List.length_range] at hi
    rw [List.getElem_map, List.getElem_range, List.getElem_take, List.getElem_append]
    split
    · rename_i hin
      exact List.getD_eq_getElem _ _ hin
    · rename_i hout
      rw [List.getElem_replicate]
      exact List.getD_eq_default _ _ (Nat.le_of_not_lt hout)

/-! ## Writes -/

theorem transact_write (timing : Nat → Timing) (bytes : List UInt8) (d : Twi.Main × β) :
    (transact port t_entry timing (Twi.hostWrite bytes) d).2 =
      (busEvent port t_entry (timing (0 + (bytes.map BusEvent.byte).length + 1)) .stop
        (transact port t_entry (fun i => timing (i + 1)) (bytes.map .byte)
          (busEvent port t_entry (timing 0) (.address false) d).2).2).2 := by
  unfold Twi.hostWrite
  rw [List.cons_append, transact_cons]
  dsimp only
  rw [transact_append]
  rfl

/-- A frame that was cut off is not taken for one. -/
theorem prefix_unheard {cmd : UInt8} {payload rx : List UInt8} (hlength : (wire cmd payload).length ≤ 136)
    (hwritten : rx <+: wire cmd payload) : rx = wire cmd payload ∨ receiveFrame rx = none := by
  rcases hreceive : receiveFrame rx with _ | req
  · exact Or.inr rfl
  · left
    have hrx := receiveFrame_length hreceive
    have hbyte := len_byte rx (by omega)
    have hparse : upd_frame_parse rx (UInt8.ofNat rx.length) = some req := by
      unfold receiveFrame at hreceive
      rwa [if_pos (show rx.length ≤ UPDATER_RX_BUF_SIZE.toNat from hrx)] at hreceive
    rw [upd_frame_parse_iff _ _ (Nat.le_of_eq hbyte), hbyte, List.take_length] at hparse
    rw [length_wire] at hlength
    have hpayload := congrArg List.length hparse
    rw [length_wire] at hpayload
    have hsecond := hwritten.getElem (show 1 < rx.length by omega)
    have hlen : UInt8.ofNat req.payload.length = UInt8.ofNat payload.length := by
      simp only [hparse] at hsecond
      exact hsecond
    have hsame := congrArg UInt8.toNat hlen
    rw [len_byte _ (by omega), len_byte _ (by omega)] at hsame
    exact hwritten.eq_of_length (by rw [hpayload, length_wire, hsame])

structure Held (D : UpdSession × β → Prop) (frame : List UInt8) (d : Twi.Main × β) : Prop where
  state : D (boardState d)
  listening : ∃ txn told, Listening d txn told ∧ ∀ bytes ∈ txn, bytes <+: frame

section Frame

variable {D : UpdSession × β → Prop} {cmd : UInt8} {payload : List UInt8}
  (hlength : (wire cmd payload).length ≤ 136)
  (hserved : ∀ st, D st → D (serveFrame port (wire cmd payload) st).2)
  (hpending : ∀ st, D st → st.1.boot_pending = false)

include hlength hserved

theorem prefix_served {st : UpdSession × β} (h : D st) {rx : List UInt8}
    (hwritten : rx <+: wire cmd payload) : D (serveFrame port rx st).2 := by
  rcases prefix_unheard hlength hwritten with rfl | hnone
  · exact hserved st h
  · unfold serveFrame
    rw [hnone]
    exact h

theorem settled_served {st : UpdSession × β} (h : D st) {txn : Option (List UInt8)}
    (hwritten : ∀ bytes ∈ txn, bytes <+: wire cmd payload) : D (settledState port txn st) := by
  unfold settledState
  rcases hparked : txn.filter Twi.whole with _ | rx
  · exact h
  · exact prefix_served port hlength hserved h (hwritten rx (Option.filter_eq_some_iff.mp hparked).1)

include hpending

theorem held_pending {st : UpdSession × β} (h : D st) {txn : Option (List UInt8)}
    (hwritten : ∀ bytes ∈ txn, bytes <+: wire cmd payload) :
    ∀ rx ∈ txn.filter Twi.whole, (serveFrame port rx st).2.1.boot_pending = false := by
  intro rx hrx
  exact hpending _ (prefix_served port hlength hserved h (hwritten rx (Option.filter_eq_some_iff.mp hrx).1))

theorem held_halt {d : Twi.Main × β} (h : Held D (wire cmd payload) d) (timing : Nat → Timing) (halt : Halt) :
    Held D (wire cmd payload) (transact port t_entry timing halt.events d).2 := by
  obtain ⟨hstate, txn, told, hlisten, hwritten⟩ := h
  cases halt with
  | hang => exact ⟨hstate, txn, told, hlisten, hwritten⟩
  | stop =>
    obtain ⟨hafter, told', hnext, -⟩ := stop_event port t_entry hlisten (timing 0)
      (held_pending port hlength hserved hpending hstate hwritten)
    refine ⟨?_, none, told', hnext, fun _ hbytes => by cases hbytes⟩
    exact hafter ▸ settled_served port hlength hserved hstate hwritten
  | fault =>
    obtain ⟨hafter, told', hnext⟩ := fault_event port t_entry hlisten (timing 0)
    refine ⟨?_, none, told', hnext, fun _ hbytes => by cases hbytes⟩
    exact hafter ▸ hstate

theorem held_begins {d : Twi.Main × β} (h : Held D (wire cmd payload) d) (timing : Timing) :
    let d' := (busEvent port t_entry timing (.address false) d).2
    D (boardState d') ∧ ∃ told, Listening d' (some []) told := by
  obtain ⟨hstate, txn, told, hlisten, hwritten⟩ := h
  obtain ⟨-, hafter, -, told', hnext, -⟩ := address_event port t_entry hlisten timing false
    (held_pending port hlength hserved hpending hstate hwritten)
  exact ⟨hafter ▸ settled_served port hlength hserved hstate hwritten, told', hnext⟩

omit hlength hserved hpending in
theorem put_bytes (bytes : List UInt8) (timing : Nat → Timing) {d : Twi.Main × β} {got : List UInt8}
    {told : Told} (h : Listening d (some got) told) :
    let d' := (transact port t_entry timing (bytes.map .byte) d).2
    boardState d' = boardState d ∧ ∃ told', Listening d' (some (got ++ bytes)) told' := by
  induction bytes generalizing timing d got told with
  | nil => exact ⟨rfl, told, by rw [List.append_nil]; exact h⟩
  | cons b bytes ih =>
    obtain ⟨hstate, told', hnext⟩ := byte_event port t_entry h (timing 0) b
    obtain ⟨hstate', told'', hlast⟩ := ih (fun i => timing (i + 1)) hnext
    refine ⟨hstate'.trans hstate, told'', ?_⟩
    rw [List.append_assoc] at hlast
    exact hlast

theorem write_whole {d : Twi.Main × β} (h : Held D (wire cmd payload) d) {req : UpdFrame}
    (hreceive : receiveFrame (wire cmd payload) = some req) (timing : Nat → Timing) :
    ∃ st told, D st ∧ told.rsp = (serveFrame port (wire cmd payload) st).1 ∧
      Answering (transact port t_entry timing (Twi.hostWrite (wire cmd payload)) d).2
        (serveFrame port (wire cmd payload) st).2 told := by
  obtain ⟨hopen, told, hlisten⟩ := held_begins port t_entry hlength hserved hpending h (timing 0)
  obtain ⟨hput, told', hfull⟩ := put_bytes port t_entry (wire cmd payload) (fun i => timing (i + 1)) hlisten
  rw [List.nil_append] at hfull
  have hwhole : (some (wire cmd payload)).filter Twi.whole = some (wire cmd payload) := by
    have hsize := length_wire cmd payload
    rw [Option.filter_eq_some_iff]
    refine ⟨rfl, decide_eq_true ⟨by omega, hlength⟩⟩
  obtain ⟨hafter, told'', hnext, hreply⟩ := stop_event port t_entry hfull
    (timing (0 + ((wire cmd payload).map BusEvent.byte).length + 1)) (by
      rw [hput]
      exact held_pending port hlength hserved hpending hopen (fun bytes hbytes => by
        obtain rfl := Option.some.inj hbytes
        exact List.prefix_rfl))
  unfold settledState at hafter
  rw [hwhole] at hafter hreply
  rw [hput] at hafter hreply
  rw [transact_write]
  exact ⟨_, told'', hopen, hreply _ rfl req hreceive, hafter, hnext⟩

/-- A write that is cut short leaves part of the request on the bus at most, or has been handled. -/
theorem write_cut {d : Twi.Main × β} (h : Held D (wire cmd payload) d) (timing : Nat → Timing) (k : Nat)
    (halt : Halt) :
    Held D (wire cmd payload)
      (transact port t_entry timing ((Twi.hostWrite (wire cmd payload)).take k ++ halt.events) d).2 := by
  have hbefore : Held D (wire cmd payload)
      (transact port t_entry timing ((Twi.hostWrite (wire cmd payload)).take k) d).2 := by
    cases k with
    | zero => exact h
    | succ k =>
      obtain ⟨hopen, told, hlisten⟩ := held_begins port t_entry hlength hserved hpending h (timing 0)
      unfold Twi.hostWrite
      rw [List.cons_append, List.take_succ_cons, transact_cons]
      dsimp only
      rw [List.take_append, ← List.map_take, transact_append]
      dsimp only
      obtain ⟨hput, told', hnext⟩ := put_bytes port t_entry ((wire cmd payload).take k)
        (fun i => timing (i + 1)) hlisten
      rw [List.nil_append] at hnext
      have hheld : Held D (wire cmd payload) (transact port t_entry (fun i => timing (i + 1))
          (List.map .byte ((wire cmd payload).take k))
          (busEvent port t_entry (timing 0) (.address false) d).2).2 := by
        refine ⟨hput ▸ hopen, _, told', hnext, ?_⟩
        intro bytes hbytes
        obtain rfl := Option.some.inj hbytes
        exact List.take_prefix _ _
      generalize k - (List.map BusEvent.byte (wire cmd payload)).length = more
      cases more with
      | zero =>
        rw [List.take_zero]
        exact hheld
      | succ more =>
        rw [List.take_succ_cons, List.take_nil]
        exact held_halt port t_entry hlength hserved hpending hheld _ .stop
  rw [transact_append]
  exact held_halt port t_entry hlength hserved hpending hbefore _ halt

end Frame

end Transactions

end OtaUpdater.System
