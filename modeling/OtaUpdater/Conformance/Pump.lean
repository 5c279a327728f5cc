import OtaUpdater.Agreement.Framing
import OtaUpdater.Conformance.SimRules

/-!
# The two paths of the simulated device

The stream path answers what the transactional one answers, behind a sync byte, to the frames
that the link delivers.
-/

open OtaUpdater.Lib.Mealy OtaUpdater.Lib.State OtaUpdater.Wire OtaUpdater.Device OtaUpdater.Agreement
open OtaUpdater.System

namespace OtaUpdater.Conformance

/-! ## One frame -/

def framed : List UInt8 → List UInt8
  | [] => []
  | b :: bytes => UPD_LINK_SYNC :: b :: bytes

@[simp] theorem framed_wire (cmd : UInt8) (payload : List UInt8) :
    framed (wire cmd payload) = UPD_LINK_SYNC :: wire cmd payload := rfl

theorem link_send_take (tx : List UInt8) (n : UInt8) (h : n.toNat ≤ tx.length) :
    link_send tx n = UPD_LINK_SYNC :: tx.take n.toNat := by
  unfold link_send
  congr 1
  apply List.ext_getElem
  · simp only [List.length_map, List.length_range, List.length_take]
    omega
  · intro i hi htake
    simp only [List.length_map, List.length_range] at hi
    simp [List.getD_eq_getElem?_getD, List.getElem?_eq_getElem (show i < tx.length by omega)]

theorem stream_put_fits (cap : Nat) (bytes : List UInt8) (g : Statics) (out : List UInt8)
    (h : out.length + bytes.length ≤ cap) : stream_put cap bytes (g, out) = (g, out ++ bytes) := by
  induction bytes generalizing out with
  | nil => rw [List.append_nil]; rfl
  | cons b bytes ih =>
    rw [List.length_cons] at h
    have hrest := ih (out ++ [b]) (by rw [List.length_append, List.length_singleton]; omega)
    unfold stream_put
    rw [if_neg (by omega), hrest, List.append_assoc, List.singleton_append]

def REPLY_MAX : Nat := 21

theorem sim_answer_length (s : UpdSession) (req : UpdFrame) (f : Flash) :
    (upd_handle (arrayPort port_info store) s req rspCap f).1.2.length ≤ 17 := by
  obtain ⟨status, rest, hanswer, -, -, hmax⟩ :=
    upd_handle_shaped (arrayPort port_info store) s req f rspCap (by decide)
  rw [hanswer, List.length_cons]
  omega

section Frame

variable {d : Sim} (h : d.Live) {frame : List UInt8} {req : UpdFrame}
include h

theorem sim_request_length (frame : List UInt8) : (framed (sim_request frame d).1).length ≤ REPLY_MAX := by
  have hshaped := answer_request_shaped simPort d.session d.g rspCap (by decide) frame (parseFrame frame)
  obtain ⟨status, rest, hanswer, -, hmax, -⟩ := hshaped
  have hrun := sim_request_cycle h frame
  dsimp only at hrun
  rw [hanswer] at hrun
  rw [hrun]
  unfold REPLY_MAX
  split_ifs
  · exact Nat.zero_le _
  · rw [framed_wire, List.length_cons, length_wire, List.length_cons]
    omega

theorem pump_frame_request (hreq : parseFrame frame = some req) (cap : Nat) (out : List UInt8)
    (hroom : out.length + REPLY_MAX ≤ cap) :
    let r := sim_request frame d
    pump_frame cap req d out = (out ++ framed r.1, r.2, !(r.2.g.dead || r.2.g.jumped)) := by
  have hrun := sim_request_run h hreq
  have hlength := sim_answer_length d.session req d.g.flash
  have hinfo := upd_handle_info_eq (arrayPort d.session.info store) d.session req d.g.flash rspCap
  rw [h.info] at hinfo
  dsimp only at hrun ⊢
  rw [hrun]
  unfold pump_frame
  rw [upd_handle_sim h.info]
  generalize upd_handle (arrayPort port_info store) d.session req rspCap d.g.flash = plain
    at hlength hinfo ⊢
  obtain ⟨⟨session, answer⟩, f⟩ := plain
  dsimp only at hlength hinfo ⊢
  obtain ⟨hshows, hfits, hsize⟩ := upd_frame_build_shows (List.replicate 255 0) 255
    (req.cmd ||| UPD_RSP_FLAG) answer List.length_replicate (by change answer.length + 3 ≤ 255; omega)
  rw [link_send_take _ _ (by rw [hsize]; exact hfits), hshows]
  split_ifs with hdead
  · simp [framed, hdead]
  · have hreply : (UPD_LINK_SYNC :: wire (req.cmd ||| UPD_RSP_FLAG) answer).length ≤ REPLY_MAX := by
      rw [List.length_cons, length_wire]
      unfold REPLY_MAX
      omega
    rw [stream_put_fits _ _ _ _ (by omega)]
    simp [take_gate_dead, hinfo, hdead]

omit h in
theorem sim_request_link (frame : List UInt8) (d : Sim) (l : Link) :
    sim_request frame { d with link := l } =
      ((sim_request frame d).1, { (sim_request frame d).2 with link := l }) := by
  unfold sim_request take_gate
  dsimp only
  split_ifs
  · rfl
  · rfl
  · rfl
  · rfl

theorem sim_request_live (hdead : (sim_request frame d).2.g.dead = false)
    (hjumped : (sim_request frame d).2.g.jumped = false) : (sim_request frame d).2.Live := by
  rcases hparse : parseFrame frame with _ | req
  · rw [sim_request_bad h hparse]
    exact h
  · have hrun := sim_request_run h hparse
    have hinfo := upd_handle_info_eq (arrayPort d.session.info store) d.session req d.g.flash rspCap
    rw [h.info] at hinfo
    dsimp only at hrun
    rw [hrun] at hdead hjumped ⊢
    split_ifs at hdead hjumped ⊢ with hcut
    · dsimp only at hdead
      rw [hdead] at hcut
      cases hcut
    · obtain ⟨hsame, hsettled⟩ := take_gate_session (d := { d with
        g := (flashOps d.session req).foldl simPort.call d.g
        session := (upd_handle (arrayPort port_info store) d.session req rspCap d.g.flash).1.1 }) hinfo
      exact ⟨hdead, hjumped, hsame, hsettled⟩

end Frame

/-! ## Whole pumps -/

def sim_requests : List UpdFrame → Sim → List UInt8 × Sim
  | [], d => ([], d)
  | req :: rest, d =>
    let r := sim_request (wire req.cmd req.payload) d
    let later := sim_requests rest r.2
    (framed r.1 ++ later.1, later.2)

theorem sim_requests_gone {d : Sim} (h : d.g.dead = true ∨ d.g.jumped = true) (reqs : List UpdFrame) :
    sim_requests reqs d = ([], d) := by
  induction reqs with
  | nil => rfl
  | cons req reqs ih =>
    unfold sim_requests
    rw [sim_request_gone h]
    dsimp only
    rw [ih]
    rfl

theorem sim_requests_append (reqs reqs' : List UpdFrame) (d : Sim) :
    sim_requests (reqs ++ reqs') d =
      let r := sim_requests reqs d
      let later := sim_requests reqs' r.2
      (r.1 ++ later.1, later.2) := by
  induction reqs generalizing d with
  | nil => rfl
  | cons req reqs ih =>
    simp only [List.cons_append, sim_requests, ih, List.append_assoc]

theorem sim_requests_link (reqs : List UpdFrame) (d : Sim) (l : Link) :
    sim_requests reqs { d with link := l } =
      ((sim_requests reqs d).1, { (sim_requests reqs d).2 with link := l }) := by
  induction reqs generalizing d with
  | nil => rfl
  | cons req reqs ih =>
    unfold sim_requests
    rw [sim_request_link]
    dsimp only
    rw [ih]

theorem link_byte_parses {l : Link} (h : l.Good) (b : UInt8) {req : UpdFrame}
    (hreq : (link_byte l b).2 = some req) : parseFrame (wire req.cmd req.payload) = some req := by
  have hlt := l.buf_len.toNat_lt
  have hroom := h.room
  obtain ⟨buf, n, hsize, hn, hparse⟩ : ∃ buf n, buf.length = l.buf_len.toNat ∧
      n.toNat ≤ buf.length ∧ upd_frame_parse buf n = some req := by
    cases hin : l.in_frame with
    | false =>
      have hnone : (link_byte l b).2 = none := by
        unfold link_byte
        rw [hin]
        simp only [Bool.not_false, if_true]
        split_ifs
        · rfl
        · rfl
      rw [hnone] at hreq
      cases hreq
    | true =>
      have hsucc := h.succ_toNat hin
      have hbounded := h.bounded hin
      rw [link_byte_in_frame h hin] at hreq
      split_ifs at hreq
      exact ⟨_, _, by rw [List.length_set, hroom], by rw [List.length_set]; omega, hreq⟩
  rw [upd_frame_parse_iff _ _ hn] at hparse
  have hlength := congrArg List.length hparse
  rw [List.length_take, length_wire] at hlength
  obtain ⟨req', hreq', hcmd, hpayload⟩ := parseFrame_wire req.cmd req.payload
    (by unfold payloadMax; omega)
  rw [hreq', frame_eq hcmd hpayload]

theorem link_poll_parses {l : Link} (h : l.Good) (bytes : List UInt8) {req : UpdFrame}
    (hreq : (link_poll l bytes).1 = some req) : parseFrame (wire req.cmd req.payload) = some req := by
  induction bytes generalizing l with
  | nil => cases hreq
  | cons b bytes ih =>
    have hgood := link_byte_good h b
    have hnow : (link_byte l b).2 = some req → _ := link_byte_parses h b
    unfold link_poll at hreq
    rcases hbyte : link_byte l b with ⟨l', _ | out⟩
    · rw [hbyte] at hreq hgood
      exact ih hgood hreq
    · rw [hbyte] at hreq hnow
      exact hnow hreq

theorem drain_done {l l' : Link} {bytes rest : List UInt8}
    (hpoll : link_poll l bytes = (none, l', rest)) : drain l bytes = ([], l') := by
  rw [drain_eq_feed, feed_eq_link_poll, hpoll]

theorem drain_frame {l l' : Link} {bytes rest : List UInt8} {req : UpdFrame}
    (hpoll : link_poll l bytes = (some req, l', rest)) :
    drain l bytes = (req :: (drain l' rest).1, (drain l' rest).2) := by
  rw [drain_eq_feed, feed_eq_link_poll, hpoll, drain_eq_feed]

theorem pump_done (cap : Nat) {d : Sim} (out : List UInt8) {bytes rest : List UInt8} {link : Link}
    (hpoll : link_poll d.link bytes = (none, link, rest)) :
    pump cap d out bytes = (out, { d with link }) := by
  unfold pump
  split
  · rename_i link' rest' hpoll'
    rw [hpoll] at hpoll'
    cases hpoll'
    rfl
  · rename_i req link' rest' hpoll'
    rw [hpoll] at hpoll'
    cases hpoll'

theorem pump_goes (cap : Nat) {d : Sim} (out : List UInt8) {bytes rest : List UInt8} {req : UpdFrame}
    {link : Link} (hpoll : link_poll d.link bytes = (some req, link, rest)) :
    pump cap d out bytes =
      let r := pump_frame cap req { d with link } out
      if r.2.2 then pump cap r.2.1 r.1 rest else (r.1, r.2.1) := by
  rw [pump]
  split
  · rename_i link' rest' hpoll'
    rw [hpoll] at hpoll'
    cases hpoll'
  · rename_i req' link' rest' hpoll'
    rw [hpoll] at hpoll'
    cases hpoll'
    rfl

theorem pump_requests (cap : Nat) (bytes : List UInt8) {d : Sim} (h : d.Live) (hlink : d.link.Good)
    (out : List UInt8) (hroom : out.length + REPLY_MAX * (drain d.link bytes).1.length ≤ cap) :
    let t := sim_requests (drain d.link bytes).1 d
    ∃ link, (link.Good ∧ link.buf_len = d.link.buf_len) ∧
      pump cap d out bytes = (out ++ t.1, { t.2 with link }) ∧
      (t.2.g.dead = false → t.2.g.jumped = false → link = (drain d.link bytes).2) := by
  induction hsize : bytes.length using Nat.strongRecOn generalizing bytes d out with
  | _ size ih =>
  obtain ⟨hgood, hsame, -⟩ := link_poll_good hlink bytes
  rcases hpoll : link_poll d.link bytes with ⟨_ | req, link, rest⟩
  · rw [hpoll] at hgood hsame
    rw [drain_done hpoll, pump_done cap out hpoll]
    exact ⟨link, ⟨hgood, hsame⟩, by rw [sim_requests, List.append_nil], fun _ _ => rfl⟩
  · have hless := link_poll_rest_length d.link bytes (by rw [hpoll]; rfl)
    have hparse : parseFrame (wire req.cmd req.payload) = some req :=
      link_poll_parses hlink bytes (by rw [hpoll])
    rw [hpoll] at hgood hsame hless
    have hlive : ({ d with link } : Sim).Live := ⟨h.powered, h.here, h.info, h.no_boot⟩
    rw [drain_frame hpoll, List.length_cons, Nat.mul_succ] at hroom
    have hframe := pump_frame_request hlive hparse cap out (by omega)
    have hlength := sim_request_length hlive (wire req.cmd req.payload)
    have hnext := @sim_request_live _ hlive (wire req.cmd req.payload)
    rw [sim_request_link] at hframe hlength hnext
    dsimp only at hframe hlength hnext hgood
    rw [drain_frame hpoll, pump_goes cap out hpoll, hframe]
    unfold sim_requests
    generalize sim_request (wire req.cmd req.payload) d = r at hlength hnext ⊢
    obtain ⟨reply, d'⟩ := r
    dsimp only at hlength hnext ⊢
    by_cases hgone : d'.g.dead = true ∨ d'.g.jumped = true
    · have hstop : (!(d'.g.dead || d'.g.jumped)) = false := by
        rw [Bool.not_eq_false', Bool.or_eq_true]
        exact hgone
      rw [hstop, if_neg Bool.false_ne_true, sim_requests_gone hgone, List.append_nil]
      refine ⟨link, ⟨hgood, hsame⟩, rfl, ?_⟩
      intro hdead hjumped
      rw [hdead, hjumped] at hgone
      simp at hgone
    · rw [not_or, Bool.not_eq_true, Bool.not_eq_true] at hgone
      rw [if_pos (by simp [hgone])]
      obtain ⟨link', hgood', hrest, hlast⟩ := ih rest.length (hsize ▸ hless) rest
        (hnext hgone.1 hgone.2) hgood (out ++ framed reply)
        (by rw [List.length_append]; dsimp only; omega) rfl
      rw [sim_requests_link] at hrest hlast
      exact ⟨link', ⟨hgood'.1, hgood'.2.trans hsame⟩, by rw [hrest, List.append_assoc], hlast⟩

/-! ## Pump after pump -/

def pumps (cap : Nat) : List (List UInt8) → Sim → List UInt8 × Sim
  | [], d => ([], d)
  | bytes :: rest, d =>
    let r := sim_request_stream bytes cap d
    let later := pumps cap rest r.2
    (r.1 ++ later.1, later.2)

/-- No pump completes more frames than there is room for replies to. -/
def Roomy (cap : Nat) : Link → List (List UInt8) → Prop
  | _, [] => True
  | l, bytes :: rest =>
    REPLY_MAX * (drain l bytes).1.length ≤ cap ∧ Roomy cap (drain l bytes).2 rest

theorem pumps_gone (cap : Nat) {d : Sim} (h : d.g.dead = true ∨ d.g.jumped = true)
    (chunks : List (List UInt8)) : pumps cap chunks d = ([], d) := by
  have hsilent : ∀ bytes, sim_request_stream bytes cap d = ([], d) := by
    intro bytes
    unfold sim_request_stream
    rw [if_pos (by rw [Bool.or_eq_true]; exact h)]
  induction chunks with
  | nil => rfl
  | cons bytes rest ih =>
    unfold pumps
    rw [hsilent]
    dsimp only
    rw [ih]
    rfl

theorem stream_requests (cap : Nat) (bytes : List UInt8) {d : Sim} (h : d.Live) (hlink : d.link.Good)
    (hroom : REPLY_MAX * (drain d.link bytes).1.length ≤ cap) :
    let t := sim_requests (drain d.link bytes).1 d
    ∃ link, (link.Good ∧ link.buf_len = d.link.buf_len) ∧
      sim_request_stream bytes cap d = (t.1, { t.2 with link }) ∧
      (t.2.g.dead = false → t.2.g.jumped = false → link = (drain d.link bytes).2) := by
  have hrun := pump_requests cap bytes h hlink [] (by rw [List.length_nil]; omega)
  unfold sim_request_stream
  rw [if_neg (by rw [h.powered, h.here]; decide)]
  exact hrun

theorem sim_requests_live (reqs : List UpdFrame) {d : Sim} (h : d.Live)
    (hdead : (sim_requests reqs d).2.g.dead = false)
    (hjumped : (sim_requests reqs d).2.g.jumped = false) : (sim_requests reqs d).2.Live := by
  induction reqs generalizing d with
  | nil => exact h
  | cons req reqs ih =>
    unfold sim_requests at hdead hjumped ⊢
    dsimp only at hdead hjumped ⊢
    by_cases hgone : (sim_request (wire req.cmd req.payload) d).2.g.dead = true ∨
        (sim_request (wire req.cmd req.payload) d).2.g.jumped = true
    · rw [sim_requests_gone hgone] at hdead hjumped
      rw [hdead, hjumped] at hgone
      simp at hgone
    · rw [not_or, Bool.not_eq_true, Bool.not_eq_true] at hgone
      exact ih (sim_request_live h hgone.1 hgone.2) hdead hjumped

theorem sim_requests_aborted (reqs : List UpdFrame) {d : Sim} (h : d.Live) :
    (sim_requests reqs d).2.g.aborted = d.g.aborted := by
  induction reqs generalizing d with
  | nil => rfl
  | cons req reqs ih =>
    have hnow := sim_request_aborted h (wire req.cmd req.payload)
    unfold sim_requests
    dsimp only
    by_cases hgone : (sim_request (wire req.cmd req.payload) d).2.g.dead = true ∨
        (sim_request (wire req.cmd req.payload) d).2.g.jumped = true
    · rw [sim_requests_gone hgone]
      exact hnow
    · rw [not_or, Bool.not_eq_true, Bool.not_eq_true] at hgone
      rw [ih (sim_request_live h hgone.1 hgone.2)]
      exact hnow

theorem pumps_requests (cap : Nat) (chunks : List (List UInt8)) {d : Sim} (h : d.Live)
    (hlink : d.link.Good) (hroom : Roomy cap d.link chunks) :
    let t := sim_requests (drainChunks d.link chunks).1 d
    let r := pumps cap chunks d
    r.1 = t.1 ∧ r.2.g = t.2.g ∧ r.2.session = t.2.session := by
  induction chunks generalizing d with
  | nil => exact ⟨rfl, rfl, rfl⟩
  | cons bytes rest ih =>
    obtain ⟨hnow, hlater⟩ := hroom
    obtain ⟨link, ⟨hgood, -⟩, hrun, hlast⟩ := stream_requests cap bytes h hlink hnow
    have hlive := sim_requests_live (drain d.link bytes).1 h
    have hframes : (drainChunks d.link (bytes :: rest)).1 =
        (drain d.link bytes).1 ++ (drainChunks (drain d.link bytes).2 rest).1 := rfl
    rw [hframes, sim_requests_append]
    unfold pumps
    rw [hrun]
    generalize sim_requests (drain d.link bytes).1 d = t at hlast hlive ⊢
    obtain ⟨replies, d'⟩ := t
    dsimp only at hlast hlive ⊢
    by_cases hgone : d'.g.dead = true ∨ d'.g.jumped = true
    · rw [pumps_gone cap (d := { d' with link }) hgone, sim_requests_gone hgone]
      exact ⟨rfl, rfl, rfl⟩
    · rw [not_or, Bool.not_eq_true, Bool.not_eq_true] at hgone
      obtain rfl := hlast hgone.1 hgone.2
      have halive := hlive hgone.1 hgone.2
      obtain ⟨hreplies, hg, hsession⟩ := ih (d := { d' with link := (drain d.link bytes).2 })
        ⟨halive.powered, halive.here, halive.info, halive.no_boot⟩ hgood hlater
      rw [sim_requests_link] at hreplies hg hsession
      exact ⟨by rw [hreplies], hg, hsession⟩

/-- However a stream is cut into pumps, and wherever the power goes or the app takes over: the
stream path answers what the transactional one answers to the frames in it, leaves the same, and
does not abort. -/
theorem stream_path_transactional (cap : Nat) (chunks : List (List UInt8)) (d : Sim) (h : d.Live)
    (hlink : d.link.Good) (hroom : Roomy cap d.link chunks) :
    let t := sim_requests (drainChunks d.link chunks).1 d
    let r := pumps cap chunks d
    r.1 = t.1 ∧ r.2.g = t.2.g ∧ r.2.session = t.2.session ∧ r.2.g.aborted = d.g.aborted := by
  obtain ⟨hreplies, hg, hsession⟩ := pumps_requests cap chunks h hlink hroom
  exact ⟨hreplies, hg, hsession, by rw [hg]; exact sim_requests_aborted _ h⟩

theorem stream_path_transactional_torn :
    let d := sim_reset false program_start
    let chunks : List (List UInt8) := [[0x7E, 0x01], [0x00, 0x15]]
    let t := sim_requests (drainChunks d.link chunks).1 d
    let r := pumps 512 chunks d
    (drainChunks d.link chunks).1.length = 1 ∧
      (r.1 = t.1 ∧ r.2.g = t.2.g ∧ r.2.session = t.2.session ∧ r.2.g.aborted = d.g.aborted) := by
  have hframes : (drainChunks (link_init (List.replicate 255 0) 255) [[0x7E, 0x01], [0x00, 0x15]]).1.length = 1 := by
    unfold drainChunks
    simp only [drain_eq_feed]
    decide +kernel
  have hroom : Roomy 512 (link_init (List.replicate 255 0) 255) [[0x7E, 0x01], [0x00, 0x15]] := by
    simp only [Roomy, drain_eq_feed]
    decide +kernel
  exact ⟨hframes, stream_path_transactional 512 _ _ ⟨rfl, rfl, rfl, rfl⟩
    (link_init_good _ _ List.length_replicate) hroom⟩

end OtaUpdater.Conformance
