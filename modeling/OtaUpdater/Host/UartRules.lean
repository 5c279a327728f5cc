import OtaUpdater.Agreement.Codec
import OtaUpdater.Host.Uart

/-!
# An intact answer in the read loop

The loop, fed with a sync byte and a frame that fits `rsp`, in whatever chunks,
returns that frame with the byte that completes it, and no turn before.
-/

open OtaUpdater.Lib.Bytes OtaUpdater.Wire OtaUpdater.Agreement

namespace OtaUpdater.Host

def Receiving.Heard (r : Receiving) : List UInt8 → Prop
  | [] => r.scanner.in_frame = false
  | _ :: got => r.scanner.in_frame = true ∧ r.scanner.n = got.length ∧ r.rsp.take got.length = got

theorem heard_new (rsp : List UInt8) : (Receiving.new rsp).Heard [] := rfl

section Turns

variable {E : Type} (self : UartTransport)

theorem read_turn_idle (r : Receiving) :
    ∃ r' : Receiving, r'.rsp.length = r.rsp.length ∧ (∀ got, r.Heard got → r'.Heard got) ∧
      (read_turn (E := E) self r (.ok []) = (.again, r', []) ∨
        ∃ e, read_turn (E := E) self r (.ok []) = (.fail e, r', [])) := by
  refine ⟨{ r with attempts := r.attempts + 1 }, rfl, ?_, ?_⟩
  · rintro (_ | ⟨s, got⟩) hgot
    · exact hgot
    · exact hgot
  · unfold read_turn
    dsimp only
    split
    · exact Or.inr ⟨_, rfl⟩
    · exact Or.inl rfl

theorem read_turn_chunk (r : Receiving) {chunk : List UInt8} (h : chunk ≠ []) :
    read_turn (E := E) self r (.ok chunk) = scan_chunk self r chunk := by
  cases chunk with
  | nil => exact absurd rfl h
  | cons b chunk => rfl

end Turns

section Answer

variable {cmd : UInt8} {payload : List UInt8} (hmax : payload.length ≤ payloadMax)

theorem declared_of_taken {rsp : List UInt8} {k : Nat} (hmax : payload.length ≤ payloadMax)
    (hk : 2 ≤ k) (htaken : rsp.take k <+: wire cmd payload) (hrsp : k ≤ rsp.length) :
    (rsp.getD 1 0).toNat = payload.length := by
  unfold payloadMax at hmax
  obtain ⟨rest, hrest⟩ := htaken
  have hkept : (rsp.take k ++ rest)[1]? = (rsp.take k)[1]? :=
    List.getElem?_append_left (by rw [List.length_take]; omega)
  have hbyte : rsp.getD 1 0 = UInt8.ofNat payload.length := by
    calc rsp.getD 1 0 = (rsp.take k).getD 1 0 := (getD_take _ _ _ _ hk).symm
      _ = (wire cmd payload).getD 1 0 := by
          rw [List.getD_eq_getElem?_getD, ← hkept, hrest, ← List.getD_eq_getElem?_getD]
  rw [hbyte, len_byte payload (by omega)]

include hmax in
theorem push_wire (rsp got : List UInt8) (b : UInt8) (more : List UInt8)
    (htaken : rsp.take got.length = got) (hframe : wire cmd payload = got ++ b :: more)
    (hroom : (wire cmd payload).length ≤ rsp.length) :
    let filled := rsp.set got.length b
    filled.take (got.length + 1) = got ++ [b] ∧
      RxScanner.push ⟨got.length, true⟩ b rsp =
        if more = [] then (.Done (wire cmd payload).length, .new, filled)
        else (.Frame, ⟨got.length + 1, true⟩, filled) := by
  intro filled
  have hsize := length_wire cmd payload
  have hover : FRAME_OVERHEAD = 3 := rfl
  have hlength := congrArg List.length hframe
  rw [List.length_append, List.length_cons] at hlength
  have hset : filled.take (got.length + 1) = got ++ [b] := by
    unfold filled
    rw [take_set_succ _ _ _ (by omega), htaken]
  have hsetlen : filled.length = rsp.length := List.length_set
  have hmore : more = [] ↔ got.length + 1 = (wire cmd payload).length := by
    rw [← List.length_eq_zero_iff]
    omega
  have hpush := push_in_frame got.length b rsp (by omega)
  dsimp only at hpush
  refine ⟨hset, ?_⟩
  rw [hpush]
  rcases Nat.lt_or_ge (got.length + 1) 2 with hfirst | hlater
  · rw [if_pos hfirst, if_neg (by rw [hmore]; omega)]
  · have hprefix : filled.take (got.length + 1) <+: wire cmd payload :=
      ⟨more, by rw [hset, hframe, ← List.append_cons]⟩
    have hdeclared := declared_of_taken hmax hlater hprefix (by rw [hsetlen]; omega)
    have hkept : ¬ (payload.length > PAYLOAD_MAX ∨ (wire cmd payload).length > rsp.length) := by
      unfold payloadMax at hmax
      unfold PAYLOAD_MAX
      omega
    rw [if_neg (by omega), hdeclared, hover, ← hsize, if_neg hkept]
    rcases Nat.lt_or_ge (got.length + 1) (wire cmd payload).length with hlast | hwhole
    · rw [if_pos hlast, if_neg (by rw [hmore]; omega)]
    · have hend : more = [] := hmore.mpr (by omega)
      have hbytes : filled.take (wire cmd payload).length = wire cmd payload := by
        rw [← hmore.mp hend, hset, hframe, hend]
      have hdecode : decode (wire cmd payload) = .ok ⟨cmd, payload⟩ := by
        rw [decode_iff]
        exact ⟨hmax, rfl⟩
      rw [if_neg (by omega), hbytes, hdecode, if_pos hend]
      rfl

include hmax in
theorem push_heard (r : Receiving) (got : List UInt8) (b : UInt8) (more : List UInt8)
    (hr : r.Heard got) (hstream : SYNC :: wire cmd payload = got ++ b :: more)
    (hroom : (wire cmd payload).length ≤ r.rsp.length) :
    let p := r.scanner.push b r.rsp
    p.2.2.length = r.rsp.length ∧
      (more ≠ [] → p.1 = .Frame ∧ Receiving.Heard { r with scanner := p.2.1, rsp := p.2.2 } (got ++ [b])) ∧
      (more = [] → p.1 = .Done (wire cmd payload).length ∧
        p.2.2.take (wire cmd payload).length = wire cmd payload) := by
  obtain ⟨⟨n, in_frame⟩, attempts, junk, rsp⟩ := r
  have hsize := length_wire cmd payload
  dsimp only at hroom ⊢
  cases got with
  | nil =>
    rw [List.nil_append, List.cons.injEq] at hstream
    obtain ⟨rfl, rfl⟩ := hstream
    have hidle : in_frame = false := hr
    have hstart : SYNC = SYNC ∧ rsp.length ≥ FRAME_OVERHEAD := ⟨rfl, by unfold FRAME_OVERHEAD; omega⟩
    have hnonempty : wire cmd payload ≠ [] := by
      intro h
      rw [h] at hsize
      cases hsize
    unfold RxScanner.push
    rw [hidle, Bool.not_false, if_pos rfl, if_pos hstart]
    exact ⟨rfl, fun _ => ⟨rfl, rfl, rfl, rfl⟩, fun h => absurd h hnonempty⟩
  | cons s got =>
    rw [List.cons_append, List.cons.injEq] at hstream
    obtain ⟨rfl, hframe⟩ := hstream
    obtain ⟨hin, hn, htaken⟩ := hr
    dsimp only at hin hn htaken
    subst hin hn
    obtain ⟨hset, hpush⟩ := push_wire hmax rsp got b more htaken hframe hroom
    have hsetlen : (rsp.set got.length b).length = rsp.length := List.length_set
    have hcount : got.length + 1 = (got ++ [b]).length := by simp
    have hgrown : (rsp.set got.length b).take (got ++ [b]).length = got ++ [b] := by
      rw [← hcount]
      exact hset
    rw [hpush]
    split_ifs with hend
    · have hall : wire cmd payload = got ++ [b] := by rw [hframe, hend]
      rw [hall]
      exact ⟨hsetlen, fun h => absurd hend h, fun _ => ⟨rfl, hgrown⟩⟩
    · exact ⟨hsetlen, fun _ => ⟨rfl, rfl, hcount, hgrown⟩, fun h => absurd h hend⟩

include hmax in
theorem scan_chunk_heard {E : Type} (self : UartTransport) (chunk : List UInt8) (r : Receiving)
    (got more : List UInt8) (hr : r.Heard got)
    (hstream : SYNC :: wire cmd payload = got ++ chunk ++ more)
    (hroom : (wire cmd payload).length ≤ r.rsp.length) :
    (more ≠ [] → ∃ r', scan_chunk (E := E) self r chunk = (.again, r', []) ∧
      r'.Heard (got ++ chunk) ∧ r'.rsp.length = r.rsp.length) ∧
    (more = [] → chunk ≠ [] → ∃ r', scan_chunk (E := E) self r chunk =
        (.done (wire cmd payload).length, r', []) ∧
      r'.rsp.take (wire cmd payload).length = wire cmd payload) := by
  induction chunk generalizing r got with
  | nil =>
    rw [List.append_nil]
    exact ⟨fun _ => ⟨r, rfl, hr, rfl⟩, fun _ h => absurd rfl h⟩
  | cons b chunk ih =>
    rw [List.append_assoc, List.cons_append] at hstream
    obtain ⟨hlength, hgoes, hends⟩ := push_heard hmax r got b (chunk ++ more) hr hstream hroom
    unfold scan_chunk
    generalize r.scanner.push b r.rsp = p at hlength hgoes hends
    obtain ⟨scan, scanner, rsp⟩ := p
    dsimp only at hlength hgoes hends ⊢
    by_cases hrest : chunk ++ more = []
    · obtain ⟨hscan, htake⟩ := hends hrest
      obtain ⟨rfl, rfl⟩ := List.append_eq_nil_iff.mp hrest
      rw [hscan]
      exact ⟨fun h => absurd rfl h, fun _ _ => ⟨_, rfl, htake⟩⟩
    · obtain ⟨hscan, hheard⟩ := hgoes hrest
      have hnext := ih { r with scanner, rsp } (got ++ [b]) hheard
        (by rw [hstream]; simp) (by rw [hlength]; exact hroom)
      rw [List.append_assoc] at hnext
      rw [hscan]
      dsimp only at hnext ⊢
      refine ⟨fun hmore => ?_, fun hmore _ => ?_⟩
      · obtain ⟨r', hrun, hheard', hlength'⟩ := hnext.1 hmore
        exact ⟨r', hrun, hheard', hlength'.trans hlength⟩
      · have hchunk : chunk ≠ [] := by
          intro h
          exact hrest (by rw [h, hmore]; rfl)
        exact hnext.2 hmore hchunk

end Answer

end OtaUpdater.Host
