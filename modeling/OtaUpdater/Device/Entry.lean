import OtaUpdater.Device.MainLoop

/-!
# Entry on request (`app_stub.h`, `entry.c`)

The app asks for the bootloader with a pair of words that a soft reset keeps. Over the whole
life of a board: the bootloader takes a request once its second word is stored, takes it once,
and takes nothing else for one.
-/

open OtaUpdater.Lib.Run OtaUpdater.Wire

namespace OtaUpdater.Device

/-! ## The pair -/

/-- The last four bytes of SRAM, or two scratch registers of the watchdog. -/
structure Pair (α : Type) where
  magic : α
  check : α

/-- A target's magic; a cleared pair must not look like a request. -/
structure EntryPort (α : Type) [Complement α] [OfNat α 0] where
  magic : α
  cleared : (0 : α) ≠ ~~~magic

def avrEntry : EntryPort UInt16 := { magic := 0xB007, cleared := by decide }

def rp2350Entry : EntryPort UInt32 := { magic := 0xB007CA11, cleared := by decide }

variable {α : Type} [Complement α] [OfNat α 0] [DecidableEq α] (E : EntryPort α)

def EntryPort.Requested (p : Pair α) : Prop := p.magic = E.magic ∧ p.check = ~~~E.magic

instance (p : Pair α) : Decidable (E.Requested p) := inferInstanceAs (Decidable (_ ∧ _))

/-- Capture the pair, and clear it: a stale one must not trigger again. -/
def updater_entry_capture (p : Pair α) : Bool × Pair α :=
  (decide (E.Requested p), { magic := 0, check := 0 })

/-! ## The life of a board -/

/-- What the processor is at; the stub of the app stores one word after the other. -/
inductive Running where
  | bootloader (entry_flag : Bool) (m : Main)
  | app
  | magic_stored
  | pair_stored

structure Life (α : Type) where
  pair : Pair α
  flash : Flash
  running : Running

/-- What happens to it next. A reset finds the flash as a cut operation or the app left it; after
power-on the words hold anything but a request, and code other than the stub, with the stack it
pushes there, leaves no complement in the second word. -/
inductive Fate (E : EntryPort α) where
  | power_on (found : Pair α) (flash : Flash) (garbage : ¬ E.Requested found)
  | reset (flash : Flash)
  | lap (arrived : List UInt8) (tick : UInt16)
  | scribble (found : Pair α) (foreign : found.check ≠ ~~~E.magic)
  | stub

inductive Seen where
  | started (requested : Bool)
  | lapped (events : List Event)

def Event.Jumps : Event → Bool
  | jumped _ => true
  | _ => false

section Life

variable (program : Program) (t_entry : UInt16) (info : PortInfo) (rx_size : UInt8)

/-- Out of reset, up to the loop of `main`. -/
def start (pair : Pair α) (flash : Flash) : Option Seen × Life α :=
  let (entry_flag, pair) := updater_entry_capture E pair
  let rx := List.replicate rx_size.toNat 0
  (some (.started entry_flag),
    { pair, flash, running := .bootloader entry_flag (main_init info rx rx_size entry_flag) })

/-- `updater_reboot_to_bootloader`, store by store and then the reset. -/
def stubStep (l : Life α) : Option Seen × Life α :=
  match l.running with
  | .app => (none, { l with pair := { l.pair with magic := E.magic }, running := .magic_stored })
  | .magic_stored =>
    (none, { l with pair := { l.pair with check := ~~~E.magic }, running := .pair_stored })
  | .pair_stored => start E info rx_size l.pair l.flash
  | .bootloader _ _ => (none, l)

def lifeStep (l : Life α) : Fate E → Option Seen × Life α
  | .power_on found flash _ => start E info rx_size found flash
  | .reset flash => start E info rx_size l.pair flash
  | .lap arrived tick =>
    match l.running with
    | .bootloader entry_flag m =>
      let (events, m, flash) := lapStep program t_entry (m, l.flash) (arrived, tick)
      let running := if events.any Event.Jumps then .app else .bootloader entry_flag m
      (some (.lapped events), { l with flash, running })
    | _ => (none, l)
  -- Between its two stores the stub has the interrupts off.
  | .scribble found _ =>
    match l.running with
    | .bootloader _ _ | .app => (none, { l with pair := found })
    | _ => (none, l)
  | .stub => stubStep E info rx_size l

inductive LifeCase (l : Life α) : Fate E → Option Seen × Life α → Prop where
  | power_on (found : Pair α) (flash : Flash) (garbage : ¬ E.Requested found) :
      LifeCase l (.power_on found flash garbage) (start E info rx_size found flash)
  | reset (flash : Flash) : LifeCase l (.reset flash) (start E info rx_size l.pair flash)
  | reboot (hrunning : l.running = .pair_stored) :
      LifeCase l .stub (start E info rx_size l.pair l.flash)
  | lap (arrived : List UInt8) (tick : UInt16) (entry_flag : Bool) (m m' : Main) (events : List Event)
      (f' : Flash) (hrunning : l.running = .bootloader entry_flag m)
      (hlap : lapStep program t_entry (m, l.flash) (arrived, tick) = (events, m', f')) :
      LifeCase l (.lap arrived tick) (some (.lapped events),
        { l with
          flash := f'
          running := if events.any Event.Jumps then .app else .bootloader entry_flag m' })
  | scribble (found : Pair α) (foreign : found.check ≠ ~~~E.magic)
      (hrunning : l.running ≠ .magic_stored ∧ l.running ≠ .pair_stored) :
      LifeCase l (.scribble found foreign) (none, { l with pair := found })
  | ask (hrunning : l.running = .app) :
      LifeCase l .stub (none, { l with pair := { l.pair with magic := E.magic }, running := .magic_stored })
  | complete (hrunning : l.running = .magic_stored) :
      LifeCase l .stub (none, { l with pair := { l.pair with check := ~~~E.magic }, running := .pair_stored })
  | nothing (fate : Fate E) (hasleep : fate = .stub → l.running ≠ .magic_stored) :
      LifeCase l fate (none, l)

theorem lifeStep_case (l : Life α) (fate : Fate E) :
    LifeCase E program t_entry info rx_size l fate (lifeStep E program t_entry info rx_size l fate) := by
  obtain ⟨pair, flash, running⟩ := l
  cases fate with
  | power_on found f garbage => exact .power_on found f garbage
  | reset f => exact .reset f
  | lap arrived tick =>
    cases running with
    | bootloader entry_flag m => exact .lap arrived tick entry_flag m _ _ _ rfl rfl
    | app => exact .nothing _ (fun h => nomatch h)
    | magic_stored => exact .nothing _ (fun h => nomatch h)
    | pair_stored => exact .nothing _ (fun h => nomatch h)
  | scribble found foreign =>
    cases running with
    | bootloader entry_flag m => exact .scribble found foreign (by simp)
    | app => exact .scribble found foreign (by simp)
    | magic_stored => exact .nothing _ (fun h => nomatch h)
    | pair_stored => exact .nothing _ (fun h => nomatch h)
  | stub =>
    cases running with
    | bootloader entry_flag m => exact .nothing _ (fun _ h => nomatch h)
    | app => exact .ask rfl
    | magic_stored => exact .complete rfl
    | pair_stored => exact .reboot rfl

abbrev LifeRecord (E : EntryPort α) := Record (Life α) (Fate E) (Option Seen)

/-- A board's life from power-on. -/
def life (found : Pair α) (flash : Flash) (fates : List (Fate E)) : List (LifeRecord E) :=
  records (lifeStep E program t_entry info rx_size) (start E info rx_size found flash).2 fates

/-! ## What is always so -/

/-- The words are a request exactly behind the second store. -/
def PairInv : Running → Pair α → Prop
  | .bootloader _ _, p | .app, p => p.check ≠ ~~~E.magic
  | .magic_stored, p => p.magic = E.magic ∧ p.check ≠ ~~~E.magic
  | .pair_stored, p => E.Requested p

def MainInv : Running → Prop
  | .bootloader entry_flag m => m.Settled info ∧ (entry_flag = true → m.resident = true)
  | _ => True

structure LifeInv (l : Life α) : Prop where
  pair : PairInv E l.running l.pair
  main : MainInv info l.running

omit [DecidableEq α] in
theorem requested_iff {running : Running} {p : Pair α} (h : PairInv E running p) :
    E.Requested p ↔ running = .pair_stored := by
  cases running with
  | bootloader entry_flag m => exact iff_of_false (fun hp => h hp.2) (fun hr => by cases hr)
  | app => exact iff_of_false (fun hp => h hp.2) (fun hr => by cases hr)
  | magic_stored => exact iff_of_false (fun hp => h.2 hp.2) (fun hr => by cases hr)
  | pair_stored => exact iff_of_true h rfl

theorem start_inv (pair : Pair α) (flash : Flash) : LifeInv E info (start E info rx_size pair flash).2 where
  pair := E.cleared
  main := ⟨⟨rfl, rfl, List.length_replicate⟩, fun hentry => hentry⟩

theorem jumps_iff (events : List Event) : events.any Event.Jumps = true ↔ ∃ g, .jumped g ∈ events := by
  rw [List.any_eq_true]
  constructor
  · rintro ⟨e, he, hjumps⟩
    cases e with
    | jumped g => exact ⟨g, he⟩
    | handled req answer => cases hjumps
    | sent bytes => cases hjumps
    | drained => cases hjumps
    | refused => cases hjumps
  · rintro ⟨g, hg⟩
    exact ⟨_, hg, rfl⟩

theorem life_inv (l : Life α) (fate : Fate E) (h : LifeInv E info l) :
    LifeInv E info (lifeStep E program t_entry info rx_size l fate).2 := by
  have hcase := lifeStep_case E program t_entry info rx_size l fate
  obtain ⟨hpair, hmain⟩ := h
  generalize lifeStep E program t_entry info rx_size l fate = r at *
  cases hcase with
  | power_on found flash garbage => exact start_inv E info rx_size found flash
  | reset flash => exact start_inv E info rx_size l.pair flash
  | reboot hrunning => exact start_inv E info rx_size l.pair l.flash
  | lap arrived tick entry_flag m m' events f' hrunning hlap =>
    rw [hrunning] at hpair hmain
    obtain ⟨hsettled, hresident⟩ := hmain
    obtain ⟨hnext, hlapped⟩ := lapStep_cases program t_entry (m, l.flash) (arrived, tick) hsettled
    rw [hlap] at hnext hlapped
    by_cases hjumps : events.any Event.Jumps = true
    · rw [if_pos hjumps]
      exact ⟨hpair, trivial⟩
    · rw [if_neg hjumps]
      exact ⟨hpair, hnext, fun hentry => hlapped.resident_mono (hresident hentry)⟩
  | scribble found foreign hrunning =>
    obtain ⟨pair, flash, running⟩ := l
    cases running with
    | bootloader entry_flag m => exact ⟨foreign, hmain⟩
    | app => exact ⟨foreign, hmain⟩
    | magic_stored => exact absurd rfl hrunning.1
    | pair_stored => exact absurd rfl hrunning.2
  | ask hrunning =>
    rw [hrunning] at hpair
    exact ⟨⟨rfl, hpair⟩, trivial⟩
  | complete hrunning =>
    rw [hrunning] at hpair
    exact ⟨⟨hpair.1, rfl⟩, trivial⟩
  | nothing fate hasleep => exact ⟨hpair, hmain⟩

/-! ## Requests -/

/-- The store that completes a request. -/
def Completes (q : LifeRecord E) : Prop := q.before.running = .magic_stored ∧ q.input = .stub

/-- A request was completed, and no start has come since. -/
def Pending (past : List (LifeRecord E)) : Prop :=
  ∃ before q since, past = before ++ q :: since ∧ Completes E q ∧
    ∀ p ∈ since, ∀ flag, p.output ≠ some (.started flag)

omit [DecidableEq α] in
theorem pending_snoc {past : List (LifeRecord E)} {r : LifeRecord E} :
    Pending E (past ++ [r]) ↔
      Completes E r ∨ Pending E past ∧ ∀ flag, r.output ≠ some (.started flag) := by
  constructor
  · rintro ⟨before, q, since, hsplit, hcompletes, hsince⟩
    rcases List.eq_nil_or_concat since with rfl | ⟨since, last, rfl⟩
    · obtain ⟨-, hlast⟩ := List.append_inj' hsplit rfl
      rw [List.cons.injEq] at hlast
      exact Or.inl (hlast.1 ▸ hcompletes)
    · rw [List.concat_eq_append, ← List.cons_append, ← List.append_assoc] at hsplit
      obtain ⟨hpast, hlast⟩ := List.append_inj' hsplit rfl
      rw [List.cons.injEq] at hlast
      rw [List.concat_eq_append] at hsince
      refine Or.inr ⟨⟨before, q, since, hpast, hcompletes, ?_⟩, ?_⟩
      · exact fun p hp => hsince p (List.mem_append_left _ hp)
      · exact hsince r (List.mem_append_right _ (hlast.1 ▸ List.mem_singleton_self r))
  · rintro (hcompletes | ⟨⟨before, q, since, rfl, hcompletes, hsince⟩, hnow⟩)
    · exact ⟨past, r, [], rfl, hcompletes, fun p hp => nomatch hp⟩
    · refine ⟨before, q, since ++ [r], by rw [List.append_assoc, List.cons_append], hcompletes, ?_⟩
      intro p hp
      rw [List.mem_append, List.mem_singleton] at hp
      rcases hp with hp | rfl
      · exact hsince p hp
      · exact hnow

/-- Only the stub's second store makes a request, and only a start takes it. -/
theorem stored_step (l : Life α) (fate : Fate E) :
    let r := record (lifeStep E program t_entry info rx_size) l fate
    r.after.running = .pair_stored ↔
      Completes E r ∨ l.running = .pair_stored ∧ ∀ flag, r.output ≠ some (.started flag) := by
  have hcase := lifeStep_case E program t_entry info rx_size l fate
  unfold Completes record
  dsimp only
  -- A start leaves nothing pending.
  have hstart : ∀ pair flash, (fate = .stub → l.running = .pair_stored) →
      ((start E info rx_size pair flash).2.running = .pair_stored ↔
        (l.running = .magic_stored ∧ fate = .stub) ∨
          l.running = .pair_stored ∧ ∀ flag, (start E info rx_size pair flash).1 ≠ some (.started flag)) := by
    intro pair flash hstub
    refine iff_of_false (fun h => by cases h) ?_
    rintro (⟨hrunning, hfate⟩ | ⟨-, hnone⟩)
    · cases hrunning.symm.trans (hstub hfate)
    · exact hnone _ rfl
  generalize lifeStep E program t_entry info rx_size l fate = r at *
  cases hcase with
  | power_on found flash garbage => exact hstart found flash (fun h => nomatch h)
  | reset flash => exact hstart l.pair flash (fun h => nomatch h)
  | reboot hrunning => exact hstart l.pair l.flash (fun _ => hrunning)
  | lap arrived tick entry_flag m m' events f' hrunning hlap =>
    rw [hrunning]
    split_ifs <;> simp
  | scribble found foreign hrunning => simp [hrunning]
  | ask hrunning => simp [hrunning]
  | complete hrunning => simp [hrunning]
  | nothing fate hasleep =>
    have hnot : ¬ (l.running = .magic_stored ∧ fate = .stub) := fun h => hasleep h.2 h.1
    simp [hnot]

structure HistoryInv (past : List (LifeRecord E)) (l : Life α) : Prop where
  life : LifeInv E info l
  stored : l.running = .pair_stored ↔ Pending E past

theorem history_step (past : List (LifeRecord E)) (l : Life α) (fate : Fate E)
    (h : HistoryInv E info past l) :
    HistoryInv E info (past ++ [record (lifeStep E program t_entry info rx_size) l fate])
      (lifeStep E program t_entry info rx_size l fate).2 where
  life := life_inv E program t_entry info rx_size l fate h.life
  stored := by
    rw [pending_snoc, ← h.stored]
    exact stored_step E program t_entry info rx_size l fate

theorem started_flag (l : Life α) (fate : Fate E) (flag : Bool)
    (h : (lifeStep E program t_entry info rx_size l fate).1 = some (.started flag)) :
    flag = true ↔ E.Requested l.pair ∧ ∀ found flash garbage, fate ≠ .power_on found flash garbage := by
  have hcase := lifeStep_case E program t_entry info rx_size l fate
  have hstart : ∀ pair f, (start E info rx_size pair f).1 = some (.started flag) →
      (flag = true ↔ E.Requested pair) := by
    intro pair f hseen
    cases hseen
    exact decide_eq_true_iff
  generalize lifeStep E program t_entry info rx_size l fate = r at *
  cases hcase with
  | power_on found f garbage =>
    rw [hstart found f h]
    exact iff_of_false garbage (fun hp => hp.2 found f garbage rfl)
  | reset f =>
    rw [hstart l.pair f h, iff_self_and]
    exact fun _ _ _ _ hfate => by cases hfate
  | reboot hrunning =>
    rw [hstart l.pair l.flash h, iff_self_and]
    exact fun _ _ _ _ hfate => by cases hfate
  | lap arrived tick entry_flag m m' events f' hrunning hlap => cases h
  | scribble found foreign hrunning => cases h
  | ask hrunning => cases h
  | complete hrunning => cases h
  | nothing fate hasleep => cases h

theorem app_entered (l : Life α) (fate : Fate E) (hmain : MainInv info l.running)
    (h : (lifeStep E program t_entry info rx_size l fate).2.running = .app) :
    let r := lifeStep E program t_entry info rx_size l fate
    l.running = .app ∨
      ∃ entry_flag m events, l.running = .bootloader entry_flag m ∧ r.1 = some (.lapped events) ∧
        .jumped r.2.flash ∈ events ∧ AppValid (region info r.2.flash) ∧
        (entry_flag = true → ∃ req : UpdFrame, req.cmd = UPD_CMD_BOOT ∧
          events = [.handled req [UPD_ST_OK],
            .sent (UPD_LINK_SYNC :: wire (UPD_CMD_BOOT ||| UPD_RSP_FLAG) [UPD_ST_OK]), .drained,
            .jumped r.2.flash]) := by
  have hcase := lifeStep_case E program t_entry info rx_size l fate
  generalize lifeStep E program t_entry info rx_size l fate = r at *
  cases hcase with
  | power_on found f garbage => cases h
  | reset f => cases h
  | reboot hrunning => cases h
  | lap arrived tick entry_flag m m' events f' hrunning hlap =>
    rw [hrunning] at hmain
    obtain ⟨hsettled, hresident⟩ := hmain
    obtain ⟨-, hlapped⟩ := lapStep_cases program t_entry (m, l.flash) (arrived, tick) hsettled
    rw [hlap] at hlapped
    dsimp only at h
    split_ifs at h with hjumps
    obtain ⟨g, hg⟩ := (jumps_iff _).mp hjumps
    obtain ⟨rfl, hvalid, hhow⟩ := hlapped.jumps hg
    refine Or.inr ⟨entry_flag, m, events, hrunning, rfl, hg, hvalid, ?_⟩
    intro hentry
    rcases hhow with hcommand | ⟨hopen, -⟩
    · exact hcommand
    · cases (hresident hentry).symm.trans hopen
  | scribble found foreign hrunning => exact Or.inl h
  | ask hrunning => cases h
  | complete hrunning => cases h
  | nothing fate hasleep => exact Or.inl h

/-- Over the life of a board: a start finds a request exactly if the stub has completed one since
the start before, or it comes from power-on; and an app is entered only in a lap, when it is valid,
and after a start that was asked for only on a BOOT. -/
theorem life_entry (found : Pair α) (flash : Flash) (fates : List (Fate E))
    (pre post : List (LifeRecord E)) (r : LifeRecord E)
    (hrun : life E program t_entry info rx_size found flash fates = pre ++ r :: post) :
    (∀ flag, r.output = some (.started flag) →
      (flag = true ↔ Pending E pre ∧ ∀ found flash garbage, r.input ≠ .power_on found flash garbage)) ∧
    (r.after.running = .app → r.before.running = .app ∨
      ∃ entry_flag m events, r.before.running = .bootloader entry_flag m ∧
        r.output = some (.lapped events) ∧ .jumped r.after.flash ∈ events ∧
        AppValid (region info r.after.flash) ∧
        (entry_flag = true → ∃ req : UpdFrame, req.cmd = UPD_CMD_BOOT ∧
          events = [.handled req [UPD_ST_OK],
            .sent (UPD_LINK_SYNC :: wire (UPD_CMD_BOOT ||| UPD_RSP_FLAG) [UPD_ST_OK]), .drained,
            .jumped r.after.flash])) := by
  have hstart : HistoryInv E info ([] : List (LifeRecord E)) (start E info rx_size found flash).2 := by
    refine ⟨start_inv E info rx_size found flash, iff_of_false (fun h => by cases h) ?_⟩
    rintro ⟨before, q, since, hsplit, -⟩
    cases before <;> cases hsplit
  obtain ⟨hinv, hr⟩ := records_history _ (HistoryInv E info)
    (history_step E program t_entry info rx_size) [] _ hstart fates pre post r hrun
  rw [List.nil_append] at hinv
  have houtput : r.output = (lifeStep E program t_entry info rx_size r.before r.input).1 := by
    rw [hr]
    rfl
  have hafter : r.after = (lifeStep E program t_entry info rx_size r.before r.input).2 := by
    rw [hr]
    rfl
  constructor
  · intro flag hflag
    rw [houtput] at hflag
    rw [started_flag E program t_entry info rx_size r.before r.input flag hflag,
      requested_iff E hinv.life.pair, hinv.stored]
  · intro happ
    rw [hafter] at happ ⊢
    rw [houtput]
    exact app_entered E program t_entry info rx_size r.before r.input hinv.life.main happ

end Life

/-- The window boots the app, which asks for the bootloader. -/
theorem life_entry_asked :
    let info : PortInfo :=
      { page_size := 16, app_pages := 1, device_id := #v[0, 0, 0, 0], bl_version := 0 }
    ∃ pre r, life avrEntry store 300 info 4 { magic := 0xB007, check := 0x1234 } emptyApp
        [.lap [] 300, .stub, .stub, .stub] = pre ++ [r] ∧
      r.output = some (.started true) ∧ Pending avrEntry pre := by
  intro info
  have hvalid : AppValid (region info emptyApp) := by decide +kernel
  have hcapture : updater_entry_capture avrEntry { magic := 0xB007, check := 0x1234 } =
      (false, { magic := 0, check := 0 }) := by
    unfold updater_entry_capture
    rw [decide_eq_false (by decide)]
  have hlap : lifeStep avrEntry store 300 info 4
      (start avrEntry info 4 { magic := 0xB007, check := 0x1234 } emptyApp).2 (.lap [] 300) =
        (some (.lapped [.jumped emptyApp]),
          { pair := { magic := 0, check := 0 }, flash := emptyApp, running := .app }) := by
    unfold start
    rw [hcapture]
    simp [lifeStep, lapStep, lap, main_init, link_init, link_poll, boot_after_reply, upd_init,
      entry_window, upd_boot_if_valid_board, hvalid, Event.Jumps]
  let step := lifeStep avrEntry store 300 info 4
  let powered := (start avrEntry info 4 { magic := 0xB007, check := 0x1234 } emptyApp).2
  let booted := (step powered (.lap [] 300)).2
  let asking := (step booted .stub).2
  let asked := (step asking .stub).2
  let last := record step asked .stub
  have hrun : life avrEntry store 300 info 4 { magic := 0xB007, check := 0x1234 } emptyApp
      [.lap [] 300, .stub, .stub, .stub] =
        [record step powered (.lap [] 300), record step booted .stub, record step asking .stub] ++ [last] := by
    rw [life, records, records, records, records, records]
    rfl
  have hbooted : booted = { pair := { magic := 0, check := 0 }, flash := emptyApp, running := .app } :=
    congrArg Prod.snd hlap
  have hstarted : last.output = some (.started true) := by
    simp only [last, asked, asking, record, hbooted]
    rfl
  refine ⟨_, last, hrun, hstarted, ?_⟩
  obtain ⟨hflag, -⟩ := life_entry avrEntry store 300 info 4 _ emptyApp _ _ _ last hrun
  exact ((hflag true hstarted).mp rfl).1

end OtaUpdater.Device
