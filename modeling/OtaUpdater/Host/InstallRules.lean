import Mathlib.Data.List.Forall2
import OtaUpdater.Host.Install

/-!
# What an install plan is

An argument is a template: literal text, and places for the image and the port.
-/

open OtaUpdater.Lib.Text

namespace OtaUpdater.Host

/-! ## Templates -/

/-- Literal text has no opening brace; a closing one may stand in it. -/
inductive Piece where
  | lit (c : Char) (plain : c ≠ '{')
  | image
  | port
deriving DecidableEq

def Piece.text : Piece → List Char
  | lit c _ => [c]
  | image => "{image}".toList
  | port => "{port}".toList

def Piece.value (img : List Char) (dev : Option (List Char)) : Piece → List Char
  | lit c _ => [c]
  | image => img
  | port => dev.getD []

/-- An argument as it stands in the configuration, and as it is passed. -/
def source (pieces : List Piece) : List Char := pieces.flatMap Piece.text

def render (img : List Char) (dev : Option (List Char)) (pieces : List Piece) : List Char :=
  pieces.flatMap (Piece.value img dev)

section Templates

variable (img : List Char) (dev : Option (List Char))

theorem plain_template {s : List Char} (h : '{' ∉ s) :
    ∃ pieces, source pieces = s ∧ render img dev pieces = s ∧ Piece.port ∉ pieces := by
  induction s with
  | nil => exact ⟨[], rfl, rfl, List.not_mem_nil⟩
  | cons c s ih =>
    rw [List.mem_cons, not_or] at h
    obtain ⟨pieces, hsource, hrender, hport⟩ := ih h.2
    refine ⟨.lit c (Ne.symm h.1) :: pieces, ?_, ?_, ?_⟩
    · exact congrArg (c :: ·) hsource
    · exact congrArg (c :: ·) hrender
    · simpa using hport

/-- An argument can be taken apart in one way only. -/
theorem source_injective {pieces pieces' : List Piece} (h : source pieces = source pieces') :
    pieces = pieces' := by
  induction pieces generalizing pieces' with
  | nil =>
    rcases pieces' with _ | ⟨piece', rest'⟩
    · rfl
    · cases piece' <;> cases h
  | cons piece rest ih =>
    rcases pieces' with _ | ⟨piece', rest'⟩
    · cases piece <;> cases h
    have htail : piece = piece' → piece :: rest = piece' :: rest' := by
      rintro rfl
      have hrest : piece.text ++ source rest = piece.text ++ source rest' := h
      rw [ih (List.append_cancel_left hrest)]
    apply htail
    cases piece with
    | lit c plain =>
      cases piece' with
      | lit c' plain' =>
        obtain rfl := (List.cons.inj h).1
        rfl
      | image => exact absurd (List.cons.inj h).1 plain
      | port => exact absurd (List.cons.inj h).1 plain
    | image =>
      cases piece' with
      | lit c' plain' => exact absurd (List.cons.inj h).1.symm plain'
      | image => rfl
      | port => exact absurd (List.cons.inj (List.cons.inj h).2).1 (by decide)
    | port =>
      cases piece' with
      | lit c' plain' => exact absurd (List.cons.inj h).1.symm plain'
      | image => exact absurd (List.cons.inj (List.cons.inj h).2).1 (by decide)
      | port => rfl

theorem source_open {before after : List Char} (hbefore : '{' ∉ before) (pieces : List Piece)
    (h : source pieces = before ++ '{' :: after) :
    ∃ place rest, (place = Piece.image ∨ place = Piece.port) ∧
      place.text ++ source rest = '{' :: after ∧
      render img dev pieces = before ++ place.value img dev ++ render img dev rest ∧
      (Piece.port ∈ pieces ↔ place = Piece.port ∨ Piece.port ∈ rest) := by
  induction before generalizing pieces with
  | nil =>
    rcases pieces with _ | ⟨piece, rest⟩
    · cases h
    · have hkind : piece = Piece.image ∨ piece = Piece.port := by
        cases piece with
        | lit c plain => exact absurd (List.cons.inj h).1 plain
        | image => exact Or.inl rfl
        | port => exact Or.inr rfl
      exact ⟨piece, rest, hkind, h, rfl, by rw [List.mem_cons, eq_comm]⟩
  | cons c before ih =>
    rw [List.mem_cons, not_or] at hbefore
    rcases pieces with _ | ⟨piece, rest⟩
    · cases h
    · cases piece with
      | image => exact absurd (List.cons.inj h).1 hbefore.1
      | port => exact absurd (List.cons.inj h).1 hbefore.1
      | lit d plain =>
        obtain ⟨rfl, htail⟩ := List.cons.inj h
        obtain ⟨place, rest', hkind, htext, hrender, hport⟩ := ih hbefore.2 rest htail
        refine ⟨place, rest', hkind, htext, ?_, ?_⟩
        · change d :: render img dev rest = _
          rw [hrender]
          rfl
        · rw [← hport]
          simp

theorem render_plain (pieces : List Piece) (h : '{' ∉ source pieces) :
    render img dev pieces = source pieces ∧ Piece.port ∉ pieces := by
  induction pieces with
  | nil => exact ⟨rfl, List.not_mem_nil⟩
  | cons piece rest ih =>
    cases piece with
    | lit c plain =>
      have hrest : '{' ∉ source rest := fun hmem => h (List.mem_cons_of_mem c hmem)
      obtain ⟨hrender, hport⟩ := ih hrest
      exact ⟨congrArg (c :: ·) hrender, by simpa using hport⟩
    | image => exact absurd List.mem_cons_self h
    | port => exact absurd List.mem_cons_self h

/-- What the loop finds at a placeholder. -/
def Piece.Found (after behind : List Char) : Piece → Prop
  | lit _ _ => False
  | image => cut '}' after = some ("image".toList, behind)
  | port => cut '}' after = some ("port".toList, behind)

theorem found_iff (place : Piece) (hplace : place = .image ∨ place = .port) (after behind : List Char) :
    place.Found after behind ↔ '{' :: after = place.text ++ behind := by
  rcases hplace with rfl | rfl
  · change cut '}' after = some ("image".toList, behind) ↔ _
    rw [cut_eq_some_iff]
    constructor
    · rintro ⟨rfl, -⟩
      rfl
    · intro h
      exact ⟨(List.cons.inj h).2, by decide⟩
  · change cut '}' after = some ("port".toList, behind) ↔ _
    rw [cut_eq_some_iff]
    constructor
    · rintro ⟨rfl, -⟩
      rfl
    · intro h
      exact ⟨(List.cons.inj h).2, by decide⟩

theorem found_unique {place place' : Piece} (hplace : place = .image ∨ place = .port)
    (hplace' : place' = .image ∨ place' = .port) {after behind behind' : List Char}
    (h : place.Found after behind) (h' : place'.Found after behind') :
    place = place' ∧ behind = behind' := by
  rcases hplace with rfl | rfl <;> rcases hplace' with rfl | rfl <;>
    have hsame := Prod.mk.inj (Option.some.inj (h.symm.trans h'))
  · exact ⟨rfl, hsame.2⟩
  · exact absurd hsame.1 (by decide)
  · exact absurd hsame.1 (by decide)
  · exact ⟨rfl, hsame.2⟩

theorem source_cut {rest before after : List Char} (hopen : cut '{' rest = some (before, after))
    (pieces : List Piece) (h : source pieces = rest) :
    ∃ place tail, (place = Piece.image ∨ place = Piece.port) ∧ place.Found after (source tail) ∧
      render img dev pieces = before ++ place.value img dev ++ render img dev tail ∧
      (Piece.port ∈ pieces ↔ place = Piece.port ∨ Piece.port ∈ tail) := by
  obtain ⟨rfl, hbefore⟩ := (cut_eq_some_iff _ _ _ _).mp hopen
  obtain ⟨place, tail, hplace, htext, hrender, hport⟩ := source_open img dev hbefore pieces h
  exact ⟨place, tail, hplace, (found_iff place hplace _ _).mpr htext.symm, hrender, hport⟩

theorem source_join {rest before after behind : List Char}
    (hopen : cut '{' rest = some (before, after)) (place : Piece)
    (hplace : place = .image ∨ place = .port) (hfound : place.Found after behind) (tail : List Piece)
    (htail : source tail = behind) :
    ∃ pieces, source pieces = rest ∧
      render img dev pieces = before ++ place.value img dev ++ render img dev tail ∧
      (Piece.port ∈ pieces ↔ place = Piece.port ∨ Piece.port ∈ tail) := by
  obtain ⟨rfl, hbefore⟩ := (cut_eq_some_iff _ _ _ _).mp hopen
  obtain ⟨lits, hsource, hrender, hport⟩ := plain_template img dev hbefore
  refine ⟨lits ++ place :: tail, ?_, ?_, ?_⟩
  · unfold source at hsource htail ⊢
    rw [List.flatMap_append, List.flatMap_cons, hsource, htail,
      ← (found_iff place hplace _ _).mp hfound]
  · unfold render at hrender ⊢
    rw [List.flatMap_append, List.flatMap_cons, hrender, List.append_assoc]
  · rw [List.mem_append, List.mem_cons, eq_comm (b := place)]
    simp [hport]

/-- What the loop may make of the rest of an argument: some template of it, filled in. -/
def Expands (out rest : List Char) (port_consumed : Bool) (s : List Char) (consumed : Bool) : Prop :=
  ∃ pieces, source pieces = rest ∧ (Piece.port ∈ pieces → dev.isSome) ∧
    s = out ++ render img dev pieces ∧ consumed = (port_consumed || decide (Piece.port ∈ pieces))

section Scan

variable {rest before after behind : List Char} (hopen : cut '{' rest = some (before, after))
  (out : List Char) (port_consumed : Bool) (s : List Char) (consumed : Bool)

theorem expands_plain (hnone : cut '{' rest = none) :
    Expands img dev out rest port_consumed s consumed ↔ s = out ++ rest ∧ consumed = port_consumed := by
  have hplain : '{' ∉ rest := (cut_eq_none_iff _ _).mp hnone
  constructor
  · rintro ⟨pieces, rfl, -, rfl, rfl⟩
    obtain ⟨hrender, hport⟩ := render_plain img dev pieces hplain
    exact ⟨by rw [hrender], by simp [hport]⟩
  · rintro ⟨rfl, rfl⟩
    obtain ⟨pieces, hsource, hrender, hport⟩ := plain_template img dev hplain
    exact ⟨pieces, hsource, fun hmem => absurd hmem hport, by rw [hrender], by simp [hport]⟩

include hopen in
/-- At a brace that begins no placeholder, or one for a port that is not there, it ends. -/
theorem not_expands
    (hno : ∀ name behind, cut '}' after = some (name, behind) →
      name ≠ "image".toList ∧ (name = "port".toList → dev = none)) :
    ¬ Expands img dev out rest port_consumed s consumed := by
  rintro ⟨pieces, hsource, hdev, -⟩
  obtain ⟨place, tail, hplace, hfound, -, hport⟩ := source_cut img dev hopen pieces hsource
  rcases hplace with rfl | rfl
  · exact (hno _ _ hfound).1 rfl
  · have hneeds := hdev (hport.mpr (Or.inl rfl))
    rw [(hno _ _ hfound).2 rfl] at hneeds
    cases hneeds

include hopen in
theorem expands_place (place : Piece) (hplace : place = .image ∨ place = .port)
    (hfound : place.Found after behind) (hdev : place = .port → dev.isSome) :
    Expands img dev out rest port_consumed s consumed ↔
      Expands img dev (out ++ before ++ place.value img dev) behind
        (port_consumed || decide (place = .port)) s consumed := by
  constructor
  · rintro ⟨pieces, hsource, hneeds, rfl, rfl⟩
    obtain ⟨place', tail, hplace', hfound', hrender, hport⟩ := source_cut img dev hopen pieces hsource
    obtain ⟨rfl, hbehind⟩ := found_unique hplace' hplace hfound' hfound
    refine ⟨tail, hbehind, fun hmem => hneeds (hport.mpr (Or.inr hmem)), ?_, ?_⟩
    · rw [hrender]
      simp only [List.append_assoc]
    · simp only [hport, Bool.decide_or, Bool.or_assoc]
  · rintro ⟨tail, hsource, hneeds, rfl, rfl⟩
    obtain ⟨pieces, hall, hrender, hport⟩ := source_join img dev hopen place hplace hfound tail hsource
    refine ⟨pieces, hall, fun hmem => (hport.mp hmem).elim hdev hneeds, ?_, ?_⟩
    · rw [hrender]
      simp only [List.append_assoc]
    · simp only [hport, Bool.decide_or, Bool.or_assoc]

end Scan

theorem expand_rest_ok_iff (arg out rest : List Char) (port_consumed : Bool) (s : List Char)
    (consumed : Bool) :
    expand_rest img dev arg out rest port_consumed = .ok (s, consumed) ↔
      Expands img dev out rest port_consumed s consumed := by
  fun_induction expand_rest img dev arg out rest port_consumed with
  | case1 out rest port_consumed hnone =>
    rw [expands_plain img dev out port_consumed s consumed hnone, Except.ok.injEq, Prod.mk.injEq]
    exact and_congr eq_comm eq_comm
  | case2 out rest port_consumed before after hopen hclose =>
    refine iff_of_false nofun (not_expands img dev hopen out port_consumed s consumed ?_)
    intro name behind hname
    rw [hclose] at hname
    cases hname
  | case3 out rest port_consumed before after hopen behind hclose ih =>
    rw [ih, expands_place img dev hopen out port_consumed s consumed .image (Or.inl rfl) hclose nofun]
    simp [Piece.value]
  | case4 out rest port_consumed before after hopen behind hnone hclose hne =>
    refine iff_of_false nofun (not_expands img dev hopen out port_consumed s consumed ?_)
    intro name behind' hname
    obtain ⟨rfl, rfl⟩ := Prod.mk.inj (Option.some.inj (hclose.symm.trans hname))
    exact ⟨hne, fun _ => hnone⟩
  | case5 out rest port_consumed before after hopen behind p hsome hclose hne ih =>
    subst hsome
    rw [ih, expands_place img (some p) hopen out port_consumed s consumed .port (Or.inr rfl) hclose
      (fun _ => rfl)]
    simp [Piece.value]
  | case6 out rest port_consumed before after hopen other behind hclose himage hport =>
    refine iff_of_false nofun (not_expands img dev hopen out port_consumed s consumed ?_)
    intro name behind' hname
    obtain ⟨rfl, rfl⟩ := Prod.mk.inj (Option.some.inj (hclose.symm.trans hname))
    exact ⟨himage, fun h => absurd h hport⟩

theorem expand_one_ok_iff (arg : List Char) (port_consumed : Bool) (s : List Char) (consumed : Bool) :
    expand_one img dev arg port_consumed = .ok (s, consumed) ↔
      ∃ pieces, source pieces = arg ∧ (Piece.port ∈ pieces → dev.isSome) ∧ s = render img dev pieces ∧
        consumed = (port_consumed || decide (Piece.port ∈ pieces)) := by
  unfold expand_one
  rw [expand_rest_ok_iff]
  rfl

def usesPort (args : List (List Piece)) : Bool := args.any fun pieces => decide (Piece.port ∈ pieces)

theorem expand_args_ok_iff (args : List (List Char)) (port_consumed : Bool) (out : List (List Char))
    (consumed : Bool) :
    expand_args img dev args port_consumed = .ok (out, consumed) ↔
      ∃ templates, templates.map source = args ∧ (usesPort templates → dev.isSome) ∧
        out = templates.map (render img dev) ∧ consumed = (port_consumed || usesPort templates) := by
  induction args generalizing port_consumed out consumed with
  | nil =>
    constructor
    · intro h
      obtain ⟨rfl, rfl⟩ := Prod.mk.inj (Except.ok.inj h)
      exact ⟨[], rfl, by simp [usesPort], rfl, by simp [usesPort]⟩
    · rintro ⟨templates, hsource, -, rfl, rfl⟩
      obtain rfl := List.map_eq_nil_iff.mp hsource
      simp [expand_args, usesPort]
  | cons arg args ih =>
    constructor
    · intro h
      unfold expand_args at h
      split at h
      case h_1 => cases h
      case h_2 s mid harg =>
        split at h
        case h_1 => cases h
        case h_2 rest last hrest =>
          obtain ⟨rfl, rfl⟩ := Prod.mk.inj (Except.ok.inj h)
          obtain ⟨pieces, hsource, hdev, rfl, rfl⟩ := (expand_one_ok_iff img dev _ _ _ _).mp harg
          obtain ⟨templates, hsources, hdevs, rfl, rfl⟩ := (ih _ _ _).mp hrest
          refine ⟨pieces :: templates, ?_, ?_, rfl, ?_⟩
          · rw [List.map_cons, hsource, hsources]
          · unfold usesPort at hdevs ⊢
            rw [List.any_cons, Bool.or_eq_true, decide_eq_true_iff]
            rintro (hmem | hmem)
            · exact hdev hmem
            · exact hdevs hmem
          · unfold usesPort
            rw [List.any_cons, Bool.or_assoc]
    · rintro ⟨templates, hsource, hdev, rfl, rfl⟩
      obtain ⟨pieces, templates, rfl, rfl, rfl⟩ := List.map_eq_cons_iff.mp hsource
      unfold usesPort at hdev
      rw [List.any_cons, Bool.or_eq_true, decide_eq_true_iff] at hdev
      have harg := (expand_one_ok_iff img dev (source pieces) port_consumed _ _).mpr
        ⟨pieces, rfl, fun hmem => hdev (Or.inl hmem), rfl, rfl⟩
      have hrest := (ih (port_consumed || decide (Piece.port ∈ pieces)) _ _).mpr
        ⟨templates, rfl, fun hmem => hdev (Or.inr hmem), rfl, rfl⟩
      unfold expand_args
      rw [harg]
      dsimp only
      rw [hrest]
      unfold usesPort
      rw [List.any_cons, Bool.or_assoc]
      rfl

/-! ## Commands -/

/-- The tool of a pre step is passed as it is. -/
def preCommand (step : List (List Char)) (templates : List (List Piece)) : Invocation :=
  { tool := step.headD [], args := templates.map (render img dev) }

theorem plan_pre_ok_iff (steps : List (List (List Char))) (hsteps : ∀ step ∈ steps, step ≠ [])
    (port_consumed : Bool) (out : List Invocation) (consumed : Bool) :
    plan_pre img dev steps port_consumed = .ok (out, consumed) ↔
      ∃ templates, templates.map (List.map source) = steps.map List.tail ∧
        (templates.any usesPort → dev.isSome) ∧
        out = List.zipWith (preCommand img dev) steps templates ∧
        consumed = (port_consumed || templates.any usesPort) := by
  induction steps generalizing port_consumed out consumed with
  | nil =>
    constructor
    · intro h
      obtain ⟨rfl, rfl⟩ := Prod.mk.inj (Except.ok.inj h)
      exact ⟨[], rfl, by simp, rfl, by simp⟩
    · rintro ⟨templates, hsource, -, rfl, rfl⟩
      obtain rfl := List.map_eq_nil_iff.mp hsource
      simp [plan_pre]
  | cons step steps ih =>
    obtain ⟨tool, args, rfl⟩ := List.exists_cons_of_ne_nil (hsteps step List.mem_cons_self)
    have ih := ih fun step hstep => hsteps step (List.mem_cons_of_mem _ hstep)
    constructor
    · intro h
      unfold plan_pre at h
      split at h
      case h_1 => cases h
      case h_2 expanded mid hargs =>
        split at h
        case h_1 => cases h
        case h_2 rest last hrest =>
          obtain ⟨rfl, rfl⟩ := Prod.mk.inj (Except.ok.inj h)
          obtain ⟨first, hsource, hdev, rfl, rfl⟩ := (expand_args_ok_iff img dev _ _ _ _).mp hargs
          obtain ⟨templates, hsources, hdevs, rfl, rfl⟩ := (ih _ _ _).mp hrest
          refine ⟨first :: templates, ?_, ?_, rfl, ?_⟩
          · rw [List.map_cons, hsource, hsources]
            rfl
          · rw [List.any_cons, Bool.or_eq_true]
            rintro (huses | huses)
            · exact hdev huses
            · exact hdevs huses
          · rw [List.any_cons, Bool.or_assoc]
    · rintro ⟨templates, hsource, hdev, rfl, rfl⟩
      obtain ⟨first, templates, rfl, hfirst, hrest⟩ := List.map_eq_cons_iff.mp hsource
      rw [List.any_cons, Bool.or_eq_true] at hdev
      have hargs := (expand_args_ok_iff img dev args port_consumed _ _).mpr
        ⟨first, hfirst, fun huses => hdev (Or.inl huses), rfl, rfl⟩
      have hsteps := (ih (port_consumed || usesPort first) _ _).mpr
        ⟨templates, hrest, fun huses => hdev (Or.inr huses), rfl, rfl⟩
      unfold plan_pre
      rw [hargs]
      dsimp only
      rw [hsteps, List.any_cons, Bool.or_assoc]
      rfl

end Templates

/-- The arguments of a target, each taken apart; the tools are no templates. -/
structure Templates (target : Target) where
  pre : List (List (List Piece))
  args : List (List Piece)
  pre_source : pre.map (List.map source) = target.pre.map List.tail
  args_source : args.map source = target.args

instance (target : Target) : Subsingleton (Templates target) where
  allEq T T' := by
    have hargs : Function.Injective (List.map source) :=
      List.map_injective_iff.mpr fun _ _ => source_injective
    obtain ⟨pre, args, hpre, hsource⟩ := T
    obtain ⟨pre', args', hpre', hsource'⟩ := T'
    obtain rfl := hargs (hsource.trans hsource'.symm)
    obtain rfl := List.map_injective_iff.mpr hargs (hpre.trans hpre'.symm)
    rfl

section Commands

variable {target : Target} (T : Templates target)

def Templates.usesPort : Bool := T.pre.any Host.usesPort || Host.usesPort T.args

/-- The arguments for a port that has no place in the templates. -/
def Templates.injected (port : Option (List Char)) : List (List Char) :=
  match port, target.port_arg with
  | some p, some flag => if T.usesPort then [] else [flag, p]
  | _, _ => []

def Templates.commands (image : List Char) (port : Option (List Char)) : List Invocation :=
  List.zipWith (preCommand image port) target.pre T.pre ++
    [{ tool := target.tool, args := T.args.map (render image port) ++ T.injected port }]

theorem Templates.pre_expands (hpre : ∀ step ∈ target.pre, step ≠ []) (image : List Char)
    (port : Option (List Char)) (hdev : T.usesPort → port.isSome) :
    plan_pre image port target.pre false =
      .ok (List.zipWith (preCommand image port) target.pre T.pre, T.pre.any Host.usesPort) := by
  refine (plan_pre_ok_iff image port target.pre hpre _ _ _).mpr ⟨T.pre, T.pre_source, ?_, rfl, rfl⟩
  intro huses
  apply hdev
  unfold Templates.usesPort
  rw [huses, Bool.true_or]

theorem Templates.args_expand (image : List Char) (port : Option (List Char))
    (hdev : T.usesPort → port.isSome) :
    expand_args image port target.args (T.pre.any Host.usesPort) =
      .ok (T.args.map (render image port), T.usesPort) := by
  refine (expand_args_ok_iff image port target.args _ _ _).mpr ⟨T.args, T.args_source, ?_, rfl, rfl⟩
  intro huses
  apply hdev
  unfold Templates.usesPort
  rw [huses, Bool.or_true]

theorem Templates.plan_iff (hpre : ∀ step ∈ target.pre, step ≠ []) (image : List Char)
    (port : Option (List Char)) (hdev : T.usesPort → port.isSome) (out : List Invocation) :
    plan target image port = .ok out ↔
      (port.isSome → T.usesPort ∨ target.port_arg.isSome) ∧ out = T.commands image port := by
  unfold plan Templates.commands Templates.injected
  rw [T.pre_expands hpre image port hdev]
  dsimp only
  rw [T.args_expand image port hdev]
  dsimp only
  have hok : ∀ cmds : List Invocation, Except.ok (ε := PlanError) cmds = .ok out ↔ out = cmds := by
    intro cmds
    rw [Except.ok.injEq, eq_comm]
  cases port with
  | none =>
    rw [hok]
    simp
  | some p =>
    cases huses : T.usesPort with
    | true =>
      dsimp only
      rw [if_pos rfl, hok]
      cases target.port_arg with
      | none => simp
      | some flag => simp
    | false =>
      cases target.port_arg with
      | none => simp
      | some flag =>
        dsimp only
        rw [if_neg Bool.false_ne_true, hok]
        simp

end Commands

theorem templates_of_plan {target : Target} (hpre : ∀ step ∈ target.pre, step ≠ []) {image : List Char}
    {port : Option (List Char)} {out : List Invocation} (h : plan target image port = .ok out) :
    ∃ T : Templates target, T.usesPort → port.isSome := by
  unfold plan at h
  split at h
  case h_1 => cases h
  case h_2 steps mid hsteps =>
    split at h
    case h_1 => cases h
    case h_2 args last hargs =>
      obtain ⟨pre, hpresource, hpredev, -⟩ := (plan_pre_ok_iff image port _ hpre _ _ _).mp hsteps
      obtain ⟨main, hsource, hdev, -⟩ := (expand_args_ok_iff image port _ _ _ _).mp hargs
      refine ⟨⟨pre, main, hpresource, hsource⟩, ?_⟩
      unfold Templates.usesPort
      rw [Bool.or_eq_true]
      rintro (huses | huses)
      · exact hpredev huses
      · exact hdev huses

/-! ## Targets that are accepted -/

theorem check_pre_ok {ε : Type} {src name : List Char} {steps : List (List (List Char))} {i : Nat}
    (h : check_pre (ε := ε) src name i steps = .ok ()) : ∀ step ∈ steps, step ≠ [] := by
  induction steps generalizing i with
  | nil =>
    intro step hstep
    cases hstep
  | cons first rest ih =>
    unfold check_pre at h
    split_ifs at h with hempty
    intro step hstep
    rcases List.mem_cons.mp hstep with rfl | hstep
    · rintro rfl
      exact hempty rfl
    · exact ih h step hstep

theorem check_targets_ok {ε : Type} {src : List Char} {targets : List (List Char × Target)}
    (h : check_targets (ε := ε) src targets = .ok ()) :
    ∀ t ∈ targets, ∀ step ∈ t.2.pre, step ≠ [] := by
  induction targets with
  | nil =>
    intro t ht
    cases ht
  | cons first rest ih =>
    obtain ⟨name, target⟩ := first
    unfold check_targets at h
    split_ifs at h with hempty
    split at h
    case h_1 => cases h
    case h_2 hsteps =>
      intro t ht
      rcases List.mem_cons.mp ht with rfl | ht
      · exact check_pre_ok hsteps
      · exact ih h t ht

theorem parse_config_ok {ε : Type} {from_str : List Char → Except ε InstallConfig}
    {text src : List Char} {cfg : InstallConfig} (h : parse_config src from_str text = .ok cfg) :
    ∀ t ∈ cfg.targets, ∀ step ∈ t.2.pre, step ≠ [] := by
  unfold parse_config at h
  split at h
  case h_1 => cases h
  case h_2 parsed hparsed =>
    split at h
    case h_1 => cases h
    case h_2 hchecked =>
      obtain rfl := Except.ok.inj h
      exact check_targets_ok hchecked

/-- A plan exists exactly when every argument is a template, a port is given if some template has
a place for it, and a given port has such a place or a `port_arg`. It is then the commands of the
templates, each placeholder replaced once, with the port appended only if it has no place. -/
theorem plan_ok_iff {ε : Type} (from_str : List Char → Except ε InstallConfig) (text src : List Char)
    (cfg : InstallConfig) (hcfg : parse_config src from_str text = .ok cfg) (name : List Char)
    (target : Target) (htarget : (name, target) ∈ cfg.targets) (image : List Char)
    (port : Option (List Char)) (out : List Invocation) :
    plan target image port = .ok out ↔
      ∃ T : Templates target, (T.usesPort → port.isSome) ∧
        (port.isSome → T.usesPort ∨ target.port_arg.isSome) ∧ out = T.commands image port := by
  have hpre := parse_config_ok hcfg (name, target) htarget
  constructor
  · intro h
    obtain ⟨T, hdev⟩ := templates_of_plan hpre h
    exact ⟨T, hdev, (T.plan_iff hpre image port hdev out).mp h⟩
  · rintro ⟨T, hdev, hrest⟩
    exact (T.plan_iff hpre image port hdev out).mpr hrest

/-- A port that only a pre step takes, an image with braces in its name, and a stray brace. -/
theorem plan_ok_iff_braces :
    let target : Target :=
      { tool := "t".toList
        args := ["w:{image}".toList, "\x7d".toList]
        pre := [["{t}".toList, "{port}".toList]]
        port_arg := some "-P".toList }
    plan target "a{port}".toList (some "COM3".toList) =
      .ok [{ tool := "{t}".toList, args := ["COM3".toList] },
        { tool := "t".toList, args := ["w:a{port}".toList, "\x7d".toList] }] := by
  intro target
  let text := ("[targets.ea]\ntool = 't'\nargs = ['w:{image}', '\x7d']\n" ++
    "pre = [['{t}', '{port}']]\nport_arg = '-P'\n").toList
  let from_str : List Char → Except Unit InstallConfig := fun given =>
    if given = text then .ok { targets := [("ea".toList, target)] } else .error ()
  have hcfg : parse_config "install.toml".toList from_str text =
      .ok { targets := [("ea".toList, target)] } := by
    have hparsed : from_str text = .ok { targets := [("ea".toList, target)] } := if_pos rfl
    unfold parse_config
    rw [hparsed]
    rfl
  refine (plan_ok_iff from_str text _ _ hcfg "ea".toList target (List.mem_singleton_self _) _ _ _).mpr
    ⟨⟨[[[.port]]], [[.lit 'w' (by decide), .lit ':' (by decide), .image], [.lit '\x7d' (by decide)]],
      rfl, rfl⟩, fun _ => rfl, fun _ => Or.inl rfl, rfl⟩

end OtaUpdater.Host
