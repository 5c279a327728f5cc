import OtaUpdater.Lib.Text

/-!
# Install plans (`install.rs`)

From a target of `install.toml` to the commands to run. Running them is left out.
-/

open OtaUpdater.Lib.Text

namespace OtaUpdater.Host

/-! ## Configuration -/

structure Target where
  tool : List Char
  args : List (List Char)
  pre : List (List (List Char))
  port_arg : Option (List Char)
deriving DecidableEq

/-- The map of targets, in the order of their names. -/
structure InstallConfig where
  targets : List (List Char × Target)

inductive ConfigError (ε : Type) where
  | Parsing (source : List Char) (e : ε)
  | EmptyTool (source name : List Char)
  | EmptyPre (source name : List Char) (i : Nat)

section Config

variable {ε : Type} (source : List Char)

def check_pre (name : List Char) : Nat → List (List (List Char)) → Except (ConfigError ε) Unit
  | _, [] => .ok ()
  | i, step :: rest =>
    if step.head?.all (fun tool => trim tool = []) then .error (.EmptyPre source name i)
    else check_pre name (i + 1) rest

def check_targets : List (List Char × Target) → Except (ConfigError ε) Unit
  | [] => .ok ()
  | (name, t) :: rest =>
    if trim t.tool = [] then .error (.EmptyTool source name)
    else
      match check_pre source name 0 t.pre with
      | .error e => .error e
      | .ok () => check_targets rest

/-- `from_str` is the TOML parser's. -/
def parse_config (from_str : List Char → Except ε InstallConfig) (text : List Char) :
    Except (ConfigError ε) InstallConfig :=
  match from_str text with
  | .error e => .error (.Parsing source e)
  | .ok cfg =>
    match check_targets source cfg.targets with
    | .error e => .error e
    | .ok () => .ok cfg

end Config

/-! ## Plans -/

structure Invocation where
  tool : List Char
  args : List (List Char)
deriving DecidableEq

inductive PlanError where
  | Unclosed (arg : List Char)
  | NeedsPort (arg : List Char)
  | UnknownPlaceholder (other arg : List Char)
  | NoPort (p : List Char)
  /-- `step[0]` of an empty step. -/
  | Panic
deriving DecidableEq

section Expand

variable (image : List Char) (port : Option (List Char))

/-- The loop of `expand_one`. -/
def expand_rest (arg out rest : List Char) (port_consumed : Bool) : Except PlanError (List Char × Bool) :=
  match _hopen : cut '{' rest with
  | none => .ok (out ++ rest, port_consumed)
  | some (before, after) =>
    match _hclose : cut '}' after with
    | none => .error (.Unclosed arg)
    | some (other, behind) =>
      if other = "image".toList then expand_rest arg (out ++ before ++ image) behind port_consumed
      else if other = "port".toList then
        match port with
        | none => .error (.NeedsPort arg)
        | some p => expand_rest arg (out ++ before ++ p) behind true
      else .error (.UnknownPlaceholder other arg)
termination_by rest.length
decreasing_by
  all_goals
    obtain ⟨rfl, -⟩ := (cut_eq_some_iff _ _ _ _).mp _hopen
    obtain ⟨rfl, -⟩ := (cut_eq_some_iff _ _ _ _).mp _hclose
    simp only [List.length_append, List.length_cons]
    omega

def expand_one (arg : List Char) (port_consumed : Bool) : Except PlanError (List Char × Bool) :=
  expand_rest image port arg [] arg port_consumed

def expand_args : List (List Char) → Bool → Except PlanError (List (List Char) × Bool)
  | [], port_consumed => .ok ([], port_consumed)
  | arg :: args, port_consumed =>
    match expand_one image port arg port_consumed with
    | .error e => .error e
    | .ok (arg, port_consumed) =>
      match expand_args args port_consumed with
      | .error e => .error e
      | .ok (args, port_consumed) => .ok (arg :: args, port_consumed)

/-- The loop over the pre steps. -/
def plan_pre : List (List (List Char)) → Bool → Except PlanError (List Invocation × Bool)
  | [], port_consumed => .ok ([], port_consumed)
  | [] :: _, _ => .error .Panic
  | (tool :: args) :: steps, port_consumed =>
    match expand_args image port args port_consumed with
    | .error e => .error e
    | .ok (args, port_consumed) =>
      match plan_pre steps port_consumed with
      | .error e => .error e
      | .ok (out, port_consumed) => .ok ({ tool, args } :: out, port_consumed)

end Expand

def plan (target : Target) (image : List Char) (port : Option (List Char)) :
    Except PlanError (List Invocation) :=
  match plan_pre image port target.pre false with
  | .error e => .error e
  | .ok (out, port_consumed) =>
    match expand_args image port target.args port_consumed with
    | .error e => .error e
    | .ok (args, port_consumed) =>
      match port with
      | none => .ok (out ++ [{ tool := target.tool, args }])
      | some p =>
        if port_consumed then .ok (out ++ [{ tool := target.tool, args }])
        else
          match target.port_arg with
          | none => .error (.NoPort p)
          | some flag => .ok (out ++ [{ tool := target.tool, args := args ++ [flag, p] }])

end OtaUpdater.Host
