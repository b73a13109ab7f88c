import SshGpuConsole.DirectAuth.Operations
import SshGpuConsole.Workspace.Distribution

/-!
# Planning a transfer

`plan_transfer` (`transfer/planner.py`): the probes for the disk, the preflight of direct rsync, and the strategy that
is selected from the request and the preflight. Whatever is answered, what is selected depends on the preflight in one
way only (`selects`).
-/

namespace SshGpuConsole.Preflight
open Shell (Text)
open PyText
open Effect (Prog Sem exec)
open Workspace (TransferStrategy CommandResult Raised)
open Ssh (ConnectParams)
open Planner (DedicatedKeyOptions)

/-- What a transfer is planned for. -/
structure Asked where
  requested : TransferStrategy
  source_server_id : Text
  target_server_id : Text
  source_path : Text
  target_path : Text
  artifact_id : Text
  excludes : List Text
  dedicated_key : Option DedicatedKeyOptions

/-- `TransferPlan`. -/
structure TransferPlan where
  artifact_id : Text
  source_server_id : Text
  source_path : Text
  target_server_id : Text
  target_path : Text
  strategy_requested : TransferStrategy
  /-- `strategy_available["direct_rsync"]`; the relay always is. -/
  direct_rsync : Bool
  strategy_selected : Option TransferStrategy
  reason : Text
  source_size_b : Option Int
  excludes : List Text
  target_free_b : Option Int
  space_warning : Text
  direct_auth_method : Option Text
  direct_auth_reason : Option Text
  deriving DecidableEq, Repr

/-! ### What is called -/

inductive PlanOp where
  /-- `executor.run(command)` of the server's executor -/
  | run (server_id command : Text)
  /-- `ssh.resolve_params_for(target_server)` -/
  | resolveParams (server_id : Text)
  /-- `ssh.transfer_command_session(source_server)` -/
  | session (server_id : Text)
  /-- `session.run(command)`, with what it writes to stderr -/
  | probe (command : Text)
  /-- `session.close()` -/
  | close

@[reducible] def PlanOp.Ans : PlanOp → Type
  | .run _ _ => CommandResult
  | .resolveParams _ => ConnectParams
  | .probe _ => Int × Text
  | .session _ | .close => Unit

/-- What the environment answers to a call. -/
structure Answers where
  run : Except Raised CommandResult := .error (.exception [])
  params : Except Raised ConnectParams := .error (.exception [])
  session : Except Raised Unit := .ok ()
  probe : Except Raised (Int × Text) := .error (.exception [])
  close : Except Raised Unit := .ok ()

def servers : Sem PlanOp PlanOp.Ans Raised Unit Answers where
  act
    | .run _ _, c, s => (c.run, s)
    | .resolveParams _, c, s => (c.params, s)
    | .session _, c, s => (c.session, s)
    | .probe _, c, s => (c.probe, s)
    | .close, c, s => (c.close, s)

abbrev Planning (α : Type) := Prog PlanOp PlanOp.Ans Raised α

def call (o : PlanOp) : Planning o.Ans := Prog.perform o

/-- The block of a `try ... except Exception`. -/
def trying {α : Type} (p : Planning α) : Planning (Except Raised α) := Prog.catching Raised.isException p

/-- Python's functions on texts and exceptions. -/
structure Config where
  /-- `int`; nothing where it raises `ValueError` -/
  toInt : Text → Option Int
  /-- `str(exc)` -/
  str : Raised → Text

/-! ### Probes -/

/-- `_rsync_present`. -/
def rsyncPresent (server_id : Text) : Planning Bool := do
  match ← trying (call (.run server_id "command -v rsync".toList)) with
  | .error _ => return false
  | .ok result => return result.exit_code = some 0

/-- The lines that are not blank. -/
def fullLines (stdout : Text) : List Text := (PyLines.charBreaks.lines stdout).filter (strip · ≠ [])

/-- `_probe_source_size`. -/
def probeSourceSize (cfg : Config) (server_id source_path : Text) : Planning (Option Int) := do
  let quoted := quote source_path
  let command := "if [ -d ".toList ++ quoted ++ " ]; then du -sb -- ".toList ++ quoted ++
    "; else stat -c %s -- ".toList ++ quoted ++ "; fi".toList
  match ← trying (call (.run server_id command)) with
  | .error _ => return none
  | .ok result =>
    if result.exit_code ≠ some 0 then return none
    else
      let value := ((fullLines result.stdout).getLast?.bind fun line => (PyLines.split line).head?).bind cfg.toInt
      return value.filter (0 ≤ ·)

/-- `_probe_target_free`. -/
def probeTargetFree (cfg : Config) (server_id target_path : Text) : Planning (Option Int) := do
  let dir := PosixPath.dirname target_path
  let parent := if dir = [] then ".".toList else dir
  match ← trying (call (.run server_id ("df -B1 --output=avail -- ".toList ++ quote parent))) with
  | .error _ => return none
  | .ok result =>
    if result.exit_code ≠ some 0 then return none
    else return ((fullLines result.stdout).getLast?.bind fun line => (PyLines.split line).getLast?).bind cfg.toInt

/-- The command line of `_batch_mode_probe`. -/
def batchModeCommand (params : ConnectParams) : Text :=
  let user_part := match params.username with
    | none | some [] => []
    | some user => user ++ ['@']
  let port := if params.port = 0 then 22 else params.port
  "ssh -o BatchMode=yes -o ConnectTimeout=8 -o StrictHostKeyChecking=yes -p ".toList ++ ofInt port ++
    ' ' :: quote (user_part ++ params.host) ++ " true".toList

/-- `_batch_mode_probe` and `dedicated_batch_mode_probe`, by their command lines. -/
def sshProbe (cfg : Config) (command : Text) : Planning (Bool × Text) := do
  match ← trying (call (.probe command)) with
  | .error e => return (false, DirectAuth.probeError (cfg.str e))
  | .ok (exit_code, stderr) => return if exit_code = 0 then (true, []) else (false, DirectAuth.probeDetail stderr exit_code)

inductive ProbeKind where
  | native
  | dedicated
  | transport
  deriving DecidableEq, Repr

/-- How the source gets to the target, as far as it does. -/
structure Probed where
  ok : Bool
  detail : Text
  kind : ProbeKind
  method : Option Text
  deriving DecidableEq, Repr

/-- The block that probes: native first, then with the dedicated key where there is one. -/
def probeLadder (cfg : Config) (asked : Asked) : Planning Probed := do
  let params ← call (.resolveParams asked.target_server_id)
  call (.session asked.source_server_id)
  let native ← sshProbe cfg (batchModeCommand params)
  let probed ←
    if native.1 then pure ⟨true, native.2, .native, some "native".toList⟩
    else
      match asked.dedicated_key with
      | none => pure ⟨false, native.2, .native, none⟩
      | some key => do
        let dedicated ← sshProbe cfg (DirectAuth.probeCommand params key)
        pure ⟨dedicated.1, dedicated.2, .dedicated, if dedicated.1 then some "sgc_key".toList else none⟩
  call .close
  return probed

/-- The probe of the route; an exception around it means that direct rsync is not available. -/
def probeRoute (cfg : Config) (asked : Asked) (rsync_both : Bool) : Planning Probed := do
  if !rsync_both then return ⟨false, [], .native, none⟩
  else
    match ← trying (probeLadder cfg asked) with
    | .ok probed => return probed
    | .error e => return ⟨false, "preflight probe failed: ".toList ++ (cfg.str e).take 120, .transport, none⟩

/-! ### The plan -/

/-- `_unavailable_reason_code`. -/
def unavailableReason (rsync_source rsync_target : Bool) (probed : Probed) : Text :=
  if !rsync_source then "rsync_missing_source".toList
  else if !rsync_target then "rsync_missing_target".toList
  else if probed.kind = .transport then "route_unreachable".toList
  else (DirectAuth.classifyProbeFailure probed.detail (probed.kind = .dedicated)).value

/-- `space_warning`. -/
def spaceWarning (source_size_b target_free_b : Option Int) : Text :=
  match source_size_b, target_free_b with
  | some size, some free =>
    if free < size then
      "target may be insufficient: need ".toList ++ ofInt size ++ " B, only ".toList ++ ofInt free ++ " B free".toList
    else []
  | _, _ => []

/-- The strategy for a request, and the reason for it. -/
def selectStrategy (requested : TransferStrategy) (rsync_both direct_available : Bool) (probed : Probed) :
    Option TransferStrategy × Text :=
  let method := probed.method.getD "None".toList
  match requested with
  | .localRelay => (some .localRelay, "local relay requested".toList)
  | .directRsync =>
    if direct_available then (some .directRsync, "direct rsync preflight passed (".toList ++ method ++ ")".toList)
    else
      let why := if !rsync_both then "rsync missing on source or target".toList
        else if probed.detail = [] then "source cannot SSH to target non-interactively".toList
        else probed.detail
      (none, "direct rsync unavailable: ".toList ++ why)
  | .auto =>
    if direct_available then
      (some .directRsync, "direct rsync preflight passed (".toList ++ method ++ ", auto)".toList)
    else if probed.detail = [] then
      (some .localRelay, "direct rsync unavailable; falling back to local relay".toList)
    else
      (some .localRelay, "direct rsync unavailable: ".toList ++ probed.detail ++ "; using local relay".toList)

/-- `plan_transfer`. -/
def planTransfer (cfg : Config) (asked : Asked) : Planning TransferPlan := do
  let source_size_b ← probeSourceSize cfg asked.source_server_id asked.source_path
  let target_free_b ← probeTargetFree cfg asked.target_server_id asked.target_path
  let rsync_source ← rsyncPresent asked.source_server_id
  let rsync_target ← rsyncPresent asked.target_server_id
  let probed ← probeRoute cfg asked (rsync_source && rsync_target)
  let direct_available := rsync_source && rsync_target && probed.ok
  let selected := selectStrategy asked.requested (rsync_source && rsync_target) direct_available probed
  return {
    artifact_id := asked.artifact_id
    source_server_id := asked.source_server_id
    source_path := asked.source_path
    target_server_id := asked.target_server_id
    target_path := asked.target_path
    strategy_requested := asked.requested
    direct_rsync := direct_available
    strategy_selected := selected.1
    reason := selected.2
    source_size_b, target_free_b
    excludes := asked.excludes
    space_warning := spaceWarning source_size_b target_free_b
    direct_auth_method := if direct_available then probed.method else none
    direct_auth_reason :=
      if direct_available then none else some (unavailableReason rsync_source rsync_target probed) }

/-- The strategy by the request and whether the preflight of direct rsync passed. -/
def strategyFor (requested : TransferStrategy) (direct_rsync : Bool) : Option TransferStrategy :=
  match requested with
  | .localRelay => some .localRelay
  | .directRsync => if direct_rsync then some .directRsync else none
  | .auto => some (if direct_rsync then .directRsync else .localRelay)

lemma selectStrategy_fst (requested : TransferStrategy) (rsync_both direct_available : Bool) (probed : Probed) :
    (selectStrategy requested rsync_both direct_available probed).1 = strategyFor requested direct_available := by
  cases requested with
  | auto =>
    cases direct_available with
    | true => rfl
    | false =>
      show (if probed.detail = [] then _ else _ : Option TransferStrategy × Text).1 = _
      split
      · rfl
      · rfl
  | directRsync => cases direct_available <;> rfl
  | localRelay => rfl

lemma yields_planTransfer (cfg : Config) (asked : Asked) :
    (planTransfer cfg asked).Yields (fun _ _ => True) fun plan =>
      plan.strategy_selected = strategyFor asked.requested plan.direct_rsync := by
  rw [planTransfer, Prog.bind_eq]
  refine Prog.Yields.bind_any fun source_size_b => ?_
  refine Prog.Yields.bind_any fun target_free_b => ?_
  refine Prog.Yields.bind_any fun rsync_source => ?_
  refine Prog.Yields.bind_any fun rsync_target => ?_
  refine Prog.Yields.bind_any fun probed => ?_
  exact selectStrategy_fst _ _ _ _

/-- What `plan_transfer` comes to in an environment. -/
def planned (cfg : Config) (asked : Asked) (env : ℕ → Answers) : Except Raised TransferPlan :=
  (exec servers (planTransfer cfg asked) () env).1

/-- A plan selects its strategy by the request and by its own preflight. -/
theorem selects {cfg : Config} {asked : Asked} {env : ℕ → Answers} {plan : TransferPlan}
    (h : planned cfg asked env = .ok plan) : plan.strategy_selected = strategyFor asked.requested plan.direct_rsync :=
  Effect.yields_exec (fun _ _ _ => trivial) (yields_planTransfer cfg asked) h

end SshGpuConsole.Preflight
