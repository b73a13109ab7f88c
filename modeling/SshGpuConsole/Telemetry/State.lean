import SshGpuConsole.Lib.Dict
import SshGpuConsole.Servers.Registry

/-!
# Shared telemetry state

`TelemetryState` (`telemetry/state.py`) over the models of `models/telemetry.py`: the sections of each server, the
operations that update them, what they count as a revision, and the two views, `snapshot` and `fleet_summary`. The
GPU history is left out: neither view reads it. Floats are a type with the operations the code uses on them, and
each operation is given what `utcnow()` and `time.monotonic()` return in it.
-/

namespace SshGpuConsole.Telemetry
open Shell (Text)
open PyText
open Registry (ServerRecord)

/-- What the telemetry state does with floats. -/
class Measure (φ : Type) where
  /-- `round(used / total * 100.0, 1)` -/
  percentOf (used total : ℤ) : φ
  /-- `x > n` -/
  above (x : φ) (n : ℕ) : Bool
  /-- `x >= n` -/
  atLeast (x : φ) (n : ℕ) : Bool
  sub : φ → φ → φ
  /-- `n / x` -/
  per (n : ℤ) (x : φ) : φ

abbrev Stamp := ℕ

inductive ServerStatus where
  | unknown
  | connecting
  | online
  | reconnecting
  | offline
  | timeout
  | authenticationFailed
  | hostKeyError
  | degraded
  deriving DecidableEq, Repr

inductive GpuAvailability where
  | free
  | active
  | saturated
  | unavailable
  deriving DecidableEq, Repr

structure CpuInfo (φ : Type) where
  percent : Option φ := none
  load_1 : Option φ := none
  load_5 : Option φ := none
  load_15 : Option φ := none
  cores_logical : Option ℤ := none
  deriving DecidableEq

structure MemoryInfo (φ : Type) where
  total_b : Option ℤ := none
  used_b : Option ℤ := none
  available_b : Option ℤ := none
  percent : Option φ := none
  deriving DecidableEq

structure GpuInfo (φ : Type) where
  index : ℤ
  uuid : Option Text := none
  name : Option Text := none
  utilization_percent : Option φ := none
  vram_used_b : Option ℤ := none
  vram_total_b : Option ℤ := none
  vram_percent : Option φ := none
  temperature_c : Option φ := none
  power_watts : Option φ := none
  power_limit_watts : Option φ := none
  fan_percent : Option φ := none
  availability : GpuAvailability := .unavailable
  process_count : ℕ := 0
  deriving DecidableEq

structure GpuProcessInfo where
  pid : ℤ
  gpu_uuid : Option Text := none
  gpu_index : Option ℤ := none
  used_memory_b : Option ℤ := none
  process_name : Option Text := none
  user : Option Text := none
  command : Option Text := none
  deriving DecidableEq, Repr

structure ProcessInfo (φ : Type) where
  pid : ℤ
  user : Option Text := none
  name : Option Text := none
  cpu_percent : Option φ := none
  mem_percent : Option φ := none
  rss_b : Option ℤ := none
  state : Option Text := none
  command : Option Text := none
  gpu_indexes : List ℤ := []
  gpu_vram_b : Option ℤ := none
  deriving DecidableEq

structure StorageMount (φ : Type) where
  device : Text
  fstype : Option Text := none
  mount : Text
  total_b : Option ℤ := none
  used_b : Option ℤ := none
  free_b : Option ℤ := none
  percent : Option φ := none
  deriving DecidableEq

structure NetworkInterfaceInfo (φ : Type) where
  name : Text
  ip : Option Text := none
  rx_bps : Option φ := none
  tx_bps : Option φ := none
  rx_total_b : Option ℤ := none
  tx_total_b : Option ℤ := none
  deriving DecidableEq

structure SystemInfo (φ : Type) where
  hostname : Option Text := none
  os_pretty : Option Text := none
  kernel : Option Text := none
  uptime_s : Option φ := none
  cpu_model : Option Text := none
  cores_physical : Option ℤ := none
  cores_logical : Option ℤ := none
  driver_version : Option Text := none
  deriving DecidableEq

structure ServerSnapshot (φ : Type) where
  server_id : Text
  status : ServerStatus := .unknown
  generated_at : Option Stamp := none
  cpu : Option (CpuInfo φ) := none
  memory : Option (MemoryInfo φ) := none
  gpus : List (GpuInfo φ) := []
  gpu_processes : List GpuProcessInfo := []
  processes : List (ProcessInfo φ) := []
  storage : List (StorageMount φ) := []
  network : List (NetworkInterfaceInfo φ) := []
  system : Option (SystemInfo φ) := none
  errors : Dict Text Text := []
  stale : Bool := false
  deriving DecidableEq

structure FleetGpu (φ : Type) where
  index : ℤ
  utilization_percent : Option φ := none
  vram_used_b : Option ℤ := none
  vram_total_b : Option ℤ := none
  temperature_c : Option φ := none
  power_watts : Option φ := none
  power_limit_watts : Option φ := none
  users : List Text := []
  availability : GpuAvailability := .unavailable
  deriving DecidableEq

structure FleetEntry (φ : Type) where
  server_id : Text
  display_name : Text
  ssh_endpoint : Option Text := none
  status : ServerStatus := .unknown
  enabled : Bool := true
  os_pretty : Option Text := none
  gpu_model : Option Text := none
  gpu_count : ℕ := 0
  gpu_busy : ℕ := 0
  gpu_free : ℕ := 0
  cpu_percent : Option φ := none
  memory_percent : Option φ := none
  vram_used_b : Option ℤ := none
  vram_total_b : Option ℤ := none
  disk_warning : Bool := false
  gpus : List (FleetGpu φ) := []
  updated_at : Option Stamp := none
  deriving DecidableEq

structure FleetSummary (φ : Type) where
  generated_at : Stamp
  servers : List (FleetEntry φ) := []
  deriving DecidableEq

/-- `_ServerState` -/
structure ServerState (φ : Type) where
  server_id : Text
  status : ServerStatus := .unknown
  status_detail : Text := []
  status_updated_at : Option Stamp := none
  cpu : Option (CpuInfo φ) := none
  memory : Option (MemoryInfo φ) := none
  gpus : List (GpuInfo φ) := []
  gpu_processes : List GpuProcessInfo := []
  proc_meta : Dict ℤ (Option Text × Option Text) := []
  pid_users : Dict ℤ Text := []
  processes : List (ProcessInfo φ) := []
  storage : List (StorageMount φ) := []
  network : List (NetworkInterfaceInfo φ) := []
  system : Option (SystemInfo φ) := none
  errors : Dict Text Text := []
  updated_at : Dict Text Stamp := []
  version : ℕ := 0
  deriving DecidableEq

abbrev Servers (φ : Type) := Table fun s : ServerState φ => s.server_id

structure TelemetryState (φ : Type) where
  servers : Servers φ := .empty
  /-- `_net_prev`: for each server and interface the last sample. -/
  net_prev : Dict Text (Dict Text (φ × ℤ × ℤ)) := []
  revision : ℕ := 0
  fleet_revision : ℕ := 0
  /-- A listener is set. -/
  listener : Bool := false
  /-- How often a listener was called. -/
  notified : ℕ := 0

section
variable {φ : Type}

/-- `bool` of an optional text. -/
def truthy (t : Option Text) : Bool := t.any fun t => t ≠ []

/-- `t or u` -/
def orElse (t u : Option Text) : Option Text := if truthy t then t else u

/-- `value or None` of a sum. -/
def nonzero (n : ℤ) : Option ℤ := if n = 0 then none else some n

/-! ### Correlation -/

/-- The GPU index of a process: that of its GPU, when it names one. -/
def GpuProcessInfo.located (by_uuid : Dict Text ℤ) (process : GpuProcessInfo) : GpuProcessInfo :=
  match process.gpu_uuid with
  | some uuid => if uuid = [] then process else { process with gpu_index := by_uuid.get uuid }
  | none => process

/-- The owner and the command of a process, from the process list, else from the full sample, else from the
fleet's probe. -/
def GpuProcessInfo.owned (state : ServerState φ) (process : GpuProcessInfo) : GpuProcessInfo :=
  match state.processes.reverse.find? fun general => general.pid = process.pid with
  | some general =>
    { process with
      user := general.user
      command := general.command
      process_name := orElse process.process_name general.name }
  | none =>
    match state.proc_meta.get process.pid with
    | some (user, command) => { process with user := process.user <|> user, command := process.command <|> command }
    | none =>
      match process.user with
      | some _ => process
      | none => { process with user := state.pid_users.get process.pid }

/-- `by_uuid` -/
def ServerState.byUuid (state : ServerState φ) : Dict Text ℤ :=
  .ofItems (state.gpus.filterMap fun gpu => gpu.uuid.bind fun uuid => if uuid = [] then none else some (uuid, gpu.index))

def ServerState.correlated (state : ServerState φ) (process : GpuProcessInfo) : GpuProcessInfo :=
  (process.located state.byUuid).owned state

/-- The order of the key `(gpu_index is None, gpu_index or 0, pid)`. -/
def GpuProcessInfo.before (p q : GpuProcessInfo) : Prop :=
  toLex (p.gpu_index.isNone, toLex (p.gpu_index.getD 0, p.pid)) ≤ toLex (q.gpu_index.isNone, toLex (q.gpu_index.getD 0, q.pid))

instance : DecidableRel GpuProcessInfo.before := fun _ _ => inferInstanceAs (Decidable (_ ≤ _))

/-- `sorted(per_pid.get(pid, []))` -/
def gpuIndexes (processes : List GpuProcessInfo) (pid : ℤ) : List ℤ :=
  ((processes.filter fun p => p.pid = pid).filterMap GpuProcessInfo.gpu_index).dedup.insertionSort (· ≤ ·)

/-- `per_pid_vram.get(pid)` -/
def gpuVram (processes : List GpuProcessInfo) (pid : ℤ) : Option ℤ :=
  match (processes.filter fun p => p.pid = pid ∧ p.gpu_index ≠ none).filterMap GpuProcessInfo.used_memory_b with
  | [] => none
  | used => some used.sum

/-- `_correlate` -/
def ServerState.correlate (state : ServerState φ) : ServerState φ :=
  let processes := state.gpu_processes.map state.correlated
  { state with
    gpu_processes := processes.insertionSort GpuProcessInfo.before
    gpus := state.gpus.map fun gpu =>
      { gpu with process_count := processes.countP fun p => p.gpu_index = some gpu.index }
    processes := state.processes.map fun proc =>
      { proc with gpu_indexes := gpuIndexes processes proc.pid, gpu_vram_b := gpuVram processes proc.pid } }

/-! ### The operations -/

/-- `state.updated_at[section] = utcnow()` -/
def ServerState.stamp (state : ServerState φ) (name : String) (now : Stamp) : ServerState φ :=
  { state with updated_at := state.updated_at.set name.toList now }

namespace TelemetryState
variable (σ : TelemetryState φ)

/-- `exists` -/
def has (server_id : Text) : Bool := (σ.servers.get server_id).isSome

/-- What `_get` returns. -/
def serverState (server_id : Text) : ServerState φ := (σ.servers.get server_id).getD { server_id }

/-- What a method leaves that has changed what `_get` returned. -/
def put (state : ServerState φ) : TelemetryState φ := { σ with servers := σ.servers.set state }

def notify : TelemetryState φ := { σ with notified := if σ.listener then σ.notified + 1 else σ.notified }

/-- `_bump` -/
def bump (server_id : Text) (fleet : Bool) : TelemetryState φ :=
  let servers := match σ.servers.get server_id with
    | some state => σ.servers.set { state with version := state.version + 1 }
    | none => σ.servers
  { σ with
    servers
    revision := σ.revision + 1
    fleet_revision := if fleet then σ.fleet_revision + 1 else σ.fleet_revision }.notify

/-- `version_of` -/
def versionOf (server_id : Text) : ℕ := ((σ.servers.get server_id).map ServerState.version).getD 0

/-- `status_of` -/
def statusOf (server_id : Text) : ServerStatus := ((σ.servers.get server_id).map ServerState.status).getD .unknown

def setStatus (server_id : Text) (status : ServerStatus) (detail : Text) (now : Stamp) : TelemetryState φ :=
  let state := σ.serverState server_id
  if state.status = status ∧ state.status_detail = detail then σ.put state
  else (σ.put { state with status, status_detail := detail.take 300, status_updated_at := some now }).bump server_id true

def updateCpu (server_id : Text) (cpu : CpuInfo φ) (now : Stamp) : TelemetryState φ :=
  (σ.put ({ σ.serverState server_id with cpu := some cpu }.stamp "cpu" now)).bump server_id true

def updateMemory (server_id : Text) (memory : MemoryInfo φ) (now : Stamp) : TelemetryState φ :=
  (σ.put ({ σ.serverState server_id with memory := some memory }.stamp "memory" now)).bump server_id true

def updateSystem (server_id : Text) (system : SystemInfo φ) (now : Stamp) : TelemetryState φ :=
  let state := { σ.serverState server_id with system := some system }.stamp "system" now
  -- `cores_logical` of the CPU section comes from the static probe
  let cpu := match state.cpu, system.cores_logical with
    | some cpu, some cores => some { cpu with cores_logical := some cores }
    | cpu, _ => cpu
  (σ.put { state with cpu }).bump server_id true

/-- `derive_availability` -/
def deriveAvailability [Measure φ] (utilization vram_percent : Option φ) : GpuAvailability :=
  if utilization.any (Measure.above · 80) || vram_percent.any (Measure.atLeast · 95) then .saturated
  else if utilization.any (Measure.above · 5) || vram_percent.any (Measure.above · 5) then .active
  else .free

/-- What `update_gpus` makes of a GPU of the sample. -/
def normalizeGpu [Measure φ] (gpu : GpuInfo φ) : GpuInfo φ :=
  let vram_percent := match gpu.vram_percent, gpu.vram_used_b, gpu.vram_total_b with
    | none, some used, some total => if total = 0 then none else some (Measure.percentOf used total)
    | percent, _, _ => percent
  { gpu with vram_percent, availability := deriveAvailability gpu.utilization_percent vram_percent }

def updateGpus [Measure φ] (server_id : Text) (gpus : List (GpuInfo φ)) (now : Stamp) : TelemetryState φ :=
  let state := { σ.serverState server_id with gpus := (gpus.take 64).map normalizeGpu }.stamp "gpu" now
  (σ.put state.correlate).bump server_id true

/-- `pid_users` of a probe, or nothing when `int` refuses a pid that `isdigit` accepts. -/
def pidUsers (isDigit : Text → Bool) (toInt : Text → Option ℤ) (pid_users : List (Text × Text)) : Option (Dict ℤ Text) :=
  (((pid_users.take 2048).filter fun x => isDigit x.1).mapM fun x => (toInt x.1).map fun pid => (pid, x.2)).map
    Dict.ofItems

/-- `update_pid_users`: neither a stamp nor a revision. -/
def updatePidUsers (isDigit : Text → Bool) (toInt : Text → Option ℤ) (server_id : Text)
    (pid_users : List (Text × Text)) : TelemetryState φ :=
  let state := σ.serverState server_id
  match pidUsers isDigit toInt pid_users with
  | none => σ.put state
  | some pid_users => σ.put { state with pid_users }.correlate

def updateGpuProcesses (server_id : Text) (processes : List GpuProcessInfo) (now : Stamp) : TelemetryState φ :=
  let state := { σ.serverState server_id with gpu_processes := processes.take 4096 }.stamp "gpu_processes" now
  (σ.put state.correlate).bump server_id false

def updateProcesses (server_id : Text) (processes : List (ProcessInfo φ)) (now : Stamp) : TelemetryState φ :=
  let state := { σ.serverState server_id with
    processes := processes.take 250
    proc_meta := .ofItems ((processes.take 2048).map fun (p : ProcessInfo φ) => (p.pid, p.user, p.command)) }
  (σ.put (state.stamp "processes" now).correlate).bump server_id false

def updateStorage (server_id : Text) (mounts : List (StorageMount φ)) (now : Stamp) : TelemetryState φ :=
  (σ.put ({ σ.serverState server_id with storage := mounts.take 512 }.stamp "storage" now)).bump server_id false

/-- The rate of a counter since the last sample. -/
def rate [Measure φ] (elapsed : φ) (total before : ℤ) : Option φ :=
  if Measure.above elapsed 0 && before ≤ total then some (Measure.per (total - before) elapsed) else none

/-- `update_network` over one interface: what is kept of it, and the samples for the next rates. -/
def sampleInterface [Measure φ] (monotonic : φ) (previous : Dict Text (φ × ℤ × ℤ)) (info : NetworkInterfaceInfo φ) :
    NetworkInterfaceInfo φ × Dict Text (φ × ℤ × ℤ) :=
  match info.rx_total_b, info.tx_total_b with
  | some rx_total, some tx_total =>
    let rates := match previous.get info.name with
      | none => (none, none)
      | some (at_, rx, tx) =>
        let elapsed := Measure.sub monotonic at_
        (rate elapsed rx_total rx, rate elapsed tx_total tx)
    ({ info with rx_bps := rates.1, tx_bps := rates.2 }, previous.set info.name (monotonic, rx_total, tx_total))
  | _, _ => ({ info with rx_bps := none, tx_bps := none }, previous.pop info.name)

def sampleInterfaces [Measure φ] (monotonic : φ) (previous : Dict Text (φ × ℤ × ℤ)) :
    List (NetworkInterfaceInfo φ) → List (NetworkInterfaceInfo φ) × Dict Text (φ × ℤ × ℤ)
  | [] => ([], previous)
  | info :: interfaces =>
    let (info, previous) := sampleInterface monotonic previous info
    let (interfaces, previous) := sampleInterfaces monotonic previous interfaces
    (info :: interfaces, previous)

def updateNetwork [Measure φ] (server_id : Text) (interfaces : List (NetworkInterfaceInfo φ)) (monotonic : φ)
    (now : Stamp) : TelemetryState φ :=
  let previous := (σ.net_prev.get server_id).getD []
  let (network, previous) := sampleInterfaces monotonic previous (interfaces.take 512)
  let σ := { σ with net_prev := σ.net_prev.set server_id previous }
  (σ.put ({ σ.serverState server_id with network }.stamp "network" now)).bump server_id false

/-- The sections that may have an error. -/
def allowedSections : List Text :=
  ["system", "cpu", "memory", "gpu", "gpu_processes", "storage", "network", "processes"].map String.toList

def setError (server_id name code : Text) : TelemetryState φ :=
  if !allowedSections.contains name then σ
  else
    let state := σ.serverState server_id
    let text := (strip code).take 300
    if text = [] then (σ.put { state with errors := state.errors.pop name }).bump server_id true
    else if state.errors.get name ≠ some text then
      (σ.put { state with errors := state.errors.set name text }).bump server_id true
    else σ.put state

def clearError (server_id name : Text) : TelemetryState φ := σ.setError server_id name []

def clear (server_id : Text) : TelemetryState φ :=
  { σ with
    servers := σ.servers.erase server_id
    net_prev := σ.net_prev.pop server_id
    revision := σ.revision + 1
    fleet_revision := σ.fleet_revision + 1 }.notify

/-- The servers of the state, in the order they came. -/
def serverIds : List Text := σ.servers.rows.map ServerState.server_id

def prune (keep : List Text) : TelemetryState φ :=
  (σ.serverIds.filter fun server_id => !keep.contains server_id).foldl clear σ

end TelemetryState

/-! ### The views -/

/-- `latest_update` -/
def ServerState.latestUpdate (state : ServerState φ) : Option Stamp :=
  (state.status_updated_at.toList ++ state.updated_at.map Prod.snd).max?

/-- The process runs on the GPU. -/
def GpuProcessInfo.belongs (process : GpuProcessInfo) (gpu : GpuInfo φ) : Bool :=
  process.gpu_index = some gpu.index || process.gpu_uuid ≠ none && process.gpu_uuid = gpu.uuid

/-- The loop of `_gpu_users`, which stops at eight. -/
def gpuUsersLoop (gpu : GpuInfo φ) : List Text → List GpuProcessInfo → List Text
  | users, [] => users
  | users, process :: processes =>
    match process.user with
    | none => gpuUsersLoop gpu users processes
    | some user =>
      if user ≠ [] ∧ !users.contains user ∧ process.belongs gpu then
        if 8 ≤ users.length + 1 then users ++ [user] else gpuUsersLoop gpu (users ++ [user]) processes
      else gpuUsersLoop gpu users processes

/-- `_gpu_users` -/
def ServerState.gpuUsers (state : ServerState φ) (gpu : GpuInfo φ) : List Text := gpuUsersLoop gpu [] state.gpu_processes

/-- Some mount is at `_DISK_WARN_PERCENT`. -/
def diskWarning [Measure φ] (storage : List (StorageMount φ)) : Bool :=
  storage.any fun mount => mount.percent.any (Measure.atLeast · 90)

/-- `_endpoint` -/
def endpoint (record : ServerRecord φ) : Text :=
  let port := record.port.filter (· ≠ 0)
  let user := if truthy record.username then record.username else none
  match user, port with
  | some user, some port => user ++ "@".toList ++ record.ssh_host ++ ":".toList ++ ofInt port
  | some user, none => user ++ "@".toList ++ record.ssh_host
  | none, some port => record.ssh_host ++ ":".toList ++ ofInt port
  | none, none => record.ssh_host

/-- A GPU of the fleet summary. -/
def ServerState.fleetGpu (state : ServerState φ) (gpu : GpuInfo φ) : FleetGpu φ where
  index := gpu.index
  utilization_percent := gpu.utilization_percent
  vram_used_b := gpu.vram_used_b
  vram_total_b := gpu.vram_total_b
  temperature_c := gpu.temperature_c
  power_watts := gpu.power_watts
  power_limit_watts := gpu.power_limit_watts
  users := state.gpuUsers gpu
  availability := gpu.availability

/-- A server of the fleet summary that the state knows. -/
def ServerState.fleetEntry [Measure φ] (state : ServerState φ) (record : ServerRecord φ) : FleetEntry φ where
  server_id := record.server_id
  display_name := record.display_name
  ssh_endpoint := some (endpoint record)
  status := state.status
  enabled := record.enabled
  os_pretty := state.system.bind SystemInfo.os_pretty
  gpu_model := (state.gpus.find? fun gpu => truthy gpu.name).bind GpuInfo.name
  gpu_count := state.gpus.length
  gpu_busy := state.gpus.countP fun gpu => gpu.availability = .active || gpu.availability = .saturated
  gpu_free := state.gpus.countP fun gpu => gpu.availability = .free
  cpu_percent := state.cpu.bind CpuInfo.percent
  memory_percent := state.memory.bind MemoryInfo.percent
  vram_used_b := nonzero (state.gpus.map fun gpu => gpu.vram_used_b.getD 0).sum
  vram_total_b := nonzero (state.gpus.map fun gpu => gpu.vram_total_b.getD 0).sum
  disk_warning := diskWarning state.storage
  gpus := (state.gpus.take 64).map state.fleetGpu
  updated_at := state.latestUpdate

/-- A server of the fleet summary that the state does not know. -/
def unknownEntry (record : ServerRecord φ) : FleetEntry φ where
  server_id := record.server_id
  display_name := record.display_name
  ssh_endpoint := some (endpoint record)
  enabled := record.enabled

namespace TelemetryState
variable (σ : TelemetryState φ)

/-- `fleet_summary` -/
def fleetSummary [Measure φ] (records : List (ServerRecord φ)) (now : Stamp) : FleetSummary φ where
  generated_at := now
  servers := records.map fun record =>
    match σ.servers.get record.server_id with
    | some state => state.fleetEntry record
    | none => unknownEntry record

/-- `snapshot`; the freshness window is that of the settings. -/
def snapshot (stale_after : ℕ) (server_id : Text) (now : Stamp) : Option (ServerSnapshot φ) :=
  (σ.servers.get server_id).map fun state =>
    { server_id
      status := state.status
      generated_at := some now
      cpu := state.cpu
      memory := state.memory
      gpus := state.gpus
      gpu_processes := state.gpu_processes
      processes := state.processes
      storage := state.storage
      network := state.network
      system := state.system
      errors := state.errors
      stale := state.latestUpdate.all fun latest => stale_after < now - latest }

end TelemetryState

/-! ### Runs -/

/-- A mutation of the state. -/
inductive Operation (φ : Type) where
  | setListener (set : Bool)
  | setStatus (server_id : Text) (status : ServerStatus) (detail : Text) (now : Stamp)
  | updateCpu (server_id : Text) (cpu : CpuInfo φ) (now : Stamp)
  | updateMemory (server_id : Text) (memory : MemoryInfo φ) (now : Stamp)
  | updateSystem (server_id : Text) (system : SystemInfo φ) (now : Stamp)
  | updateGpus (server_id : Text) (gpus : List (GpuInfo φ)) (now : Stamp)
  | updatePidUsers (server_id : Text) (pid_users : List (Text × Text))
  | updateGpuProcesses (server_id : Text) (processes : List GpuProcessInfo) (now : Stamp)
  | updateProcesses (server_id : Text) (processes : List (ProcessInfo φ)) (now : Stamp)
  | updateStorage (server_id : Text) (mounts : List (StorageMount φ)) (now : Stamp)
  | updateNetwork (server_id : Text) (interfaces : List (NetworkInterfaceInfo φ)) (monotonic : φ) (now : Stamp)
  | setError (server_id name code : Text)
  | clearError (server_id name : Text)
  | clear (server_id : Text)
  | prune (keep : List Text)

/-- What the operations ask about the text of a pid: `isdigit` and `int`. -/
structure Digits where
  isDigit : Text → Bool
  toInt : Text → Option ℤ

def TelemetryState.apply [Measure φ] (digits : Digits) (σ : TelemetryState φ) : Operation φ → TelemetryState φ
  | .setListener set => { σ with listener := set }
  | .setStatus server_id status detail now => σ.setStatus server_id status detail now
  | .updateCpu server_id cpu now => σ.updateCpu server_id cpu now
  | .updateMemory server_id memory now => σ.updateMemory server_id memory now
  | .updateSystem server_id system now => σ.updateSystem server_id system now
  | .updateGpus server_id gpus now => σ.updateGpus server_id gpus now
  | .updatePidUsers server_id pid_users => σ.updatePidUsers digits.isDigit digits.toInt server_id pid_users
  | .updateGpuProcesses server_id processes now => σ.updateGpuProcesses server_id processes now
  | .updateProcesses server_id processes now => σ.updateProcesses server_id processes now
  | .updateStorage server_id mounts now => σ.updateStorage server_id mounts now
  | .updateNetwork server_id interfaces monotonic now => σ.updateNetwork server_id interfaces monotonic now
  | .setError server_id name code => σ.setError server_id name code
  | .clearError server_id name => σ.clearError server_id name
  | .clear server_id => σ.clear server_id
  | .prune keep => σ.prune keep

end
end SshGpuConsole.Telemetry
