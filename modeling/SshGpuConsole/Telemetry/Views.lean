import SshGpuConsole.Telemetry.Correlation

/-!
# What the views show

The contents of `snapshot` and `fleet_summary`, without their stamps, by server: a snapshot shows the sections of its
server (`snapshot_content`), and an entry of the summary is settled by what it reads of them (`fleetEntry_congr`).
-/

namespace SshGpuConsole.Telemetry
open Shell (Text)
open Registry (ServerRecord)

variable {φ : Type}

/-! ### What the views show -/

/-- A snapshot without the stamps. -/
def ServerSnapshot.content (snapshot : ServerSnapshot φ) : ServerSnapshot φ :=
  { snapshot with generated_at := none, stale := false }

def FleetEntry.content (entry : FleetEntry φ) : FleetEntry φ := { entry with updated_at := none }

/-- A fleet summary without the stamps. -/
def FleetSummary.content (summary : FleetSummary φ) : List (FleetEntry φ) := summary.servers.map FleetEntry.content

/-- What the snapshots of a server show. -/
def ServerState.content (state : ServerState φ) : ServerSnapshot φ where
  server_id := state.server_id
  status := state.status
  cpu := state.cpu
  memory := state.memory
  gpus := state.gpus
  gpu_processes := state.gpu_processes
  processes := state.processes
  storage := state.storage
  network := state.network
  system := state.system
  errors := state.errors

lemma snapshot_content (σ : TelemetryState φ) (stale_after : ℕ) (server_id : Text) (now : Stamp) :
    (σ.snapshot stale_after server_id now).map ServerSnapshot.content =
      (σ.servers.get server_id).map ServerState.content := by
  unfold TelemetryState.snapshot
  cases h : σ.servers.get server_id with
  | none => rfl
  | some state =>
    have hid := Table.key_of_get h
    subst hid
    rfl

lemma serverState_id (σ : TelemetryState φ) (server_id : Text) : (σ.serverState server_id).server_id = server_id := by
  unfold TelemetryState.serverState
  cases h : σ.servers.get server_id with
  | none => rfl
  | some state => exact Table.key_of_get h

lemma serverState_version (σ : TelemetryState φ) (server_id : Text) :
    (σ.serverState server_id).version = σ.versionOf server_id := by
  unfold TelemetryState.serverState TelemetryState.versionOf
  cases σ.servers.get server_id with
  | none => rfl
  | some state => rfl

lemma fleetSummary_content [Measure φ] (σ : TelemetryState φ) (records : List (ServerRecord φ)) (now : Stamp) :
    (σ.fleetSummary records now).content =
      records.map fun record => ((σ.serverState record.server_id).fleetEntry record).content := by
  unfold TelemetryState.fleetSummary FleetSummary.content
  dsimp only
  rw [List.map_map]
  refine List.map_congr_left fun record _ => ?_
  unfold TelemetryState.serverState
  dsimp only [Function.comp_apply]
  cases σ.servers.get record.server_id with
  | none => rfl
  | some state => rfl

/-! ### What the fleet summary reads of a server -/

/-- A GPU without the count its correlation gives it. -/
def GpuInfo.lane (gpu : GpuInfo φ) : GpuInfo φ := { gpu with process_count := 0 }

/-- The users of each GPU. -/
def ServerState.owners (state : ServerState φ) : List (List Text) := (state.gpus.take 64).map state.gpuUsers

/-- A lane of the fleet summary, from a GPU and its users. -/
def FleetGpu.of (gpu : GpuInfo φ) (users : List Text) : FleetGpu φ where
  index := gpu.index
  utilization_percent := gpu.utilization_percent
  vram_used_b := gpu.vram_used_b
  vram_total_b := gpu.vram_total_b
  temperature_c := gpu.temperature_c
  power_watts := gpu.power_watts
  power_limit_watts := gpu.power_limit_watts
  users := users
  availability := gpu.availability

lemma fleetGpus_eq (state : ServerState φ) :
    (state.gpus.take 64).map state.fleetGpu =
      List.zipWith FleetGpu.of ((state.gpus.map GpuInfo.lane).take 64) state.owners := by
  unfold ServerState.owners
  rw [← List.map_take, List.zipWith_map, List.zipWith_self]
  rfl

lemma owners_eq (state : ServerState φ) : state.owners = ((state.gpus.take 64).map state.fleetGpu).map FleetGpu.users := by
  rw [List.map_map]
  rfl

/-- Two servers that agree on what the fleet summary reads have the same entry. -/
lemma fleetEntry_congr [Measure φ] {state state' : ServerState φ} (hstatus : state'.status = state.status)
    (hsystem : state'.system = state.system) (hcpu : state'.cpu = state.cpu) (hmemory : state'.memory = state.memory)
    (hgpus : state'.gpus.map GpuInfo.lane = state.gpus.map GpuInfo.lane) (howners : state'.owners = state.owners)
    (hdisk : diskWarning state'.storage = diskWarning state.storage) (record : ServerRecord φ) :
    (state'.fleetEntry record).content = (state.fleetEntry record).content := by
  have hmap : ∀ {β : Type} (f : GpuInfo φ → β), (∀ gpu, f gpu.lane = f gpu) →
      state'.gpus.map f = state.gpus.map f := by
    intro β f hf
    have hcomp : f ∘ GpuInfo.lane = f := funext hf
    rw [← hcomp, ← List.map_map, hgpus, List.map_map]
  have hlength : state'.gpus.length = state.gpus.length := by simpa using congrArg List.length hgpus
  have hcount : ∀ p : GpuInfo φ → Bool, (∀ gpu, p gpu.lane = p gpu) → state'.gpus.countP p = state.gpus.countP p := by
    intro p hp
    have hcomp : p ∘ GpuInfo.lane = p := funext hp
    rw [← hcomp, ← List.countP_map, hgpus, List.countP_map]
  have hmodel : (state'.gpus.find? fun gpu => truthy gpu.name).bind GpuInfo.name =
      (state.gpus.find? fun gpu => truthy gpu.name).bind GpuInfo.name := by
    have hlane : ∀ gpus : List (GpuInfo φ), (gpus.find? fun gpu => truthy gpu.name).bind GpuInfo.name =
        ((gpus.map GpuInfo.lane).find? fun gpu => truthy gpu.name).bind GpuInfo.name := by
      intro gpus
      rw [List.find?_map, Option.bind_map]
      rfl
    rw [hlane state'.gpus, hgpus, ← hlane state.gpus]
  unfold ServerState.fleetEntry FleetEntry.content
  dsimp only
  rw [hstatus, hsystem, hcpu, hmemory, hdisk, hlength, hmodel, hcount _ fun _ => rfl, hcount _ fun _ => rfl,
    hmap _ fun _ => rfl, hmap _ fun _ => rfl, fleetGpus_eq, fleetGpus_eq, hgpus, howners]

lemma lanes_correlate (state : ServerState φ) : state.correlate.gpus.map GpuInfo.lane = state.gpus.map GpuInfo.lane := by
  unfold ServerState.correlate
  dsimp only
  rw [List.map_map]
  rfl

end SshGpuConsole.Telemetry
