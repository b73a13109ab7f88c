import SshGpuConsole.Lib.Runs
import SshGpuConsole.Telemetry.Revisions

/-!
# What the telemetry keeps in memory

The telemetry state with its GPU history (`telemetry/history.py`), and the last statuses that the realtime hub has
sent, as the scheduler reconciles the servers with the registry. The lists of a server are cut to a limit in every
update, and a server that goes takes its sections with it. The samples that the network rates start from
(`_net_prev`), the series of the GPUs (`_gpu_history`) and the statuses the hub has sent (`_sent_status`) only ever
grow: names, indexes and servers that are gone stay. In a run in which they make no more than a sample does, and
samples are of registered servers, memory is bounded (`entries_le`).
-/

namespace SshGpuConsole.Telemetry
open Shell (Text)
open Registry (ServerRecord)

/-! ### The history of a GPU -/

/-- What the history does with the values of its points: `round(x, 2)`, and `float`. -/
class Plotted (φ : Type) where
  rounded : φ → φ
  ofInt : ℤ → φ

/-- `history_points`: the lengths that `BoundedHistory` takes. -/
abbrev HistoryPoints := {n : ℕ // 1 ≤ n ∧ n ≤ 10000}

/-- `_bounded_points`, given what `int` makes of the setting. -/
def boundedPoints (parsed : Option ℤ) : HistoryPoints :=
  ⟨(max 1 (min (parsed.getD 300) 10000)).toNat, by omega⟩

structure BoundedHistory (maxlen : HistoryPoints) (φ : Type) where
  points : List (Stamp × φ)
  bounded : points.length ≤ maxlen

structure GpuSeries (maxlen : HistoryPoints) (φ : Type) where
  utilization : BoundedHistory maxlen φ
  vram : BoundedHistory maxlen φ
  temperature : BoundedHistory maxlen φ
  power : BoundedHistory maxlen φ

section
variable {φ : Type} {maxlen : HistoryPoints}

namespace BoundedHistory

def empty : BoundedHistory maxlen φ := ⟨[], Nat.zero_le _⟩

/-- `append`: the oldest point makes room. -/
def append [Plotted φ] (history : BoundedHistory maxlen φ) (ts : Stamp) (value : φ) : BoundedHistory maxlen φ where
  points := (history.points ++ [(ts, Plotted.rounded value)]).drop (history.points.length + 1 - maxlen)
  bounded := by
    rw [List.length_drop, List.length_append, List.length_singleton]
    omega

/-- `append` of a value that a GPU may not tell. -/
def extend [Plotted φ] (history : BoundedHistory maxlen φ) (ts : Stamp) : Option φ → BoundedHistory maxlen φ
  | some value => history.append ts value
  | none => history

end BoundedHistory

namespace GpuSeries

def empty : GpuSeries maxlen φ := ⟨.empty, .empty, .empty, .empty⟩

/-- The points of one sample of the GPU. -/
def record [Plotted φ] (series : GpuSeries maxlen φ) (now : Stamp) (gpu : GpuInfo φ) : GpuSeries maxlen φ where
  utilization := series.utilization.extend now gpu.utilization_percent
  vram := series.vram.extend now (gpu.vram_used_b.map Plotted.ofInt)
  temperature := series.temperature.extend now gpu.temperature_c
  power := series.power.extend now gpu.power_watts

/-- The points of the series. -/
def entries (series : GpuSeries maxlen φ) : ℕ :=
  series.utilization.points.length + series.vram.points.length + series.temperature.points.length +
    series.power.points.length

lemma entries_le (series : GpuSeries maxlen φ) : series.entries ≤ 4 * maxlen := by
  have hutilization := series.utilization.bounded
  have hvram := series.vram.bounded
  have htemperature := series.temperature.bounded
  have hpower := series.power.bounded
  unfold entries
  omega

end GpuSeries

/-- The loop of `_record_gpu_history` over the GPUs of a sample. -/
def recordGpus [Plotted φ] (now : Stamp) (by_index : Dict ℤ (GpuSeries maxlen φ)) (gpus : List (GpuInfo φ)) :
    Dict ℤ (GpuSeries maxlen φ) :=
  gpus.foldl (fun by_index gpu => by_index.set gpu.index (((by_index.get gpu.index).getD .empty).record now gpu)) by_index

/-! ### The machine -/

/-- The servers of the registry. -/
abbrev Records (φ : Type) := Table fun r : ServerRecord φ => r.server_id

/-- The telemetry state with its GPU history, the statuses the hub has sent, the servers of the registry, and those
that the scheduler has a worker for. -/
structure Memory (maxlen : HistoryPoints) (φ : Type) where
  state : TelemetryState φ := {}
  gpu_history : Dict Text (Dict ℤ (GpuSeries maxlen φ)) := []
  sent_status : Dict Text ServerStatus := []
  registered : Records φ := .empty
  managed : Records φ := .empty

inductive MemoryEvent (φ : Type) where
  /-- An update of the telemetry state. -/
  | operation (op : Operation φ)
  /-- Servers were added to the registry, changed or removed. -/
  | reconcile (records : Records φ)
  /-- The hub looks for changes. -/
  | push

/-- `_identity` -/
def identity (record : ServerRecord φ) : Text × Option Text × Option ℤ := (record.ssh_host, record.username, record.port)

namespace Memory
variable (m : Memory maxlen φ)

/-- `clear` -/
def clear (server_id : Text) : Memory maxlen φ :=
  { m with state := m.state.clear server_id, gpu_history := m.gpu_history.pop server_id }

/-- `prune` -/
def prune (keep : List Text) : Memory maxlen φ :=
  (m.state.serverIds.filter fun server_id => !keep.contains server_id).foldl clear m

/-- `_record_gpu_history` -/
def recordGpuHistory [Plotted φ] (server_id : Text) (gpus : List (GpuInfo φ)) (now : Stamp) : Memory maxlen φ :=
  { m with
    gpu_history := m.gpu_history.set server_id (recordGpus now ((m.gpu_history.get server_id).getD []) gpus) }

/-- The operations of the telemetry state, with what they do to the GPU history. -/
def apply [Measure φ] [Plotted φ] (digits : Digits) : Operation φ → Memory maxlen φ
  | .clear server_id => m.clear server_id
  | .prune keep => m.prune keep
  | .updateGpus server_id gpus now =>
    { m with state := m.state.updateGpus server_id gpus now }.recordGpuHistory server_id (gpus.take 64) now
  | op => { m with state := m.state.apply digits op }

/-- `reconcile`: a server that moved to another host starts anew, and servers that are not enabled are dropped. -/
def reconcile (records : Records φ) : Memory maxlen φ :=
  let enabled := records.keep ServerRecord.enabled
  let moved := enabled.rows.filter fun record =>
    (m.managed.get record.server_id).any fun previous => identity previous ≠ identity record
  let m := (moved.map ServerRecord.server_id).foldl clear m
  { m.prune (enabled.rows.map ServerRecord.server_id) with registered := records, managed := enabled }

/-- One server in the status loop of `_push_changes`. -/
def sendStatus (state : TelemetryState φ) (sent_status : Dict Text ServerStatus) (server_id : Text) :
    Dict Text ServerStatus :=
  if sent_status.get server_id = some (state.statusOf server_id) then sent_status
  else sent_status.set server_id (state.statusOf server_id)

/-- `_push_changes`, as far as it keeps anything. -/
def push : Memory maxlen φ := { m with sent_status := m.state.serverIds.foldl (sendStatus m.state) m.sent_status }

def step [Measure φ] [Plotted φ] (digits : Digits) (m : Memory maxlen φ) : MemoryEvent φ → Memory maxlen φ
  | .operation op => m.apply digits op
  | .reconcile records => m.reconcile records
  | .push => m.push

end Memory

/-! ### Counting -/

/-- What a server keeps. -/
def ServerState.entries (state : ServerState φ) : ℕ :=
  1 + state.gpus.length + state.gpu_processes.length + state.proc_meta.length + state.pid_users.length +
    state.processes.length + (state.processes.map fun (p : ProcessInfo φ) => p.gpu_indexes.length).sum +
    state.storage.length + state.network.length + state.errors.length + state.updated_at.length

/-- What is kept in memory. -/
def Memory.entries (m : Memory maxlen φ) : ℕ :=
  (m.state.servers.rows.map ServerState.entries).sum + (m.state.net_prev.map fun x => 1 + x.2.length).sum +
    (m.gpu_history.map fun x => 1 + (x.2.map fun y => 1 + y.2.entries).sum).sum + m.sent_status.length

/-- What the limits leave to a server. -/
def serverLimit (maxlen : HistoryPoints) : ℕ :=
  (1 + 64 + 4096 + 2048 + 2048 + 250 + 250 * 4096 + 512 + 512 + 8 + 8) + (1 + 512) + (1 + 64 * (1 + 4 * maxlen)) + 1

/-! ### The sections of a server -/

/-- The sections that are stamped. -/
def stampedSections : List Text :=
  ["cpu", "memory", "system", "gpu", "gpu_processes", "processes", "storage", "network"].map String.toList

/-- The lists and maps of a server are within their limits. -/
structure Sized (state : ServerState φ) : Prop where
  gpus : state.gpus.length ≤ 64
  gpu_processes : state.gpu_processes.length ≤ 4096
  proc_meta : state.proc_meta.length ≤ 2048
  pid_users : state.pid_users.length ≤ 2048
  processes : state.processes.length ≤ 250
  storage : state.storage.length ≤ 512
  network : state.network.length ≤ 512
  errors : (state.errors.map Prod.fst).Nodup ∧ ∀ x ∈ state.errors, x.1 ∈ TelemetryState.allowedSections
  updated_at : (state.updated_at.map Prod.fst).Nodup ∧ ∀ x ∈ state.updated_at, x.1 ∈ stampedSections

/-- And so are the GPU indexes of its processes. -/
structure Within (state : ServerState φ) : Prop extends Sized state where
  indexes : ∀ p ∈ state.processes, p.gpu_indexes.length ≤ 4096

/-- A dictionary whose keys are among eight sections has at most eight entries. -/
lemma length_le_of_sections {ν : Type} {d : Dict Text ν} {sections : List Text} (hn : (d.map Prod.fst).Nodup)
    (h : ∀ x ∈ d, x.1 ∈ sections) : d.length ≤ sections.length := by
  have hsub : d.map Prod.fst ⊆ sections := by
    intro k hk
    obtain ⟨x, hx, rfl⟩ := List.mem_map.1 hk
    exact h x hx
  have hlength := (hn.subperm hsub).length_le
  rwa [List.length_map] at hlength

lemma Within.entries_le {state : ServerState φ} (h : Within state) :
    state.entries ≤ 1 + 64 + 4096 + 2048 + 2048 + 250 + 250 * 4096 + 512 + 512 + 8 + 8 := by
  have hindexes : (state.processes.map fun (p : ProcessInfo φ) => p.gpu_indexes.length).sum ≤ 250 * 4096 := by
    calc (state.processes.map fun (p : ProcessInfo φ) => p.gpu_indexes.length).sum
        ≤ (state.processes.map fun (p : ProcessInfo φ) => p.gpu_indexes.length).length • 4096 := by
          refine List.sum_le_card_nsmul _ _ fun n hn => ?_
          obtain ⟨p, hp, rfl⟩ := List.mem_map.1 hn
          exact h.indexes p hp
      _ = state.processes.length * 4096 := by rw [List.length_map, smul_eq_mul]
      _ ≤ 250 * 4096 := Nat.mul_le_mul_right 4096 h.processes
  have herrors : state.errors.length ≤ 8 := length_le_of_sections h.errors.1 h.errors.2
  have hstamps : state.updated_at.length ≤ 8 := length_le_of_sections h.updated_at.1 h.updated_at.2
  have hgpus := h.gpus
  have hgpu_processes := h.gpu_processes
  have hmeta := h.proc_meta
  have husers := h.pid_users
  have hprocesses := h.processes
  have hstorage := h.storage
  have hnetwork := h.network
  unfold ServerState.entries
  omega

lemma within_fresh (server_id : Text) : Within ({ server_id } : ServerState φ) where
  gpus := Nat.zero_le _
  gpu_processes := Nat.zero_le _
  proc_meta := Nat.zero_le _
  pid_users := Nat.zero_le _
  processes := Nat.zero_le _
  indexes := List.forall_mem_nil _
  storage := Nat.zero_le _
  network := Nat.zero_le _
  errors := ⟨List.nodup_nil, List.forall_mem_nil _⟩
  updated_at := ⟨List.nodup_nil, List.forall_mem_nil _⟩

lemma Sized.stamp {state : ServerState φ} (h : Sized state) {name : String} (hname : name.toList ∈ stampedSections)
    (now : Stamp) : Sized (state.stamp name now) := by
  refine { h with updated_at := ⟨Dict.nodup_keys_set h.updated_at.1 _ _, fun x hx => ?_⟩ }
  rcases Dict.mem_set hx with rfl | hx
  · exact hname
  · exact h.updated_at.2 x hx

lemma Within.stamp {state : ServerState φ} (h : Within state) {name : String} (hname : name.toList ∈ stampedSections)
    (now : Stamp) : Within (state.stamp name now) :=
  ⟨h.toSized.stamp hname now, h.indexes⟩

/-- The correlation counts and sorts, and keeps how much there is. -/
lemma Sized.correlate {state : ServerState φ} (h : Sized state) : Within state.correlate where
  gpus := (List.length_map _).trans_le h.gpus
  gpu_processes := by
    show (List.insertionSort _ _).length ≤ 4096
    rw [List.length_insertionSort, List.length_map]
    exact h.gpu_processes
  proc_meta := h.proc_meta
  pid_users := h.pid_users
  processes := (List.length_map _).trans_le h.processes
  indexes := by
    intro p hp
    obtain ⟨q, -, rfl⟩ := List.mem_map.1 hp
    show (List.insertionSort _ _).length ≤ 4096
    rw [List.length_insertionSort]
    calc (List.dedup _).length ≤ _ := (List.dedup_sublist _).length_le
      _ ≤ _ := List.length_filterMap_le _ _
      _ ≤ _ := List.length_filter_le _ _
      _ = state.gpu_processes.length := List.length_map _
      _ ≤ 4096 := h.gpu_processes
  storage := h.storage
  network := h.network
  errors := h.errors
  updated_at := h.updated_at

/-! ### What an operation writes -/

/-- The server that an operation gets, which makes one that is not there. -/
def Operation.target : Operation φ → Option Text
  | .setStatus server_id _ _ _ | .updateCpu server_id _ _ | .updateMemory server_id _ _ | .updateSystem server_id _ _
  | .updateGpus server_id _ _ | .updatePidUsers server_id _ | .updateGpuProcesses server_id _ _
  | .updateProcesses server_id _ _ | .updateStorage server_id _ _ | .updateNetwork server_id _ _ _ => some server_id
  | .setError server_id name _ | .clearError server_id name =>
    if TelemetryState.allowedSections.contains name then some server_id else none
  | .setListener _ | .clear _ | .prune _ => none

/-- The servers are those there were, and one that is within its limits. -/
structure Wrote (σ σ' : TelemetryState φ) (server_id : Text) : Prop where
  rows : ∀ state ∈ σ'.servers.rows, (state.server_id = server_id ∧ Within state) ∨ state ∈ σ.servers.rows
  has : ∀ s, σ'.servers.Has s ↔ s = server_id ∨ σ.servers.Has s

section
variable {σ : TelemetryState φ} {server_id : Text} {state : ServerState φ}

lemma wrote_put (hid : state.server_id = server_id) (hw : Within state) : Wrote σ (σ.put state) server_id where
  rows b hb := by
    rcases Table.mem_set hb with rfl | hb
    · exact .inl ⟨hid, hw⟩
    · exact .inr hb
  has s := by
    rw [← hid]
    exact Table.has_set

lemma wrote_bump (hid : state.server_id = server_id) (hw : Within state) (fleet : Bool) :
    Wrote σ ((σ.put state).bump server_id fleet) server_id := by
  subst hid
  have hservers := servers_put_bump σ state fleet
  constructor
  · intro b hb
    rw [hservers] at hb
    rcases Table.mem_set hb with rfl | hb
    · exact .inl ⟨rfl, { hw with }⟩
    · exact (wrote_put (σ := σ) rfl hw).rows b hb
  · intro s
    rw [hservers, Table.has_set, Table.has_set]
    exact or_self_left

lemma within_serverState (h : ∀ state ∈ σ.servers.rows, Within state) (server_id : Text) :
    Within (σ.serverState server_id) := by
  unfold TelemetryState.serverState
  cases hs : σ.servers.get server_id with
  | none => exact within_fresh server_id
  | some state => exact h state (Table.get_eq_some.1 hs).1

lemma length_of_mapM {α β : Type} {f : α → Option β} {as : List α} {bs : List β} (h : as.mapM f = some bs) :
    bs.length = as.length := by
  induction as generalizing bs with
  | nil =>
    cases h
    rfl
  | cons a as ih =>
    rw [List.mapM_cons] at h
    obtain ⟨b, -, hrest⟩ := Option.bind_eq_some_iff.1 h
    obtain ⟨bs', hbs', hcons⟩ := Option.bind_eq_some_iff.1 hrest
    cases hcons
    exact congrArg Nat.succ (ih hbs')

lemma length_pidUsers {isDigit : Text → Bool} {toInt : Text → Option ℤ} {pid_users : List (Text × Text)}
    {users : Dict ℤ Text} (h : TelemetryState.pidUsers isDigit toInt pid_users = some users) : users.length ≤ 2048 := by
  obtain ⟨items, hitems, rfl⟩ := Option.map_eq_some_iff.1 h
  calc (Dict.ofItems items).length ≤ items.length := Dict.length_ofItems_le items
    _ = ((pid_users.take 2048).filter fun x => isDigit x.1).length := length_of_mapM hitems
    _ ≤ (pid_users.take 2048).length := List.length_filter_le _ _
    _ ≤ 2048 := List.length_take_le 2048 pid_users

lemma length_sampleInterfaces [Measure φ] (monotonic : φ) (interfaces : List (NetworkInterfaceInfo φ)) :
    ∀ previous, (TelemetryState.sampleInterfaces monotonic previous interfaces).1.length = interfaces.length := by
  induction interfaces with
  | nil => exact fun previous => rfl
  | cons info interfaces ih => exact fun previous => congrArg Nat.succ (ih _)

lemma wrote_setError (h : ∀ state ∈ σ.servers.rows, Within state) {name code : Text}
    (hname : TelemetryState.allowedSections.contains name = true) :
    Wrote σ (σ.setError server_id name code) server_id := by
  have hw := within_serverState h server_id
  have hid := serverState_id σ server_id
  unfold TelemetryState.setError
  rw [hname, if_neg (show ¬(!true) = true from Bool.false_ne_true)]
  dsimp only
  split
  · apply wrote_bump
    · exact hid
    · refine { hw with errors := ⟨Dict.nodup_keys_pop hw.errors.1 name, fun x hx => ?_⟩ }
      exact hw.errors.2 x (Dict.mem_pop.1 hx).1
  · split
    · apply wrote_bump
      · exact hid
      · refine { hw with errors := ⟨Dict.nodup_keys_set hw.errors.1 name _, fun x hx => ?_⟩ }
        rcases Dict.mem_set hx with rfl | hx
        · exact List.contains_iff_mem.1 hname
        · exact hw.errors.2 x hx
    · exact wrote_put hid hw

lemma net_prev_setError (σ : TelemetryState φ) (server_id name code : Text) :
    (σ.setError server_id name code).net_prev = σ.net_prev := by
  unfold TelemetryState.setError
  dsimp only
  split
  · rfl
  · split
    · rfl
    · split
      · rfl
      · rfl

variable [Measure φ] {digits : Digits}

/-- Every operation that gets a server writes it within its limits. -/
lemma wrote_apply (h : ∀ state ∈ σ.servers.rows, Within state) {op : Operation φ} (ht : op.target = some server_id) :
    Wrote σ (σ.apply digits op) server_id := by
  have hw := within_serverState h server_id
  have hid := serverState_id σ server_id
  cases op with
  | setStatus s status detail now =>
    cases ht
    show Wrote σ (σ.setStatus server_id status detail now) server_id
    unfold TelemetryState.setStatus
    dsimp only
    split
    · exact wrote_put hid hw
    · apply wrote_bump
      · exact hid
      · exact { hw with }
  | updateCpu s cpu now =>
    cases ht
    apply wrote_bump
    · exact hid
    · apply Within.stamp
      · exact { hw with }
      · decide
  | updateMemory s memory now =>
    cases ht
    apply wrote_bump
    · exact hid
    · apply Within.stamp
      · exact { hw with }
      · decide
  | updateSystem s system now =>
    cases ht
    have hstamp : Within ({ σ.serverState server_id with system := some system }.stamp "system" now) := by
      apply Within.stamp
      · exact { hw with }
      · decide
    apply wrote_bump
    · exact hid
    · exact { hstamp with }
  | updateGpus s gpus now =>
    cases ht
    apply wrote_bump
    · exact hid
    · apply Sized.correlate
      apply Sized.stamp
      · have hlength : ((gpus.take 64).map TelemetryState.normalizeGpu).length ≤ 64 :=
          (List.length_map _).trans_le (List.length_take_le 64 gpus)
        exact { hw with gpus := hlength }
      · decide
  | updatePidUsers s pid_users =>
    cases ht
    show Wrote σ (σ.updatePidUsers digits.isDigit digits.toInt server_id pid_users) server_id
    unfold TelemetryState.updatePidUsers
    dsimp only
    split
    · exact wrote_put hid hw
    · rename_i users husers
      apply wrote_put
      · exact hid
      · apply Sized.correlate
        exact { hw with pid_users := length_pidUsers husers }
  | updateGpuProcesses s processes now =>
    cases ht
    apply wrote_bump
    · exact hid
    · apply Sized.correlate
      apply Sized.stamp
      · exact { hw with gpu_processes := List.length_take_le 4096 processes }
      · decide
  | updateProcesses s processes now =>
    cases ht
    apply wrote_bump
    · exact hid
    · apply Sized.correlate
      apply Sized.stamp
      · refine { hw with processes := List.length_take_le 250 processes, proc_meta := ?_ }
        calc (Dict.ofItems _).length ≤ _ := Dict.length_ofItems_le _
          _ = (processes.take 2048).length := List.length_map _
          _ ≤ 2048 := List.length_take_le 2048 processes
      · decide
  | updateStorage s mounts now =>
    cases ht
    apply wrote_bump
    · exact hid
    · apply Within.stamp
      · exact { hw with storage := List.length_take_le 512 mounts }
      · decide
  | updateNetwork s interfaces monotonic now =>
    cases ht
    let σ' : TelemetryState φ := { σ with net_prev := σ.net_prev.set server_id (TelemetryState.sampleInterfaces
      monotonic ((σ.net_prev.get server_id).getD []) (interfaces.take 512)).2 }
    have hwrote : Wrote σ' (σ.updateNetwork server_id interfaces monotonic now) server_id := by
      apply wrote_bump
      · exact hid
      · apply Within.stamp
        · refine { hw with network := ?_ }
          exact (length_sampleInterfaces monotonic _ _).trans_le (List.length_take_le 512 interfaces)
        · decide
    exact ⟨hwrote.rows, hwrote.has⟩
  | setError s name code =>
    obtain ⟨hname, hs⟩ := Option.ite_none_right_eq_some.1 ht
    cases hs
    exact wrote_setError h hname
  | clearError s name =>
    obtain ⟨hname, hs⟩ := Option.ite_none_right_eq_some.1 ht
    cases hs
    exact wrote_setError h hname
  | setListener set => cases ht
  | clear s => cases ht
  | prune keep => cases ht

/-- Only the network samples write the samples of the rates. -/
lemma net_prev_apply {op : Operation φ} (ht : op.target = some server_id)
    (h : ∀ s interfaces monotonic now, op ≠ .updateNetwork s interfaces monotonic now) :
    (σ.apply digits op).net_prev = σ.net_prev := by
  cases op with
  | setStatus s status detail now =>
    show (σ.setStatus s status detail now).net_prev = σ.net_prev
    unfold TelemetryState.setStatus
    dsimp only
    split
    · rfl
    · rfl
  | updatePidUsers s pid_users =>
    show (σ.updatePidUsers digits.isDigit digits.toInt s pid_users).net_prev = σ.net_prev
    unfold TelemetryState.updatePidUsers
    dsimp only
    split
    · rfl
    · rfl
  | setError s name code => exact net_prev_setError σ s name code
  | clearError s name => exact net_prev_setError σ s name []
  | updateNetwork s interfaces monotonic now => exact absurd rfl (h s interfaces monotonic now)
  | setListener set => cases ht
  | clear s => cases ht
  | prune keep => cases ht
  | _ => rfl

end

/-! ### The maps that grow -/

section
variable {κ ν : Type}

/-- The keys of a map after a sample: those the sample does not have, and those it sets. -/
def keysAfter [DecidableEq κ] (kept sampled counted : List κ) : List κ :=
  kept.filter (fun k => !sampled.contains k) ++ counted.dedup

lemma length_le_keysAfter [DecidableEq κ] {d : Dict κ ν} {kept sampled counted : List κ} (hn : (d.map Prod.fst).Nodup)
    (h : ∀ k ∈ d.map Prod.fst, (k ∈ kept ∧ k ∉ sampled) ∨ k ∈ counted) :
    d.length ≤ (keysAfter kept sampled counted).length := by
  have hsub : d.map Prod.fst ⊆ keysAfter kept sampled counted := by
    intro k hk
    rcases h k hk with ⟨hkept, hgone⟩ | hcounted
    · exact List.mem_append_left _ (List.mem_filter.2 ⟨hkept, by simpa using hgone⟩)
    · exact List.mem_append_right _ (List.mem_dedup.2 hcounted)
  have hlength := (hn.subperm hsub).length_le
  rwa [List.length_map] at hlength

/-- A map of maps under known keys, each within a limit. -/
structure Nested (known : Text → Prop) (limit : ℕ) (d : Dict Text (Dict κ ν)) : Prop where
  nodup : (d.map Prod.fst).Nodup
  known : ∀ x ∈ d, known x.1
  inner : ∀ x ∈ d, (x.2.map Prod.fst).Nodup ∧ x.2.length ≤ limit

variable {known known' : Text → Prop} {limit : ℕ} {d : Dict Text (Dict κ ν)}

lemma nested_nil : Nested known limit ([] : Dict Text (Dict κ ν)) :=
  ⟨List.nodup_nil, List.forall_mem_nil _, List.forall_mem_nil _⟩

lemma Nested.imp (h : Nested known limit d) (himp : ∀ s, known s → known' s) : Nested known' limit d :=
  ⟨h.nodup, fun x hx => himp x.1 (h.known x hx), h.inner⟩

lemma Nested.set (h : Nested known limit d) {s : Text} (hs : known s) {v : Dict κ ν} (hn : (v.map Prod.fst).Nodup)
    (hl : v.length ≤ limit) : Nested known limit (d.set s v) where
  nodup := Dict.nodup_keys_set h.nodup s v
  known x hx := by
    rcases Dict.mem_set hx with rfl | hx
    · exact hs
    · exact h.known x hx
  inner x hx := by
    rcases Dict.mem_set hx with rfl | hx
    · exact ⟨hn, hl⟩
    · exact h.inner x hx

lemma Nested.pop (h : Nested known limit d) (s : Text) : Nested (fun t => known t ∧ t ≠ s) limit (d.pop s) where
  nodup := Dict.nodup_keys_pop h.nodup s
  known x hx := ⟨h.known x (Dict.mem_pop.1 hx).1, (Dict.mem_pop.1 hx).2⟩
  inner x hx := h.inner x (Dict.mem_pop.1 hx).1

lemma Nested.nodup_get (h : Nested known limit d) (s : Text) : (((d.get s).getD []).map Prod.fst).Nodup := by
  cases hs : d.get s with
  | none => exact List.nodup_nil
  | some v => exact (h.inner (s, v) (Dict.mem_of_get hs)).1

end

/-- Both counters of the interface are known. -/
def NetworkInterfaceInfo.counted (info : NetworkInterfaceInfo φ) : Bool := info.rx_total_b.isSome && info.tx_total_b.isSome

/-- An interface that is sampled is kept when it is counted, and else forgotten. -/
lemma sampleInterface_keys [Measure φ] (monotonic : φ) {previous : Dict Text (φ × ℤ × ℤ)}
    (hn : (previous.map Prod.fst).Nodup) (info : NetworkInterfaceInfo φ) :
    let next := (TelemetryState.sampleInterface monotonic previous info).2
    (next.map Prod.fst).Nodup ∧ ∀ k ∈ next.map Prod.fst,
      (k ∈ previous.map Prod.fst ∧ k ≠ info.name) ∨ (k = info.name ∧ info.counted = true) := by
  unfold TelemetryState.sampleInterface NetworkInterfaceInfo.counted
  split
  · rename_i rx tx hrx htx
    refine ⟨Dict.nodup_keys_set hn _ _, fun k hk => ?_⟩
    rw [hrx, htx]
    by_cases hname : k = info.name
    · exact .inr ⟨hname, rfl⟩
    · exact .inl ⟨(Dict.mem_keys_set.1 hk).resolve_left hname, hname⟩
  · refine ⟨Dict.nodup_keys_pop hn _, fun k hk => ?_⟩
    obtain ⟨x, hx, rfl⟩ := List.mem_map.1 hk
    exact .inl ⟨List.mem_map_of_mem (Dict.mem_pop.1 hx).1, (Dict.mem_pop.1 hx).2⟩

lemma sampleInterfaces_keys [Measure φ] (monotonic : φ) (interfaces : List (NetworkInterfaceInfo φ)) :
    ∀ {previous : Dict Text (φ × ℤ × ℤ)}, (previous.map Prod.fst).Nodup →
    let next := (TelemetryState.sampleInterfaces monotonic previous interfaces).2
    (next.map Prod.fst).Nodup ∧ ∀ k ∈ next.map Prod.fst,
      (k ∈ previous.map Prod.fst ∧ k ∉ interfaces.map NetworkInterfaceInfo.name) ∨
        k ∈ (interfaces.filter NetworkInterfaceInfo.counted).map NetworkInterfaceInfo.name := by
  induction interfaces with
  | nil => exact fun hn => ⟨hn, fun k hk => .inl ⟨hk, List.not_mem_nil⟩⟩
  | cons info interfaces ih =>
    intro previous hn
    obtain ⟨hfirst, hkeys⟩ := sampleInterface_keys monotonic hn info
    obtain ⟨hnodup, hrest⟩ := ih hfirst
    refine ⟨hnodup, fun k hk => ?_⟩
    rcases hrest k hk with ⟨hk, hgone⟩ | hcounted
    · rcases hkeys k hk with ⟨hk, hname⟩ | ⟨rfl, hcounted⟩
      · exact .inl ⟨hk, fun hm => (List.mem_cons.1 hm).elim hname hgone⟩
      · exact .inr (List.mem_map_of_mem (List.mem_filter.2 ⟨List.mem_cons_self, hcounted⟩))
    · obtain ⟨other, hother, rfl⟩ := List.mem_map.1 hcounted
      obtain ⟨hmem, hyes⟩ := List.mem_filter.1 hother
      exact .inr (List.mem_map_of_mem (List.mem_filter.2 ⟨List.mem_cons_of_mem info hmem, hyes⟩))

lemma recordGpus_keys [Plotted φ] (now : Stamp) (gpus : List (GpuInfo φ)) :
    ∀ {by_index : Dict ℤ (GpuSeries maxlen φ)}, (by_index.map Prod.fst).Nodup →
    ((recordGpus now by_index gpus).map Prod.fst).Nodup ∧ ∀ k ∈ (recordGpus now by_index gpus).map Prod.fst,
      k ∈ by_index.map Prod.fst ∨ k ∈ gpus.map GpuInfo.index := by
  induction gpus with
  | nil => exact fun hn => ⟨hn, fun k hk => .inl hk⟩
  | cons gpu gpus ih =>
    intro by_index hn
    obtain ⟨hnodup, hkeys⟩ := ih (Dict.nodup_keys_set hn gpu.index
      (((by_index.get gpu.index).getD .empty).record now gpu))
    refine ⟨hnodup, fun k hk => ?_⟩
    rcases hkeys k hk with hk | hk
    · rcases Dict.mem_keys_set.1 hk with rfl | hk
      · exact .inr List.mem_cons_self
      · exact .inl hk
    · exact .inr (List.mem_cons_of_mem gpu.index hk)

lemma sendStatus_keys (state : TelemetryState φ) (ids : List Text) :
    ∀ {sent_status : Dict Text ServerStatus}, (sent_status.map Prod.fst).Nodup →
    let next := ids.foldl (Memory.sendStatus state) sent_status
    (next.map Prod.fst).Nodup ∧ ∀ k ∈ next.map Prod.fst, k ∈ sent_status.map Prod.fst ∨ k ∈ ids := by
  induction ids with
  | nil => exact fun hn => ⟨hn, fun k hk => .inl hk⟩
  | cons id ids ih =>
    intro sent_status hn
    have hfirst : ((Memory.sendStatus state sent_status id).map Prod.fst).Nodup ∧
        ∀ k ∈ (Memory.sendStatus state sent_status id).map Prod.fst, k = id ∨ k ∈ sent_status.map Prod.fst := by
      unfold Memory.sendStatus
      split
      · exact ⟨hn, fun k hk => .inr hk⟩
      · exact ⟨Dict.nodup_keys_set hn _ _, fun k hk => Dict.mem_keys_set.1 hk⟩
    obtain ⟨hnodup, hkeys⟩ := ih hfirst.1
    refine ⟨hnodup, fun k hk => ?_⟩
    rcases hkeys k hk with hk | hk
    · rcases hfirst.2 k hk with rfl | hk
      · exact .inr List.mem_cons_self
      · exact .inl hk
    · exact .inr (List.mem_cons_of_mem id hk)

/-! ### Runs -/

/-- The condition under which an event keeps memory bounded: samples are of registered servers, and what a sample
leaves in the maps that grow is no more than one sample may have. -/
def Contained (m : Memory maxlen φ) : MemoryEvent φ → Prop
  | .operation op => (∀ s, op.target = some s → m.registered.Has s) ∧
    match op with
    | .updateNetwork s interfaces _ _ =>
      (keysAfter (((m.state.net_prev.get s).getD []).map Prod.fst)
        ((interfaces.take 512).map NetworkInterfaceInfo.name)
        (((interfaces.take 512).filter NetworkInterfaceInfo.counted).map NetworkInterfaceInfo.name)).length ≤ 512
    | .updateGpus s gpus _ =>
      (keysAfter (((m.gpu_history.get s).getD []).map Prod.fst) ((gpus.take 64).map GpuInfo.index)
        ((gpus.take 64).map GpuInfo.index)).length ≤ 64
    | _ => True
  | .reconcile records => m.sent_status.length ≤ records.rows.length
  | .push => (keysAfter (m.sent_status.map Prod.fst) m.state.serverIds m.state.serverIds).length ≤ m.registered.rows.length

/-- Everything is within its limit, and of a server. -/
structure Bounded (m : Memory maxlen φ) : Prop where
  servers : ∀ s, m.state.servers.Has s → m.registered.Has s
  within : ∀ state ∈ m.state.servers.rows, Within state
  net_prev : Nested m.state.servers.Has 512 m.state.net_prev
  gpu_history : Nested m.state.servers.Has 64 m.gpu_history
  statuses : (m.sent_status.map Prod.fst).Nodup
  sent_status : m.sent_status.length ≤ m.registered.rows.length

lemma bounded_init : Bounded ({} : Memory maxlen φ) where
  servers _ h := h
  within := List.forall_mem_nil _
  net_prev := nested_nil
  gpu_history := nested_nil
  statuses := List.nodup_nil
  sent_status := Nat.zero_le _

section
variable {m : Memory maxlen φ}

lemma Bounded.wrote (h : Bounded m) {σ' : TelemetryState φ} {server_id : Text} (hs : m.registered.Has server_id)
    (hw : Wrote m.state σ' server_id) (hnet : Nested σ'.servers.Has 512 σ'.net_prev)
    {gpu_history : Dict Text (Dict ℤ (GpuSeries maxlen φ))} (hgpu : Nested σ'.servers.Has 64 gpu_history) :
    Bounded { m with state := σ', gpu_history } where
  servers s hhas := by
    rcases (hw.has s).1 hhas with rfl | hhas
    · exact hs
    · exact h.servers s hhas
  within state hstate := by
    rcases hw.rows state hstate with ⟨-, hwithin⟩ | hstate
    · exact hwithin
    · exact h.within state hstate
  net_prev := hnet
  gpu_history := hgpu
  statuses := h.statuses
  sent_status := h.sent_status

lemma Bounded.clear (h : Bounded m) (server_id : Text) : Bounded (m.clear server_id) where
  servers s hs := h.servers s (Table.has_erase.1 hs).1
  within state hstate := h.within state (Table.mem_erase.1 hstate).1
  net_prev := (h.net_prev.pop server_id).imp fun _ => Table.has_erase.2
  gpu_history := (h.gpu_history.pop server_id).imp fun _ => Table.has_erase.2
  statuses := h.statuses
  sent_status := h.sent_status

/-- Clearing servers one after the other. -/
lemma Bounded.clears (gone : List Text) : ∀ {m : Memory maxlen φ}, Bounded m →
    Bounded (gone.foldl Memory.clear m) ∧ (gone.foldl Memory.clear m).sent_status = m.sent_status ∧
      ∀ s, (gone.foldl Memory.clear m).state.servers.Has s → m.state.servers.Has s ∧ s ∉ gone := by
  induction gone with
  | nil => exact fun h => ⟨h, rfl, fun s hs => ⟨hs, List.not_mem_nil⟩⟩
  | cons server_id gone ih =>
    intro m h
    obtain ⟨hrest, hsent, hhas⟩ := ih (h.clear server_id)
    refine ⟨hrest, hsent, fun s hs => ?_⟩
    obtain ⟨herased, hgone⟩ := hhas s hs
    obtain ⟨hthere, hne⟩ := Table.has_erase.1 herased
    exact ⟨hthere, fun hm => (List.mem_cons.1 hm).elim hne hgone⟩

/-- Only servers that are kept stay. -/
lemma Bounded.prune (h : Bounded m) (keep : List Text) :
    Bounded (m.prune keep) ∧ (m.prune keep).sent_status = m.sent_status ∧
      ∀ s, (m.prune keep).state.servers.Has s → s ∈ keep := by
  obtain ⟨hrest, hsent, hhas⟩ := Bounded.clears (m.state.serverIds.filter fun s => !keep.contains s) h
  refine ⟨hrest, hsent, fun s hs => ?_⟩
  obtain ⟨hthere, hgone⟩ := hhas s hs
  by_contra hkeep
  exact hgone (List.mem_filter.2 ⟨hthere, by simpa using hkeep⟩)

lemma Bounded.reconcile (h : Bounded m) {records : Records φ} (hc : m.sent_status.length ≤ records.rows.length) :
    Bounded (m.reconcile records) := by
  unfold Memory.reconcile
  obtain ⟨hmoved, hsent, -⟩ := h.clears (((records.keep ServerRecord.enabled).rows.filter fun record =>
    (m.managed.get record.server_id).any fun previous => identity previous ≠ identity record).map ServerRecord.server_id)
  obtain ⟨hpruned, hsent', hkept⟩ := hmoved.prune ((records.keep ServerRecord.enabled).rows.map ServerRecord.server_id)
  refine ⟨fun s hs => ?_, hpruned.within, hpruned.net_prev, hpruned.gpu_history, hpruned.statuses, ?_⟩
  · obtain ⟨record, hrecord, rfl⟩ := List.mem_map.1 (hkept s hs)
    exact Table.has_of_mem (Table.mem_keep.1 hrecord).1
  · exact (congrArg List.length (hsent'.trans hsent)).trans_le hc

lemma Bounded.push (h : Bounded m)
    (hc : (keysAfter (m.sent_status.map Prod.fst) m.state.serverIds m.state.serverIds).length ≤ m.registered.rows.length) :
    Bounded m.push := by
  obtain ⟨hnodup, hkeys⟩ := sendStatus_keys m.state m.state.serverIds h.statuses
  refine { h with statuses := hnodup, sent_status := ?_ }
  refine (length_le_keysAfter hnodup fun k hk => ?_).trans hc
  by_cases hid : k ∈ m.state.serverIds
  · exact .inr hid
  · exact .inl ⟨(hkeys k hk).resolve_right hid, hid⟩

/-- An error of a section that there is not is dropped. -/
lemma Bounded.setError (h : Bounded m) {server_id name code : Text}
    (hc : ∀ s, (Operation.setError server_id name code : Operation φ).target = some s → m.registered.Has s) :
    Bounded { m with state := m.state.setError server_id name code } := by
  by_cases hname : TelemetryState.allowedSections.contains name = true
  · have hw : Wrote m.state (m.state.setError server_id name code) server_id := wrote_setError h.within hname
    have himp : ∀ s, m.state.servers.Has s → (m.state.setError server_id name code).servers.Has s :=
      fun s hs => (hw.has s).2 (.inr hs)
    refine h.wrote (hc server_id (if_pos hname)) hw ?_ (h.gpu_history.imp himp)
    rw [net_prev_setError]
    exact h.net_prev.imp himp
  · have hsame : m.state.setError server_id name code = m.state := by
      unfold TelemetryState.setError
      rw [eq_false_of_ne_true hname]
      rfl
    rw [hsame]
    exact h

variable [Measure φ] [Plotted φ] {digits : Digits}

lemma Bounded.operation (h : Bounded m) {op : Operation φ} (hc : Contained m (.operation op)) :
    Bounded (m.apply digits op) := by
  obtain ⟨hregistered, hlimit⟩ := hc
  -- an operation that writes one server and none of the maps that grow
  have hplain : ∀ server_id, op.target = some server_id →
      (∀ (s) interfaces monotonic now, op ≠ .updateNetwork s interfaces monotonic now) →
      Bounded { m with state := m.state.apply digits op } := by
    intro server_id ht hne
    have hw : Wrote m.state (m.state.apply digits op) server_id := wrote_apply h.within ht
    have himp : ∀ s, m.state.servers.Has s → (m.state.apply digits op).servers.Has s :=
      fun s hs => (hw.has s).2 (.inr hs)
    refine h.wrote (hregistered server_id ht) hw ?_ (h.gpu_history.imp himp)
    rw [net_prev_apply ht hne]
    exact h.net_prev.imp himp
  cases op with
  | setListener set => exact ⟨h.servers, h.within, h.net_prev, h.gpu_history, h.statuses, h.sent_status⟩
  | clear server_id => exact h.clear server_id
  | prune keep => exact (h.prune keep).1
  | updateNetwork server_id interfaces monotonic now =>
    have hw : Wrote m.state (m.state.apply digits (.updateNetwork server_id interfaces monotonic now)) server_id :=
      wrote_apply h.within rfl
    have himp : ∀ s, m.state.servers.Has s → (m.state.updateNetwork server_id interfaces monotonic now).servers.Has s :=
      fun s hs => (hw.has s).2 (.inr hs)
    refine h.wrote (hregistered server_id rfl) hw ?_ (h.gpu_history.imp himp)
    obtain ⟨hnodup, hkeys⟩ := sampleInterfaces_keys monotonic (interfaces.take 512) (h.net_prev.nodup_get server_id)
    exact (h.net_prev.imp himp).set ((hw.has server_id).2 (.inl rfl)) hnodup
      ((length_le_keysAfter hnodup hkeys).trans hlimit)
  | updateGpus server_id gpus now =>
    have hw : Wrote m.state (m.state.apply digits (.updateGpus server_id gpus now)) server_id := wrote_apply h.within rfl
    have himp : ∀ s, m.state.servers.Has s → (m.state.updateGpus server_id gpus now).servers.Has s :=
      fun s hs => (hw.has s).2 (.inr hs)
    refine h.wrote (hregistered server_id rfl) hw (h.net_prev.imp himp) ?_
    obtain ⟨hnodup, hkeys⟩ := recordGpus_keys now (gpus.take 64) (h.gpu_history.nodup_get server_id)
    refine (h.gpu_history.imp himp).set ((hw.has server_id).2 (.inl rfl)) hnodup
      ((length_le_keysAfter hnodup fun k hk => ?_).trans hlimit)
    by_cases hindex : k ∈ (gpus.take 64).map GpuInfo.index
    · exact .inr hindex
    · exact .inl ⟨(hkeys k hk).resolve_right hindex, hindex⟩
  | setError server_id name code => exact h.setError hregistered
  | clearError server_id name => exact h.setError hregistered
  | _ => exact hplain _ rfl fun _ _ _ _ he => by cases he

/-- What every event keeps under its condition. -/
lemma Bounded.step (h : Bounded m) {e : MemoryEvent φ} (hc : Contained m e) : Bounded (m.step digits e) := by
  cases e with
  | operation op => exact h.operation hc
  | reconcile records => exact h.reconcile hc
  | push => exact h.push hc

end

/-- What is bounded counts so much. -/
lemma Bounded.entries_le {m : Memory maxlen φ} (h : Bounded m) :
    m.entries ≤ serverLimit maxlen * m.registered.rows.length := by
  let ids := m.registered.rows.map ServerRecord.server_id
  have hids : ids.length = m.registered.rows.length := List.length_map _
  have hservers : (m.state.servers.rows.map ServerState.entries).sum ≤
      (1 + 64 + 4096 + 2048 + 2048 + 250 + 250 * 4096 + 512 + 512 + 8 + 8) * ids.length :=
    Table.sum_le_of_keys m.state.servers.nodup (fun state hstate => h.servers _ (Table.has_of_mem hstate))
      fun state hstate => (h.within state hstate).entries_le
  have hnet : (m.state.net_prev.map fun x => 1 + x.2.length).sum ≤ (1 + 512) * ids.length :=
    Table.sum_le_of_keys h.net_prev.nodup (fun x hx => h.servers _ (h.net_prev.known x hx))
      fun x hx => Nat.add_le_add_left (h.net_prev.inner x hx).2 1
  have hgpu : (m.gpu_history.map fun x => 1 + (x.2.map fun y => 1 + y.2.entries).sum).sum ≤
      (1 + 64 * (1 + 4 * maxlen)) * ids.length := by
    refine Table.sum_le_of_keys h.gpu_history.nodup (fun x hx => h.servers _ (h.gpu_history.known x hx)) fun x hx => ?_
    refine Nat.add_le_add_left ?_ 1
    calc (x.2.map fun y => 1 + y.2.entries).sum ≤ (x.2.map fun y => 1 + y.2.entries).length • (1 + 4 * (maxlen : ℕ)) := by
          refine List.sum_le_card_nsmul _ _ fun n hn => ?_
          obtain ⟨y, -, rfl⟩ := List.mem_map.1 hn
          exact Nat.add_le_add_left y.2.entries_le 1
      _ = x.2.length * (1 + 4 * maxlen) := by rw [List.length_map, smul_eq_mul]
      _ ≤ 64 * (1 + 4 * maxlen) := Nat.mul_le_mul_right _ (h.gpu_history.inner x hx).2
  have hsent := h.sent_status
  rw [hids] at hservers hnet hgpu
  unfold Memory.entries serverLimit
  rw [Nat.add_mul _ 1, Nat.add_mul _ (1 + 64 * (1 + 4 * (maxlen : ℕ))), Nat.add_mul _ (1 + 512)]
  omega

/-- In every run whose events keep to the condition, memory is bounded by the limits times the servers there are. -/
theorem memory_bounded [Measure φ] [Plotted φ] (digits : Digits) (es : List (MemoryEvent φ))
    (h : Machine.Along (Memory.step digits) Contained ({} : Memory maxlen φ) es) :
    Machine.Always (Memory.step digits) (fun (m : Memory maxlen φ) =>
      m.entries ≤ serverLimit maxlen * m.registered.rows.length) {} es :=
  (Machine.always_of_along bounded_init (fun _ _ hm hc => hm.step hc) h).imp fun _ hm => hm.entries_le

end

instance : Plotted ℚ where
  rounded x := (round (x * 100) : ℤ) / 100
  ofInt n := n

/-- The registry has the server. -/
def oneRecord : Records ℚ := .ofRows [gpuRecord]

/-- A server whose containers change has the same interface under two names, and goes. -/
def replacedInterface : List (MemoryEvent ℚ) :=
  [.reconcile oneRecord,
    .operation (.updateNetwork ['s'] [{ name := ['a'], rx_total_b := some 1, tx_total_b := some 1 }] 0 1),
    .operation (.updateGpus ['s'] [{ index := 0, utilization_percent := some 7 }] 2),
    .push,
    .operation (.updateNetwork ['s'] [{ name := ['b'], rx_total_b := some 1, tx_total_b := some 1 }] 1 3),
    .operation (.clear ['s'])]

theorem memory_bounded_replaced_interface :
    Machine.Always (Memory.step asciiDigits) (fun (m : Memory (boundedPoints (some 300)) ℚ) =>
      m.entries ≤ serverLimit (boundedPoints (some 300)) * m.registered.rows.length) {} replacedInterface := by
  apply memory_bounded
  have hregistered : ∀ s, some ['s'] = some s → oneRecord.Has s := by
    intro s hs
    cases hs
    decide
  have hnone : ∀ s : Text, none = some s → oneRecord.Has s := fun s hs => by cases hs
  refine ⟨?_, ⟨hregistered, ?_⟩, ⟨hregistered, ?_⟩, ?_, ⟨hregistered, ?_⟩, ⟨hnone, trivial⟩, trivial⟩
  all_goals
    show (_ : ℕ) ≤ _
    decide +kernel

/-- Samples of a server under ever new interface names. -/
def changingNames (n : ℕ) : List (MemoryEvent ℚ) :=
  .reconcile oneRecord :: (List.range n).map fun i => .operation (.updateNetwork ['s']
    [{ name := List.replicate i 'v', rx_total_b := some 0, tx_total_b := some 0 }] 0 0)

/-- Every name stays. -/
lemma after_changingNames (maxlen : HistoryPoints) (n : ℕ) :
    let m := Machine.after (Memory.step asciiDigits) ({} : Memory maxlen ℚ) (changingNames n)
    m.registered.rows.length = 1 ∧
      ((m.state.net_prev.get ['s']).getD []).map Prod.fst = (List.range n).map fun i => List.replicate i 'v' := by
  induction n with
  | zero => exact ⟨rfl, rfl⟩
  | succ n ih =>
    obtain ⟨hregistered, hkeys⟩ := ih
    have hrun : changingNames (n + 1) = changingNames n ++ [.operation (.updateNetwork ['s']
        [{ name := List.replicate n 'v', rx_total_b := some 0, tx_total_b := some 0 }] 0 0)] := by
      unfold changingNames
      rw [List.range_succ, List.map_append, List.cons_append]
      rfl
    rw [hrun, Machine.after_append]
    generalize Machine.after (Memory.step asciiDigits) ({} : Memory maxlen ℚ) (changingNames n) = m at hregistered hkeys ⊢
    refine ⟨hregistered, ?_⟩
    have hfresh : List.replicate n 'v' ∉ ((m.state.net_prev.get ['s']).getD []).map Prod.fst := by
      rw [hkeys, List.mem_map]
      rintro ⟨i, hi, hname⟩
      have hlength := congrArg List.length hname
      rw [List.length_replicate, List.length_replicate] at hlength
      exact absurd (List.mem_range.1 hi) (by omega)
    show (((m.state.net_prev.set ['s'] (((m.state.net_prev.get ['s']).getD []).set (List.replicate n 'v') (0, 0, 0))).get
      ['s']).getD []).map Prod.fst = _
    rw [Dict.get_set_self, Option.getD_some, Dict.keys_set_of_not_mem _ hfresh, hkeys, List.range_succ, List.map_append]
    rfl

/-- No number of entries for each server bounds the memory of every run. -/
theorem memory_unbounded : ¬∃ limit, ∀ es, Machine.Always (Memory.step asciiDigits)
    (fun (m : Memory (boundedPoints (some 300)) ℚ) => m.entries ≤ limit * m.registered.rows.length) {} es := by
  rintro ⟨limit, h⟩
  obtain ⟨hregistered, hkeys⟩ := after_changingNames (boundedPoints (some 300)) (limit + 1)
  have hle := (h (changingNames (limit + 1))).last
  generalize Machine.after (Memory.step asciiDigits) ({} : Memory (boundedPoints (some 300)) ℚ)
    (changingNames (limit + 1)) = m at hregistered hkeys hle
  rw [hregistered, mul_one] at hle
  have hlength := congrArg List.length hkeys
  rw [List.length_map, List.length_map, List.length_range] at hlength
  cases hget : m.state.net_prev.get ['s'] with
  | none =>
    rw [hget] at hlength
    exact Nat.succ_ne_zero limit hlength.symm
  | some kept =>
    rw [hget, Option.getD_some] at hlength
    have hmem : 1 + kept.length ∈ m.state.net_prev.map fun x => 1 + x.2.length :=
      List.mem_map.2 ⟨(['s'], kept), Dict.mem_of_get hget, rfl⟩
    have hsum := List.single_le_sum (fun _ _ => Nat.zero_le _) _ hmem
    unfold Memory.entries at hle
    omega

end SshGpuConsole.Telemetry
