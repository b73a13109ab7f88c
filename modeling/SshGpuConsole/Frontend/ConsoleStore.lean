import SshGpuConsole.Lib.Runs
import SshGpuConsole.Frontend.SyncPlan
import SshGpuConsole.Telemetry.State

/-!
# Telemetry in the console store

Snapshots reach the store (`consoleStore.ts`) over REST, as answers to requests that may overtake each other, and in
the frames of the websocket. `ingestSnapshot` takes whatever comes last; only the GPU history asks whether the
snapshot is the one it pushed last. So the console goes forward in time exactly when the snapshots of each server
come in the order of their `generated_at`, those without one show no GPU twice, and no failure is overtaken by a
newer snapshot (`forward_iff`).

Timestamps are of any linear order `τ`, numbers of any type `ν` with the test `Number.isFinite`.
-/

namespace SshGpuConsole.Frontend
open Shell (Text)
open Telemetry (ServerStatus)

def HISTORY_LIMIT : ℕ := 120

structure GpuInfo (ν : Type) where
  index : ℤ
  utilization_percent : Option ν := none
  vram_percent : Option ν := none
  temperature_c : Option ν := none
  power_watts : Option ν := none

structure ServerSnapshot (τ ν : Type) where
  server_id : Text
  status : ServerStatus
  generated_at : Option τ
  gpus : List (GpuInfo ν) := []

structure FleetEntry where
  server_id : Text
  status : ServerStatus

structure FleetSummary where
  servers : List FleetEntry := []

structure GpuHistorySeries (ν : Type) where
  utilization : List ν := []
  vram : List ν := []
  temperature : List ν := []
  power : List ν := []

/-- The telemetry of `ConsoleState`. -/
structure ConsoleState (τ ν : Type) where
  fleetSummary : Option FleetSummary := none
  fleetLoading : Bool := false
  fleetError : Option Text := none
  statuses : Text → Option ServerStatus := fun _ => none
  snapshots : Text → Option (ServerSnapshot τ ν) := fun _ => none
  snapshotErrors : Text → Option Text := fun _ => none
  history : Text → Option (ℤ → Option (GpuHistorySeries ν)) := fun _ => none
  historyTimestamps : Text → Option τ := fun _ => none

inductive ServerToClientFrame (τ ν : Type)
  | hello (server_ids : List Text)
  | fleet (summary : FleetSummary)
  | server (server_id : Text) (snapshot : ServerSnapshot τ ν)
  | status (server_id : Text) (status : ServerStatus)

variable {τ ν : Type} (isFinite : ν → Bool)

/-! ### The history -/

def pushSeries (previous : List ν) : Option ν → List ν
  | none => previous
  | some value =>
    -- never fabricate
    if isFinite value = false then previous
    else
      (if HISTORY_LIMIT ≤ previous.length then previous.drop (previous.length - HISTORY_LIMIT + 1) else previous) ++
        [value]

/-- The loop body of `pushHistoryInto`. -/
def pushGpu (serverHistory : ℤ → Option (GpuHistorySeries ν)) (gpu : GpuInfo ν) :
    ℤ → Option (GpuHistorySeries ν) :=
  let previous := (serverHistory gpu.index).getD {}
  Function.update serverHistory gpu.index <| some
    { utilization := pushSeries isFinite previous.utilization gpu.utilization_percent
      vram := pushSeries isFinite previous.vram gpu.vram_percent
      temperature := pushSeries isFinite previous.temperature gpu.temperature_c
      power := pushSeries isFinite previous.power gpu.power_watts }

def pushHistoryInto (history : Text → Option (ℤ → Option (GpuHistorySeries ν))) (snapshot : ServerSnapshot τ ν) :
    Text → Option (ℤ → Option (GpuHistorySeries ν)) :=
  let serverHistory := (history snapshot.server_id).getD fun _ => none
  Function.update history snapshot.server_id (some (snapshot.gpus.foldl (pushGpu isFinite) serverHistory))

/-! ### The actions -/

namespace ConsoleState
variable [DecidableEq τ] (s : ConsoleState τ ν)

/-- The snapshot is the one whose samples were pushed last. -/
def duplicate (snapshot : ServerSnapshot τ ν) : Bool :=
  match snapshot.generated_at, s.historyTimestamps snapshot.server_id with
  | some generated_at, some lastAt => lastAt = generated_at
  | _, _ => false

def ingestSnapshot (snapshot : ServerSnapshot τ ν) : ConsoleState τ ν :=
  let s' : ConsoleState τ ν := { s with
    snapshots := Function.update s.snapshots snapshot.server_id (some snapshot)
    statuses := Function.update s.statuses snapshot.server_id (some snapshot.status)
    snapshotErrors := Function.update s.snapshotErrors snapshot.server_id none }
  if s.duplicate snapshot then s'
  else { s' with
    history := pushHistoryInto isFinite s.history snapshot
    historyTimestamps := match snapshot.generated_at with
      | some generated_at => Function.update s.historyTimestamps snapshot.server_id (some generated_at)
      | none => s.historyTimestamps }

/-- `loadSnapshot`, when its request fails. -/
def snapshotFailed (serverId : Text) (cause : Cause) : ConsoleState τ ν :=
  { s with snapshotErrors := Function.update s.snapshotErrors serverId (some (errorMessage cause)) }

/-- What a fleet summary says of the statuses. -/
def withStatuses (summary : FleetSummary) : Text → Option ServerStatus :=
  summary.servers.foldl (fun statuses entry => Function.update statuses entry.server_id (some entry.status)) s.statuses

/-- A fleet summary, over REST or in a frame. -/
def fleetArrived (summary : FleetSummary) : ConsoleState τ ν :=
  { s with
    fleetSummary := some summary
    fleetLoading := false
    fleetError := none
    statuses := s.withStatuses summary }

/-- `loadFleet`, up to its request. -/
def loadFleet : ConsoleState τ ν := { s with fleetLoading := true, fleetError := none }

/-- `loadFleet`, when its request fails. -/
def fleetFailed (cause : Cause) : ConsoleState τ ν :=
  { s with fleetError := some (errorMessage cause), fleetLoading := false }

/-- A frame of type `status`. -/
def statusArrived (server_id : Text) (status : ServerStatus) : ConsoleState τ ν :=
  { s with
    statuses := Function.update s.statuses server_id (some status)
    snapshots := match s.snapshots server_id with
      | some snapshot => Function.update s.snapshots server_id (some { snapshot with status })
      | none => s.snapshots
    fleetSummary := s.fleetSummary.map fun fleet =>
      { servers := fleet.servers.map fun entry => if entry.server_id = server_id then { entry with status } else entry } }

def applyRealtimeFrame : ServerToClientFrame τ ν → ConsoleState τ ν
  | .hello _ => s
  | .fleet summary => s.fleetArrived summary
  | .server _ snapshot => s.ingestSnapshot isFinite snapshot
  | .status server_id status => s.statusArrived server_id status

end ConsoleState

/-! ### What the history shows -/

inductive Metric
  | utilization
  | vram
  | temperature
  | power
  deriving DecidableEq, Repr

def Metric.all : List Metric := [.utilization, .vram, .temperature, .power]

lemma Metric.mem_all (m : Metric) : m ∈ Metric.all := by
  cases m <;> decide

def GpuInfo.metric (gpu : GpuInfo ν) : Metric → Option ν
  | .utilization => gpu.utilization_percent
  | .vram => gpu.vram_percent
  | .temperature => gpu.temperature_c
  | .power => gpu.power_watts

def GpuHistorySeries.get (series : GpuHistorySeries ν) : Metric → List ν
  | .utilization => series.utilization
  | .vram => series.vram
  | .temperature => series.temperature
  | .power => series.power

def seriesOf (serverHistory : ℤ → Option (GpuHistorySeries ν)) (index : ℤ) (m : Metric) : List ν :=
  ((serverHistory index).getD {}).get m

/-- The series the store keeps of a GPU, empty when it keeps none. -/
def ConsoleState.series (s : ConsoleState τ ν) (server_id : Text) : ℤ → Metric → List ν :=
  seriesOf ((s.history server_id).getD fun _ => none)

/-- What one row of a snapshot has for a series. -/
def GpuInfo.sample (gpu : GpuInfo ν) (index : ℤ) (m : Metric) : List ν :=
  if gpu.index = index then ((gpu.metric m).filter isFinite).toList else []

/-- What a snapshot has for a series. -/
def ServerSnapshot.samples (snapshot : ServerSnapshot τ ν) (index : ℤ) (m : Metric) : List ν :=
  snapshot.gpus.flatMap fun gpu => gpu.sample isFinite index m

/-- The snapshot has something to show in the history. -/
def ServerSnapshot.contributes (snapshot : ServerSnapshot τ ν) : Bool :=
  snapshot.gpus.any fun gpu => Metric.all.any fun m => ((gpu.metric m).filter isFinite).isSome

/-- What a map makes nothing of can be left out of a list. -/
lemma flatMap_filter_of_nil {α β : Type} {f : α → List β} {p : α → Bool} (h : ∀ x, p x = false → f x = []) (l : List α) :
    (l.filter p).flatMap f = l.flatMap f := by
  induction l with
  | nil => rfl
  | cons x l ih =>
    rw [List.filter_cons, List.flatMap_cons, ← ih]
    cases hx : p x with
    | true => rw [if_pos rfl, List.flatMap_cons]
    | false => rw [if_neg Bool.false_ne_true, h x hx, List.nil_append]

lemma ServerSnapshot.samples_eq_nil {snapshot : ServerSnapshot τ ν} (h : snapshot.contributes isFinite = false)
    (index : ℤ) (m : Metric) : snapshot.samples isFinite index m = [] := by
  apply List.flatMap_eq_nil_iff.2
  intro gpu hgpu
  rw [GpuInfo.sample]
  split
  · have hnone := List.any_eq_false.1 (Bool.eq_false_iff.2 (List.any_eq_false.1 h gpu hgpu)) m m.mem_all
    rw [Option.not_isSome_iff_eq_none.1 hnone]
    rfl
  · rfl

lemma rtake_rtake (l : List ν) {m n : ℕ} (h : m ≤ n) : (l.rtake n).rtake m = l.rtake m := by
  simp only [List.rtake_eq_reverse_take_reverse, List.reverse_reverse, List.take_take, Nat.min_eq_left h]

/-- A finite value takes the place of what is beyond the limit. -/
lemma pushSeries_some (previous : List ν) {value : ν} (h : isFinite value = true) :
    pushSeries isFinite previous (some value) = (previous ++ [value]).rtake HISTORY_LIMIT := by
  have hrtake : (previous ++ [value]).rtake HISTORY_LIMIT = previous.rtake (HISTORY_LIMIT - 1) ++ [value] :=
    List.rtake_concat_succ previous 119 value
  rw [hrtake, pushSeries, if_neg (by rw [h]; exact Bool.true_eq_false_eq_False.elim), List.rtake]
  split
  · rename_i hlen
    have hdrop : previous.length - HISTORY_LIMIT + 1 = previous.length - (HISTORY_LIMIT - 1) := by
      unfold HISTORY_LIMIT at hlen ⊢
      omega
    rw [hdrop]
  · rename_i hlen
    have hdrop : previous.length - (HISTORY_LIMIT - 1) = 0 := by
      unfold HISTORY_LIMIT at hlen ⊢
      omega
    rw [hdrop, List.drop_zero]

/-- Pushing keeps the last `HISTORY_LIMIT` values. -/
lemma pushSeries_rtake (l : List ν) (value : Option ν) :
    pushSeries isFinite (l.rtake HISTORY_LIMIT) value =
      (l ++ (value.filter isFinite).toList).rtake HISTORY_LIMIT := by
  cases value with
  | none => exact congrArg (List.rtake · HISTORY_LIMIT) (List.append_nil l).symm
  | some value =>
    cases hfin : isFinite value with
    | false =>
      rw [Option.filter_some, hfin, pushSeries, if_pos hfin]
      exact congrArg (List.rtake · HISTORY_LIMIT) (List.append_nil l).symm
    | true =>
      rw [pushSeries_some isFinite _ hfin, Option.filter_some, hfin]
      have hlimit : HISTORY_LIMIT = 119 + 1 := rfl
      rw [if_pos rfl, Option.toList_some, hlimit, List.rtake_concat_succ, List.rtake_concat_succ,
        rtake_rtake l (Nat.le_succ 119)]

lemma pushGpu_get (serverHistory : ℤ → Option (GpuHistorySeries ν)) (gpu : GpuInfo ν) (m : Metric) :
    seriesOf (pushGpu isFinite serverHistory gpu) gpu.index m =
      pushSeries isFinite (seriesOf serverHistory gpu.index m) (gpu.metric m) := by
  rw [seriesOf, pushGpu, Function.update_self]
  cases m <;> rfl

lemma pushGpu_get_of_ne (serverHistory : ℤ → Option (GpuHistorySeries ν)) {gpu : GpuInfo ν} {index : ℤ}
    (h : gpu.index ≠ index) (m : Metric) :
    seriesOf (pushGpu isFinite serverHistory gpu) index m = seriesOf serverHistory index m := by
  rw [seriesOf, pushGpu, Function.update_of_ne (Ne.symm h)]
  rfl

/-- The rows of a snapshot go into the series one after the other. -/
lemma foldl_pushGpu (gpus : List (GpuInfo ν)) {serverHistory : ℤ → Option (GpuHistorySeries ν)} {index : ℤ}
    {m : Metric} {l : List ν} (h : seriesOf serverHistory index m = l.rtake HISTORY_LIMIT) :
    seriesOf (gpus.foldl (pushGpu isFinite) serverHistory) index m =
      (l ++ gpus.flatMap fun gpu => gpu.sample isFinite index m).rtake HISTORY_LIMIT := by
  induction gpus generalizing serverHistory l with
  | nil => exact h.trans (congrArg (List.rtake · HISTORY_LIMIT) (List.append_nil l).symm)
  | cons gpu gpus ih =>
    have hgpu : seriesOf (pushGpu isFinite serverHistory gpu) index m =
        (l ++ gpu.sample isFinite index m).rtake HISTORY_LIMIT := by
      rw [GpuInfo.sample]
      split
      · rename_i heq
        subst heq
        rw [pushGpu_get, h]
        exact pushSeries_rtake isFinite l (gpu.metric m)
      · rename_i hne
        rw [pushGpu_get_of_ne isFinite serverHistory hne, h, List.append_nil]
    rw [List.foldl_cons, ih hgpu, List.flatMap_cons, List.append_assoc]

/-! ### The store among its requests and frames -/

/-- When a snapshot was taken; one without a time is from before the first sample. -/
def ServerSnapshot.stamp (snapshot : ServerSnapshot τ ν) : WithBot τ :=
  match snapshot.generated_at with
  | some generated_at => generated_at
  | none => ⊥

inductive ConsoleEvent (τ ν : Type)
  | loadSnapshot (serverId : Text)
  | loaded (request : ℕ) (snapshot : ServerSnapshot τ ν)
  | failed (request : ℕ) (cause : Cause)
  | frame (frame : ServerToClientFrame τ ν)
  | loadFleet
  | fleetLoaded (summary : FleetSummary)
  | fleetFailed (cause : Cause)

structure ConsoleWorld (τ ν : Type) where
  store : ConsoleState τ ν := {}
  /-- The servers of the calls of `loadSnapshot` so far. -/
  requests : List Text := []
  /-- The calls that are not answered yet. -/
  pending : List ℕ := []
  /-- The snapshots that went into the history, in their order. -/
  pushed : List (ServerSnapshot τ ν) := []
  /-- The calls below this number are older than the newest snapshot of the server that arrived. -/
  newer : Text → ℕ := fun _ => 0

namespace ConsoleWorld
variable [DecidableEq τ] (w : ConsoleWorld τ ν)

/-- A snapshot arrives that is newer than the calls below `rank`. -/
def ingest (snapshot : ServerSnapshot τ ν) (rank : ℕ) : ConsoleWorld τ ν :=
  { w with
    store := w.store.ingestSnapshot isFinite snapshot
    pushed := if w.store.duplicate snapshot then w.pushed else w.pushed ++ [snapshot]
    newer := Function.update w.newer snapshot.server_id (max (w.newer snapshot.server_id) rank) }

/-- An answer to a call that is not waiting for one is no event. -/
def step : ConsoleEvent τ ν → ConsoleWorld τ ν
  | .loadSnapshot serverId =>
    { w with requests := w.requests ++ [serverId], pending := w.requests.length :: w.pending }
  | .loaded request snapshot =>
    if request ∈ w.pending then
      { w.ingest isFinite snapshot request with pending := w.pending.filter (· ≠ request) }
    else w
  | .failed request cause =>
    if request ∈ w.pending then
      match w.requests[request]? with
      | some serverId =>
        { w with store := w.store.snapshotFailed serverId cause, pending := w.pending.filter (· ≠ request) }
      | none => w
    else w
  | .frame (.server _ snapshot) => w.ingest isFinite snapshot w.requests.length
  | .frame frame => { w with store := w.store.applyRealtimeFrame isFinite frame }
  | .loadFleet => { w with store := w.store.loadFleet }
  | .fleetLoaded summary => { w with store := w.store.fleetArrived summary }
  | .fleetFailed cause => { w with store := w.store.fleetFailed cause }

/-- The time of the snapshot shown for a server. -/
def generatedAt (s : Text) : WithBot τ := (w.store.snapshots s).elim ⊥ ServerSnapshot.stamp

/-- What the history of a server is made of. -/
def contributions (s : Text) : List (ServerSnapshot τ ν) :=
  w.pushed.filter fun snapshot => snapshot.server_id = s && snapshot.contributes isFinite

/-- The event takes the telemetry forward in time. -/
structure Forward [LinearOrder τ] (e : ConsoleEvent τ ν) : Prop where
  times : ∀ s, w.generatedAt s ≤ (w.step isFinite e).generatedAt s
  once : ∀ s, ((w.step isFinite e).contributions isFinite s).Pairwise (·.generated_at ≠ ·.generated_at)
  ordered : ∀ s, ((w.step isFinite e).contributions isFinite s).Pairwise (·.stamp ≤ ·.stamp)
  history : ∀ s index m, (w.step isFinite e).store.series s index m =
    (((w.step isFinite e).contributions isFinite s).flatMap (·.samples isFinite index m)).rtake HISTORY_LIMIT
  bounded : ∀ s index m, ((w.step isFinite e).store.series s index m).length ≤ HISTORY_LIMIT
  errors : ∀ s, w.store.snapshotErrors s = none → (w.step isFinite e).store.snapshotErrors s ≠ none →
    ∃ request cause, e = .failed request cause ∧ w.requests[request]? = some s ∧ w.newer s ≤ request

/-- The snapshot is not older than what is shown, and one without a time is the first to show GPUs. -/
def Fresh [LinearOrder τ] (snapshot : ServerSnapshot τ ν) : Prop :=
  w.generatedAt snapshot.server_id ≤ snapshot.stamp ∧
    (snapshot.generated_at = none → snapshot.contributes isFinite = true →
      w.contributions isFinite snapshot.server_id = [])

/-- The event comes in order. -/
def InOrder [LinearOrder τ] : ConsoleEvent τ ν → Prop
  | .loaded request snapshot => request ∈ w.pending → w.Fresh isFinite snapshot
  | .frame (.server _ snapshot) => w.Fresh isFinite snapshot
  -- no newer snapshot of the server has arrived, or there is an error to replace
  | .failed request _ => request ∈ w.pending →
    ∀ s, w.requests[request]? = some s → w.store.snapshotErrors s = none → w.newer s ≤ request
  | _ => True

/-! ### What taking in a snapshot does -/

section
variable {isFinite} {w : ConsoleWorld τ ν} {snapshot : ServerSnapshot τ ν}

lemma generatedAt_ingest_self (rank : ℕ) :
    (w.ingest isFinite snapshot rank).generatedAt snapshot.server_id = snapshot.stamp := by
  have hget : (w.ingest isFinite snapshot rank).store.snapshots snapshot.server_id = some snapshot := by
    rw [ingest, ConsoleState.ingestSnapshot]
    split
    · exact Function.update_self ..
    · exact Function.update_self ..
  rw [generatedAt, hget]
  rfl

lemma generatedAt_ingest_of_ne {s : Text} (h : s ≠ snapshot.server_id) (rank : ℕ) :
    (w.ingest isFinite snapshot rank).generatedAt s = w.generatedAt s := by
  have hget : (w.ingest isFinite snapshot rank).store.snapshots s = w.store.snapshots s := by
    rw [ingest, ConsoleState.ingestSnapshot]
    split
    · exact Function.update_of_ne h ..
    · exact Function.update_of_ne h ..
  rw [generatedAt, hget]
  rfl

lemma ingest_duplicate (isFinite : ν → Bool) (h : w.store.duplicate snapshot = true) (rank : ℕ) :
    (w.ingest isFinite snapshot rank).pushed = w.pushed ∧
      (w.ingest isFinite snapshot rank).store.history = w.store.history ∧
      (w.ingest isFinite snapshot rank).store.historyTimestamps = w.store.historyTimestamps := by
  rw [ingest, ConsoleState.ingestSnapshot, if_pos h, if_pos h]
  exact ⟨rfl, rfl, rfl⟩

lemma ingest_new (isFinite : ν → Bool) (h : w.store.duplicate snapshot = false) (rank : ℕ) :
    (w.ingest isFinite snapshot rank).pushed = w.pushed ++ [snapshot] ∧
      (w.ingest isFinite snapshot rank).store.history = pushHistoryInto isFinite w.store.history snapshot ∧
      (w.ingest isFinite snapshot rank).store.historyTimestamps = match snapshot.generated_at with
        | some generated_at => Function.update w.store.historyTimestamps snapshot.server_id (some generated_at)
        | none => w.store.historyTimestamps := by
  have hnot : ¬w.store.duplicate snapshot = true := Bool.eq_false_iff.1 h
  rw [ingest, ConsoleState.ingestSnapshot, if_neg hnot, if_neg hnot]
  exact ⟨rfl, rfl, rfl⟩

lemma duplicate_iff : w.store.duplicate snapshot = true ↔
    ∃ t, snapshot.generated_at = some t ∧ w.store.historyTimestamps snapshot.server_id = some t := by
  rw [ConsoleState.duplicate]
  cases hsome : snapshot.generated_at with
  | none =>
    constructor
    · intro h
      cases h
    · rintro ⟨t, ht, -⟩
      cases ht
  | some t =>
    cases hlast : w.store.historyTimestamps snapshot.server_id with
    | none =>
      constructor
      · intro h
        cases h
      · rintro ⟨_, -, ht⟩
        cases ht
    | some lastAt =>
      constructor
      · intro h
        exact ⟨t, rfl, congrArg some (of_decide_eq_true h)⟩
      · rintro ⟨t', ht', hlast'⟩
        exact decide_eq_true (Option.some.inj (hlast'.trans ht'.symm))

omit [DecidableEq τ] in
/-- What shows nothing in the history can be left out of it. -/
lemma flatMap_contributions (s : Text) (index : ℤ) (m : Metric) :
    (w.contributions isFinite s).flatMap (·.samples isFinite index m) =
      (w.pushed.filter (·.server_id = s)).flatMap (·.samples isFinite index m) := by
  have hfilter : w.contributions isFinite s =
      (w.pushed.filter (·.server_id = s)).filter (·.contributes isFinite) := by
    rw [List.filter_filter]
    simp only [contributions, Bool.and_comm]
  rw [hfilter]
  exact flatMap_filter_of_nil (fun snapshot hc => ServerSnapshot.samples_eq_nil isFinite hc index m) _

lemma contributions_ingest_of_ne {s : Text} (hs : s ≠ snapshot.server_id) (rank : ℕ) :
    (w.ingest isFinite snapshot rank).contributions isFinite s = w.contributions isFinite s := by
  rw [contributions, contributions]
  cases hdup : w.store.duplicate snapshot with
  | true => rw [(ingest_duplicate isFinite hdup rank).1]
  | false =>
    rw [(ingest_new isFinite hdup rank).1, List.filter_append,
      List.filter_cons_of_neg (by simp [Ne.symm hs]), List.filter_nil, List.append_nil]

/-- What a snapshot of the server contributes is the snapshot itself, unless it is a duplicate. -/
lemma contributions_ingest_self (rank : ℕ) :
    (w.ingest isFinite snapshot rank).contributions isFinite snapshot.server_id =
      w.contributions isFinite snapshot.server_id ++
        if w.store.duplicate snapshot = false ∧ snapshot.contributes isFinite = true then [snapshot] else [] := by
  rw [contributions, contributions]
  cases hdup : w.store.duplicate snapshot with
  | true =>
    rw [(ingest_duplicate isFinite hdup rank).1, if_neg (by simp), List.append_nil]
  | false =>
    rw [(ingest_new isFinite hdup rank).1, List.filter_append]
    cases hc : snapshot.contributes isFinite with
    | true => rw [List.filter_cons_of_pos (by simp [hc]), List.filter_nil, if_pos ⟨rfl, rfl⟩]
    | false => rw [List.filter_cons_of_neg (by simp [hc]), List.filter_nil, if_neg (by simp)]

lemma snapshotErrors_ingest (rank : ℕ) {s : Text} (hnone : w.store.snapshotErrors s = none) :
    (w.ingest isFinite snapshot rank).store.snapshotErrors s = none := by
  have hget : (w.ingest isFinite snapshot rank).store.snapshotErrors =
      Function.update w.store.snapshotErrors snapshot.server_id none := by
    rw [ConsoleWorld.ingest, ConsoleState.ingestSnapshot]
    split
    · rfl
    · rfl
  rw [hget]
  by_cases hs : s = snapshot.server_id
  · rw [hs, Function.update_self]
  · rw [Function.update_of_ne hs, hnone]

omit [DecidableEq τ] in
lemma generatedAt_statusArrived (server_id : Text) (status : ServerStatus) (s : Text) :
    ({ w with store := w.store.statusArrived server_id status } : ConsoleWorld τ ν).generatedAt s =
      w.generatedAt s := by
  rw [generatedAt, generatedAt, ConsoleState.statusArrived]
  cases hget : w.store.snapshots server_id with
  | none => rfl
  | some snapshot =>
    dsimp only
    by_cases hs : s = server_id
    · subst hs
      rw [Function.update_self, hget]
      rfl
    · rw [Function.update_of_ne hs]

end

/-! ### What the events in order keep -/

section
variable [LinearOrder τ]

structure Inv : Prop where
  history : ∀ s index m, w.store.series s index m =
    ((w.pushed.filter (·.server_id = s)).flatMap (·.samples isFinite index m)).rtake HISTORY_LIMIT
  stamped : ∀ s, (w.store.historyTimestamps s).elim ⊥ ((↑) : τ → WithBot τ) = w.generatedAt s
  below : ∀ snapshot ∈ w.pushed, snapshot.stamp ≤ w.generatedAt snapshot.server_id
  increasing : ∀ s, (w.contributions isFinite s).Pairwise (·.stamp < ·.stamp)

variable {isFinite} {w w' : ConsoleWorld τ ν} {snapshot : ServerSnapshot τ ν}

omit [DecidableEq τ] in
lemma Inv.initial : ({} : ConsoleWorld τ ν).Inv isFinite := by
  refine ⟨fun s index m => ?_, fun s => rfl, fun snapshot h => ?_, fun s => ?_⟩
  · rw [List.filter_nil, List.flatMap_nil, List.rtake_nil]
    cases m <;> rfl
  · cases h
  · exact List.Pairwise.nil

omit [DecidableEq τ] in
/-- What keeps the history and the times keeps the invariant. -/
lemma Inv.of_eq (h : w.Inv isFinite) (hpushed : w'.pushed = w.pushed)
    (hhistory : w'.store.history = w.store.history)
    (htimestamps : w'.store.historyTimestamps = w.store.historyTimestamps)
    (htimes : ∀ s, w'.generatedAt s = w.generatedAt s) : w'.Inv isFinite := by
  refine ⟨fun s index m => ?_, fun s => ?_, fun snapshot hs => ?_, fun s => ?_⟩
  · rw [ConsoleState.series, hhistory, hpushed]
    exact h.history s index m
  · rw [htimestamps, htimes]
    exact h.stamped s
  · rw [htimes]
    exact h.below snapshot (hpushed ▸ hs)
  · rw [contributions, hpushed]
    exact h.increasing s

/-- A snapshot of the time shown is the one pushed last. -/
lemma Inv.lt_of_new (h : w.Inv isFinite) (hle : w.generatedAt snapshot.server_id ≤ snapshot.stamp)
    (hnew : w.store.duplicate snapshot = false) {t : τ} (ht : snapshot.generated_at = some t) :
    w.generatedAt snapshot.server_id < snapshot.stamp := by
  apply lt_of_le_of_ne hle
  intro heq
  have hstamp : snapshot.stamp = t := by rw [ServerSnapshot.stamp, ht]
  have hlast : w.store.historyTimestamps snapshot.server_id = some t := by
    have hstamped := h.stamped snapshot.server_id
    rw [heq, hstamp] at hstamped
    cases hget : w.store.historyTimestamps snapshot.server_id with
    | none =>
      rw [hget] at hstamped
      exact absurd hstamped WithBot.bot_ne_coe
    | some lastAt =>
      rw [hget] at hstamped
      exact congrArg some (WithBot.coe_injective hstamped)
  exact absurd (duplicate_iff.2 ⟨t, ht, hlast⟩) (Bool.eq_false_iff.1 hnew)

lemma Inv.ingest_history (h : w.Inv isFinite) (rank : ℕ) (s : Text) (index : ℤ) (m : Metric) :
    (w.ingest isFinite snapshot rank).store.series s index m =
      (((w.ingest isFinite snapshot rank).pushed.filter (·.server_id = s)).flatMap
        (·.samples isFinite index m)).rtake HISTORY_LIMIT := by
  cases hdup : w.store.duplicate snapshot with
  | true =>
    obtain ⟨hpushed, hhistory, -⟩ := ingest_duplicate isFinite hdup rank
    rw [ConsoleState.series, hhistory, hpushed]
    exact h.history s index m
  | false =>
    obtain ⟨hpushed, hhistory, -⟩ := ingest_new isFinite hdup rank
    rw [ConsoleState.series, hhistory, hpushed, List.filter_append, List.flatMap_append, pushHistoryInto]
    by_cases hs : s = snapshot.server_id
    · subst hs
      rw [Function.update_self, List.filter_cons_of_pos (by simp), List.filter_nil, List.flatMap_singleton]
      exact foldl_pushGpu isFinite snapshot.gpus (h.history snapshot.server_id index m)
    · rw [Function.update_of_ne hs, List.filter_cons_of_neg (by simpa using Ne.symm hs), List.filter_nil,
        List.flatMap_nil, List.append_nil]
      exact h.history s index m

lemma Inv.ingest_stamped (h : w.Inv isFinite) (hle : w.generatedAt snapshot.server_id ≤ snapshot.stamp) (rank : ℕ)
    (s : Text) : ((w.ingest isFinite snapshot rank).store.historyTimestamps s).elim ⊥ ((↑) : τ → WithBot τ) =
      (w.ingest isFinite snapshot rank).generatedAt s := by
  by_cases hs : s = snapshot.server_id
  · subst hs
    rw [generatedAt_ingest_self]
    cases hdup : w.store.duplicate snapshot with
    | true =>
      obtain ⟨t, ht, hlast⟩ := duplicate_iff.1 hdup
      rw [(ingest_duplicate isFinite hdup rank).2.2, hlast, ServerSnapshot.stamp, ht]
      rfl
    | false =>
      rw [(ingest_new isFinite hdup rank).2.2]
      cases ht : snapshot.generated_at with
      | none =>
        have hbot : snapshot.stamp = ⊥ := by rw [ServerSnapshot.stamp, ht]
        dsimp only
        rw [h.stamped, hbot]
        exact le_bot_iff.1 (hbot ▸ hle)
      | some t =>
        dsimp only
        rw [Function.update_self, ServerSnapshot.stamp, ht]
        rfl
  · rw [generatedAt_ingest_of_ne hs, ← h.stamped s]
    cases hdup : w.store.duplicate snapshot with
    | true => rw [(ingest_duplicate isFinite hdup rank).2.2]
    | false =>
      rw [(ingest_new isFinite hdup rank).2.2]
      cases snapshot.generated_at with
      | none => rfl
      | some t =>
        dsimp only
        rw [Function.update_of_ne hs]

lemma Inv.ingest_below (h : w.Inv isFinite) (hle : w.generatedAt snapshot.server_id ≤ snapshot.stamp) (rank : ℕ)
    {old : ServerSnapshot τ ν} (hold : old ∈ (w.ingest isFinite snapshot rank).pushed) :
    old.stamp ≤ (w.ingest isFinite snapshot rank).generatedAt old.server_id := by
  have hcases : old ∈ w.pushed ∨ old = snapshot := by
    cases hdup : w.store.duplicate snapshot with
    | true => exact .inl ((ingest_duplicate isFinite hdup rank).1 ▸ hold)
    | false =>
      rw [(ingest_new isFinite hdup rank).1] at hold
      exact (List.mem_append.1 hold).imp_right List.mem_singleton.1
  rcases hcases with hmem | rfl
  · by_cases hs : old.server_id = snapshot.server_id
    · have hbelow := h.below old hmem
      rw [hs] at hbelow ⊢
      rw [generatedAt_ingest_self]
      exact hbelow.trans hle
    · rw [generatedAt_ingest_of_ne hs]
      exact h.below old hmem
  · rw [generatedAt_ingest_self]

lemma Inv.ingest_increasing (h : w.Inv isFinite) (hfresh : w.Fresh isFinite snapshot) (rank : ℕ) (s : Text) :
    ((w.ingest isFinite snapshot rank).contributions isFinite s).Pairwise (·.stamp < ·.stamp) := by
  by_cases hs : s = snapshot.server_id
  · subst hs
    rw [contributions_ingest_self]
    split
    · rename_i hnew
      apply List.pairwise_append.2
      refine ⟨h.increasing snapshot.server_id, List.pairwise_singleton _ _, fun old hold new hnew' => ?_⟩
      rw [List.mem_singleton.1 hnew']
      cases ht : snapshot.generated_at with
      | none =>
        rw [hfresh.2 ht hnew.2] at hold
        cases hold
      | some t =>
        obtain ⟨hmem, hserver⟩ := List.mem_filter.1 hold
        have hid : old.server_id = snapshot.server_id := of_decide_eq_true (Bool.and_eq_true_iff.1 hserver).1
        have hbelow := h.below old hmem
        rw [hid] at hbelow
        exact hbelow.trans_lt (h.lt_of_new hfresh.1 hnew.1 ht)
    · rw [List.append_nil]
      exact h.increasing snapshot.server_id
  · rw [contributions_ingest_of_ne hs]
    exact h.increasing s

/-- A fresh snapshot keeps the invariant. -/
lemma Inv.ingest (h : w.Inv isFinite) (hfresh : w.Fresh isFinite snapshot) (rank : ℕ) :
    (w.ingest isFinite snapshot rank).Inv isFinite where
  history := h.ingest_history rank
  stamped := h.ingest_stamped hfresh.1 rank
  below _ hold := h.ingest_below hfresh.1 rank hold
  increasing := h.ingest_increasing hfresh rank

/-! ### The telemetry goes forward exactly while the events come in order -/

/-- What is to show of an event that keeps the invariant. -/
lemma Inv.forward {e : ConsoleEvent τ ν} (h' : (w.step isFinite e).Inv isFinite)
    (htimes : ∀ s, w.generatedAt s ≤ (w.step isFinite e).generatedAt s)
    (herrors : ∀ s, w.store.snapshotErrors s = none → (w.step isFinite e).store.snapshotErrors s ≠ none →
      ∃ request cause, e = .failed request cause ∧ w.requests[request]? = some s ∧ w.newer s ≤ request) :
    w.Forward isFinite e := by
  have hhistory : ∀ s index m, (w.step isFinite e).store.series s index m =
      (((w.step isFinite e).contributions isFinite s).flatMap (·.samples isFinite index m)).rtake HISTORY_LIMIT := by
    intro s index m
    rw [flatMap_contributions]
    exact h'.history s index m
  refine ⟨htimes, fun s => ?_, fun s => ?_, hhistory, fun s index m => ?_, herrors⟩
  · apply (h'.increasing s).imp
    intro a b hlt heq
    rw [ServerSnapshot.stamp, ServerSnapshot.stamp, heq] at hlt
    exact lt_irrefl _ hlt
  · exact (h'.increasing s).imp le_of_lt
  · rw [hhistory, List.rtake, List.length_drop]
    omega

/-- A snapshot that takes the telemetry forward is fresh. -/
lemma Inv.fresh (h : w.Inv isFinite) {rank : ℕ}
    (htimes : w.generatedAt snapshot.server_id ≤
      (w.ingest isFinite snapshot rank).generatedAt snapshot.server_id)
    (honce : ((w.ingest isFinite snapshot rank).contributions isFinite snapshot.server_id).Pairwise
      (·.generated_at ≠ ·.generated_at)) : w.Fresh isFinite snapshot := by
  rw [generatedAt_ingest_self] at htimes
  refine ⟨htimes, fun hnone hcontributes => ?_⟩
  have hnew : w.store.duplicate snapshot = false := by
    rw [ConsoleState.duplicate, hnone]
  rw [contributions_ingest_self, if_pos ⟨hnew, hcontributes⟩] at honce
  apply List.eq_nil_iff_forall_not_mem.2
  intro old hold
  obtain ⟨hmem, hserver⟩ := List.mem_filter.1 hold
  have hbelow := h.below old hmem
  rw [show old.server_id = snapshot.server_id from of_decide_eq_true (Bool.and_eq_true_iff.1 hserver).1] at hbelow
  have hold' : old.stamp ≤ snapshot.stamp := hbelow.trans htimes
  rw [show snapshot.stamp = ⊥ from by rw [ServerSnapshot.stamp, hnone], le_bot_iff] at hold'
  have hne := (List.pairwise_append.1 honce).2.2 old hold snapshot List.mem_cons_self
  cases hat : old.generated_at with
  | none => exact hne (hat.trans hnone.symm)
  | some t =>
    rw [ServerSnapshot.stamp, hat] at hold'
    exact WithBot.coe_ne_bot hold'

/-- A snapshot that arrives, as the answer to a call or in a frame. -/
lemma Inv.step_ingest (h : w.Inv isFinite) {e : ConsoleEvent τ ν} {rank : ℕ}
    (hstore : (w.step isFinite e).store = (w.ingest isFinite snapshot rank).store)
    (hpushed : (w.step isFinite e).pushed = (w.ingest isFinite snapshot rank).pushed)
    (hfresh : w.Fresh isFinite snapshot) : (w.step isFinite e).Inv isFinite := by
  apply (h.ingest hfresh rank).of_eq hpushed
  · rw [hstore]
  · rw [hstore]
  · intro s
    rw [generatedAt, hstore]
    rfl

lemma Inv.forward_ingest (h : w.Inv isFinite) {e : ConsoleEvent τ ν} {rank : ℕ}
    (hstore : (w.step isFinite e).store = (w.ingest isFinite snapshot rank).store)
    (hpushed : (w.step isFinite e).pushed = (w.ingest isFinite snapshot rank).pushed) :
    w.Forward isFinite e ↔ w.Fresh isFinite snapshot := by
  have htimes : ∀ s, (w.step isFinite e).generatedAt s = (w.ingest isFinite snapshot rank).generatedAt s := by
    intro s
    rw [generatedAt, hstore]
    rfl
  constructor
  · intro hforward
    have hle := hforward.times snapshot.server_id
    have honce := hforward.once snapshot.server_id
    rw [htimes] at hle
    rw [contributions, hpushed] at honce
    exact h.fresh hle honce
  · intro hfresh
    apply (h.step_ingest hstore hpushed hfresh).forward
    · intro s
      rw [htimes]
      by_cases hs : s = snapshot.server_id
      · subst hs
        exact hfresh.1.trans (generatedAt_ingest_self rank).ge
      · exact (generatedAt_ingest_of_ne hs rank).ge
    · intro s hnone hsome
      rw [hstore] at hsome
      exact absurd (snapshotErrors_ingest rank hnone) hsome

/-- An event that leaves the history, the times and the errors alone. -/
lemma Inv.step_quiet (h : w.Inv isFinite) {e : ConsoleEvent τ ν} (hpushed : (w.step isFinite e).pushed = w.pushed)
    (hhistory : (w.step isFinite e).store.history = w.store.history)
    (htimestamps : (w.step isFinite e).store.historyTimestamps = w.store.historyTimestamps)
    (htimes : ∀ s, (w.step isFinite e).generatedAt s = w.generatedAt s)
    (herrors : (w.step isFinite e).store.snapshotErrors = w.store.snapshotErrors) :
    (w.step isFinite e).Inv isFinite ∧ w.Forward isFinite e := by
  have h' := h.of_eq hpushed hhistory htimestamps htimes
  refine ⟨h', h'.forward (fun s => (htimes s).ge) fun s hnone hsome => ?_⟩
  rw [herrors] at hsome
  exact absurd hnone hsome

/-- An answer that nobody waits for. -/
lemma Inv.step_same (h : w.Inv isFinite) {e : ConsoleEvent τ ν} (hstep : w.step isFinite e = w) :
    (w.step isFinite e).Inv isFinite ∧ w.Forward isFinite e := by
  apply h.step_quiet
  · rw [hstep]
  · rw [hstep]
  · rw [hstep]
  · intro s
    rw [hstep]
  · rw [hstep]

/-- A failure: it shows no snapshot, so all there is to it is the error. -/
lemma Inv.step_failed (h : w.Inv isFinite) {request : ℕ} (cause : Cause) {serverId : Text}
    (hpending : request ∈ w.pending) (hserver : w.requests[request]? = some serverId) :
    (w.step isFinite (.failed request cause)).Inv isFinite ∧
      (w.Forward isFinite (.failed request cause) ↔ w.InOrder isFinite (.failed request cause)) := by
  have hstep : w.step isFinite (.failed request cause) =
      { w with store := w.store.snapshotFailed serverId cause, pending := w.pending.filter (· ≠ request) } := by
    rw [step, if_pos hpending, hserver]
  have herrors : (w.step isFinite (.failed request cause)).store.snapshotErrors =
      Function.update w.store.snapshotErrors serverId (some (errorMessage cause)) := by
    rw [hstep]
    rfl
  have h' : (w.step isFinite (.failed request cause)).Inv isFinite := by
    rw [hstep]
    exact h.of_eq rfl rfl rfl fun s => rfl
  refine ⟨h', fun hforward _ s hs hnone => ?_, fun horder => h'.forward (fun s => ?_) fun s hnone hsome => ?_⟩
  · rw [hserver] at hs
    cases hs
    have herror : (w.step isFinite (.failed request cause)).store.snapshotErrors serverId ≠ none := by
      rw [herrors, Function.update_self]
      exact Option.some_ne_none _
    obtain ⟨_, _, heq, -, hnewer⟩ := hforward.errors serverId hnone herror
    cases heq
    exact hnewer
  · rw [hstep]
    exact le_rfl
  · rw [herrors] at hsome
    by_cases hs : s = serverId
    · subst hs
      exact ⟨request, cause, rfl, hserver, horder hpending s hserver hnone⟩
    · rw [Function.update_of_ne hs] at hsome
      exact absurd hnone hsome

/-- One event: it takes the telemetry forward exactly when it comes in order, and then keeps the invariant. -/
lemma Inv.step (h : w.Inv isFinite) (e : ConsoleEvent τ ν) :
    (w.InOrder isFinite e → (w.step isFinite e).Inv isFinite) ∧ (w.Forward isFinite e ↔ w.InOrder isFinite e) := by
  -- most events are quiet
  have hquiet : ∀ {e : ConsoleEvent τ ν}, ((w.step isFinite e).Inv isFinite ∧ w.Forward isFinite e) →
      w.InOrder isFinite e →
      (w.InOrder isFinite e → (w.step isFinite e).Inv isFinite) ∧ (w.Forward isFinite e ↔ w.InOrder isFinite e) :=
    fun hq ho => ⟨fun _ => hq.1, iff_of_true hq.2 ho⟩
  cases e with
  | loadSnapshot serverId => exact hquiet (h.step_quiet rfl rfl rfl (fun _ => rfl) rfl) trivial
  | loaded request snapshot =>
    by_cases hpending : request ∈ w.pending
    · have hstep : w.step isFinite (.loaded request snapshot) =
          { w.ingest isFinite snapshot request with pending := w.pending.filter (· ≠ request) } := if_pos hpending
      have hstore : (w.step isFinite (.loaded request snapshot)).store = (w.ingest isFinite snapshot request).store := by
        rw [hstep]
      have hpushed : (w.step isFinite (.loaded request snapshot)).pushed =
          (w.ingest isFinite snapshot request).pushed := by
        rw [hstep]
      refine ⟨fun horder => h.step_ingest hstore hpushed (horder hpending), ?_⟩
      rw [h.forward_ingest hstore hpushed]
      exact ⟨fun hfresh _ => hfresh, fun horder => horder hpending⟩
    · have hstep : w.step isFinite (.loaded request snapshot) = w := if_neg hpending
      apply hquiet (h.step_same hstep)
      exact fun hin => absurd hin hpending
  | failed request cause =>
    by_cases hpending : request ∈ w.pending
    · cases hserver : w.requests[request]? with
      | some serverId =>
        have hfailed := h.step_failed cause hpending hserver
        exact ⟨fun _ => hfailed.1, hfailed.2⟩
      | none =>
        have hstep : w.step isFinite (.failed request cause) = w := by
          rw [ConsoleWorld.step, if_pos hpending, hserver]
        apply hquiet (h.step_same hstep)
        intro _ s hs
        cases hserver.symm.trans hs
    · have hstep : w.step isFinite (.failed request cause) = w := if_neg hpending
      apply hquiet (h.step_same hstep)
      exact fun hin => absurd hin hpending
  | frame frame =>
    cases frame with
    | hello server_ids => exact hquiet (h.step_quiet rfl rfl rfl (fun _ => rfl) rfl) trivial
    | fleet summary => exact hquiet (h.step_quiet rfl rfl rfl (fun _ => rfl) rfl) trivial
    | server server_id snapshot =>
      exact ⟨fun hfresh => h.step_ingest rfl rfl hfresh, h.forward_ingest rfl rfl⟩
    | status server_id status =>
      exact hquiet (h.step_quiet rfl rfl rfl (generatedAt_statusArrived server_id status) rfl) trivial
  | loadFleet => exact hquiet (h.step_quiet rfl rfl rfl (fun _ => rfl) rfl) trivial
  | fleetLoaded summary => exact hquiet (h.step_quiet rfl rfl rfl (fun _ => rfl) rfl) trivial
  | fleetFailed cause => exact hquiet (h.step_quiet rfl rfl rfl (fun _ => rfl) rfl) trivial

end

end ConsoleWorld

/-- In a run from the fresh store every event takes the telemetry forward exactly when every event comes in order. -/
theorem forward_iff [DecidableEq τ] [LinearOrder τ] (isFinite : ν → Bool) (es : List (ConsoleEvent τ ν)) :
    Machine.Along (ConsoleWorld.step isFinite) (fun w e => w.Forward isFinite e) {} es ↔
      Machine.Along (ConsoleWorld.step isFinite) (fun w e => w.InOrder isFinite e) {} es :=
  Machine.along_iff_along ConsoleWorld.Inv.initial (fun _ e h => (ConsoleWorld.Inv.step h e).1)
    fun _ e h => (ConsoleWorld.Inv.step h e).2

/-- An older answer arrives after a newer frame: the console shows the older snapshot again. -/
theorem older_answer_shown : ¬Machine.Along (ConsoleWorld.step fun _ => true)
    (fun w e => w.Forward (fun _ => true) e) ({} : ConsoleWorld ℕ ℕ)
    [.loadSnapshot ['s'], .frame (.server ['s'] ⟨['s'], .online, some 2, []⟩),
      .loaded 0 ⟨['s'], .online, some 1, []⟩] := by
  intro h
  have hle := h.2.2.1.times ['s']
  exact absurd hle (by decide)

end SshGpuConsole.Frontend
