import SshGpuConsole.Telemetry.State

/-!
# Correlation

`_correlate` settles a server: correlating it again changes nothing (`correlate_correlate`), and the owners of a
later probe change nothing either unless they name a GPU process whose owner nobody knew (`Settled.pidUsers`).
-/

namespace SshGpuConsole.Telemetry
open Shell (Text)

variable {φ : Type}

/-! ### One process -/

lemma located_pid (by_uuid : Dict Text ℤ) (p : GpuProcessInfo) : (p.located by_uuid).pid = p.pid := by
  unfold GpuProcessInfo.located
  split
  · split
    · rfl
    · rfl
  · rfl

lemma owned_uuid (state : ServerState φ) (p : GpuProcessInfo) :
    (p.owned state).gpu_uuid = p.gpu_uuid ∧ (p.owned state).gpu_index = p.gpu_index ∧ (p.owned state).pid = p.pid := by
  unfold GpuProcessInfo.owned
  split
  · exact ⟨rfl, rfl, rfl⟩
  · split
    · exact ⟨rfl, rfl, rfl⟩
    · split
      · exact ⟨rfl, rfl, rfl⟩
      · exact ⟨rfl, rfl, rfl⟩

lemma orElse_orElse (t u : Option Text) : orElse (orElse t u) u = orElse t u := by
  unfold orElse
  by_cases h : truthy t = true
  · rw [if_pos h, if_pos h]
  · rw [if_neg h, ite_self]

lemma first_first {α : Type} (x y : Option α) : ((x <|> y) <|> y) = (x <|> y) := by
  cases x with
  | none => cases y <;> rfl
  | some a => rfl

lemma owned_owned (state : ServerState φ) (p : GpuProcessInfo) : (p.owned state).owned state = p.owned state := by
  have hpid := (owned_uuid state p).2.2
  generalize hq : p.owned state = q at hpid ⊢
  unfold GpuProcessInfo.owned at hq ⊢
  rw [hpid]
  split at hq
  · rename_i general _
    subst hq
    simp only [orElse_orElse]
  · split at hq
    · rename_i user command _
      subst hq
      simp only [first_first]
    · split at hq
      · rename_i hu
        subst hq
        simp only [hu]
      · subst hq
        dsimp only
        split
        · rfl
        · rename_i hn
          rw [hn]

/-- A process with the index of its GPU is located. -/
lemma located_eq {by_uuid : Dict Text ℤ} {p : GpuProcessInfo}
    (h : ∀ uuid, p.gpu_uuid = some uuid → uuid ≠ [] → p.gpu_index = by_uuid.get uuid) : p.located by_uuid = p := by
  unfold GpuProcessInfo.located
  split
  · rename_i uuid hu
    split
    · rfl
    · rename_i hne
      rw [← h uuid hu hne]
  · rfl

lemma located_index {by_uuid : Dict Text ℤ} {p : GpuProcessInfo} {uuid : Text}
    (hu : (p.located by_uuid).gpu_uuid = some uuid) (hne : uuid ≠ []) :
    (p.located by_uuid).gpu_index = by_uuid.get uuid := by
  unfold GpuProcessInfo.located at hu ⊢
  split at hu
  · rename_i uuid' hu'
    split at hu
    · rename_i hempty
      rw [hu'] at hu
      cases hu
      exact absurd hempty hne
    · rename_i hempty
      rw [show p.gpu_uuid = some uuid from hu] at hu'
      cases hu'
      rw [if_neg hempty]
  · rename_i hnone
    rw [hnone] at hu
    cases hu

lemma located_owned (by_uuid : Dict Text ℤ) (state : ServerState φ) (p : GpuProcessInfo) :
    ((p.located by_uuid).owned state).located by_uuid = (p.located by_uuid).owned state := by
  obtain ⟨huuid, hindex, -⟩ := owned_uuid state (p.located by_uuid)
  refine located_eq fun uuid hu hne => ?_
  rw [huuid] at hu
  exact hindex.trans (located_index hu hne)

lemma correlated_correlated (state : ServerState φ) (p : GpuProcessInfo) :
    state.correlated (state.correlated p) = state.correlated p := by
  unfold ServerState.correlated
  rw [located_owned, owned_owned]

/-! ### One server -/

/-- The correlation of a process reads of the process list and the GPUs only what it does not write. -/
lemma correlated_congr {state state' : ServerState φ} (huuid : state'.byUuid = state.byUuid)
    (hprocesses : ∀ pid, (state'.processes.reverse.find? fun general => general.pid = pid).map
        (fun general => (general.user, general.command, general.name)) =
      (state.processes.reverse.find? fun general => general.pid = pid).map
        fun general => (general.user, general.command, general.name))
    (hmeta : state'.proc_meta = state.proc_meta) (husers : state'.pid_users = state.pid_users) :
    state'.correlated = state.correlated := by
  funext p
  unfold ServerState.correlated GpuProcessInfo.owned
  rw [huuid, hmeta, husers]
  have hp := hprocesses (p.located state.byUuid).pid
  cases h' : state'.processes.reverse.find? fun general => general.pid = (p.located state.byUuid).pid with
  | none =>
    rw [h', Option.map_none] at hp
    rw [Option.map_eq_none_iff.1 hp.symm]
  | some general' =>
    rw [h', Option.map_some] at hp
    obtain ⟨general, hgeneral, heq⟩ := Option.map_eq_some_iff.1 hp.symm
    rw [hgeneral]
    obtain ⟨huser, hcommand, hname⟩ : general.user = general'.user ∧ general.command = general'.command ∧
        general.name = general'.name := by simpa using heq
    dsimp only
    rw [huser, hcommand, hname]

lemma byUuid_correlate (state : ServerState φ) : state.correlate.byUuid = state.byUuid := by
  unfold ServerState.byUuid ServerState.correlate
  dsimp only
  rw [List.filterMap_map]
  rfl

lemma correlated_correlate (state : ServerState φ) : state.correlate.correlated = state.correlated := by
  refine correlated_congr (byUuid_correlate state) (fun pid => ?_) rfl rfl
  unfold ServerState.correlate
  dsimp only
  rw [← List.map_reverse, List.find?_map, Option.map_map]
  rfl

/-- Every process of a correlated server is as the correlation leaves it. -/
lemma correlated_of_mem {state : ServerState φ} {p : GpuProcessInfo} (h : p ∈ state.correlate.gpu_processes) :
    state.correlated p = p := by
  have hmem : p ∈ state.gpu_processes.map state.correlated := (List.mem_insertionSort _).1 h
  obtain ⟨q, -, rfl⟩ := List.mem_map.1 hmem
  exact correlated_correlated state q

instance : Std.Total GpuProcessInfo.before := ⟨fun _ _ => le_total _ _⟩

instance : IsTrans GpuProcessInfo GpuProcessInfo.before := ⟨fun _ _ _ => le_trans⟩

lemma sorted_correlate (state : ServerState φ) : state.correlate.gpu_processes.Pairwise GpuProcessInfo.before :=
  List.pairwise_insertionSort _ _

lemma gpuIndexes_perm {processes processes' : List GpuProcessInfo} (h : processes'.Perm processes) (pid : ℤ) :
    gpuIndexes processes' pid = gpuIndexes processes pid := by
  unfold gpuIndexes
  have hperm := (((h.filter fun p => p.pid = pid).filterMap GpuProcessInfo.gpu_index).dedup)
  exact List.Perm.eq_of_pairwise (fun a b _ _ hab hba => le_antisymm hab hba) (List.pairwise_insertionSort _ _)
    (List.pairwise_insertionSort _ _)
    (((List.perm_insertionSort _ _).trans hperm).trans (List.perm_insertionSort _ _).symm)

lemma gpuVram_perm {processes processes' : List GpuProcessInfo} (h : processes'.Perm processes) (pid : ℤ) :
    gpuVram processes' pid = gpuVram processes pid := by
  unfold gpuVram
  have hperm := (h.filter fun p => p.pid = pid ∧ p.gpu_index ≠ none).filterMap GpuProcessInfo.used_memory_b
  generalize ((processes'.filter fun p => p.pid = pid ∧ p.gpu_index ≠ none).filterMap GpuProcessInfo.used_memory_b) =
    used' at hperm ⊢
  generalize ((processes.filter fun p => p.pid = pid ∧ p.gpu_index ≠ none).filterMap GpuProcessInfo.used_memory_b) =
    used at hperm ⊢
  cases used' with
  | nil => rw [List.nil_perm.1 hperm]
  | cons x xs =>
    cases used with
    | nil => cases List.perm_nil.1 hperm
    | cons y ys =>
      dsimp only
      rw [hperm.sum_eq]

/-- A server as a correlation leaves it. -/
structure Settled (state : ServerState φ) : Prop where
  sorted : state.gpu_processes.Pairwise GpuProcessInfo.before
  correlated : ∀ p ∈ state.gpu_processes, state.correlated p = p
  gpus : ∀ gpu ∈ state.gpus, gpu.process_count = state.gpu_processes.countP fun p => p.gpu_index = some gpu.index
  processes : ∀ proc ∈ state.processes, proc.gpu_indexes = gpuIndexes state.gpu_processes proc.pid ∧
    proc.gpu_vram_b = gpuVram state.gpu_processes proc.pid

lemma settled_correlate (state : ServerState φ) : Settled state.correlate where
  sorted := sorted_correlate state
  correlated p hp := by
    rw [correlated_correlate]
    exact correlated_of_mem hp
  gpus gpu hgpu := by
    obtain ⟨g, -, rfl⟩ := List.mem_map.1 hgpu
    exact ((List.perm_insertionSort _ _).countP_eq _).symm
  processes proc hproc := by
    obtain ⟨q, -, rfl⟩ := List.mem_map.1 hproc
    have hperm := List.perm_insertionSort GpuProcessInfo.before (state.gpu_processes.map state.correlated)
    exact ⟨(gpuIndexes_perm hperm _).symm, (gpuVram_perm hperm _).symm⟩

/-- A settled server is left alone. -/
lemma Settled.correlate {state : ServerState φ} (h : Settled state) : state.correlate = state := by
  have hmap : state.gpu_processes.map state.correlated = state.gpu_processes := by
    calc state.gpu_processes.map state.correlated = state.gpu_processes.map id := List.map_congr_left h.correlated
      _ = state.gpu_processes := List.map_id _
  have hgpus : (state.gpus.map fun gpu => { gpu with
      process_count := state.gpu_processes.countP fun p => p.gpu_index = some gpu.index }) = state.gpus := by
    calc _ = state.gpus.map id := List.map_congr_left fun gpu hgpu => by rw [← h.gpus gpu hgpu]; rfl
      _ = state.gpus := List.map_id _
  have hprocesses : (state.processes.map fun proc => { proc with
      gpu_indexes := gpuIndexes state.gpu_processes proc.pid
      gpu_vram_b := gpuVram state.gpu_processes proc.pid }) = state.processes := by
    calc _ = state.processes.map id := List.map_congr_left fun proc hproc => by
            rw [← (h.processes proc hproc).1, ← (h.processes proc hproc).2]; rfl
      _ = state.processes := List.map_id _
  unfold ServerState.correlate
  dsimp only
  rw [hmap, hgpus, hprocesses, h.sorted.insertionSort_eq]

theorem correlate_correlate (state : ServerState φ) : state.correlate.correlate = state.correlate :=
  (settled_correlate state).correlate

lemma settled_fresh (server_id : Text) : Settled ({ server_id } : ServerState φ) :=
  ⟨List.Pairwise.nil, fun _ h => absurd h List.not_mem_nil, fun _ h => absurd h List.not_mem_nil,
    fun _ h => absurd h List.not_mem_nil⟩

/-- Being settled is a matter of the GPUs and the processes. -/
lemma Settled.congr {state state' : ServerState φ} (h : Settled state) (hgpus : state'.gpus = state.gpus)
    (hgpu : state'.gpu_processes = state.gpu_processes) (hprocesses : state'.processes = state.processes)
    (hmeta : state'.proc_meta = state.proc_meta) (husers : state'.pid_users = state.pid_users) : Settled state' where
  sorted := hgpu ▸ h.sorted
  correlated p hp := by
    have hsame : state'.correlated = state.correlated :=
      correlated_congr (by unfold ServerState.byUuid; rw [hgpus]) (fun _ => by rw [hprocesses]) hmeta husers
    rw [hsame]
    exact h.correlated p (hgpu ▸ hp)
  gpus gpu hg := hgpu ▸ h.gpus gpu (hgpus ▸ hg)
  processes proc hp := hgpu ▸ h.processes proc (hprocesses ▸ hp)

/-- The probe names no GPU process whose owner nobody knows. -/
def NamesNobody (state : ServerState φ) (pid_users : Dict ℤ Text) : Prop :=
  ∀ p ∈ state.gpu_processes, p.user = none → (∀ general ∈ state.processes, general.pid ≠ p.pid) →
    state.proc_meta.get p.pid = none → pid_users.get p.pid = none

/-- A probe that names no process without an owner leaves a settled server settled. -/
lemma Settled.pidUsers {state : ServerState φ} (h : Settled state) {pid_users : Dict ℤ Text}
    (hn : NamesNobody state pid_users) : Settled { state with pid_users } where
  sorted := h.sorted
  correlated p hp := by
    have hp' := h.correlated p hp
    have hlocated : p.located state.byUuid = p := by
      refine located_eq fun uuid hu hne => ?_
      have hpu : ((p.located state.byUuid).gpu_uuid) = some uuid := by
        rw [← (owned_uuid state (p.located state.byUuid)).1]
        exact (congrArg GpuProcessInfo.gpu_uuid hp').trans hu
      rw [← located_index hpu hne, ← (owned_uuid state (p.located state.byUuid)).2.1]
      exact (congrArg GpuProcessInfo.gpu_index hp').symm
    have howned : p.owned state = p := by
      rw [ServerState.correlated, hlocated] at hp'
      exact hp'
    show (p.located state.byUuid).owned { state with pid_users } = p
    rw [hlocated]
    unfold GpuProcessInfo.owned at howned ⊢
    dsimp only
    split
    · rename_i general hgeneral
      rw [hgeneral] at howned
      exact howned
    · rename_i hnone
      rw [hnone] at howned
      split
      · rename_i user command hmeta
        rw [hmeta] at howned
        exact howned
      · rename_i hmeta
        split
        · rfl
        · rename_i hu
          have hgeneral : ∀ general ∈ state.processes, general.pid ≠ p.pid := fun general hm hpid =>
            List.find?_eq_none.1 hnone general (List.mem_reverse.2 hm) (decide_eq_true hpid)
          rw [hn p hp hu hgeneral hmeta]
          cases p
          simp only at hu
          rw [hu]
  gpus := h.gpus
  processes := h.processes

end SshGpuConsole.Telemetry
