import SshGpuConsole.Telemetry.Revisions
import SshGpuConsole.Lib.Runs

/-!
# The latest samples

What the correlation shows against the latest sample of each section it reads. The processes are corrected in place,
and a user or a command that is there already stays: whom a process belongs to can be what an earlier sample said.
Correlating once what came last is the measure (`Latest.raw`). A server shows that as long as no sample takes a name
back (`Steady`) and the latest samples name nobody twice (`Fair`): then a fresh state that is given only the latest
samples, in whatever order, shows the same (`correlation_of_latest`).
-/

namespace SshGpuConsole.Telemetry
open Shell (Text)

variable {φ : Type} {digits : Digits}

/-! ### Samples -/

/-- A sample of a section that the correlation reads. -/
inductive Sample (φ : Type) where
  | gpus (gpus : List (GpuInfo φ))
  | gpu_processes (processes : List GpuProcessInfo)
  | processes (processes : List (ProcessInfo φ))
  | pid_users (pid_users : List (Text × Text))

/-- A call of an `update_..` method; the probe of the owners has no stamp. -/
structure Call (φ : Type) where
  server_id : Text
  sample : Sample φ
  now : Stamp

def Call.operation (call : Call φ) : Operation φ :=
  match call.sample with
  | .gpus gpus => .updateGpus call.server_id gpus call.now
  | .gpu_processes processes => .updateGpuProcesses call.server_id processes call.now
  | .processes processes => .updateProcesses call.server_id processes call.now
  | .pid_users pid_users => .updatePidUsers call.server_id pid_users

/-- The state after a call. -/
def update [Measure φ] (digits : Digits) (σ : TelemetryState φ) (call : Call φ) : TelemetryState φ :=
  σ.apply digits call.operation

/-- The latest sample of each section. -/
structure Latest (φ : Type) where
  gpus : Option (List (GpuInfo φ)) := none
  gpu_processes : Option (List GpuProcessInfo) := none
  processes : Option (List (ProcessInfo φ)) := none
  pid_users : Option (List (Text × Text)) := none

/-- A sample comes. A probe with a pid that `int` refuses was not received: its call raises. -/
def Latest.receive (digits : Digits) (latest : Latest φ) : Sample φ → Latest φ
  | .gpus gpus => { latest with gpus := some gpus }
  | .gpu_processes processes => { latest with gpu_processes := some processes }
  | .processes processes => { latest with processes := some processes }
  | .pid_users pid_users =>
    match TelemetryState.pidUsers digits.isDigit digits.toInt pid_users with
    | none => latest
    | some _ => { latest with pid_users := some pid_users }

/-- The latest samples of a server. -/
def latest (digits : Digits) (server_id : Text) (calls : List (Call φ)) : Latest φ :=
  ((calls.filter fun call => call.server_id = server_id).map Call.sample).foldl (Latest.receive digits) {}

def Latest.samples (latest : Latest φ) : List (Sample φ) :=
  (latest.gpus.map .gpus).toList ++ (latest.gpu_processes.map .gpu_processes).toList ++
    (latest.processes.map .processes).toList ++ (latest.pid_users.map .pid_users).toList

/-- The latest samples as the sections of a server, before any correlation. -/
def Latest.raw [Measure φ] (digits : Digits) (latest : Latest φ) : ServerState φ where
  server_id := []
  gpus := ((latest.gpus.getD []).take 64).map TelemetryState.normalizeGpu
  gpu_processes := (latest.gpu_processes.getD []).take 4096
  processes := (latest.processes.getD []).take 250
  proc_meta := .ofItems (((latest.processes.getD []).take 2048).map fun (p : ProcessInfo φ) => (p.pid, p.user, p.command))
  pid_users := ((latest.pid_users.bind (TelemetryState.pidUsers digits.isDigit digits.toInt))).getD []

/-! ### The correlated view -/

/-- What the correlation finds out of a process: the name that it also keeps is not asked for. -/
def GpuProcessInfo.found (p : GpuProcessInfo) : GpuProcessInfo := { p with process_name := none }

/-- What the correlation shows of a server: the count of each GPU, the GPUs of each process, and the GPU processes. -/
structure CorrelatedView where
  gpus : List (ℤ × ℕ)
  processes : List (ℤ × List ℤ × Option ℤ)
  gpu_processes : Multiset GpuProcessInfo

def ServerState.view (state : ServerState φ) : CorrelatedView where
  gpus := state.gpus.map fun gpu => (gpu.index, gpu.process_count)
  processes := state.processes.map fun proc => (proc.pid, proc.gpu_indexes, proc.gpu_vram_b)
  gpu_processes := state.gpu_processes.map GpuProcessInfo.found

/-- The counts of the GPUs sum to the number of GPU processes that are on one of them. -/
def CorrelatedView.Sums (view : CorrelatedView) : Prop :=
  (view.gpus.map Prod.snd).sum =
    (view.gpu_processes.filter fun p => ∃ gpu ∈ view.gpus, p.gpu_index = some gpu.1).card

/-- The view of each server is that of a fresh state given only the latest samples, in any order, and its counts sum. -/
def OfLatest [Measure φ] (digits : Digits) (calls : List (Call φ)) : Prop :=
  ∀ server_id, (((Machine.after (update digits) {} calls).serverState server_id).view).Sums ∧
    ∀ fresh : List (Call φ), (∀ call ∈ fresh, call.server_id = server_id) →
      (fresh.map Call.sample).Perm (latest digits server_id calls).samples →
      ((Machine.after (update digits) {} fresh).serverState server_id).view =
        ((Machine.after (update digits) {} calls).serverState server_id).view

/-! ### When it is a function of them -/

/-- The process of the list that a pid is. -/
def ServerState.listed (state : ServerState φ) (pid : ℤ) : Option (ProcessInfo φ) :=
  state.processes.reverse.find? fun general => general.pid = pid

/-- The user that a pid has which is not listed: that of the full sample, if it is in it, else that of the probe. -/
def ServerState.namedUser (state : ServerState φ) (pid : ℤ) : Option Text :=
  match state.proc_meta.get pid with
  | some (user, _) => user
  | none => state.pid_users.get pid

def ServerState.namedCommand (state : ServerState φ) (pid : ℤ) : Option Text := (state.proc_meta.get pid).bind Prod.snd

/-- The user that the sections give a GPU process of the sample. -/
def ServerState.userOf (state : ServerState φ) (p : GpuProcessInfo) : Option Text :=
  match state.listed p.pid with
  | some general => general.user
  | none => p.user <|> state.namedUser p.pid

def ServerState.commandOf (state : ServerState φ) (p : GpuProcessInfo) : Option Text :=
  match state.listed p.pid with
  | some general => general.command
  | none => p.command <|> state.namedCommand p.pid

/-- What a process had before, it would have without it. -/
def Regained (had own named : Option Text) : Prop := (had <|> named) = (own <|> named)

/-- No GPU process loses the user or the command that it had before: unless it is listed now, the new sections give
it the same, or it had none. -/
def Steady (before now : ServerState φ) : Prop :=
  ∀ p ∈ before.gpu_processes, now.listed p.pid = none →
    Regained (before.userOf p) p.user (now.namedUser p.pid) ∧
      Regained (before.commandOf p) p.command (now.namedCommand p.pid)

/-- Where both the full sample and the probe know a GPU process that has no user and is not listed, the probe names
the same user, or none. -/
def Fair (state : ServerState φ) : Prop :=
  ∀ p ∈ state.gpu_processes, p.user = none → state.listed p.pid = none → ∀ user command,
    state.proc_meta.get p.pid = some (user, command) →
      state.pid_users.get p.pid = none ∨ state.pid_users.get p.pid = user

/-- A GPU process is on one GPU at most. -/
def OneEach (state : ServerState φ) : Prop :=
  ∀ p ∈ state.gpu_processes, ∀ i, (p.located state.byUuid).gpu_index = some i →
    (state.gpus.countP fun gpu => gpu.index = i) ≤ 1

/-- The condition on a sample that comes. -/
structure Fine [Measure φ] (digits : Digits) (latest : Latest φ) (sample : Sample φ) : Prop where
  steady : (∀ processes, sample ≠ .gpu_processes processes) →
    Steady (latest.raw digits) ((latest.receive digits sample).raw digits)
  fair : Fair ((latest.receive digits sample).raw digits)
  oneEach : OneEach ((latest.receive digits sample).raw digits)

/-! ### One process -/

lemma owned_listed {state : ServerState φ} {p : GpuProcessInfo} {general : ProcessInfo φ}
    (h : state.listed p.pid = some general) : p.owned state =
      { p with user := general.user, command := general.command, process_name := orElse p.process_name general.name } := by
  unfold GpuProcessInfo.owned
  rw [show (state.processes.reverse.find? fun general => general.pid = p.pid) = some general from h]

/-- What the correlation makes of a process that is not listed. -/
lemma owned_unlisted {state : ServerState φ} {p : GpuProcessInfo} (h : state.listed p.pid = none) : p.owned state =
    { p with user := p.user <|> state.namedUser p.pid, command := p.command <|> state.namedCommand p.pid } := by
  have hself : ∀ {α : Type} (x : Option α), (x <|> none) = x := fun x => by
    cases x with
    | none => rfl
    | some a => rfl
  unfold GpuProcessInfo.owned ServerState.namedUser ServerState.namedCommand
  rw [show (state.processes.reverse.find? fun general => general.pid = p.pid) = none from h]
  dsimp only
  cases state.proc_meta.get p.pid with
  | some owner => rfl
  | none =>
    dsimp only [Option.bind_none]
    rw [hself p.command]
    cases hu : p.user with
    | some user =>
      cases p
      simp only at hu
      rw [hu]
      rfl
    | none => rfl

lemma owned_user (state : ServerState φ) (p : GpuProcessInfo) : (p.owned state).user = state.userOf p := by
  unfold ServerState.userOf
  cases hl : state.listed p.pid with
  | some general => rw [owned_listed hl]
  | none => rw [owned_unlisted hl]

lemma owned_command (state : ServerState φ) (p : GpuProcessInfo) : (p.owned state).command = state.commandOf p := by
  unfold ServerState.commandOf
  cases hl : state.listed p.pid with
  | some general => rw [owned_listed hl]
  | none => rw [owned_unlisted hl]

lemma owned_memory (state : ServerState φ) (p : GpuProcessInfo) : (p.owned state).used_memory_b = p.used_memory_b := by
  cases hl : state.listed p.pid with
  | some general => rw [owned_listed hl]
  | none => rw [owned_unlisted hl]

/-- A process of the sample with what the sections say of it. -/
def ServerState.named (state : ServerState φ) (p : GpuProcessInfo) : GpuProcessInfo :=
  { (p.located state.byUuid).found with user := state.userOf p, command := state.commandOf p }

lemma located_own (by_uuid : Dict Text ℤ) (p : GpuProcessInfo) :
    (p.located by_uuid).user = p.user ∧ (p.located by_uuid).command = p.command := by
  unfold GpuProcessInfo.located
  split
  · split
    · exact ⟨rfl, rfl⟩
    · exact ⟨rfl, rfl⟩
  · exact ⟨rfl, rfl⟩

lemma found_correlated (state : ServerState φ) (p : GpuProcessInfo) :
    (state.correlated p).found = state.named p := by
  have huser : state.userOf (p.located state.byUuid) = state.userOf p := by
    unfold ServerState.userOf
    rw [located_pid, (located_own state.byUuid p).1]
  have hcommand : state.commandOf (p.located state.byUuid) = state.commandOf p := by
    unfold ServerState.commandOf
    rw [located_pid, (located_own state.byUuid p).2]
  obtain ⟨huuid, hindex, hpid⟩ := owned_uuid state (p.located state.byUuid)
  have hmemory := owned_memory state (p.located state.byUuid)
  have hu := (owned_user state (p.located state.byUuid)).trans huser
  have hc := (owned_command state (p.located state.byUuid)).trans hcommand
  unfold ServerState.correlated ServerState.named GpuProcessInfo.found
  rw [huuid, hindex, hpid, hmemory, hu, hc]

/-- The name that a process keeps changes nothing else. -/
lemma named_found (state : ServerState φ) (p : GpuProcessInfo) : state.named p.found = state.named p := by
  unfold ServerState.named GpuProcessInfo.located
  cases p with
  | mk pid gpu_uuid gpu_index used_memory_b process_name user command =>
    cases gpu_uuid with
    | none => rfl
    | some uuid =>
      dsimp only [GpuProcessInfo.found]
      split
      · rfl
      · rfl

/-- What was found of a process before does not show in what is found now. -/
lemma named_named {before now : ServerState φ} {p : GpuProcessInfo}
    (h : now.listed p.pid = none → Regained (before.userOf p) p.user (now.namedUser p.pid) ∧
      Regained (before.commandOf p) p.command (now.namedCommand p.pid)) :
    now.named (before.named p) = now.named p := by
  have hpid : (before.named p).pid = p.pid := located_pid _ _
  have huser : now.userOf (before.named p) = now.userOf p := by
    unfold ServerState.userOf
    rw [hpid]
    cases hl : now.listed p.pid with
    | some general => rfl
    | none => exact (h hl).1
  have hcommand : now.commandOf (before.named p) = now.commandOf p := by
    unfold ServerState.commandOf
    rw [hpid]
    cases hl : now.listed p.pid with
    | some general => rfl
    | none => exact (h hl).2
  unfold ServerState.named at huser hcommand ⊢
  rw [huser, hcommand]
  cases p with
  | mk pid gpu_uuid gpu_index used_memory_b process_name user command =>
    cases gpu_uuid with
    | none => rfl
    | some uuid =>
      unfold GpuProcessInfo.located GpuProcessInfo.found
      dsimp only
      by_cases hempty : uuid = []
      · rw [if_pos hempty]
        dsimp only
        rw [if_pos hempty, if_pos hempty]
      · rw [if_neg hempty]
        dsimp only
        rw [if_neg hempty, if_neg hempty]

/-! ### One server -/

/-- A GPU without what the correlation writes. -/
def GpuInfo.sampled (gpu : GpuInfo φ) : GpuInfo φ := { gpu with process_count := 0 }

def ProcessInfo.sampled (proc : ProcessInfo φ) : ProcessInfo φ := { proc with gpu_indexes := [], gpu_vram_b := none }

/-- The same samples but for what the correlation writes. -/
structure SameSamples (state raw : ServerState φ) : Prop where
  gpus : state.gpus.map GpuInfo.sampled = raw.gpus.map GpuInfo.sampled
  processes : state.processes.map ProcessInfo.sampled = raw.processes.map ProcessInfo.sampled
  proc_meta : state.proc_meta = raw.proc_meta
  pid_users : state.pid_users = raw.pid_users

lemma SameSamples.correlate {state raw : ServerState φ} (h : SameSamples state raw) : SameSamples state.correlate raw where
  gpus := by
    rw [← h.gpus]
    unfold ServerState.correlate
    dsimp only
    rw [List.map_map]
    rfl
  processes := by
    rw [← h.processes]
    unfold ServerState.correlate
    dsimp only
    rw [List.map_map]
    rfl
  proc_meta := h.proc_meta
  pid_users := h.pid_users

lemma SameSamples.correlated {state raw : ServerState φ} (h : SameSamples state raw) :
    state.correlated = raw.correlated := by
  have huuid : ∀ s : ServerState φ, s.byUuid = .ofItems ((s.gpus.map GpuInfo.sampled).filterMap fun gpu =>
      gpu.uuid.bind fun uuid => if uuid = [] then none else some (uuid, gpu.index)) := fun s => by
    unfold ServerState.byUuid
    rw [List.filterMap_map]
    rfl
  have hlisted : ∀ (s : ServerState φ) (pid : ℤ), (s.processes.reverse.find? fun general => general.pid = pid).map
      (fun general => (general.user, general.command, general.name)) =
        ((s.processes.map ProcessInfo.sampled).reverse.find? fun general => general.pid = pid).map
          fun general => (general.user, general.command, general.name) := fun s pid => by
    rw [← List.map_reverse, List.find?_map, Option.map_map]
    rfl
  refine correlated_congr ?_ (fun pid => ?_) h.proc_meta h.pid_users
  · rw [huuid, huuid, h.gpus]
  · rw [hlisted, hlisted, h.processes]

lemma SameSamples.named {state raw : ServerState φ} (h : SameSamples state raw) : state.named = raw.named := by
  funext p
  rw [← found_correlated, ← found_correlated, h.correlated]

/-- A server that shows what the samples show when they are correlated once. -/
structure Tracks (raw state : ServerState φ) : Prop where
  samples : SameSamples state raw
  gpu_processes : (state.gpu_processes.map GpuProcessInfo.found).Perm (raw.gpu_processes.map raw.named)
  settled : Settled state

lemma tracks_correlate {raw state : ServerState φ} (h : SameSamples state raw)
    (hperm : (state.gpu_processes.map raw.named).Perm (raw.gpu_processes.map raw.named)) : Tracks raw state.correlate where
  samples := h.correlate
  gpu_processes := by
    have hsort := (List.perm_insertionSort GpuProcessInfo.before (state.gpu_processes.map state.correlated)).map
      GpuProcessInfo.found
    have hnamed : (state.gpu_processes.map state.correlated).map GpuProcessInfo.found =
        state.gpu_processes.map raw.named := by
      rw [List.map_map]
      refine List.map_congr_left fun p _ => ?_
      rw [← h.named]
      exact found_correlated state p
    exact (hsort.trans (hnamed ▸ List.Perm.refl _)).trans hperm
  settled := settled_correlate state

/-- New samples of the other sections: the GPU processes are those of before. -/
lemma Tracks.steady {before now state state' : ServerState φ} (h : Tracks before state) (hs : Steady before now)
    (hsame : now.gpu_processes = before.gpu_processes) (hsame' : state'.gpu_processes = state.gpu_processes)
    (hsamples : SameSamples state' now) : Tracks now state'.correlate := by
  refine tracks_correlate hsamples ?_
  have hfound : (state.gpu_processes.map GpuProcessInfo.found).map now.named = state.gpu_processes.map now.named := by
    rw [List.map_map]
    exact List.map_congr_left fun p _ => named_found now p
  have hnamed : (before.gpu_processes.map before.named).map now.named = before.gpu_processes.map now.named := by
    rw [List.map_map]
    exact List.map_congr_left fun p hp => named_named (hs p hp)
  rw [hsame, hsame', ← hfound, ← hnamed]
  exact h.gpu_processes.map now.named

/-- What the samples show when they are correlated once. -/
def ServerState.shown (raw : ServerState φ) : CorrelatedView where
  gpus := raw.gpus.map fun gpu =>
    (gpu.index, (raw.gpu_processes.map raw.named).countP fun p => p.gpu_index = some gpu.index)
  processes := raw.processes.map fun proc => (proc.pid, gpuIndexes (raw.gpu_processes.map raw.named) proc.pid,
    gpuVram (raw.gpu_processes.map raw.named) proc.pid)
  gpu_processes := raw.gpu_processes.map raw.named

lemma gpuIndexes_found (processes : List GpuProcessInfo) (pid : ℤ) :
    gpuIndexes (processes.map GpuProcessInfo.found) pid = gpuIndexes processes pid := by
  unfold gpuIndexes
  rw [List.filter_map, List.filterMap_map]
  rfl

lemma gpuVram_found (processes : List GpuProcessInfo) (pid : ℤ) :
    gpuVram (processes.map GpuProcessInfo.found) pid = gpuVram processes pid := by
  unfold gpuVram
  rw [List.filter_map, List.filterMap_map]
  rfl

lemma Tracks.view_eq {raw state : ServerState φ} (h : Tracks raw state) : state.view = raw.shown := by
  have hcount : ∀ i : ℤ, (state.gpu_processes.countP fun p => p.gpu_index = some i) =
      (raw.gpu_processes.map raw.named).countP fun p => p.gpu_index = some i := fun i => by
    rw [← h.gpu_processes.countP_eq, List.countP_map]
    rfl
  have hgpus : state.gpus.map (fun gpu => (gpu.index, gpu.process_count)) = (state.gpus.map GpuInfo.sampled).map fun gpu =>
      (gpu.index, (raw.gpu_processes.map raw.named).countP fun p => p.gpu_index = some gpu.index) := by
    rw [List.map_map]
    refine List.map_congr_left fun gpu hgpu => ?_
    rw [h.settled.gpus gpu hgpu, hcount]
    rfl
  have hprocesses : state.processes.map (fun proc => (proc.pid, proc.gpu_indexes, proc.gpu_vram_b)) =
      (state.processes.map ProcessInfo.sampled).map fun proc => (proc.pid,
        gpuIndexes (raw.gpu_processes.map raw.named) proc.pid, gpuVram (raw.gpu_processes.map raw.named) proc.pid) := by
    rw [List.map_map]
    refine List.map_congr_left fun proc hproc => ?_
    obtain ⟨hindexes, hvram⟩ := h.settled.processes proc hproc
    rw [hindexes, hvram, ← gpuIndexes_found, ← gpuVram_found, gpuIndexes_perm h.gpu_processes,
      gpuVram_perm h.gpu_processes]
    rfl
  unfold ServerState.view ServerState.shown
  rw [hgpus, hprocesses, h.samples.gpus, h.samples.processes, List.map_map, List.map_map]
  exact congrArg (CorrelatedView.mk _ _) (Multiset.coe_eq_coe.2 h.gpu_processes)

/-! ### The counts -/

lemma sum_ite_index (indexes : List ℤ) (j : ℤ) :
    (indexes.map fun i => if some j = some i then 1 else 0).sum = indexes.count j := by
  induction indexes with
  | nil => rfl
  | cons i indexes ih =>
    rw [List.map_cons, List.sum_cons, ih, List.count_cons, Nat.add_comm]
    congr 1
    by_cases h : i = j
    · rw [if_pos (congrArg some h.symm), if_pos (beq_iff_eq.2 h)]
    · rw [if_neg fun e => h (Option.some.inj e).symm, if_neg fun e => h (beq_iff_eq.1 e)]

/-- Counting for each index what has it counts what has one of them, when each has one at most. -/
lemma sum_countP {indexes : List ℤ} {found : List (Option ℤ)}
    (h : ∀ x ∈ found, ∀ i, x = some i → indexes.count i ≤ 1) :
    (indexes.map fun i => found.countP fun x => x = some i).sum = found.countP fun x => ∃ i ∈ indexes, x = some i := by
  induction found with
  | nil => simp
  | cons x found ih =>
    have hrest := ih fun y hy => h y (List.mem_cons_of_mem x hy)
    have hone : (indexes.map fun i => if x = some i then 1 else 0).sum = if ∃ i ∈ indexes, x = some i then 1 else 0 := by
      cases x with
      | none => simp
      | some j =>
        rw [sum_ite_index]
        split
        · rename_i hmem
          obtain ⟨i, hi, hji⟩ := hmem
          cases hji
          exact le_antisymm (h _ List.mem_cons_self j rfl) (List.count_pos_iff.2 hi)
        · rename_i hnone
          exact List.count_eq_zero.2 fun hj => hnone ⟨j, hj, rfl⟩
    calc (indexes.map fun i => (x :: found).countP fun x => x = some i).sum
        = (indexes.map fun i => (found.countP fun x => x = some i) + if x = some i then 1 else 0).sum := by
          simp only [List.countP_cons, decide_eq_true_eq]
      _ = _ := by
          rw [List.sum_map_add, hrest, hone, List.countP_cons]
          simp only [decide_eq_true_eq]

lemma sums_shown {raw : ServerState φ} (h : OneEach raw) : raw.shown.Sums := by
  unfold CorrelatedView.Sums ServerState.shown
  dsimp only
  have hfound := @sum_countP (raw.gpus.map GpuInfo.index)
    ((raw.gpu_processes.map raw.named).map GpuProcessInfo.gpu_index) fun x hx i hi => by
      rw [List.map_map] at hx
      obtain ⟨p, hp, rfl⟩ := List.mem_map.1 hx
      have hone := h p hp i hi
      rw [List.count, List.countP_map]
      exact hone
  rw [List.map_map, List.countP_map] at hfound
  rw [List.map_map]
  refine Eq.trans ?_ (hfound.trans ?_)
  · congr 1
    refine List.map_congr_left fun gpu _ => ?_
    dsimp only [Function.comp]
    symm
    rw [List.countP_map]
    rfl
  · rw [Multiset.filter_coe, Multiset.coe_card, ← List.countP_eq_length_filter]
    refine List.countP_congr fun p _ => ?_
    simp

/-! ### Steady samples -/

/-- Samples that name nobody are no step back. -/
lemma steady_same {before now : ServerState φ} (hprocesses : now.processes = before.processes)
    (hmeta : now.proc_meta = before.proc_meta) (husers : now.pid_users = before.pid_users) : Steady before now := by
  intro p _ hl
  have hl' : before.listed p.pid = none := by
    unfold ServerState.listed at hl ⊢
    rw [← hprocesses]
    exact hl
  have huser : now.namedUser p.pid = before.namedUser p.pid := by
    unfold ServerState.namedUser
    rw [hmeta, husers]
  have hcommand : now.namedCommand p.pid = before.namedCommand p.pid := by
    unfold ServerState.namedCommand
    rw [hmeta]
  unfold ServerState.userOf ServerState.commandOf Regained
  rw [hl', huser, hcommand]
  exact ⟨first_first _ _, first_first _ _⟩

/-- The probe comes after the process list, if that comes at all. -/
lemma steady_pidUsers {before : ServerState φ} {pid_users : Dict ℤ Text} (h : before.pid_users = []) :
    Steady before { before with pid_users } := by
  intro p _ hl
  have hl' : before.listed p.pid = none := hl
  unfold ServerState.userOf ServerState.commandOf Regained
  rw [hl']
  refine ⟨?_, first_first _ _⟩
  unfold ServerState.namedUser
  dsimp only
  rw [h]
  cases before.proc_meta.get p.pid with
  | some owner => exact first_first _ _
  | none =>
    rw [Dict.get_nil]
    cases p.user with
    | none => rfl
    | some user => rfl

/-- The process list comes, maybe after the probe. -/
lemma steady_processes {before now : ServerState φ} (hprocesses : before.processes = []) (hmeta : before.proc_meta = [])
    (husers : now.pid_users = before.pid_users) (hfair : ∀ p ∈ before.gpu_processes, p.user = none →
      now.listed p.pid = none → ∀ user command, now.proc_meta.get p.pid = some (user, command) →
        before.pid_users.get p.pid = none ∨ before.pid_users.get p.pid = user) : Steady before now := by
  intro p hp hl
  have hl' : before.listed p.pid = none := by
    unfold ServerState.listed
    rw [hprocesses]
    rfl
  have hself : ∀ {α : Type} (x : Option α), (x <|> none) = x := fun x => by
    cases x with
    | none => rfl
    | some a => rfl
  unfold ServerState.userOf ServerState.commandOf Regained
  rw [hl']
  dsimp only
  unfold ServerState.namedUser ServerState.namedCommand
  rw [hmeta, husers, Dict.get_nil, Option.bind_none, hself p.command]
  refine ⟨?_, rfl⟩
  dsimp only
  cases hm : now.proc_meta.get p.pid with
  | none => exact first_first _ _
  | some owner =>
    cases hu : p.user with
    | some user => rfl
    | none =>
      -- the probe named the process before the full sample did
      cases hfair p hp hu hl owner.1 owner.2 hm with
      | inl hnone =>
        rw [hnone]
        rfl
      | inr hsame =>
        rw [hsame]
        show ((none <|> owner.1) <|> owner.1) = (none <|> owner.1)
        exact first_first none owner.1

/-! ### What was received -/

lemma latest_append (calls : List (Call φ)) (call : Call φ) (server_id : Text) :
    latest digits server_id (calls ++ [call]) = if call.server_id = server_id
      then (latest digits server_id calls).receive digits call.sample else latest digits server_id calls := by
  unfold latest
  rw [List.filter_append, List.map_append, List.foldl_append]
  split
  · rename_i h
    simp [h]
  · rename_i h
    simp [h]

lemma mem_samples (latest : Latest φ) (sample : Sample φ) : sample ∈ latest.samples ↔ match sample with
    | .gpus gpus => latest.gpus = some gpus
    | .gpu_processes processes => latest.gpu_processes = some processes
    | .processes processes => latest.processes = some processes
    | .pid_users pid_users => latest.pid_users = some pid_users := by
  unfold Latest.samples
  cases sample with
  | gpus gpus => simp
  | gpu_processes processes => simp
  | processes processes => simp
  | pid_users pid_users => simp

/-- The samples of a `Latest` make it. -/
lemma latest_ext {latest latest' : Latest φ} (h : ∀ sample, sample ∈ latest.samples ↔ sample ∈ latest'.samples) :
    latest = latest' := by
  have hgpus : latest.gpus = latest'.gpus := Option.ext fun gpus => by
    have := h (.gpus gpus)
    rwa [mem_samples, mem_samples] at this
  have hgpu : latest.gpu_processes = latest'.gpu_processes := Option.ext fun processes => by
    have := h (.gpu_processes processes)
    rwa [mem_samples, mem_samples] at this
  have hprocesses : latest.processes = latest'.processes := Option.ext fun processes => by
    have := h (.processes processes)
    rwa [mem_samples, mem_samples] at this
  have husers : latest.pid_users = latest'.pid_users := Option.ext fun pid_users => by
    have := h (.pid_users pid_users)
    rwa [mem_samples, mem_samples] at this
  cases latest
  cases latest'
  simp only at hgpus hgpu hprocesses husers
  rw [hgpus, hgpu, hprocesses, husers]

/-- The probe that came last was received. -/
def Latest.Received (digits : Digits) (latest : Latest φ) : Prop :=
  ∀ pid_users, latest.pid_users = some pid_users →
    (TelemetryState.pidUsers digits.isDigit digits.toInt pid_users).isSome

lemma received_receive {latest : Latest φ} (h : latest.Received digits) (sample : Sample φ) :
    (latest.receive digits sample).Received digits := by
  cases sample with
  | gpus gpus => exact h
  | gpu_processes processes => exact h
  | processes processes => exact h
  | pid_users pid_users =>
    unfold Latest.receive
    dsimp only
    split
    · exact h
    · rename_i users husers
      intro pid_users' he
      cases he
      rw [husers]
      rfl

lemma received_latest (server_id : Text) (calls : List (Call φ)) : (latest digits server_id calls).Received digits := by
  unfold latest
  generalize (calls.filter fun call => call.server_id = server_id).map Call.sample = samples
  induction samples using List.reverseRecOn with
  | nil =>
    intro pid_users he
    cases he
  | append_singleton samples sample ih =>
    rw [List.foldl_append]
    exact received_receive ih sample

lemma some_iff_replaced {α : Type} {old whole : Option α} {x y : α} (hx : whole = some x)
    (hy : old = some y → whole = some y) : some x = some y ↔ y = x ∨ old = some y := by
  constructor
  · intro h
    exact .inl (Option.some.inj h).symm
  · intro h
    cases h with
    | inl h => rw [h]
    | inr h => exact hx.symm.trans (hy h)

/-- Receiving one of the latest samples of a whole, after others of them. -/
lemma mem_receive {whole latest : Latest φ} (hwhole : whole.Received digits)
    (hl : ∀ sample, sample ∈ latest.samples → sample ∈ whole.samples) {sample : Sample φ}
    (hs : sample ∈ whole.samples) (sample' : Sample φ) :
    sample' ∈ (latest.receive digits sample).samples ↔ sample' = sample ∨ sample' ∈ latest.samples := by
  have hsame : sample' ∈ latest.samples → sample' ∈ whole.samples := hl sample'
  rw [mem_samples] at hs
  rw [mem_samples, mem_samples] at hsame
  rw [mem_samples, mem_samples]
  -- a sample of another section stays, one of the same section is the same
  cases sample with
  | gpus gpus =>
    cases sample' with
    | gpus gpus' => exact (some_iff_replaced hs hsame).trans (or_congr_left (by rw [Sample.gpus.injEq]))
    | _ => exact (or_iff_right fun h => by cases h).symm
  | gpu_processes processes =>
    cases sample' with
    | gpu_processes processes' =>
      exact (some_iff_replaced hs hsame).trans (or_congr_left (by rw [Sample.gpu_processes.injEq]))
    | _ => exact (or_iff_right fun h => by cases h).symm
  | processes processes =>
    cases sample' with
    | processes processes' => exact (some_iff_replaced hs hsame).trans (or_congr_left (by rw [Sample.processes.injEq]))
    | _ => exact (or_iff_right fun h => by cases h).symm
  | pid_users pid_users =>
    obtain ⟨users, husers⟩ := Option.isSome_iff_exists.1 (hwhole pid_users hs)
    unfold Latest.receive
    dsimp only
    rw [husers]
    cases sample' with
    | pid_users pid_users' => exact (some_iff_replaced hs hsame).trans (or_congr_left (by rw [Sample.pid_users.injEq]))
    | _ => exact (or_iff_right fun h => by cases h).symm

/-- A fresh state received what it was given, when that are the latest samples of something. -/
lemma mem_received {whole : Latest φ} (hwhole : whole.Received digits) {samples : List (Sample φ)}
    (h : ∀ sample ∈ samples, sample ∈ whole.samples) (sample : Sample φ) :
    sample ∈ (samples.foldl (Latest.receive digits) {}).samples ↔ sample ∈ samples := by
  induction samples using List.reverseRecOn generalizing sample with
  | nil => exact Iff.rfl
  | append_singleton samples last ih =>
    have hbefore := ih fun sample hs => h sample (List.mem_append_left [last] hs)
    rw [List.foldl_append, List.foldl_cons, List.foldl_nil, mem_receive hwhole _ (h last List.mem_concat_self), hbefore,
      List.mem_append, List.mem_singleton, or_comm]
    intro sample hs
    exact h sample (List.mem_append_left [last] ((hbefore sample).1 hs))

/-! ### The calls -/

lemma serverState_put (σ : TelemetryState φ) {state : ServerState φ} {server_id : Text}
    (h : state.server_id = server_id) : (σ.put state).serverState server_id = state := by
  subst h
  exact serverState_of_get (Table.get_set_self σ.servers state)

lemma serverState_bump (σ : TelemetryState φ) {state : ServerState φ} {server_id : Text}
    (h : state.server_id = server_id) (fleet : Bool) :
    ((σ.put state).bump server_id fleet).serverState server_id = { state with version := state.version + 1 } := by
  subst h
  refine serverState_of_get ?_
  rw [servers_put_bump]
  exact Table.get_set_self (σ.servers.set state) { state with version := state.version + 1 }

lemma serverState_other (σ : TelemetryState φ) {state : ServerState φ} {server_id s : Text}
    (h : state.server_id = server_id) (hs : s ≠ server_id) (fleet : Bool) :
    ((σ.put state).bump server_id fleet).serverState s = σ.serverState s := by
  subst h
  refine serverState_congr ?_
  rw [servers_put_bump, Table.get_set_of_ne _
    (show s ≠ ({ state with version := state.version + 1 } : ServerState φ).server_id from hs)]
  exact Table.get_set_of_ne σ.servers hs

/-- The version of a server does not show. -/
lemma tracks_bump {σ : TelemetryState φ} {raw state : ServerState φ} {server_id : Text} {fleet : Bool}
    (hid : state.server_id = server_id) (h : Tracks raw state) :
    Tracks raw (((σ.put state).bump server_id fleet).serverState server_id) := by
  rw [serverState_bump σ hid]
  exact ⟨⟨h.samples.gpus, h.samples.processes, h.samples.proc_meta, h.samples.pid_users⟩, h.gpu_processes,
    h.settled.congr rfl rfl rfl rfl rfl⟩

section
variable [Measure φ] {σ : TelemetryState φ}

/-- A call leaves the other servers alone. -/
lemma update_other {call : Call φ} {s : Text} (h : s ≠ call.server_id) :
    (update digits σ call).serverState s = σ.serverState s := by
  have hid := serverState_id σ call.server_id
  unfold update Call.operation
  cases call.sample with
  | gpus gpus => exact serverState_other σ (by exact hid) h true
  | gpu_processes processes => exact serverState_other σ (by exact hid) h false
  | processes processes => exact serverState_other σ (by exact hid) h false
  | pid_users pid_users =>
    show (TelemetryState.updatePidUsers σ digits.isDigit digits.toInt call.server_id pid_users).serverState s = _
    unfold TelemetryState.updatePidUsers
    dsimp only
    split
    · exact serverState_congr (Table.get_set_of_ne σ.servers (hid.symm ▸ h))
    · exact serverState_congr (Table.get_set_of_ne σ.servers (hid.symm ▸ h))

/-- What a call does that finds its server showing the samples of before. -/
lemma tracks_update {latest : Latest φ} {call : Call φ} (h : Tracks (latest.raw digits) (σ.serverState call.server_id))
    (hs : (∀ processes, call.sample ≠ .gpu_processes processes) →
      Steady (latest.raw digits) ((latest.receive digits call.sample).raw digits)) :
    Tracks ((latest.receive digits call.sample).raw digits) ((update digits σ call).serverState call.server_id) := by
  have hid := serverState_id σ call.server_id
  obtain ⟨hgpus, hprocesses, hmeta, husers⟩ := h.samples
  unfold update Call.operation
  cases hsample : call.sample with
  | gpus gpus =>
    rw [hsample] at hs
    exact tracks_bump (by exact hid) (h.steady (hs fun _ e => by cases e) rfl rfl ⟨rfl, hprocesses, hmeta, husers⟩)
  | gpu_processes processes =>
    exact tracks_bump (by exact hid) (tracks_correlate ⟨hgpus, hprocesses, hmeta, husers⟩ (List.Perm.refl _))
  | processes processes =>
    rw [hsample] at hs
    exact tracks_bump (by exact hid) (h.steady (hs fun _ e => by cases e) rfl rfl ⟨hgpus, rfl, rfl, husers⟩)
  | pid_users pid_users =>
    rw [hsample] at hs
    have hsteady := hs fun _ e => by cases e
    show Tracks _ ((TelemetryState.updatePidUsers σ digits.isDigit digits.toInt call.server_id pid_users).serverState _)
    unfold TelemetryState.updatePidUsers
    unfold Latest.receive at hsteady ⊢
    dsimp only at hsteady ⊢
    cases hprobe : TelemetryState.pidUsers digits.isDigit digits.toInt pid_users with
    | none =>
      dsimp only
      rw [serverState_put σ hid]
      exact h
    | some users =>
      rw [hprobe] at hsteady
      dsimp only at hsteady ⊢
      rw [serverState_put σ (by exact hid)]
      have husers' : users = (({ latest with pid_users := some pid_users } : Latest φ).raw digits).pid_users := by
        show users = (TelemetryState.pidUsers digits.isDigit digits.toInt pid_users).getD []
        rw [hprobe]
        rfl
      exact h.steady hsteady rfl rfl ⟨hgpus, hprocesses, hmeta, husers'⟩
/-! ### Runs -/

lemma tracks_none (server_id : Text) :
    Tracks (({} : Latest φ).raw digits) (({} : TelemetryState φ).serverState server_id) where
  samples := ⟨rfl, rfl, rfl, rfl⟩
  gpu_processes := List.Perm.refl _
  settled := settled_fresh server_id

/-- Every server shows its latest samples, when no sample takes a name back. -/
lemma tracks_run {calls : List (Call φ)} (h : ∀ pre call, pre ++ [call] <+: calls →
    (∀ processes, call.sample ≠ .gpu_processes processes) → Steady ((latest digits call.server_id pre).raw digits)
      (((latest digits call.server_id pre).receive digits call.sample).raw digits)) (server_id : Text) :
    Tracks ((latest digits server_id calls).raw digits)
      ((Machine.after (update digits) {} calls).serverState server_id) := by
  induction calls using List.reverseRecOn with
  | nil => exact tracks_none server_id
  | append_singleton calls call ih =>
    have hbefore := ih fun pre c hpre => h pre c (hpre.trans (List.prefix_append calls [call]))
    rw [Machine.after_append, latest_append]
    by_cases hid : call.server_id = server_id
    · subst hid
      rw [if_pos rfl]
      exact tracks_update hbefore (h calls call List.prefix_rfl)
    · rw [if_neg hid]
      show Tracks _ ((update digits _ call).serverState server_id)
      rw [update_other (Ne.symm hid)]
      exact hbefore

/-! ### A fresh state -/

/-- A state that receives one of the latest samples of a whole, after others of them. -/
lemma steady_receive {whole latest : Latest φ} (hfair : Fair (whole.raw digits)) (hwhole : whole.Received digits)
    (hl : ∀ sample, sample ∈ latest.samples → sample ∈ whole.samples) {sample : Sample φ}
    (hs : sample ∈ whole.samples) (hn : ∀ processes, sample ≠ .gpu_processes processes) :
    Steady (latest.raw digits) ((latest.receive digits sample).raw digits) := by
  have hgpu : ∀ processes, latest.gpu_processes = some processes → whole.gpu_processes = some processes :=
    fun processes h => (mem_samples whole (.gpu_processes processes)).1 (hl _ ((mem_samples latest _).2 h))
  have hprocesses : ∀ processes, latest.processes = some processes → whole.processes = some processes :=
    fun processes h => (mem_samples whole (.processes processes)).1 (hl _ ((mem_samples latest _).2 h))
  have husers : ∀ pid_users, latest.pid_users = some pid_users → whole.pid_users = some pid_users :=
    fun pid_users h => (mem_samples whole (.pid_users pid_users)).1 (hl _ ((mem_samples latest _).2 h))
  rw [mem_samples] at hs
  cases sample with
  | gpus gpus => exact steady_same rfl rfl rfl
  | gpu_processes processes => exact absurd rfl (hn processes)
  | processes processes =>
    dsimp only at hs
    cases hbefore : latest.processes with
    | some processes' =>
      cases Option.some.inj (hs.symm.trans (hprocesses processes' hbefore))
      have hraw : latest.receive digits (.processes processes) = latest := by
        cases latest
        simp only at hbefore
        rw [hbefore]
        rfl
      rw [hraw]
      exact steady_same rfl rfl rfl
    | none =>
      have hempty : (latest.raw digits).processes = [] ∧ (latest.raw digits).proc_meta = [] := by
        unfold Latest.raw
        dsimp only
        rw [hbefore]
        exact ⟨rfl, rfl⟩
      refine steady_processes hempty.1 hempty.2 rfl fun p hp hu hlisted user command hmeta => ?_
      unfold Latest.raw at hp hlisted hmeta ⊢
      unfold Fair Latest.raw at hfair
      rw [hs] at hfair
      dsimp only at hp hfair hlisted hmeta ⊢
      cases hq : latest.gpu_processes with
      | none =>
        rw [hq] at hp
        cases hp
      | some gpu_processes =>
        rw [hq] at hp
        rw [hgpu gpu_processes hq] at hfair
        cases hpid : latest.pid_users with
        | none => exact .inl rfl
        | some pid_users =>
          rw [husers pid_users hpid] at hfair
          exact hfair p hp hu hlisted user command hmeta
  | pid_users pid_users =>
    dsimp only at hs
    cases hbefore : latest.pid_users with
    | some pid_users' =>
      cases Option.some.inj (hs.symm.trans (husers pid_users' hbefore))
      have hraw : latest.receive digits (.pid_users pid_users) = latest := by
        unfold Latest.receive
        dsimp only
        split
        · rfl
        · cases latest
          simp only at hbefore
          rw [hbefore]
      rw [hraw]
      exact steady_same rfl rfl rfl
    | none =>
      obtain ⟨users, hprobe⟩ := Option.isSome_iff_exists.1 (hwhole pid_users hs)
      unfold Latest.receive
      dsimp only
      rw [hprobe]
      refine steady_pidUsers ?_
      unfold Latest.raw
      dsimp only
      rw [hbefore]
      rfl

/-- A fresh state that is given the latest samples of a whole shows them. -/
lemma tracks_fresh {whole : Latest φ} (hfair : Fair (whole.raw digits)) (hwhole : whole.Received digits)
    {server_id : Text} {fresh : List (Call φ)} (hid : ∀ call ∈ fresh, call.server_id = server_id)
    (hperm : (fresh.map Call.sample).Perm whole.samples) :
    Tracks (whole.raw digits) ((Machine.after (update digits) {} fresh).serverState server_id) := by
  have hlatest : ∀ pre, pre <+: fresh → latest digits server_id pre =
      (pre.map Call.sample).foldl (Latest.receive digits) {} := by
    intro pre hpre
    unfold latest
    rw [List.filter_eq_self.2 fun call hcall => decide_eq_true (hid call (hpre.subset hcall))]
  have hmem : ∀ pre, pre <+: fresh → ∀ sample ∈ pre.map Call.sample, sample ∈ whole.samples := by
    intro pre hpre sample hsample
    exact hperm.mem_iff.1 ((hpre.map Call.sample).subset hsample)
  have hwhole' : latest digits server_id fresh = whole := by
    refine latest_ext fun sample => ?_
    rw [hlatest fresh List.prefix_rfl, mem_received hwhole (hmem fresh List.prefix_rfl), hperm.mem_iff]
  suffices h : Tracks ((latest digits server_id fresh).raw digits) _ from hwhole' ▸ h
  refine tracks_run (fun pre call hpre hn => ?_) server_id
  have hbefore := (List.prefix_append pre [call]).trans hpre
  rw [hid call (hpre.subset List.mem_concat_self), hlatest pre hbefore]
  refine steady_receive hfair hwhole (fun sample hsample => ?_) (hmem _ hpre _ ?_) hn
  · exact hmem pre hbefore sample ((mem_received hwhole (hmem pre hbefore) sample).1 hsample)
  · exact List.mem_map_of_mem List.mem_concat_self

/-! ### The view is a function of the latest samples -/

/-- The condition carries over from the last sample of a server to the state after it. -/
lemma fine_latest {calls : List (Call φ)} (h : ∀ pre call, pre ++ [call] <+: calls →
    Fine digits (latest digits call.server_id pre) call.sample) (server_id : Text) :
    Fair ((latest digits server_id calls).raw digits) ∧ OneEach ((latest digits server_id calls).raw digits) := by
  induction calls using List.reverseRecOn with
  | nil => exact ⟨fun _ hp => absurd hp List.not_mem_nil, fun _ hp => absurd hp List.not_mem_nil⟩
  | append_singleton calls call ih =>
    have hbefore := ih fun pre c hpre => h pre c (hpre.trans (List.prefix_append calls [call]))
    rw [latest_append]
    split
    · rename_i hid
      have hfine := h calls call List.prefix_rfl
      rw [hid] at hfine
      exact ⟨hfine.fair, hfine.oneEach⟩
    · exact hbefore

theorem correlation_of_latest (digits : Digits) (calls : List (Call φ)) (h : ∀ pre call, pre ++ [call] <+: calls →
    Fine digits (latest digits call.server_id pre) call.sample) : ∀ pre, pre <+: calls → OfLatest digits pre := by
  intro pre hpre server_id
  have hpre' : ∀ before call, before ++ [call] <+: pre → Fine digits (latest digits call.server_id before) call.sample :=
    fun before call hb => h before call (hb.trans hpre)
  obtain ⟨hfair, hone⟩ := fine_latest hpre' server_id
  have htracks := tracks_run (fun before call hb => (hpre' before call hb).steady) server_id
  constructor
  · rw [htracks.view_eq]
    exact sums_shown hone
  · intro fresh hid hperm
    have hfresh := tracks_fresh hfair (received_latest server_id pre) hid hperm
    rw [hfresh.view_eq, htracks.view_eq]
end

/-- A GPU, a process of known owner on it, and a probe that names the same owner. -/
def ownedProcess : List (Call ℚ) :=
  [⟨['s'], .gpus [{ index := 0, uuid := some ['g'] }], 1⟩,
    ⟨['s'], .gpu_processes [{ pid := 7, gpu_uuid := some ['g'], user := some "alice".toList }], 2⟩,
    ⟨['s'], .pid_users [(['7'], "alice".toList)], 3⟩]

theorem correlation_of_latest_owned_process : OfLatest asciiDigits ownedProcess := by
  refine correlation_of_latest asciiDigits ownedProcess (fun pre call hpre => ?_) ownedProcess List.prefix_rfl
  cases pre with
  | nil =>
    obtain ⟨rfl, -⟩ := List.cons_prefix_cons.1 hpre
    refine ⟨fun _ p hp => ?_, fun p hp => ?_, fun p hp => ?_⟩
    · cases hp
    · cases hp
    · cases hp
  | cons first pre =>
    obtain ⟨rfl, hrest⟩ := List.cons_prefix_cons.1 hpre
    cases pre with
    | nil =>
      obtain ⟨rfl, -⟩ := List.cons_prefix_cons.1 hrest
      refine ⟨fun hn => absurd rfl (hn _), fun p hp hu => ?_, fun p hp i hi => ?_⟩
      · cases List.mem_singleton.1 hp
        cases hu
      · exact List.countP_le_length
    | cons second pre =>
      obtain ⟨rfl, hlast⟩ := List.cons_prefix_cons.1 hrest
      cases pre with
      | nil =>
        obtain ⟨rfl, -⟩ := List.cons_prefix_cons.1 hlast
        refine ⟨fun _ p hp hl => ?_, fun p hp hu => ?_, fun p hp i hi => ?_⟩
        · cases List.mem_singleton.1 hp
          exact ⟨rfl, rfl⟩
        · cases List.mem_singleton.1 hp
          cases hu
        · exact List.countP_le_length
      | cons third pre =>
        obtain ⟨-, hnone⟩ := List.cons_prefix_cons.1 hlast
        cases pre with
        | nil => cases List.prefix_nil.1 hnone
        | cons => cases List.prefix_nil.1 hnone

/-- A process of unknown owner, and two probes that name two: it stays the first one's. -/
def renamedOwner : List (Call ℚ) :=
  [⟨['s'], .gpu_processes [{ pid := 7 }], 1⟩, ⟨['s'], .pid_users [(['7'], "alice".toList)], 2⟩,
    ⟨['s'], .pid_users [(['7'], "bob".toList)], 3⟩]

theorem first_owner_stays : ¬OfLatest asciiDigits renamedOwner := by
  intro h
  have hview := (h ['s']).2
    [⟨['s'], .gpu_processes [{ pid := 7 }], 1⟩, ⟨['s'], .pid_users [(['7'], "bob".toList)], 3⟩] (fun call hcall => by
      rcases List.mem_pair.1 hcall with h | h
      · rw [h]
      · rw [h]) (List.Perm.refl _)
  exact absurd (congrArg CorrelatedView.gpu_processes hview) (by decide +kernel)

end SshGpuConsole.Telemetry
