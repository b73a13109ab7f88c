import SshGpuConsole.Telemetry.Views

/-!
# Revisions

What the operations of the telemetry state count as a change, against what `fleet_summary` and `snapshot` show.
Each operation chooses by hand whether it counts a revision, and for whom. They are right about it as long as no
operation changes what only its siblings are trusted to change (`Sound`) and no server comes back after it was
cleared (`NoReturn`); then whoever compares revisions misses nothing (`revisions_faithful`).
-/

namespace SshGpuConsole.Telemetry
open Shell (Text)
open Registry (ServerRecord)

variable {φ : Type}

/-! ### What an operation does -/

/-- One server changed, and a revision was counted. -/
structure Touched (σ σ' : TelemetryState φ) (state : ServerState φ) (fleet : Bool) : Prop where
  self : σ'.servers.get state.server_id = some { state with version := state.version + 1 }
  other : ∀ s, s ≠ state.server_id → σ'.servers.get s = σ.servers.get s
  fleet_revision : σ'.fleet_revision = σ.fleet_revision + if fleet then 1 else 0
  notified : σ'.notified = σ.notified + if σ.listener then 1 else 0
  version : state.version = σ.versionOf state.server_id

/-- A server that is put and bumped. -/
lemma servers_put_bump (σ : TelemetryState φ) (state : ServerState φ) (fleet : Bool) :
    ((σ.put state).bump state.server_id fleet).servers =
      (σ.servers.set state).set { state with version := state.version + 1 } := by
  have hget : (σ.put state).servers.get state.server_id = some state := Table.get_set_self σ.servers state
  unfold TelemetryState.bump TelemetryState.notify
  dsimp only
  rw [hget]
  rfl

lemma touched_bump (σ : TelemetryState φ) {state : ServerState φ} {server_id : Text} (hid : state.server_id = server_id)
    (hv : state.version = σ.versionOf server_id) (fleet : Bool) :
    Touched σ ((σ.put state).bump server_id fleet) state fleet := by
  subst hid
  have hservers := servers_put_bump σ state fleet
  refine ⟨?_, fun s hs => ?_, ?_, ?_, hv⟩
  · rw [hservers]
    exact Table.get_set_self (σ.servers.set state) { state with version := state.version + 1 }
  · rw [hservers, Table.get_set_of_ne _ (show s ≠ ({ state with version := state.version + 1 } : ServerState φ).server_id
      from hs)]
    exact Table.get_set_of_ne σ.servers hs
  · unfold TelemetryState.bump TelemetryState.notify TelemetryState.put
    cases fleet
    · rfl
    · rfl
  · unfold TelemetryState.bump TelemetryState.notify TelemetryState.put
    dsimp only
    split
    · rfl
    · rfl

/-- What an operation does that counts its changes right. -/
inductive Effect [Measure φ] (σ σ' : TelemetryState φ) : Prop
  /-- a server changed, for the fleet or not -/
  | touched (state : ServerState φ) (fleet : Bool) (ht : Touched σ σ' state fleet) (hs : Settled state)
    (hf : fleet = true ∨ ∀ record, (state.fleetEntry record).content =
      ((σ.serverState state.server_id).fleetEntry record).content)
  /-- nothing changed that the views show -/
  | kept (hrev : σ'.fleet_revision = σ.fleet_revision)
    (hget : ∀ s, σ'.servers.get s = σ.servers.get s ∨ ∃ state state', σ.servers.get s = some state ∧
      σ'.servers.get s = some state' ∧ state'.content = state.content ∧ state'.version = state.version ∧ Settled state' ∧
      ∀ record, (state'.fleetEntry record).content = (state.fleetEntry record).content)
  /-- servers were cleared -/
  | cleared (gone : List Text) (hget : ∀ s, σ'.servers.get s = if s ∈ gone then none else σ.servers.get s)
    (hrev : σ'.fleet_revision = σ.fleet_revision + gone.length)
    (hnotified : σ'.notified = σ.notified + if σ.listener then gone.length else 0)

/-- The condition under which an operation counts its changes right. -/
def Sound [Measure φ] (digits : Digits) (σ : TelemetryState φ) : Operation φ → Prop
  -- the first status of a server, when it is the one a server starts with, counts no revision
  | .setStatus server_id status detail _ => σ.has server_id = true ∨ status ≠ .unknown ∨ detail ≠ []
  -- the owners of GPU processes count none either
  | .updatePidUsers server_id pid_users => σ.has server_id = true ∧
    ∀ users, TelemetryState.pidUsers digits.isDigit digits.toInt pid_users = some users →
      NamesNobody (σ.serverState server_id) users
  -- and these count none for the fleet
  | .updateGpuProcesses server_id processes _ =>
    ({ σ.serverState server_id with gpu_processes := processes.take 4096 }.correlate).owners =
      (σ.serverState server_id).owners
  | .updateProcesses server_id processes _ =>
    ({ σ.serverState server_id with
        processes := processes.take 250
        proc_meta := .ofItems ((processes.take 2048).map fun (p : ProcessInfo φ) => (p.pid, p.user, p.command))
      }.correlate).owners = (σ.serverState server_id).owners
  | .updateStorage server_id mounts _ =>
    diskWarning (mounts.take 512) = diskWarning (σ.serverState server_id).storage
  | _ => True

/-- Every server is settled. -/
def AllSettled (σ : TelemetryState φ) : Prop := ∀ s state, σ.servers.get s = some state → Settled state

lemma AllSettled.serverState {σ : TelemetryState φ} (h : AllSettled σ) (server_id : Text) :
    Settled (σ.serverState server_id) := by
  unfold TelemetryState.serverState
  cases hs : σ.servers.get server_id with
  | none => exact settled_fresh server_id
  | some state => exact h server_id state hs

/-- To put back what is there changes nothing. -/
lemma put_serverState {σ : TelemetryState φ} {server_id : Text} (h : σ.has server_id = true) :
    σ.put (σ.serverState server_id) = σ := by
  obtain ⟨state, hstate⟩ := Option.isSome_iff_exists.1 h
  have hself : σ.servers.set state = σ.servers := Table.set_self (Table.get_eq_some.1 hstate).1
  unfold TelemetryState.serverState
  rw [hstate, Option.getD_some, TelemetryState.put, hself]

/-- A server that was not there starts as it is given here. -/
lemma serverState_fresh {σ : TelemetryState φ} {server_id : Text} (h : ¬σ.has server_id = true) : σ.serverState server_id = { server_id } := by
  unfold TelemetryState.serverState
  rw [Option.not_isSome_iff_eq_none.1 h]
  rfl

lemma effect_clear (σ : TelemetryState φ) (server_id : Text) :
    (∀ s, (σ.clear server_id).servers.get s = if s = server_id then none else σ.servers.get s) ∧
      (σ.clear server_id).fleet_revision = σ.fleet_revision + 1 ∧
      (σ.clear server_id).notified = σ.notified + (if σ.listener then 1 else 0) ∧
      (σ.clear server_id).listener = σ.listener := by
  refine ⟨fun s => ?_, rfl, ?_, rfl⟩
  · show (σ.servers.erase server_id).get s = _
    split
    · rename_i hs
      rw [hs]
      exact Table.get_erase_self _ _
    · exact Table.get_erase_of_ne _ ‹_›
  · unfold TelemetryState.clear TelemetryState.notify
    dsimp only
    split
    · rfl
    · rfl

/-- Clearing servers one after the other. -/
lemma effect_clears (gone : List Text) (σ : TelemetryState φ) :
    (∀ s, (gone.foldl TelemetryState.clear σ).servers.get s = if s ∈ gone then none else σ.servers.get s) ∧
      (gone.foldl TelemetryState.clear σ).fleet_revision = σ.fleet_revision + gone.length ∧
      (gone.foldl TelemetryState.clear σ).notified = σ.notified + (if σ.listener then gone.length else 0) := by
  induction gone generalizing σ with
  | nil => exact ⟨fun s => by rw [if_neg List.not_mem_nil]; rfl, rfl, by simp⟩
  | cons server_id gone ih =>
    obtain ⟨hget, hrev, hnotified⟩ := ih (σ.clear server_id)
    obtain ⟨hget', hrev', hnotified', hlistener⟩ := effect_clear σ server_id
    rw [List.foldl_cons, List.length_cons]
    refine ⟨fun s => ?_, by rw [hrev, hrev']; omega, ?_⟩
    · rw [hget, hget']
      by_cases hs : s = server_id
      · subst hs
        simp
      · simp [hs]
    · rw [hnotified, hnotified', hlistener]
      split
      · omega
      · rfl

section
variable [Measure φ] {digits : Digits} {σ : TelemetryState φ} {server_id : Text}

lemma Effect.same : Effect σ σ := .kept rfl fun _ => .inl rfl

/-- What `_get` returned, with the GPUs and the processes as they were. -/
structure Resembles (σ : TelemetryState φ) (server_id : Text) (state : ServerState φ) : Prop where
  id : state.server_id = server_id
  version : state.version = (σ.serverState server_id).version
  gpus : state.gpus = (σ.serverState server_id).gpus
  gpu_processes : state.gpu_processes = (σ.serverState server_id).gpu_processes
  processes : state.processes = (σ.serverState server_id).processes
  proc_meta : state.proc_meta = (σ.serverState server_id).proc_meta
  pid_users : state.pid_users = (σ.serverState server_id).pid_users

/-- Another section is replaced. -/
lemma Effect.section {state : ServerState φ} {fleet : Bool} (h : AllSettled σ) (hr : Resembles σ server_id state)
    (hf : fleet = true ∨ ∀ record, (state.fleetEntry record).content =
      ((σ.serverState server_id).fleetEntry record).content) :
    Effect σ ((σ.put state).bump server_id fleet) :=
  .touched state fleet (touched_bump σ hr.id (hr.version.trans (serverState_version σ server_id)) fleet)
    ((h.serverState server_id).congr hr.gpus hr.gpu_processes hr.processes hr.proc_meta hr.pid_users)
    (by rw [hr.id]; exact hf)

lemma effect_setStatus (h : AllSettled σ) {status : ServerStatus} {detail : Text} {now : Stamp}
    (hs : Sound digits σ (.setStatus server_id status detail now)) :
    Effect σ (σ.setStatus server_id status detail now) := by
  unfold TelemetryState.setStatus
  dsimp only
  split
  · rename_i hsame
    have hhas : σ.has server_id = true := by
      by_contra hnone
      rw [serverState_fresh hnone] at hsame
      rcases hs with hhas | hstatus | hdetail
      · exact hnone hhas
      · exact hstatus hsame.1.symm
      · exact hdetail hsame.2.symm
    rw [put_serverState hhas]
    exact .same
  · apply Effect.section h
    · exact ⟨serverState_id σ server_id, rfl, rfl, rfl, rfl, rfl, rfl⟩
    · exact .inl rfl

/-- What a sample of processes is correlated with, the rest as `_get` returned it. -/
structure Sampled (σ : TelemetryState φ) (server_id : Text) (state : ServerState φ) : Prop where
  id : state.server_id = server_id
  version : state.version = (σ.serverState server_id).version
  status : state.status = (σ.serverState server_id).status
  system : state.system = (σ.serverState server_id).system
  cpu : state.cpu = (σ.serverState server_id).cpu
  memory : state.memory = (σ.serverState server_id).memory
  gpus : state.gpus = (σ.serverState server_id).gpus
  storage : state.storage = (σ.serverState server_id).storage

/-- Processes are sampled, and the users of the GPUs are those before. -/
lemma Effect.sampled {state : ServerState φ} (hr : Sampled σ server_id state)
    (howners : state.correlate.owners = (σ.serverState server_id).owners) :
    Effect σ ((σ.put state.correlate).bump server_id false) := by
  have hv := hr.version.trans (serverState_version σ server_id)
  refine .touched state.correlate false (touched_bump σ (show state.correlate.server_id = server_id from hr.id) hv false)
    (settled_correlate state) (.inr fun record => ?_)
  have hlanes := lanes_correlate state
  rw [hr.gpus] at hlanes
  rw [show state.correlate.server_id = server_id from hr.id]
  apply fleetEntry_congr
  · exact hr.status
  · exact hr.system
  · exact hr.cpu
  · exact hr.memory
  · exact hlanes
  · exact howners
  · exact congrArg diskWarning hr.storage

/-- GPUs are sampled. -/
lemma Effect.gpus {state : ServerState φ} (hid : state.server_id = server_id)
    (hv : state.version = (σ.serverState server_id).version) :
    Effect σ ((σ.put state.correlate).bump server_id true) := by
  have hv' := hv.trans (serverState_version σ server_id)
  exact .touched state.correlate true (touched_bump σ (show state.correlate.server_id = server_id from hid) hv' true)
    (settled_correlate state) (.inl rfl)

lemma effect_pidUsers (h : AllSettled σ) {pid_users : List (Text × Text)}
    (hs : Sound digits σ (.updatePidUsers server_id pid_users)) :
    Effect σ (σ.updatePidUsers digits.isDigit digits.toInt server_id pid_users) := by
  obtain ⟨hhas, hnobody⟩ := hs
  unfold TelemetryState.updatePidUsers
  dsimp only
  split
  · rw [put_serverState hhas]
    exact .same
  · rename_i users husers
    have hsettled := (h.serverState server_id).pidUsers (hnobody users husers)
    rw [hsettled.correlate]
    refine .kept rfl fun s => ?_
    obtain ⟨state, hstate⟩ := Option.isSome_iff_exists.1 hhas
    have hstate' : σ.serverState server_id = state := by
      unfold TelemetryState.serverState
      rw [hstate, Option.getD_some]
    rw [hstate'] at hsettled ⊢
    have hid : state.server_id = server_id := Table.key_of_get hstate
    by_cases hsid : s = server_id
    · subst hsid
      refine .inr ⟨state, { state with pid_users := users }, hstate, ?_, rfl, rfl, hsettled, fun record => rfl⟩
      have hself := Table.get_set_self σ.servers { state with pid_users := users }
      rw [← hid]
      exact hself
    · rw [← hid] at hsid
      exact .inl (Table.get_set_of_ne σ.servers hsid)

/-- The samples of the network counters are in neither view. -/
lemma Effect.of_net_prev {net_prev : Dict Text (Dict Text (φ × ℤ × ℤ))} {σ' : TelemetryState φ}
    (h : Effect { σ with net_prev } σ') : Effect σ σ' := by
  cases h with
  | touched state fleet ht hs hf =>
    exact .touched state fleet ⟨ht.self, ht.other, ht.fleet_revision, ht.notified, ht.version⟩ hs hf
  | kept hrev hget => exact .kept hrev hget
  | cleared gone hget hrev hnotified => exact .cleared gone hget hrev hnotified

lemma effect_setError (h : AllSettled σ) (server_id name code : Text) : Effect σ (σ.setError server_id name code) := by
  unfold TelemetryState.setError
  split
  · exact .same
  dsimp only
  split
  · apply Effect.section h
    · exact ⟨serverState_id σ server_id, rfl, rfl, rfl, rfl, rfl, rfl⟩
    · exact .inl rfl
  split
  · apply Effect.section h
    · exact ⟨serverState_id σ server_id, rfl, rfl, rfl, rfl, rfl, rfl⟩
    · exact .inl rfl
  · rename_i hsame
    have hhas : σ.has server_id = true := by
      by_contra hnone
      rw [serverState_fresh hnone] at hsame
      exact hsame fun hget => by cases hget
    rw [put_serverState hhas]
    exact .same

/-- What a sound operation does. -/
lemma effect_apply (h : AllSettled σ) {op : Operation φ} (hs : Sound digits σ op) : Effect σ (σ.apply digits op) := by
  cases op with
  | setListener set => exact .kept rfl fun _ => .inl rfl
  | setStatus server_id status detail now => exact effect_setStatus h hs
  | updateCpu server_id cpu now =>
    apply Effect.section h
    · exact ⟨serverState_id σ server_id, rfl, rfl, rfl, rfl, rfl, rfl⟩
    · exact .inl rfl
  | updateMemory server_id memory now =>
    apply Effect.section h
    · exact ⟨serverState_id σ server_id, rfl, rfl, rfl, rfl, rfl, rfl⟩
    · exact .inl rfl
  | updateSystem server_id system now =>
    apply Effect.section h
    · exact ⟨serverState_id σ server_id, rfl, rfl, rfl, rfl, rfl, rfl⟩
    · exact .inl rfl
  | updateGpus server_id gpus now =>
    apply Effect.gpus
    · exact serverState_id σ server_id
    · rfl
  | updatePidUsers server_id pid_users => exact effect_pidUsers h hs
  | updateGpuProcesses server_id processes now =>
    apply Effect.sampled
    · exact ⟨serverState_id σ server_id, rfl, rfl, rfl, rfl, rfl, rfl, rfl⟩
    · exact hs
  | updateProcesses server_id processes now =>
    apply Effect.sampled
    · exact ⟨serverState_id σ server_id, rfl, rfl, rfl, rfl, rfl, rfl, rfl⟩
    · exact hs
  | updateStorage server_id mounts now =>
    apply Effect.section h
    · exact ⟨serverState_id σ server_id, rfl, rfl, rfl, rfl, rfl, rfl⟩
    · exact .inr (fleetEntry_congr rfl rfl rfl rfl rfl rfl hs)
  | updateNetwork server_id interfaces monotonic now =>
    apply Effect.of_net_prev
    apply Effect.section
    · exact h
    · exact ⟨serverState_id σ server_id, rfl, rfl, rfl, rfl, rfl, rfl⟩
    · exact .inr fun record => rfl
  | setError server_id name code => exact effect_setError h server_id name code
  | clearError server_id name => exact effect_setError h server_id name []
  | clear server_id =>
    obtain ⟨hget, hrev, hnotified, -⟩ := effect_clear σ server_id
    exact .cleared [server_id] (fun s => by rw [show σ.apply digits (.clear server_id) = σ.clear server_id from rfl, hget]; simp) hrev hnotified
  | prune keep =>
    obtain ⟨hget, hrev, hnotified⟩ := effect_clears (σ.serverIds.filter fun server_id => !keep.contains server_id) σ
    exact .cleared _ hget hrev hnotified

end

/-! ### What whoever compares revisions sees -/

section
variable {σ σ' : TelemetryState φ}

lemma serverState_of_get {server_id : Text} {state : ServerState φ} (h : σ.servers.get server_id = some state) :
    σ.serverState server_id = state := by
  unfold TelemetryState.serverState
  rw [h, Option.getD_some]

lemma versionOf_of_get {server_id : Text} {state : ServerState φ} (h : σ.servers.get server_id = some state) :
    σ.versionOf server_id = state.version := by
  unfold TelemetryState.versionOf
  rw [h]
  rfl

lemma serverState_congr {server_id : Text} (h : σ'.servers.get server_id = σ.servers.get server_id) :
    σ'.serverState server_id = σ.serverState server_id := by
  unfold TelemetryState.serverState
  rw [h]

end

/-- An operation counts what it changes in the views. -/
structure Counted [Measure φ] (σ σ' : TelemetryState φ) : Prop where
  fleet : ∀ records now now', (σ'.fleetSummary records now').content ≠ (σ.fleetSummary records now).content →
    σ.fleet_revision < σ'.fleet_revision
  snapshot : ∀ stale_after server_id now now',
    (σ'.snapshot stale_after server_id now').map ServerSnapshot.content ≠
      (σ.snapshot stale_after server_id now).map ServerSnapshot.content →
    σ'.versionOf server_id ≠ σ.versionOf server_id ∧ (σ.listener = true → σ.notified < σ'.notified)

/-- What is known about a state and the states before it. -/
structure Ledger [Measure φ] (past : List (TelemetryState φ)) (σ : TelemetryState φ) : Prop where
  settled : AllSettled σ
  /-- A server that is there has a version of its own. -/
  versioned : ∀ s state, σ.servers.get s = some state → 0 < state.version
  fleet : ∀ τ ∈ past, τ.fleet_revision ≤ σ.fleet_revision ∧ (τ.fleet_revision = σ.fleet_revision →
    ∀ record, ((τ.serverState record.server_id).fleetEntry record).content =
      ((σ.serverState record.server_id).fleetEntry record).content)
  versions : ∀ τ ∈ past, ∀ s old state, τ.servers.get s = some old → σ.servers.get s = some state →
    old.version ≤ state.version ∧ (old.version = state.version → old.content = state.content)

section
variable [Measure φ] {digits : Digits} {σ σ' : TelemetryState φ} {past : List (TelemetryState φ)}

/-- The revision of the fleet counts the changes of its entries. -/
lemma Effect.fleet (h : Effect σ σ') : σ.fleet_revision ≤ σ'.fleet_revision ∧
    (σ.fleet_revision = σ'.fleet_revision → ∀ record,
      ((σ.serverState record.server_id).fleetEntry record).content =
        ((σ'.serverState record.server_id).fleetEntry record).content) := by
  cases h with
  | touched state fleet ht hs hf =>
    rw [ht.fleet_revision]
    refine ⟨Nat.le_add_right _ _, fun heq record => ?_⟩
    by_cases hid : record.server_id = state.server_id
    · cases hf with
      | inl hfleet =>
        subst hfleet
        simp at heq
      | inr hsame =>
        rw [hid, serverState_of_get ht.self, ← hsame record]
        rfl
    · rw [serverState_congr (ht.other _ hid)]
  | kept hrev hget =>
    refine ⟨hrev.ge, fun _ record => ?_⟩
    cases hget record.server_id with
    | inl hsame => rw [serverState_congr hsame]
    | inr hchanged =>
      obtain ⟨state, state', hold, hnew, -, -, -, hentry⟩ := hchanged
      rw [serverState_of_get hold, serverState_of_get hnew, hentry]
  | cleared gone hget hrev hnotified =>
    rw [hrev]
    refine ⟨Nat.le_add_right _ _, fun heq record => ?_⟩
    have hnil : gone = [] := List.length_eq_zero_iff.1 (by omega)
    subst hnil
    have hsame : σ'.servers.get record.server_id = σ.servers.get record.server_id := by
      rw [hget, if_neg List.not_mem_nil]
    rw [serverState_congr hsame]

/-- The version of a server counts the changes of its snapshots, and the listener hears of them. -/
lemma Effect.snapshot (h : Effect σ σ') (hversioned : ∀ s state, σ.servers.get s = some state → 0 < state.version)
    {server_id : Text} (hne : (σ'.servers.get server_id).map ServerState.content ≠
      (σ.servers.get server_id).map ServerState.content) :
    σ'.versionOf server_id ≠ σ.versionOf server_id ∧ (σ.listener = true → σ.notified < σ'.notified) := by
  cases h with
  | touched state fleet ht hs hf =>
    have hid : server_id = state.server_id := by
      by_contra hid
      exact hne (by rw [ht.other _ hid])
    subst hid
    rw [versionOf_of_get ht.self, ← ht.version, ht.notified]
    refine ⟨Nat.succ_ne_self _, fun hlistener => ?_⟩
    rw [if_pos hlistener]
    exact Nat.lt_succ_self _
  | kept hrev hget =>
    cases hget server_id with
    | inl hsame => exact absurd (by rw [hsame]) hne
    | inr hchanged =>
      obtain ⟨state, state', hold, hnew, hcontent, -, -, -⟩ := hchanged
      rw [hold, hnew, Option.map_some, Option.map_some, hcontent] at hne
      exact absurd rfl hne
  | cleared gone hget hrev hnotified =>
    have hgone : server_id ∈ gone := by
      by_contra hnot
      rw [hget, if_neg hnot] at hne
      exact hne rfl
    have hnone : σ'.servers.get server_id = none := by rw [hget, if_pos hgone]
    refine ⟨?_, fun hlistener => ?_⟩
    · cases hold : σ.servers.get server_id with
      | none =>
        rw [hnone, hold] at hne
        exact absurd rfl hne
      | some state =>
        rw [versionOf_of_get hold, TelemetryState.versionOf, hnone]
        exact (hversioned server_id state hold).ne
    · rw [hnotified, if_pos hlistener]
      have hpos := List.length_pos_of_mem hgone
      omega

lemma Effect.counted (h : Effect σ σ') (hversioned : ∀ s state, σ.servers.get s = some state → 0 < state.version) :
    Counted σ σ' where
  fleet records now now' hne := by
    obtain ⟨hle, hsame⟩ := h.fleet
    refine lt_of_le_of_ne hle fun heq => hne ?_
    rw [fleetSummary_content, fleetSummary_content]
    exact List.map_congr_left fun record _ => (hsame heq record).symm
  snapshot stale_after server_id now now' hne := by
    rw [snapshot_content, snapshot_content] at hne
    exact h.snapshot hversioned hne

/-- Where the servers of a state come from. -/
lemma Effect.servers (h : Effect σ σ') {s : Text} {state' : ServerState φ} (hs : σ'.servers.get s = some state') :
    (σ.servers.get s = none ∧ Settled state' ∧ 0 < state'.version) ∨
      ∃ state, σ.servers.get s = some state ∧ (Settled state → Settled state') ∧
        (state.version < state'.version ∨ state'.version = state.version ∧ state'.content = state.content) := by
  cases h with
  | touched state fleet ht hsettled hf =>
    by_cases hid : s = state.server_id
    · subst hid
      rw [ht.self] at hs
      cases hs
      have hsettled' : Settled ({ state with version := state.version + 1 } : ServerState φ) :=
        hsettled.congr rfl rfl rfl rfl rfl
      cases hold : σ.servers.get state.server_id with
      | none => exact .inl ⟨rfl, hsettled', Nat.succ_pos _⟩
      | some old =>
        refine .inr ⟨old, rfl, fun _ => hsettled', .inl ?_⟩
        rw [← versionOf_of_get hold, ← ht.version]
        exact Nat.lt_succ_self _
    · rw [ht.other s hid] at hs
      exact .inr ⟨state', hs, id, .inr ⟨rfl, rfl⟩⟩
  | kept hrev hget =>
    cases hget s with
    | inl hsame =>
      rw [hsame] at hs
      exact .inr ⟨state', hs, id, .inr ⟨rfl, rfl⟩⟩
    | inr hchanged =>
      obtain ⟨state, new, hold, hnew, hcontent, hversion, hsettled, -⟩ := hchanged
      rw [hnew] at hs
      cases hs
      exact .inr ⟨state, hold, fun _ => hsettled, .inr ⟨hversion, hcontent⟩⟩
  | cleared gone hget hrev hnotified =>
    rw [hget] at hs
    split at hs
    · cases hs
    · exact .inr ⟨state', hs, id, .inr ⟨rfl, rfl⟩⟩

/-- An operation brings no server back that was there before. -/
def Fresh (past : List (TelemetryState φ)) (σ σ' : TelemetryState φ) : Prop :=
  ∀ s, σ.has s = false → σ'.has s = true → ∀ τ ∈ past, τ.has s = false

/-- A sound operation that brings no server back keeps the ledger. -/
lemma Ledger.step (h : Ledger past σ) (he : Effect σ σ') (hf : Fresh past σ σ') : Ledger (σ :: past) σ' where
  settled s state hs := by
    rcases he.servers hs with ⟨-, hsettled, -⟩ | ⟨old, hold, hsettled, -⟩
    · exact hsettled
    · exact hsettled (h.settled s old hold)
  versioned s state hs := by
    rcases he.servers hs with ⟨-, -, hpos⟩ | ⟨old, hold, -, hlt | ⟨heq, -⟩⟩
    · exact hpos
    · exact Nat.zero_lt_of_lt hlt
    · rw [heq]
      exact h.versioned s old hold
  fleet τ hτ := by
    obtain ⟨hle, hsame⟩ := he.fleet
    cases hτ with
    | head => exact ⟨hle, hsame⟩
    | tail _ hτ =>
      obtain ⟨hle', hsame'⟩ := h.fleet τ hτ
      refine ⟨hle'.trans hle, fun heq record => ?_⟩
      rw [hsame' (le_antisymm hle' (heq ▸ hle)) record]
      exact hsame (le_antisymm hle (heq ▸ hle')) record
  versions τ hτ s old state hold hs := by
    rcases he.servers hs with ⟨hnone, -, -⟩ | ⟨mid, hmid, -, hchange⟩
    · cases hτ with
      | head =>
        rw [hnone] at hold
        cases hold
      | tail _ hτ =>
        have hgone := hf s (by rw [TelemetryState.has, hnone]; rfl) (by rw [TelemetryState.has, hs]; rfl) τ hτ
        rw [TelemetryState.has, hold] at hgone
        cases hgone
    · have hmids : old.version ≤ mid.version ∧ (old.version = mid.version → old.content = mid.content) := by
        cases hτ with
        | head =>
          rw [hmid] at hold
          cases hold
          exact ⟨le_rfl, fun _ => rfl⟩
        | tail _ hτ => exact h.versions τ hτ s old mid hold hmid
      rcases hchange with hlt | ⟨heq, hcontent⟩
      · exact ⟨hmids.1.trans hlt.le, fun h => absurd h (hmids.1.trans_lt hlt).ne⟩
      · rw [heq, hcontent]
        exact hmids

lemma ledger_init : Ledger [] ({} : TelemetryState φ) where
  settled := fun _ _ h => by cases h
  versioned := fun _ _ h => by cases h
  fleet := fun _ h => absurd h List.not_mem_nil
  versions := fun _ h => absurd h List.not_mem_nil

/-! ### Whole runs -/

/-- The state after a sequence of operations. -/
def after (digits : Digits) (ops : List (Operation φ)) : TelemetryState φ := ops.foldl (TelemetryState.apply digits) {}

lemma after_append (ops : List (Operation φ)) (op : Operation φ) :
    after digits (ops ++ [op]) = (after digits ops).apply digits op := by
  rw [after, List.foldl_append, after]
  rfl

/-- Every operation is sound where it comes. -/
def AllSound (digits : Digits) (ops : List (Operation φ)) : Prop :=
  ∀ pre op, pre ++ [op] <+: ops → Sound digits (after digits pre) op

/-- No server comes back after it was cleared. -/
def NoReturn (digits : Digits) (ops : List (Operation φ)) : Prop :=
  ∀ pre op, pre ++ [op] <+: ops → ∀ s, (after digits pre).has s = false → (after digits (pre ++ [op])).has s = true →
    ∀ earlier, earlier <+: pre → (after digits earlier).has s = false

/-- Revisions are faithful over a run: each operation counts what it changes, and a version stands for one content. -/
structure Faithful (digits : Digits) (ops : List (Operation φ)) : Prop where
  counted : ∀ pre op, pre ++ [op] <+: ops → Counted (after digits pre) (after digits (pre ++ [op]))
  versions : ∀ pre pre', pre <+: ops → pre' <+: ops → ∀ server_id, (after digits pre).has server_id = true →
    (after digits pre').has server_id = true →
    (after digits pre).versionOf server_id = (after digits pre').versionOf server_id →
    ∀ stale_after now now', ((after digits pre).snapshot stale_after server_id now).map ServerSnapshot.content =
      ((after digits pre').snapshot stale_after server_id now').map ServerSnapshot.content

lemma AllSound.of_earlier {pre ops : List (Operation φ)} (h : AllSound digits ops) (hp : pre <+: ops) :
    AllSound digits pre := fun p op hop => h p op (hop.trans hp)

lemma NoReturn.of_earlier {pre ops : List (Operation φ)} (h : NoReturn digits ops) (hp : pre <+: ops) :
    NoReturn digits pre := fun p op hop => h p op (hop.trans hp)

/-- The ledger of a run, over the states before. -/
lemma ledger_run {ops : List (Operation φ)} (h : AllSound digits ops) (hr : NoReturn digits ops) :
    ∃ past, Ledger past (after digits ops) ∧ (∀ τ ∈ past, ∃ pre, pre <+: ops ∧ τ = after digits pre) ∧
      ∀ pre, pre <+: ops → pre ≠ ops → after digits pre ∈ past := by
  induction ops using List.reverseRecOn with
  | nil => exact ⟨[], ledger_init, fun _ h => absurd h List.not_mem_nil, fun pre hp hne => absurd (List.prefix_nil.1 hp) hne⟩
  | append_singleton ops op ih =>
    have hprefix : ops <+: ops ++ [op] := List.prefix_append ops [op]
    obtain ⟨past, hledger, hpast, hmem⟩ := ih (h.of_earlier hprefix) (hr.of_earlier hprefix)
    have heffect := effect_apply hledger.settled (h ops op List.prefix_rfl)
    have hfresh : Fresh past (after digits ops) ((after digits ops).apply digits op) := by
      intro s hnone hsome τ hτ
      obtain ⟨pre, hp, rfl⟩ := hpast τ hτ
      rw [← after_append] at hsome
      exact hr ops op List.prefix_rfl s hnone hsome pre hp
    rw [after_append]
    refine ⟨after digits ops :: past, hledger.step heffect hfresh, fun τ hτ => ?_, fun pre hp hne => ?_⟩
    · cases hτ with
      | head => exact ⟨ops, hprefix, rfl⟩
      | tail _ hτ =>
        obtain ⟨pre, hp, rfl⟩ := hpast τ hτ
        exact ⟨pre, hp.trans hprefix, rfl⟩
    · rcases List.prefix_concat_iff.1 hp with heq | hp'
      · exact absurd heq hne
      · by_cases heq : pre = ops
        · rw [heq]
          exact List.mem_cons_self
        · exact List.mem_cons_of_mem _ (hmem pre hp' heq)

/-- Of two moments of a run the later one has the content of the earlier one, when it has its version. -/
lemma versions_of_earlier {pre ops : List (Operation φ)} (h : AllSound digits ops) (hr : NoReturn digits ops)
    (hp : pre <+: ops) {server_id : Text} (hpre : (after digits pre).has server_id = true)
    (hops : (after digits ops).has server_id = true)
    (hv : (after digits pre).versionOf server_id = (after digits ops).versionOf server_id) :
    ((after digits pre).servers.get server_id).map ServerState.content =
      ((after digits ops).servers.get server_id).map ServerState.content := by
  by_cases heq : pre = ops
  · rw [heq]
  obtain ⟨past, hledger, -, hmem⟩ := ledger_run h hr
  obtain ⟨old, hold⟩ := Option.isSome_iff_exists.1 hpre
  obtain ⟨state, hstate⟩ := Option.isSome_iff_exists.1 hops
  rw [versionOf_of_get hold, versionOf_of_get hstate] at hv
  rw [hold, hstate, Option.map_some, Option.map_some, (hledger.versions _ (hmem pre hp heq) _ _ _ hold hstate).2 hv]

lemma faithful_of_sound {ops : List (Operation φ)} (h : AllSound digits ops) (hr : NoReturn digits ops) :
    Faithful digits ops where
  counted pre op hp := by
    have hpre : pre <+: ops := (List.prefix_append pre [op]).trans hp
    obtain ⟨past, hledger, -, -⟩ := ledger_run (h.of_earlier hpre) (hr.of_earlier hpre)
    rw [after_append]
    exact (effect_apply hledger.settled (h pre op hp)).counted hledger.versioned
  versions pre pre' hp hp' server_id hhas hhas' hv stale_after now now' := by
    rw [snapshot_content, snapshot_content]
    cases List.prefix_or_prefix_of_prefix hp hp' with
    | inl hle => exact versions_of_earlier (h.of_earlier hp') (hr.of_earlier hp') hle hhas hhas' hv
    | inr hle => exact (versions_of_earlier (h.of_earlier hp) (hr.of_earlier hp) hle hhas' hhas hv.symm).symm

end

/-! ### Operations that are not sound -/

/-- A probe that names a process whose owner nobody knew changes what the snapshot shows of it. -/
lemma namesNobody_of_content {state : ServerState φ} {pid_users : Dict ℤ Text}
    (h : ({ state with pid_users } : ServerState φ).correlate.content = state.content) : NamesNobody state pid_users := by
  intro p hp huser hgeneral hmeta
  have hsame : ({ state with pid_users } : ServerState φ).correlate.gpu_processes = state.gpu_processes :=
    congrArg ServerSnapshot.gpu_processes h
  rw [← hsame] at hp
  have hp' := correlated_of_mem hp
  have huser' := congrArg GpuProcessInfo.user hp'
  rw [huser] at huser'
  have hlocated : (p.located ({ state with pid_users } : ServerState φ).byUuid).user = none := by
    rw [← huser]
    unfold GpuProcessInfo.located
    split
    · split
      · rfl
      · rfl
    · rfl
  have hpid := located_pid ({ state with pid_users } : ServerState φ).byUuid p
  have hnone : (state.processes.reverse.find? fun general => general.pid = p.pid) = none := by
    rw [List.find?_eq_none]
    intro general hm hpid
    exact hgeneral general (List.mem_reverse.1 hm) (of_decide_eq_true hpid)
  unfold ServerState.correlated GpuProcessInfo.owned at huser'
  rw [hpid] at huser'
  dsimp only at huser'
  rw [hnone, hmeta] at huser'
  dsimp only at huser'
  rw [hlocated] at huser'
  exact huser'

section
variable [Measure φ] {digits : Digits} {σ : TelemetryState φ} {server_id : Text}

/-- A server that comes without a revision goes unnoticed. -/
lemma has_of_counted {state : ServerState φ} (h : Counted σ (σ.put state)) (hid : state.server_id = server_id)
    (hv : state.version = σ.versionOf server_id) : σ.has server_id = true := by
  by_contra hnone
  have hold : σ.servers.get server_id = none := Option.not_isSome_iff_eq_none.1 hnone
  have hnew : (σ.put state).servers.get server_id = some state := by
    rw [← hid]
    exact Table.get_set_self σ.servers state
  refine (h.snapshot 0 server_id 0 0 fun heq => ?_).1 (by rw [versionOf_of_get hnew, hv])
  rw [snapshot_content, snapshot_content, hold, hnew] at heq
  cases heq

/-- So does what a server shows afterwards, when no revision is counted. -/
lemma content_of_counted {state : ServerState φ} (h : Counted σ (σ.put state)) (hid : state.server_id = server_id)
    (hv : state.version = σ.versionOf server_id) :
    state.content = (σ.serverState server_id).content := by
  have hhas := has_of_counted h hid hv
  obtain ⟨old, hold⟩ := Option.isSome_iff_exists.1 hhas
  have hnew : (σ.put state).servers.get server_id = some state := by
    rw [← hid]
    exact Table.get_set_self σ.servers state
  by_contra hne
  refine (h.snapshot 0 server_id 0 0 fun heq => ?_).1 (by rw [versionOf_of_get hnew, hv])
  rw [snapshot_content, snapshot_content, hold, hnew] at heq
  rw [serverState_of_get hold] at hne
  exact hne (Option.some.inj heq)

/-- And what the fleet summary shows, when none is counted for the fleet. -/
lemma entry_of_counted {state : ServerState φ} (h : Counted σ ((σ.put state).bump server_id false))
    (hid : state.server_id = server_id) (hv : state.version = σ.versionOf server_id) (record : ServerRecord φ) (hrecord : record.server_id = server_id) :
    (state.fleetEntry record).content = ((σ.serverState server_id).fleetEntry record).content := by
  have ht := touched_bump σ hid hv false
  by_contra hne
  have hlt := h.fleet [record] 0 0 fun heq => hne ?_
  · rw [ht.fleet_revision] at hlt
    exact absurd hlt (Nat.lt_irrefl _)
  · have hself := serverState_of_get ht.self
    rw [hid] at hself
    rw [fleetSummary_content, fleetSummary_content, List.map_cons, List.map_cons, hrecord, hself] at heq
    exact List.head_eq_of_cons_eq heq

/-- An operation that counts its changes is sound. -/
lemma sound_of_counted {op : Operation φ} (h : Counted σ (σ.apply digits op)) : Sound digits σ op := by
  cases op with
  | setStatus server_id status detail now =>
    by_contra hnot
    have hfirst : ¬σ.has server_id = true ∧ status = .unknown ∧ detail = [] := by
      refine ⟨fun hhas => hnot (.inl hhas), ?_, ?_⟩
      · by_contra hs
        exact hnot (.inr (.inl hs))
      · by_contra hd
        exact hnot (.inr (.inr hd))
    have hput : σ.setStatus server_id status detail now = σ.put (σ.serverState server_id) := by
      unfold TelemetryState.setStatus
      rw [serverState_fresh hfirst.1, hfirst.2.1, hfirst.2.2]
      exact if_pos ⟨rfl, rfl⟩
    rw [show σ.apply digits (.setStatus server_id status detail now) = _ from hput] at h
    exact hfirst.1 (has_of_counted h (serverState_id σ server_id) (serverState_version σ server_id))
  | updatePidUsers server_id pid_users =>
    have hid := serverState_id σ server_id
    have hv := serverState_version σ server_id
    have hput : σ.apply digits (.updatePidUsers server_id pid_users) =
        σ.updatePidUsers digits.isDigit digits.toInt server_id pid_users := rfl
    rw [hput] at h
    unfold TelemetryState.updatePidUsers at h
    dsimp only at h
    split at h
    · rename_i hraises
      exact ⟨has_of_counted h hid hv, fun users husers => by rw [hraises] at husers; cases husers⟩
    · rename_i users husers
      refine ⟨has_of_counted h hid hv, fun users' husers' => ?_⟩
      rw [husers] at husers'
      cases husers'
      exact namesNobody_of_content (content_of_counted h hid hv)
  | updateGpuProcesses server_id processes now =>
    have hentry := entry_of_counted h (serverState_id σ server_id) (serverState_version σ server_id)
      { server_id, display_name := [], ssh_host := [] } rfl
    have hgpus := congrArg FleetEntry.gpus hentry
    have husers := congrArg (List.map FleetGpu.users) hgpus
    exact (owners_eq _).trans (husers.trans (owners_eq _).symm)
  | updateProcesses server_id processes now =>
    have hentry := entry_of_counted h (serverState_id σ server_id) (serverState_version σ server_id)
      { server_id, display_name := [], ssh_host := [] } rfl
    have hgpus := congrArg FleetEntry.gpus hentry
    have husers := congrArg (List.map FleetGpu.users) hgpus
    exact (owners_eq _).trans (husers.trans (owners_eq _).symm)
  | updateStorage server_id mounts now =>
    have hentry := entry_of_counted h (serverState_id σ server_id) (serverState_version σ server_id)
      { server_id, display_name := [], ssh_host := [] } rfl
    exact congrArg FleetEntry.disk_warning hentry
  | _ => trivial

end

/-- In every run of sound operations in which no server comes back after it was cleared, revisions are faithful,
and in no run with an operation that is not sound. -/
theorem revisions_faithful [Measure φ] (digits : Digits) (ops : List (Operation φ)) :
    (AllSound digits ops ∧ NoReturn digits ops → Faithful digits ops) ∧
      (Faithful digits ops → AllSound digits ops) :=
  ⟨fun h => faithful_of_sound h.1 h.2, fun h pre op hp => sound_of_counted (by
    rw [← after_append]
    exact h.counted pre op hp)⟩
/-! ### Runs on exact numbers -/

instance : Measure ℚ where
  percentOf used total := (round ((used : ℚ) / total * 1000) : ℤ) / 10
  above x n := (n : ℚ) < x
  atLeast x n := (n : ℚ) ≤ x
  sub x y := x - y
  per n x := n / x

/-- `isdigit` and `int` on ASCII texts. -/
def asciiDigits : Digits where
  isDigit t := t ≠ [] && t.all Char.isDigit
  toInt t := some (t.foldl (fun n c => 10 * n + (c.toNat - '0'.toNat)) 0)

def gpuRecord : ServerRecord ℚ := { server_id := ['s'], display_name := ['s'], ssh_host := ['h'] }

lemma AllSound.append [Measure φ] {digits : Digits} {ops : List (Operation φ)} {op : Operation φ}
    (h : AllSound digits ops) (hs : Sound digits (after digits ops) op) : AllSound digits (ops ++ [op]) := by
  intro pre op' hp
  rcases List.prefix_concat_iff.1 hp with heq | hp
  · obtain ⟨hpre, hop⟩ := List.append_inj' heq rfl
    rw [hpre, List.head_eq_of_cons_eq hop]
    exact hs
  · exact h pre op' hp

lemma has_iff (σ : TelemetryState φ) (s : Text) : σ.has s = true ↔ s ∈ σ.serverIds := by
  constructor
  · intro h
    obtain ⟨state, hstate⟩ := Option.isSome_iff_exists.1 h
    exact Table.has_of_get hstate
  · intro h
    by_contra hnone
    exact Table.get_eq_none.1 (Option.not_isSome_iff_eq_none.1 hnone) h

/-- The first load of a server, and its status. -/
def firstSamples : List (Operation ℚ) :=
  [.updateCpu ['s'] { percent := some 5 } 1, .setStatus ['s'] .online [] 2]

theorem revisions_faithful_first_samples : Faithful asciiDigits firstSamples := by
  have hsound : AllSound asciiDigits firstSamples := by
    have hnil : AllSound asciiDigits ([] : List (Operation ℚ)) := by
      intro pre op hp
      cases pre with
      | nil => cases List.prefix_nil.1 hp
      | cons => cases List.prefix_nil.1 hp
    have hfirst : AllSound asciiDigits [Operation.updateCpu ['s'] { percent := some (5 : ℚ) } 1] := hnil.append trivial
    exact hfirst.append (.inr (.inl (by decide)))
  have hreturn : NoReturn asciiDigits firstSamples := by
    intro pre op hp s hnone hsome earlier he
    cases pre with
    | nil =>
      rw [List.prefix_nil.1 he]
      rfl
    | cons first pre =>
      obtain ⟨rfl, hrest⟩ := List.cons_prefix_cons.1 hp
      cases pre with
      | nil =>
        obtain ⟨rfl, -⟩ := List.cons_prefix_cons.1 hrest
        have hs : s ∈ [['s']] := (has_iff _ s).1 hsome
        have hhas : (after asciiDigits [Operation.updateCpu ['s'] { percent := some (5 : ℚ) } 1]).has s = true :=
          (has_iff _ s).2 hs
        rw [hhas] at hnone
        cases hnone
      | cons second pre =>
        obtain ⟨-, hrest⟩ := List.cons_prefix_cons.1 hrest
        cases pre with
        | nil => cases List.prefix_nil.1 hrest
        | cons => cases List.prefix_nil.1 hrest
  exact (revisions_faithful asciiDigits firstSamples).1 ⟨hsound, hreturn⟩

/-- A storage sample that reaches 90 % lights the disk warning of the fleet summary without a fleet revision. -/
theorem storage_sample_not_counted : ¬Faithful asciiDigits
    [.updateStorage ['s'] [{ device := ['d'], mount := ['/'], percent := some (95 : ℚ) }] 1] := by
  intro h
  have hlt := (h.counted [] _ List.prefix_rfl).fleet [gpuRecord] 0 0 (by decide +kernel)
  exact absurd hlt (by decide +kernel)

end SshGpuConsole.Telemetry
