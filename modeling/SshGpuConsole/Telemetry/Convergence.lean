import SshGpuConsole.Telemetry.Hub

/-!
# What the clients are sent

No change is missed: where the broadcast loop is not woken, every client was offered the revisions of the state
(`no_change_missed`). What a client was offered is what it is sent, but for what the queue drops: a client whose queue
is empty shows the state, when fewer frames than the queue has room for came behind the last one of a kind
(`frames_converge`), and a turn itself drops the fleet frame of a client when it has more to say than that
(`fleet_survives_turn_iff`).
-/

namespace SshGpuConsole.Telemetry
open Shell (Text)
open Registry (ServerRecord)

variable {φ : Type}

/-! ### What the listener hears of -/

/-- What an operation does, as far as the hub compares it. -/
structure Noticed (σ σ' : TelemetryState φ) : Prop where
  listener : σ'.listener = σ.listener
  le : σ.fleet_revision ≤ σ'.fleet_revision
  status : σ'.fleet_revision = σ.fleet_revision → ∀ s, σ'.statusOf s = σ.statusOf s
  heard : σ.listener = true → σ.notified < σ'.notified ∨
    σ'.fleet_revision = σ.fleet_revision ∧ ∀ s, σ'.versionOf s = σ.versionOf s

section
variable {σ σ' : TelemetryState φ} {server_id : Text} {state : ServerState φ} {fleet : Bool}

lemma serverState_status (σ : TelemetryState φ) (server_id : Text) :
    (σ.serverState server_id).status = σ.statusOf server_id := by
  unfold TelemetryState.serverState TelemetryState.statusOf
  cases σ.servers.get server_id with
  | none => rfl
  | some state => rfl

lemma statusOf_congr {s : Text} (h : σ'.servers.get s = σ.servers.get s) : σ'.statusOf s = σ.statusOf s := by
  unfold TelemetryState.statusOf
  rw [h]

lemma versionOf_congr {s : Text} (h : σ'.servers.get s = σ.servers.get s) : σ'.versionOf s = σ.versionOf s := by
  unfold TelemetryState.versionOf
  rw [h]

lemma Noticed.same : Noticed σ σ :=
  ⟨rfl, le_rfl, fun _ _ => rfl, fun _ => .inr ⟨rfl, fun _ => rfl⟩⟩

lemma Noticed.of_net_prev {net_prev : Dict Text (Dict Text (φ × ℤ × ℤ))} (h : Noticed { σ with net_prev } σ') :
    Noticed σ σ' := ⟨h.listener, h.le, h.status, h.heard⟩

/-- A server is put, and counted. -/
lemma noticed_bump (hid : state.server_id = server_id) (hversion : state.version = (σ.serverState server_id).version)
    (hs : fleet = true ∨ state.status = (σ.serverState server_id).status) :
    Noticed σ ((σ.put state).bump server_id fleet) := by
  have ht := touched_bump σ hid (hversion.trans (serverState_version σ server_id)) fleet
  subst hid
  refine ⟨?_, ?_, fun hrev s => ?_, fun hl => .inl ?_⟩
  · unfold TelemetryState.bump TelemetryState.notify TelemetryState.put
    rfl
  · rw [ht.fleet_revision]
    exact Nat.le_add_right _ _
  · rw [ht.fleet_revision] at hrev
    have hfleet : ¬fleet = true := by
      intro hfleet
      rw [if_pos hfleet] at hrev
      exact absurd hrev (Nat.succ_ne_self _)
    by_cases hsid : s = state.server_id
    · subst hsid
      unfold TelemetryState.statusOf
      rw [ht.self]
      exact (hs.resolve_left hfleet).trans (serverState_status σ state.server_id)
    · exact statusOf_congr (ht.other s hsid)
  · rw [ht.notified, if_pos hl]
    exact Nat.lt_succ_self _

/-- A server is put, and nothing is counted. -/
lemma noticed_put (hid : state.server_id = server_id) (hversion : state.version = (σ.serverState server_id).version)
    (hs : state.status = (σ.serverState server_id).status) : Noticed σ (σ.put state) := by
  have hget : (σ.put state).servers.get state.server_id = some state := Table.get_set_self σ.servers state
  have hother : ∀ s, s ≠ state.server_id → (σ.put state).servers.get s = σ.servers.get s :=
    fun s hne => Table.get_set_of_ne σ.servers hne
  subst hid
  refine ⟨rfl, le_rfl, fun _ s => ?_, fun _ => .inr ⟨rfl, fun s => ?_⟩⟩
  · by_cases hsid : s = state.server_id
    · rw [hsid, TelemetryState.statusOf, hget]
      exact hs.trans (serverState_status σ state.server_id)
    · exact statusOf_congr (hother s hsid)
  · by_cases hsid : s = state.server_id
    · rw [hsid, versionOf_of_get hget]
      exact hversion.trans (serverState_version σ state.server_id)
    · exact versionOf_congr (hother s hsid)

lemma noticed_clears (gone : List Text) (σ : TelemetryState φ) : Noticed σ (gone.foldl TelemetryState.clear σ) := by
  obtain ⟨hget, hrev, hnotified⟩ := effect_clears gone σ
  have hnone : gone = [] → ∀ s, (gone.foldl TelemetryState.clear σ).servers.get s = σ.servers.get s := by
    intro hgone s
    rw [hget, hgone, if_neg List.not_mem_nil]
  have hlistener : ∀ (gone : List Text) (σ : TelemetryState φ), (gone.foldl TelemetryState.clear σ).listener = σ.listener := by
    intro gone
    induction gone with
    | nil => exact fun _ => rfl
    | cons s gone ih => exact fun σ => ih (σ.clear s)
  refine ⟨hlistener gone σ, hrev ▸ Nat.le_add_right _ _, fun hsame s => ?_, fun hl => ?_⟩
  · exact statusOf_congr (hnone (List.length_eq_zero_iff.1 (by omega)) s)
  · rw [hnotified, if_pos hl]
    cases gone with
    | nil => exact .inr ⟨rfl, fun _ => rfl⟩
    | cons s gone => exact .inl (Nat.lt_add_of_pos_right (Nat.succ_pos _))

lemma noticed_setError (σ : TelemetryState φ) (server_id name code : Text) : Noticed σ (σ.setError server_id name code) := by
  unfold TelemetryState.setError
  split
  · exact .same
  dsimp only
  split
  · exact noticed_bump (serverState_id σ server_id) rfl (.inl rfl)
  split
  · exact noticed_bump (serverState_id σ server_id) rfl (.inl rfl)
  · exact noticed_put (serverState_id σ server_id) rfl rfl

lemma noticed_apply [Measure φ] {digits : Digits} (σ : TelemetryState φ) (op : Mutation φ) :
    Noticed σ (σ.apply digits op.1) := by
  obtain ⟨op, hop⟩ := op
  cases op with
  | setListener set => exact absurd rfl (hop set)
  | setStatus server_id status detail now =>
    show Noticed σ (σ.setStatus server_id status detail now)
    unfold TelemetryState.setStatus
    dsimp only
    split
    · exact noticed_put (serverState_id σ server_id) rfl rfl
    · exact noticed_bump (serverState_id σ server_id) rfl (.inl rfl)
  | updateCpu server_id cpu now => exact noticed_bump (serverState_id σ server_id) rfl (.inl rfl)
  | updateMemory server_id memory now => exact noticed_bump (serverState_id σ server_id) rfl (.inl rfl)
  | updateSystem server_id system now => exact noticed_bump (serverState_id σ server_id) rfl (.inl rfl)
  | updateGpus server_id gpus now => exact noticed_bump (serverState_id σ server_id) rfl (.inl rfl)
  | updatePidUsers server_id pid_users =>
    show Noticed σ (σ.updatePidUsers digits.isDigit digits.toInt server_id pid_users)
    unfold TelemetryState.updatePidUsers
    dsimp only
    split
    · exact noticed_put (serverState_id σ server_id) rfl rfl
    · exact noticed_put (serverState_id σ server_id) rfl rfl
  | updateGpuProcesses server_id processes now => exact noticed_bump (serverState_id σ server_id) rfl (.inr rfl)
  | updateProcesses server_id processes now => exact noticed_bump (serverState_id σ server_id) rfl (.inr rfl)
  | updateStorage server_id mounts now => exact noticed_bump (serverState_id σ server_id) rfl (.inr rfl)
  | updateNetwork server_id interfaces monotonic now =>
    refine Noticed.of_net_prev (noticed_bump ?_ ?_ (.inr ?_))
    · exact serverState_id σ server_id
    · rfl
    · rfl
  | setError server_id name code => exact noticed_setError σ server_id name code
  | clearError server_id name => exact noticed_setError σ server_id name []
  | clear server_id => exact noticed_clears [server_id] σ
  | prune keep => exact noticed_clears _ σ

end

/-! ### News -/

section
variable {state : TelemetryState φ} {ids : List Text} {sent : Dict Text ServerStatus} {s : Text}

lemma news_cons (server_id : Text) :
    news state (server_id :: ids) sent = if sent.get server_id = some (state.statusOf server_id) then news state ids sent
      else (if state.statusOf server_id = .unknown then (news state ids (sent.set server_id (state.statusOf server_id))).1
        else .status server_id (state.statusOf server_id) :: (news state ids (sent.set server_id (state.statusOf server_id))).1,
        (news state ids (sent.set server_id (state.statusOf server_id))).2) := rfl

/-- The status that was sent last of a server is its status. -/
lemma news_get (h : s ∈ ids ∨ sent.get s = some (state.statusOf s)) :
    (news state ids sent).2.get s = some (state.statusOf s) := by
  induction ids generalizing sent with
  | nil => exact h.resolve_left List.not_mem_nil
  | cons server_id ids ih =>
    rw [news_cons]
    split
    · rename_i hsame
      refine ih ?_
      rcases h with h | h
      · rcases List.mem_cons.1 h with rfl | h
        · exact .inr hsame
        · exact .inl h
      · exact .inr h
    · refine ih ?_
      by_cases hs : s = server_id
      · rw [hs]
        exact .inr (Dict.get_set_self _ _ _)
      · refine h.imp (fun h => (List.mem_cons.1 h).resolve_left hs) fun h => ?_
        rw [Dict.get_set_of_ne hs]
        exact h

lemma news_nil (h : ∀ s ∈ ids, sent.get s = some (state.statusOf s) ∨ state.statusOf s = .unknown) :
    (news state ids sent).1 = [] := by
  induction ids generalizing sent with
  | nil => rfl
  | cons server_id ids ih =>
    have hrest := fun s hs => h s (List.mem_cons_of_mem server_id hs)
    rw [news_cons]
    split
    · exact ih hrest
    · rename_i hnew
      rw [if_pos ((h server_id List.mem_cons_self).resolve_left hnew)]
      refine ih fun s hs => ?_
      by_cases hsid : s = server_id
      · rw [hsid]
        exact .inl (Dict.get_set_self _ _ _)
      · rw [Dict.get_set_of_ne hsid]
        exact hrest s hs

/-- The news are of statuses only. -/
lemma news_kind (frame : Frame φ) (h : frame ∈ (news state ids sent).1) : frame.isFleet = false ∧ frame.isServer = false := by
  induction ids generalizing sent with
  | nil => cases h
  | cons server_id ids ih =>
    rw [news_cons] at h
    split at h
    · exact ih h
    · dsimp only at h
      split at h
      · exact ih h
      · rcases List.mem_cons.1 h with rfl | h
        · exact ⟨rfl, rfl⟩
        · exact ih h

end

/-! ### A turn -/

namespace Hub
variable {settings : HubSettings} {records : List (ServerRecord φ)} {σ : Hub φ settings.maxsize}
  {c : Client φ settings.maxsize} {now later : Stamp} {i : ℕ}

/-- The fleet frame of a turn, for a client that is behind. -/
def fleetFrames [Measure φ] (σ : Hub φ settings.maxsize) (records : List (ServerRecord φ)) (now : Stamp)
    (c : Client φ settings.maxsize) : List (Frame φ) :=
  if c.fleet_revision = σ.state.fleet_revision then [] else [.fleet (σ.state.fleetSummary records now)]

/-- The frame of the selected server of a turn, for a client that is behind. -/
def serverFrames (σ : Hub φ settings.maxsize) (later : Stamp) (c : Client φ settings.maxsize) : List (Frame φ) :=
  match σ.selectedFrame settings later with
  | some (frame, version) => if c.snapshot_version = version then [] else [frame]
  | none => []

/-- The statuses of a turn. -/
def statusFrames (σ : Hub φ settings.maxsize) : List (Frame φ) := (news σ.state σ.state.serverIds σ.sent_status).1

/-- A turn offers a client the fleet, then the selected server, then the statuses. -/
lemma box_serve [Measure φ] : (σ.serve settings records now later c).box =
    c.box.enqueueAll (σ.fleetFrames records now c ++ (σ.serverFrames later c ++ σ.statusFrames)) := by
  have happend : ∀ (box : Outbox (Frame φ) settings.maxsize) (xs ys : List (Frame φ)),
      box.enqueueAll (xs ++ ys) = (box.enqueueAll xs).enqueueAll ys := fun box xs ys => List.foldl_append
  rw [happend, happend]
  unfold serve fleetFrames serverFrames Client.offerAll
  dsimp only
  congr 1
  have hfleet : (c.offerFleet (.fleet (σ.state.fleetSummary records now)) σ.state.fleet_revision).box =
      c.box.enqueueAll (if c.fleet_revision = σ.state.fleet_revision then []
        else [.fleet (σ.state.fleetSummary records now)]) ∧
      (c.offerFleet (.fleet (σ.state.fleetSummary records now)) σ.state.fleet_revision).snapshot_version =
        c.snapshot_version := by
    unfold Client.offerFleet
    split
    · exact ⟨rfl, rfl⟩
    · exact ⟨rfl, rfl⟩
  cases σ.selectedFrame settings later with
  | none => exact hfleet.1
  | some x =>
    show (Client.offerServer x.1 x.2 _).box = _
    unfold Client.offerServer
    rw [hfleet.2, ← hfleet.1]
    dsimp only
    split
    · rfl
    · rfl

/-- And then the client has the revisions of the state. -/
lemma revisions_serve [Measure φ] (σ : Hub φ settings.maxsize) (records : List (ServerRecord φ)) (now later : Stamp)
    (c : Client φ settings.maxsize) :
    (σ.serve settings records now later c).fleet_revision = σ.state.fleet_revision ∧
    (∀ frame version, σ.selectedFrame settings later = some (frame, version) →
      (σ.serve settings records now later c).snapshot_version = version) ∧
    (σ.selectedFrame settings later = none →
      (σ.serve settings records now later c).snapshot_version = c.snapshot_version) := by
  have hfleet : (c.offerFleet (.fleet (σ.state.fleetSummary records now)) σ.state.fleet_revision).fleet_revision =
      σ.state.fleet_revision ∧
      (c.offerFleet (.fleet (σ.state.fleetSummary records now)) σ.state.fleet_revision).snapshot_version =
        c.snapshot_version := by
    unfold Client.offerFleet
    split
    · exact ⟨‹_›, rfl⟩
    · exact ⟨rfl, rfl⟩
  have hserver : ∀ (c : Client φ settings.maxsize) (frame : Frame φ) (version : ℕ),
      (c.offerServer frame version).fleet_revision = c.fleet_revision ∧
        (c.offerServer frame version).snapshot_version = version := by
    intro c frame version
    unfold Client.offerServer
    split
    · exact ⟨rfl, ‹_›⟩
    · exact ⟨rfl, rfl⟩
  unfold serve Client.offerAll
  dsimp only
  cases σ.selectedFrame settings later with
  | none => exact ⟨hfleet.1, fun frame version h => (nomatch h), fun _ => hfleet.2⟩
  | some x =>
    obtain ⟨frame, version⟩ := x
    refine ⟨(hserver _ frame version).1.trans hfleet.1, fun frame' version' h => ?_, fun h => nomatch h⟩
    cases h
    exact (hserver _ frame version).2

/-- The selected server has a snapshot as soon as it has a version. -/
lemma selectedFrame_of_version {s : Text} (hs : σ.selected = some s) (hv : σ.state.versionOf s ≠ 0) (later : Stamp) :
    ∃ frame, σ.selectedFrame settings later = some (frame, σ.state.versionOf s) := by
  have hsnapshot : ∃ snapshot, σ.state.snapshot settings.stale_after s later = some snapshot := by
    unfold TelemetryState.versionOf at hv
    unfold TelemetryState.snapshot
    cases hget : σ.state.servers.get s with
    | none =>
      rw [hget] at hv
      exact absurd rfl hv
    | some state => exact ⟨_, rfl⟩
  obtain ⟨snapshot, hsnapshot⟩ := hsnapshot
  refine ⟨.server s snapshot, ?_⟩
  unfold selectedFrame
  rw [hs, Option.bind_some, hsnapshot]
  rfl

/-! ### No change is missed -/

/-- Whoever has the revisions of the state was told what they count, and the loop is woken for everybody else. -/
structure Told (σ : Hub φ settings.maxsize) : Prop where
  listener : σ.state.listener = true
  behind : ∀ i c, σ.clients i = some c → c.fleet_revision ≤ σ.state.fleet_revision
  quiet : σ.woken = false → ∀ i c, σ.clients i = some c → c.fleet_revision = σ.state.fleet_revision ∧
    ∀ s, σ.selected = some s → σ.state.versionOf s ≠ 0 → c.snapshot_version = σ.state.versionOf s
  news : ∀ i c, σ.clients i = some c → c.fleet_revision = σ.state.fleet_revision → ∀ s,
    σ.sent_status.get s = some (σ.state.statusOf s) ∨ σ.state.statusOf s = .unknown

lemma Told.init : Told ({ state := { listener := true } } : Hub φ settings.maxsize) where
  listener := rfl
  behind _ _ hc := nomatch hc
  quiet _ _ _ hc := nomatch hc
  news _ _ hc := nomatch hc

lemma Told.mutate [Measure φ] {digits : Digits} (h : Told σ) (op : Mutation φ) :
    Told (σ.step settings records digits (.mutate op)) := by
  have hn : Noticed σ.state (σ.state.apply digits op.1) := noticed_apply σ.state op
  refine ⟨hn.listener.trans h.listener, fun i c hc => (h.behind i c hc).trans (Int.ofNat_le.2 hn.le), fun hw i c hc => ?_,
    fun i c hc hrev s => ?_⟩
  · obtain ⟨hquiet, hsilent⟩ := Bool.or_eq_false_iff.1 hw
    obtain ⟨hrev, hversion⟩ := (hn.heard h.listener).resolve_left (of_decide_eq_false hsilent)
    obtain ⟨hfleet, hserver⟩ := h.quiet hquiet i c hc
    refine ⟨hfleet.trans (congrArg Int.ofNat hrev.symm), fun s hs hv => ?_⟩
    have hv : (σ.state.apply digits op.1).versionOf s ≠ 0 := hv
    rw [hversion] at hv
    exact (hserver s hs hv).trans (congrArg Int.ofNat (hversion s).symm)
  · have hrev : c.fleet_revision = (σ.state.apply digits op.1).fleet_revision := hrev
    have hle := h.behind i c hc
    have hsame : (σ.state.apply digits op.1).fleet_revision = σ.state.fleet_revision := by
      have := hn.le
      omega
    rw [hsame] at hrev
    have hstatus := hn.status hsame s
    exact (h.news i c hc hrev s).imp (fun h => h.trans (congrArg some hstatus.symm)) hstatus.trans

/-- What makes no new client. -/
lemma Told.fewer {σ' : Hub φ settings.maxsize} (h : Told σ) (hstate : σ'.state = σ.state)
    (hselected : σ'.selected = σ.selected) (hstatus : σ'.sent_status = σ.sent_status)
    (hwoken : σ'.woken = false → σ.woken = false)
    (hclients : ∀ i c', σ'.clients i = some c' → ∃ c, σ.clients i = some c ∧ c'.fleet_revision = c.fleet_revision ∧
      c'.snapshot_version = c.snapshot_version) : Told σ' := by
  refine ⟨hstate ▸ h.listener, fun i c' hc' => ?_, fun hw i c' hc' => ?_, fun i c' hc' hrev s => ?_⟩
  · obtain ⟨c, hc, hfleet, -⟩ := hclients i c' hc'
    rw [hfleet, hstate]
    exact h.behind i c hc
  · obtain ⟨c, hc, hfleet, hsnapshot⟩ := hclients i c' hc'
    rw [hfleet, hsnapshot, hstate, hselected]
    exact h.quiet (hwoken hw) i c hc
  · obtain ⟨c, hc, hfleet, -⟩ := hclients i c' hc'
    rw [hfleet, hstate] at hrev
    rw [hstatus, hstate]
    exact h.news i c hc hrev s

lemma Told.drop (h : Told σ) (client : ℕ) : Told (σ.drop settings client) := by
  refine h.fewer rfl rfl rfl id fun i c' hc' => ?_
  have hc' : Function.update σ.clients client none i = some c' := hc'
  by_cases hi : i = client
  · rw [hi, Function.update_self] at hc'
    cases hc'
  · rw [Function.update_of_ne hi] at hc'
    exact ⟨c', hc', rfl, rfl⟩

lemma Told.send (h : Told σ) (client : ℕ) : Told (σ.send settings client) := by
  refine h.fewer rfl rfl rfl id fun i c' hc' => ?_
  have hc' : Function.update σ.clients client ((σ.clients client).map fun c => { c with box := c.box.send }) i = some c' :=
    hc'
  by_cases hi : i = client
  · rw [hi, Function.update_self] at hc'
    obtain ⟨c, hc, rfl⟩ := Option.map_eq_some_iff.1 hc'
    exact ⟨c, hi ▸ hc, rfl, rfl⟩
  · rw [Function.update_of_ne hi] at hc'
    exact ⟨c', hc', rfl, rfl⟩

/-- Where the loop is woken, only who has the revision of the fleet is to be told about. -/
lemma Told.of_woken {σ' : Hub φ settings.maxsize} (h : Told σ) (hstate : σ'.state = σ.state)
    (hstatus : σ'.sent_status = σ.sent_status) (hwoken : σ'.woken = true)
    (hclients : ∀ i c', σ'.clients i = some c' → c'.fleet_revision = -1 ∨ σ.clients i = some c') : Told σ' := by
  refine ⟨hstate ▸ h.listener, fun i c' hc' => ?_, fun hw => absurd (hwoken.symm.trans hw) Bool.noConfusion,
    fun i c' hc' hrev s => ?_⟩
  · rcases hclients i c' hc' with hfleet | hc
    · rw [hfleet]
      omega
    · rw [hstate]
      exact h.behind i c' hc
  · rw [hstate] at hrev
    rw [hstatus, hstate]
    rcases hclients i c' hc' with hfleet | hc
    · omega
    · exact h.news i c' hc hrev s

lemma Told.connect (h : Told σ) (client : ℕ) : Told (σ.connect settings records client) := by
  unfold Hub.connect
  split
  · exact h
  · refine h.of_woken rfl rfl rfl fun i c' hc' => ?_
    by_cases hi : i = client
    · rw [hi] at hc'
      dsimp only at hc'
      rw [Function.update_self] at hc'
      cases hc'
      exact .inl rfl
    · dsimp only at hc'
      rw [Function.update_of_ne hi] at hc'
      exact .inr hc'

lemma Told.setIntent (h : Told σ) (server_id : Option Text) : Told (σ.setIntent settings server_id) := by
  have haccept : ∀ selected : Option Text,
      Told ({ σ.eachClient settings Client.forget with selected, woken := true } : Hub φ settings.maxsize) := by
    intro selected
    refine h.of_woken rfl rfl rfl fun i c' hc' => .inl ?_
    obtain ⟨c, -, rfl⟩ := Option.map_eq_some_iff.1 hc'
    rfl
  cases server_id with
  | none => exact haccept none
  | some server_id =>
    unfold Hub.setIntent
    dsimp only
    split
    · exact h
    · exact haccept _

/-- A turn tells everybody. -/
lemma told_pushChanges [Measure φ] (hlistener : σ.state.listener = true) :
    Told (σ.pushChanges settings records now later) := by
  have hc : ∀ i c', (σ.pushChanges settings records now later).clients i = some c' →
      ∃ c, σ.clients i = some c ∧ c' = σ.serve settings records now later c := by
    intro i c' hc'
    obtain ⟨c, hc, rfl⟩ := Option.map_eq_some_iff.1 hc'
    exact ⟨c, hc, rfl⟩
  refine ⟨hlistener, fun i c' hc' => ?_, fun _ i c' hc' => ?_, fun i c' hc' _ s => ?_⟩
  · obtain ⟨c, -, rfl⟩ := hc i c' hc'
    exact (revisions_serve σ records now later c).1.le
  · obtain ⟨c, -, rfl⟩ := hc i c' hc'
    refine ⟨(revisions_serve σ records now later c).1, fun s hs hv => ?_⟩
    obtain ⟨frame, hframe⟩ := selectedFrame_of_version hs hv later
    exact (revisions_serve σ records now later c).2.1 frame _ hframe
  · by_cases hs : s ∈ σ.state.serverIds
    · exact .inl (news_get (.inl hs))
    · refine .inr ?_
      show σ.state.statusOf s = .unknown
      unfold TelemetryState.statusOf
      rw [Table.get_eq_none.2 hs]
      rfl

lemma Told.step [Measure φ] {digits : Digits} (h : Told σ) (e : HubEvent φ) : Told (σ.step settings records digits e) := by
  cases e with
  | mutate op => exact h.mutate op
  | connect client => exact h.connect client
  | disconnect client => exact h.drop client
  | select server_id => exact h.setIntent server_id
  | turn now later =>
    unfold Hub.step
    dsimp only
    split
    · exact h
    · exact told_pushChanges h.listener
  | send client => exact h.send client
  | broken client => exact h.drop client
  | stop => exact h.of_woken rfl rfl rfl fun i c' hc' => nomatch hc'

lemma state_connect (σ : Hub φ settings.maxsize) : (σ.connect settings records i).state = σ.state := by
  unfold Hub.connect
  split
  · rfl
  · rfl

lemma state_setIntent (σ : Hub φ settings.maxsize) (server_id : Option Text) :
    (σ.setIntent settings server_id).state = σ.state := by
  cases server_id with
  | none => rfl
  | some server_id =>
    unfold Hub.setIntent
    dsimp only
    split
    · rfl
    · rfl

/-! ### Whole runs -/

variable [Measure φ] {digits : Digits} {events : List (HubEvent φ)} {ops : List (Operation φ)}

/-- The hub after some events; the service has set its listener. -/
def after (settings : HubSettings) (records : List (ServerRecord φ)) (digits : Digits) (events : List (HubEvent φ)) :
    Hub φ settings.maxsize :=
  Machine.after (fun σ e => Hub.step settings records σ digits e)
    { state := ({} : TelemetryState φ).apply digits (.setListener true) } events

lemma after_concat (e : HubEvent φ) :
    after settings records digits (events ++ [e]) = (after settings records digits events).step settings records digits e := by
  unfold after
  rw [Machine.after_append]
  rfl

lemma told_after (settings : HubSettings) (records : List (ServerRecord φ)) (digits : Digits)
    (events : List (HubEvent φ)) : Told (after settings records digits events) :=
  Machine.inv_after Told.init fun _ e h => h.step e

/-- No change is missed: wherever the loop is not woken, every client was offered the revision of the fleet and the
version of the selected server, and every status that is known was sent. -/
theorem no_change_missed (settings : HubSettings) (records : List (ServerRecord φ)) (digits : Digits)
    (events : List (HubEvent φ)) (hquiet : (after settings records digits events).woken = false) (i : ℕ)
    (c : Client φ settings.maxsize) (hc : (after settings records digits events).clients i = some c) :
    c.fleet_revision = (after settings records digits events).state.fleet_revision ∧
    (∀ s, (after settings records digits events).selected = some s →
      (after settings records digits events).state.versionOf s ≠ 0 →
      c.snapshot_version = (after settings records digits events).state.versionOf s) ∧
    ∀ s, (after settings records digits events).sent_status.get s =
      some ((after settings records digits events).state.statusOf s) ∨
      (after settings records digits events).state.statusOf s = .unknown := by
  have h := told_after settings records digits events
  obtain ⟨hfleet, hserver⟩ := h.quiet hquiet i c hc
  exact ⟨hfleet, hserver, h.news i c hc hfleet⟩

/-! ### What the clients are sent -/

/-- The operation of an event, if it is one. -/
def operation : HubEvent φ → Option (Operation φ)
  | .mutate op => some op.1
  | _ => none

/-- The operations of a run, with the one that sets the listener. -/
def operations (events : List (HubEvent φ)) : List (Operation φ) := .setListener true :: events.filterMap operation

lemma state_step (σ : Hub φ settings.maxsize) (e : HubEvent φ) : (σ.step settings records digits e).state =
    (operation e).elim σ.state (σ.state.apply digits) := by
  cases e with
  | connect client => exact state_connect σ
  | select server_id => exact state_setIntent σ server_id
  | turn now later =>
    unfold Hub.step
    dsimp only
    split
    · rfl
    · rfl
  | _ => rfl

/-- The state of the hub is that of its operations. -/
lemma state_after (events : List (HubEvent φ)) :
    (after settings records digits events).state = Telemetry.after digits (operations events) := by
  induction events using List.reverseRecOn with
  | nil => rfl
  | append_singleton events e ih =>
    rw [after_concat, state_step, ih]
    unfold operations
    rw [List.filterMap_append, ← List.cons_append]
    cases he : operation e with
    | none =>
      rw [List.filterMap_cons_none he, List.filterMap_nil, List.append_nil]
      rfl
    | some op =>
      rw [List.filterMap_cons_some he, List.filterMap_nil, Telemetry.after_append]
      rfl

/-- What a client was offered last is what a state of the run shows, that of its revision. -/
structure Shown (settings : HubSettings) (records : List (ServerRecord φ)) (digits : Digits) (ops : List (Operation φ))
    (selected : Option Text) (c : Client φ settings.maxsize) : Prop where
  fleet : c.fleet_revision ≠ -1 → ∃ pre now, pre <+: ops ∧
    c.fleet_revision = (Telemetry.after digits pre).fleet_revision ∧
    Outbox.latest Frame.isFleet c.box.offered = some (.fleet ((Telemetry.after digits pre).fleetSummary records now))
  server : c.snapshot_version ≠ -1 → ∃ pre s later snapshot, pre <+: ops ∧ selected = some s ∧
    c.snapshot_version = (Telemetry.after digits pre).versionOf s ∧
    (Telemetry.after digits pre).snapshot settings.stale_after s later = some snapshot ∧
    Outbox.latest Frame.isServer c.box.offered = some (.server s snapshot)

lemma Shown.more {ops' : List (Operation φ)} {selected : Option Text} (h : Shown settings records digits ops selected c)
    (hops : ops <+: ops') : Shown settings records digits ops' selected c where
  fleet hne := by
    obtain ⟨pre, now, hpre, h⟩ := h.fleet hne
    exact ⟨pre, now, hpre.trans hops, h⟩
  server hne := by
    obtain ⟨pre, s, later, snapshot, hpre, h⟩ := h.server hne
    exact ⟨pre, s, later, snapshot, hpre.trans hops, h⟩

/-- Of what kind the frames of a turn are. -/
lemma latest_frames (σ : Hub φ settings.maxsize) (records : List (ServerRecord φ)) (now later : Stamp)
    (c : Client φ settings.maxsize) :
    Outbox.latest Frame.isFleet (σ.serverFrames later c ++ σ.statusFrames) = none ∧
    Outbox.latest Frame.isServer (σ.fleetFrames records now c) = none ∧
    Outbox.latest Frame.isServer σ.statusFrames = none := by
  have hstatus : ∀ frame ∈ σ.statusFrames, frame.isFleet = false ∧ frame.isServer = false := fun frame h => news_kind frame h
  refine ⟨Outbox.latest_eq_none.2 fun frame hframe => ?_, Outbox.latest_eq_none.2 fun frame hframe => ?_,
    Outbox.latest_eq_none.2 fun frame hframe => (hstatus frame hframe).2⟩
  · rcases List.mem_append.1 hframe with hframe | hframe
    · unfold serverFrames selectedFrame at hframe
      split at hframe
      · rename_i frame' version hsome
        obtain ⟨s, -, hs⟩ := Option.bind_eq_some_iff.1 hsome
        obtain ⟨snapshot, -, hs⟩ := Option.map_eq_some_iff.1 hs
        cases hs
        split at hframe
        · cases hframe
        · rw [List.mem_singleton.1 hframe]
          rfl
      · cases hframe
    · exact (hstatus frame hframe).1
  · unfold fleetFrames at hframe
    split at hframe
    · cases hframe
    · rw [List.mem_singleton.1 hframe]
      rfl

/-- A turn shows the state. -/
lemma Shown.serve (h : Shown settings records digits ops σ.selected c) (hstate : σ.state = Telemetry.after digits ops) :
    Shown settings records digits ops σ.selected (σ.serve settings records now later c) := by
  obtain ⟨hfleet, hserver, hstatus⟩ := latest_frames σ records now later c
  obtain ⟨hrev, hversion, hsame⟩ := revisions_serve σ records now later c
  constructor
  · intro _
    rw [hrev, box_serve, Outbox.offered_enqueueAll, Outbox.latest_append, Outbox.latest_append, hfleet, Option.none_or]
    unfold fleetFrames
    split
    · rename_i hknown
      rw [← hknown]
      exact h.fleet (by rw [hknown]; omega)
    · rw [hstate]
      exact ⟨ops, now, List.prefix_rfl, rfl, rfl⟩
  · intro hne
    rw [box_serve, Outbox.offered_enqueueAll, Outbox.latest_append, Outbox.latest_append, Outbox.latest_append, hserver,
      hstatus, Option.none_or, Option.or_none]
    unfold serverFrames
    cases hselected : σ.selectedFrame settings later with
    | none =>
      rw [hsame hselected] at hne ⊢
      exact h.server hne
    | some x =>
      obtain ⟨frame, version⟩ := x
      rw [hversion frame version hselected] at hne ⊢
      dsimp only
      split
      · rename_i hknown
        rw [← hknown] at hne ⊢
        exact h.server hne
      · obtain ⟨s, hs, hframe⟩ := Option.bind_eq_some_iff.1 hselected
        obtain ⟨snapshot, hsnapshot, hframe⟩ := Option.map_eq_some_iff.1 hframe
        cases hframe
        rw [hstate] at hsnapshot ⊢
        exact ⟨ops, s, later, snapshot, List.prefix_rfl, hs, rfl, hsnapshot, rfl⟩

/-- A client that is to be sent everything shows nothing. -/
lemma Shown.unseen {selected : Option Text} (hfleet : c.fleet_revision = -1) (hserver : c.snapshot_version = -1) :
    Shown settings records digits ops selected c :=
  ⟨fun h => absurd hfleet h, fun h => absurd hserver h⟩

/-- What every client of a hub shows. -/
def AllShown (settings : HubSettings) (records : List (ServerRecord φ)) (digits : Digits) (ops : List (Operation φ))
    (σ : Hub φ settings.maxsize) : Prop :=
  ∀ i c, σ.clients i = some c → Shown settings records digits ops σ.selected c

lemma AllShown.drop (h : AllShown settings records digits ops σ) (client : ℕ) :
    AllShown settings records digits ops (σ.drop settings client) := by
  intro i c hc
  have hc : Function.update σ.clients client none i = some c := hc
  by_cases hi : i = client
  · rw [hi, Function.update_self] at hc
    cases hc
  · rw [Function.update_of_ne hi] at hc
    exact h i c hc

lemma AllShown.setIntent (h : AllShown settings records digits ops σ) (server_id : Option Text) :
    AllShown settings records digits ops (σ.setIntent settings server_id) := by
  have haccept : ∀ selected : Option Text, AllShown settings records digits ops
      ({ σ.eachClient settings Client.forget with selected, woken := true } : Hub φ settings.maxsize) := by
    intro selected i c hc
    obtain ⟨c, -, rfl⟩ := Option.map_eq_some_iff.1 hc
    exact .unseen rfl rfl
  cases server_id with
  | none => exact haccept none
  | some server_id =>
    unfold Hub.setIntent
    dsimp only
    split
    · exact h
    · exact haccept _

lemma AllShown.connect (h : AllShown settings records digits ops σ) (client : ℕ) :
    AllShown settings records digits ops (σ.connect settings records client) := by
  unfold Hub.connect
  split
  · exact h
  · intro i c hc
    dsimp only at hc
    by_cases hi : i = client
    · rw [hi, Function.update_self] at hc
      cases hc
      exact .unseen rfl rfl
    · rw [Function.update_of_ne hi] at hc
      exact h i c hc

lemma AllShown.send (h : AllShown settings records digits ops σ) (client : ℕ) :
    AllShown settings records digits ops (σ.send settings client) := by
  intro i c hc
  have hc : Function.update σ.clients client ((σ.clients client).map fun c => { c with box := c.box.send }) i = some c := hc
  by_cases hi : i = client
  · rw [hi, Function.update_self] at hc
    obtain ⟨c, hc', rfl⟩ := Option.map_eq_some_iff.1 hc
    obtain ⟨hfleet, hserver⟩ := h client c hc'
    constructor
    · dsimp only
      rw [Outbox.offered_send]
      exact hfleet
    · dsimp only
      rw [Outbox.offered_send]
      exact hserver
  · rw [Function.update_of_ne hi] at hc
    exact h i c hc

lemma AllShown.step (h : AllShown settings records digits ops σ) (hstate : σ.state = Telemetry.after digits ops)
    (e : HubEvent φ) :
    AllShown settings records digits (ops ++ (operation e).toList) (σ.step settings records digits e) := by
  cases e with
  | mutate op => exact fun i c hc => (h i c hc).more (List.prefix_append ops [op.1])
  | connect client => exact (List.append_nil ops).symm ▸ h.connect client
  | disconnect client => exact (List.append_nil ops).symm ▸ h.drop client
  | select server_id => exact (List.append_nil ops).symm ▸ h.setIntent server_id
  | turn now later =>
    show AllShown settings records digits (ops ++ []) _
    rw [List.append_nil]
    unfold Hub.step
    dsimp only
    split
    · exact h
    · intro i c hc
      obtain ⟨c, hc', rfl⟩ := Option.map_eq_some_iff.1 hc
      exact Shown.serve (h i c hc') hstate
  | send client => exact (List.append_nil ops).symm ▸ h.send client
  | broken client => exact (List.append_nil ops).symm ▸ h.drop client
  | stop => exact fun i c hc => nomatch hc

omit [Measure φ] in
lemma operations_concat (e : HubEvent φ) : operations (events ++ [e]) = operations events ++ (operation e).toList := by
  unfold operations
  rw [List.filterMap_append, ← List.cons_append]
  cases he : operation e with
  | none => rw [List.filterMap_cons_none he]; rfl
  | some op => rw [List.filterMap_cons_some he]; rfl

lemma shown_after (settings : HubSettings) (records : List (ServerRecord φ)) (digits : Digits)
    (events : List (HubEvent φ)) :
    AllShown settings records digits (operations events) (after settings records digits events) := by
  induction events using List.reverseRecOn with
  | nil => exact fun i c hc => nomatch hc
  | append_singleton events e ih =>
    rw [after_concat, operations_concat]
    exact ih.step (state_after events) e

/-- The fleet as it was at a revision is the fleet at that revision. -/
lemma fleet_of_revision {pre : List (Operation φ)} (h : AllSound digits ops) (hr : NoReturn digits ops) (hpre : pre <+: ops)
    (hrev : (Telemetry.after digits pre).fleet_revision = (Telemetry.after digits ops).fleet_revision)
    (records : List (ServerRecord φ)) (now now' : Stamp) :
    ((Telemetry.after digits pre).fleetSummary records now).content =
      ((Telemetry.after digits ops).fleetSummary records now').content := by
  rw [fleetSummary_content, fleetSummary_content]
  by_cases heq : pre = ops
  · rw [heq]
  · obtain ⟨past, hledger, -, hmem⟩ := ledger_run h hr
    exact List.map_congr_left fun record _ => (hledger.fleet _ (hmem pre hpre heq)).2 hrev record

/-- A client converges: where the loop is not woken and its queue is empty, the last fleet frame that it was sent is the
fleet as it is, and the last frame of a server is the selected server as it is, unless as many frames as the queue has
room for were offered behind it. -/
theorem frames_converge (settings : HubSettings) (records : List (ServerRecord φ)) (digits : Digits)
    (events : List (HubEvent φ)) (hsound : AllSound digits (operations events)) (hreturn : NoReturn digits (operations events))
    (hquiet : (after settings records digits events).woken = false) (i : ℕ) (c : Client φ settings.maxsize)
    (hc : (after settings records digits events).clients i = some c) (hdrained : c.box.queue = []) :
    ((Outbox.behind Frame.isFleet c.box.offered).length < settings.maxsize →
      ∃ summary, Outbox.latest Frame.isFleet c.box.sent = some (.fleet summary) ∧
        ∀ now, summary.content = ((after settings records digits events).state.fleetSummary records now).content) ∧
    ∀ s, (after settings records digits events).selected = some s →
      (after settings records digits events).state.has s = true →
      (Outbox.behind Frame.isServer c.box.offered).length < settings.maxsize →
      ∃ snapshot, Outbox.latest Frame.isServer c.box.sent = some (.server s snapshot) ∧
        ∀ now, ((after settings records digits events).state.snapshot settings.stale_after s now).map
          ServerSnapshot.content = some snapshot.content := by
  obtain ⟨hfleet, hserver⟩ := (told_after settings records digits events).quiet hquiet i c hc
  have hshown := shown_after settings records digits events i c hc
  rw [state_after] at hfleet hserver ⊢
  have hkept : ∀ p, (Outbox.behind p c.box.offered).length < settings.maxsize →
      Outbox.latest p c.box.sent = Outbox.latest p c.box.offered := by
    intro p hp
    have hkept := c.box.latest_kept p hp
    rw [hdrained, List.append_nil] at hkept
    exact hkept
  refine ⟨fun hroom => ?_, fun s hs hhas hroom => ?_⟩
  · obtain ⟨pre, at_, hpre, hrev, hlatest⟩ := hshown.fleet (by rw [hfleet]; omega)
    refine ⟨_, (hkept _ hroom).trans hlatest, fun now => ?_⟩
    exact fleet_of_revision hsound hreturn hpre (Int.ofNat_inj.1 (hrev.symm.trans hfleet)) records at_ now
  · obtain ⟨past, hledger, -, -⟩ := ledger_run hsound hreturn
    obtain ⟨state, hstate⟩ := Option.isSome_iff_exists.1 hhas
    have hversioned := hledger.versioned s state hstate
    have hversion : (Telemetry.after digits (operations events)).versionOf s = state.version := versionOf_of_get hstate
    have hnew := hserver s hs (by omega)
    obtain ⟨pre, s', later, snapshot, hpre, hs', hv, hsnapshot, hlatest⟩ := hshown.server (by rw [hnew]; omega)
    obtain rfl := Option.some.inj (hs.symm.trans hs')
    have hhas' : (Telemetry.after digits pre).has s = true := by
      obtain ⟨old, hold, -⟩ := Option.map_eq_some_iff.1 hsnapshot
      unfold TelemetryState.has
      rw [hold]
      rfl
    refine ⟨snapshot, (hkept _ hroom).trans hlatest, fun now => ?_⟩
    have hcontent := versions_of_earlier hsound hreturn hpre hhas' hhas (Int.ofNat_inj.1 (hv.symm.trans hnew))
    rw [snapshot_content, ← hcontent, ← snapshot_content _ settings.stale_after s later, hsnapshot]
    rfl

/-- A turn says no status without the fleet in front of it, and the fleet frame that it says to a client is still there
behind it exactly when the queue has room for all it says behind that. -/
theorem fleet_survives_turn_iff (settings : HubSettings) (records : List (ServerRecord φ)) (digits : Digits)
    (events : List (HubEvent φ)) (now later : Stamp) (i : ℕ) (c : Client φ settings.maxsize)
    (hrunning : (after settings records digits events).stopping = false)
    (hc : (after settings records digits events).clients i = some c) :
    ∃ c', (after settings records digits (events ++ [.turn now later])).clients i = some c' ∧
      (c.fleet_revision = (after settings records digits events).state.fleet_revision →
        (after settings records digits events).statusFrames = []) ∧
      (c.fleet_revision ≠ (after settings records digits events).state.fleet_revision →
        (Outbox.latest Frame.isFleet c'.box.queue =
            some (.fleet ((after settings records digits events).state.fleetSummary records now)) ↔
          ((after settings records digits events).serverFrames later c).length +
            (after settings records digits events).statusFrames.length < settings.maxsize)) := by
  have htold := told_after settings records digits events
  rw [after_concat]
  generalize after settings records digits events = σ at *
  refine ⟨σ.serve settings records now later c, ?_, fun hrev => ?_, fun hrev => ?_⟩
  · unfold Hub.step
    dsimp only
    rw [hrunning]
    show (σ.clients i).map _ = _
    rw [hc]
    rfl
  · exact news_nil fun s _ => htold.news i c hc hrev s
  · have hfleet := (latest_frames σ records now later c).1
    rw [box_serve, Outbox.queue_enqueueAll]
    unfold fleetFrames
    rw [if_neg hrev, List.singleton_append, ← List.length_append]
    exact Outbox.latest_rtake_iff c.box.queue rfl hfleet settings.maxsize

/-! ### A first client -/

/-- The settings as they are delivered. -/
def delivered : HubSettings where
  stale_after := 90

/-- A server is sampled, a client connects and selects it, and is sent what a turn offers it. -/
def firstTurn : List (HubEvent ℚ) :=
  [.mutate ⟨.updateCpu ['s'] { percent := some 5 } 1, nofun⟩, .connect 0, .select (some ['s']), .turn 2 2, .send 0, .send 0]

def firstHub : Hub ℚ delivered.maxsize := after delivered [gpuRecord] asciiDigits firstTurn

def firstClient : Client ℚ delivered.maxsize := (firstHub.clients 0).get (by decide +kernel)

theorem no_change_missed_first : firstClient.fleet_revision = firstHub.state.fleet_revision ∧
    (∀ s, firstHub.selected = some s → firstHub.state.versionOf s ≠ 0 →
      firstClient.snapshot_version = firstHub.state.versionOf s) ∧
    ∀ s, firstHub.sent_status.get s = some (firstHub.state.statusOf s) ∨ firstHub.state.statusOf s = .unknown :=
  no_change_missed delivered [gpuRecord] asciiDigits firstTurn (by decide +kernel) 0 firstClient (Option.some_get _).symm

lemma allSound_first : AllSound asciiDigits (operations firstTurn) := by
  have hnil : AllSound asciiDigits ([] : List (Operation ℚ)) := by
    intro pre op hp
    have hlength := hp.length_le
    rw [List.length_append] at hlength
    exact absurd hlength (Nat.not_succ_le_zero _)
  have hlistener : AllSound asciiDigits [Operation.setListener (φ := ℚ) true] := hnil.append trivial
  exact hlistener.append trivial

lemma noReturn_first : NoReturn asciiDigits (operations firstTurn) := by
  intro pre op hp s _ _ earlier he
  have hpre : pre <+: [Operation.setListener (φ := ℚ) true] := by
    have hlength := hp.length_le
    have hlast : (operations firstTurn) = [Operation.setListener (φ := ℚ) true] ++ (operations firstTurn).tail := rfl
    rw [hlast] at hp
    refine List.prefix_of_prefix_length_le ((List.prefix_append pre [op]).trans hp) (List.prefix_append _ _) ?_
    rw [List.length_append] at hlength
    exact Nat.le_of_succ_le_succ hlength
  rcases List.prefix_cons_iff.1 (he.trans hpre) with rfl | ⟨rest, rfl, hrest⟩
  · rfl
  · rw [List.prefix_nil.1 hrest]
    rfl

theorem frames_converge_first :
    ((Outbox.behind Frame.isFleet firstClient.box.offered).length < delivered.maxsize →
      ∃ summary, Outbox.latest Frame.isFleet firstClient.box.sent = some (.fleet summary) ∧
        ∀ now, summary.content = (firstHub.state.fleetSummary [gpuRecord] now).content) ∧
    ∀ s, firstHub.selected = some s → firstHub.state.has s = true →
      (Outbox.behind Frame.isServer firstClient.box.offered).length < delivered.maxsize →
      ∃ snapshot, Outbox.latest Frame.isServer firstClient.box.sent = some (.server s snapshot) ∧
        ∀ now, (firstHub.state.snapshot delivered.stale_after s now).map ServerSnapshot.content = some snapshot.content :=
  frames_converge delivered [gpuRecord] asciiDigits firstTurn allSound_first noReturn_first (by decide +kernel) 0 firstClient
    (Option.some_get _).symm (List.isEmpty_iff.1 (by decide +kernel))

/-- A client has selected a server whose status is news. -/
def newStatus : List (HubEvent ℚ) :=
  [.mutate ⟨.setStatus ['s'] .online [] 1, nofun⟩, .connect 0, .select (some ['s'])]

def newsHub : Hub ℚ delivered.maxsize := after delivered [gpuRecord] asciiDigits newStatus

def newsClient : Client ℚ delivered.maxsize := (newsHub.clients 0).get (by decide +kernel)

theorem fleet_survives_turn_first :
    ∃ c', (after delivered [gpuRecord] asciiDigits (newStatus ++ [.turn 2 2])).clients 0 = some c' ∧
      (newsClient.fleet_revision = newsHub.state.fleet_revision → newsHub.statusFrames = []) ∧
      (newsClient.fleet_revision ≠ newsHub.state.fleet_revision →
        (Outbox.latest Frame.isFleet c'.box.queue = some (.fleet (newsHub.state.fleetSummary [gpuRecord] 2)) ↔
          (newsHub.serverFrames 2 newsClient).length + newsHub.statusFrames.length < delivered.maxsize)) :=
  fleet_survives_turn_iff delivered [gpuRecord] asciiDigits newStatus 2 2 0 newsClient (by decide +kernel)
    (Option.some_get _).symm

/-- As delivered, a queue has no room for the fleet, a server and a status. -/
example : (newsHub.serverFrames 2 newsClient).length + newsHub.statusFrames.length = delivered.maxsize := by
  decide +kernel

end Hub
end SshGpuConsole.Telemetry
