import SshGpuConsole.Lib.Outbox
import SshGpuConsole.Lib.Runs
import SshGpuConsole.Telemetry.Revisions

/-!
# The realtime hub

`RealtimeHub` (`telemetry/hub.py`): the frames of the fleet, of the selected server and of changed statuses, offered to
every client whose revision is behind, over a queue that drops its oldest. Mutations of the state, connects, selections
and the senders go on between the turns of the broadcast loop. The registry is that of the whole run.
-/

namespace SshGpuConsole.Telemetry
open Shell (Text)
open PyText
open Registry (ServerRecord)

structure HubSettings where
  client_queue_size : ℤ := 2
  /-- The freshness window of a snapshot. -/
  stale_after : ℕ

/-- `max(1, self.queue_size)` -/
def HubSettings.maxsize (settings : HubSettings) : ℕ := (max 1 settings.client_queue_size).toNat

lemma HubSettings.maxsize_pos (settings : HubSettings) : 0 < settings.maxsize := by
  unfold HubSettings.maxsize
  omega

inductive Frame (φ : Type) where
  | hello (server_ids : List Text)
  | fleet (summary : FleetSummary φ)
  | server (server_id : Text) (snapshot : ServerSnapshot φ)
  | status (server_id : Text) (status : ServerStatus)

def Frame.isFleet {φ : Type} : Frame φ → Bool
  | .fleet _ => true
  | _ => false

def Frame.isServer {φ : Type} : Frame φ → Bool
  | .server _ _ => true
  | _ => false

/-- `_Client` -/
structure Client (φ : Type) (size : ℕ) where
  box : Outbox (Frame φ) size
  fleet_revision : ℤ := -1
  snapshot_version : ℤ := -1

structure Hub (φ : Type) (size : ℕ) where
  state : TelemetryState φ
  /-- `_clients` -/
  clients : ℕ → Option (Client φ size) := fun _ => none
  selected : Option Text := none
  sent_status : Dict Text ServerStatus := []
  /-- `_wake` is set. -/
  woken : Bool := false
  stopping : Bool := false

/-- An operation on the state; the listener is set when the service starts, and stays. -/
def Mutation (φ : Type) : Type := { op : Operation φ // ∀ set, op ≠ .setListener set }

inductive HubEvent (φ : Type) where
  | mutate (op : Mutation φ)
  | connect (client : ℕ)
  | disconnect (client : ℕ)
  /-- `set_intent` -/
  | select (server_id : Option Text)
  /-- A turn of the broadcast loop, woken or after its timeout; the stamps are what `utcnow()` returns in it. -/
  | turn (now later : Stamp)
  /-- A sender takes a frame out of its queue and sends it. -/
  | send (client : ℕ)
  /-- The websocket of a client is broken. -/
  | broken (client : ℕ)
  | stop

namespace Client
variable {φ : Type} {size : ℕ}

/-- A fleet frame goes to a client that does not have its revision. -/
def offerFleet (frame : Frame φ) (revision : ℕ) (client : Client φ size) : Client φ size :=
  if client.fleet_revision = revision then client
  else { client with box := client.box.enqueue frame, fleet_revision := revision }

/-- And a snapshot to one that does not have its version. -/
def offerServer (frame : Frame φ) (version : ℕ) (client : Client φ size) : Client φ size :=
  if client.snapshot_version = version then client
  else { client with box := client.box.enqueue frame, snapshot_version := version }

def offerAll (frames : List (Frame φ)) (client : Client φ size) : Client φ size :=
  { client with box := client.box.enqueueAll frames }

/-- The client is to be sent everything. -/
def forget (client : Client φ size) : Client φ size := { client with fleet_revision := -1, snapshot_version := -1 }

end Client

/-- The frames of the statuses that were not sent last, and what was sent behind them. A server that is not known yet
is not news. -/
def news {φ : Type} (state : TelemetryState φ) : List Text → Dict Text ServerStatus → List (Frame φ) × Dict Text ServerStatus
  | [], sent => ([], sent)
  | server_id :: rest, sent =>
    let status := state.statusOf server_id
    if sent.get server_id = some status then news state rest sent
    else
      let (frames, sent) := news state rest (sent.set server_id status)
      (if status = .unknown then frames else .status server_id status :: frames, sent)

namespace Hub
variable {φ : Type} (settings : HubSettings) (records : List (ServerRecord φ)) (σ : Hub φ settings.maxsize)

/-- Something is done to every client. -/
def eachClient (f : Client φ settings.maxsize → Client φ settings.maxsize) : Hub φ settings.maxsize :=
  { σ with clients := fun i => (σ.clients i).map f }

/-- The snapshot of the selected server, if there is one, with its version. -/
def selectedFrame (later : Stamp) : Option (Frame φ × ℕ) :=
  σ.selected.bind fun server_id => (σ.state.snapshot settings.stale_after server_id later).map fun snapshot =>
    (.server server_id snapshot, σ.state.versionOf server_id)

/-- What a turn offers to a client. -/
def serve [Measure φ] (now later : Stamp) (client : Client φ settings.maxsize) : Client φ settings.maxsize :=
  let client := client.offerFleet (.fleet (σ.state.fleetSummary records now)) σ.state.fleet_revision
  let client := match σ.selectedFrame settings later with
    | some (frame, version) => client.offerServer frame version
    | none => client
  client.offerAll (news σ.state σ.state.serverIds σ.sent_status).1

/-- `_push_changes` -/
def pushChanges [Measure φ] (now later : Stamp) : Hub φ settings.maxsize :=
  { σ.eachClient settings (σ.serve settings records now later) with
    sent_status := (news σ.state σ.state.serverIds σ.sent_status).2 }

/-- `connect` -/
def connect (client : ℕ) : Hub φ settings.maxsize :=
  if (σ.clients client).isSome then σ
  else
    let hello : Frame φ := .hello (records.map fun (record : ServerRecord φ) => record.server_id)
    { σ with
      clients := Function.update σ.clients client
        (some { box := (Outbox.empty settings.maxsize_pos).enqueue hello })
      woken := true }

/-- `disconnect` -/
def drop (client : ℕ) : Hub φ settings.maxsize := { σ with clients := Function.update σ.clients client none }

/-- `set_intent` -/
def setIntent (server_id : Option Text) : Hub φ settings.maxsize :=
  let accept (selected : Option Text) : Hub φ settings.maxsize :=
    { σ.eachClient settings Client.forget with selected, woken := true }
  match server_id with
  | none => accept none
  | some server_id =>
    let candidate := (strip server_id).take 128
    -- an empty name is refused
    if candidate = [] then σ else accept (some candidate)

/-- The sender of a client goes on. -/
def send (client : ℕ) : Hub φ settings.maxsize :=
  { σ with
    clients := Function.update σ.clients client ((σ.clients client).map fun c => { c with box := c.box.send }) }

def step [Measure φ] (digits : Digits) : HubEvent φ → Hub φ settings.maxsize
  | .mutate op =>
    let state := σ.state.apply digits op.1
    { σ with state, woken := σ.woken || σ.state.notified < state.notified }
  | .connect client => σ.connect settings records client
  | .disconnect client => σ.drop settings client
  | .select server_id => σ.setIntent settings server_id
  | .turn now later =>
    if σ.stopping then σ else pushChanges settings records { σ with woken := false } now later
  | .send client => σ.send settings client
  | .broken client => σ.drop settings client
  | .stop => { σ with stopping := true, woken := true, clients := fun _ => none }

end Hub
end SshGpuConsole.Telemetry
