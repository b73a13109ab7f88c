import SshGpuConsole.DirectAuth.Reasons
import SshGpuConsole.DirectAuth.RemoteFile
import SshGpuConsole.Ssh.HostKeys
import SshGpuConsole.Transfer.Planner

/-!
# The direct-auth service

`DirectAuthService.setup_key` and `revoke` (`direct_auth/service.py`) with the store of configured pairs
(`direct_auth/metadata.py`). A call is a program over the two servers of its pair, the store and the
console's connections; the environment answers every step or raises, and a step that raises may have taken
effect all the same. A call that is killed is a call whose remaining steps all raise without an effect.
-/

namespace SshGpuConsole.DirectAuth
open Shell (Text)
open Effect PosixPath PyText PyLines Ssh Planner

/-! ### Names and lines -/

/-- `_SOURCE_SSH_DIR`. -/
def sourceSshDir : Text := ".ssh".toList

/-- `_SOURCE_APP_DIR`. -/
def sourceAppDir : Text := ".ssh/gpu-console".toList

/-- `_SOURCE_KEYS_DIR`. -/
def sourceKeysDir : Text := ".ssh/gpu-console/keys".toList

/-- `_DIR_MODE`. -/
def dirMode : Nat := 0o700

/-- `_KEY_FILE_MODE`. -/
def keyFileMode : Nat := 0o600

/-- `_RESTRICTED_OPTIONS`. -/
def restrictedOptions : Text := "no-agent-forwarding,no-port-forwarding,no-X11-forwarding,no-pty".toList

/-- One character of `_slug`. -/
def slugChar (c : Char) : Char :=
  if (c.toNat < 128 && c.isAlphanum) || c = '.' || c = '_' || c = '-' then c else '_'

/-- `_slug`. -/
def slug (value : Text) : Text :=
  let cleaned := (value.map slugChar).take 40
  let start := if cleaned = [] then "id".toList else cleaned
  let edge : Char → Bool := fun c => c = '.' || c = '_'
  let stripped := ((start.dropWhile edge).reverse.dropWhile edge).reverse
  if stripped = [] then "id".toList else stripped

/-- What the comments of a pair start with. -/
def commentPrefix (source_server_id target_server_id : Text) : Text :=
  "sgc-direct:".toList ++ slug source_server_id ++ ':' :: slug target_server_id ++ [':']

/-- `_comment`. -/
def comment (source_server_id target_server_id key_id : Text) : Text :=
  commentPrefix source_server_id target_server_id ++ key_id

/-- `_line_fields`. -/
def lineFields (line : Bytes) : Option (List Text) := (decodeAscii (stripBytes line)).map split

/-- `_line_comment`. -/
def lineComment (line : Bytes) : Option Text :=
  match lineFields line with
  | some fields => if 3 ≤ fields.length then fields.getLast? else none
  | none => none

/-- `_line_blob`. -/
def lineBlob (line : Bytes) : Option Text :=
  match lineFields line with
  | some fields => if 3 ≤ fields.length then fields.dropLast.getLast? else none
  | none => none

/-- `_append_line`. -/
def appendLine (existing line : Bytes) : Bytes :=
  let base := if existing = [] || existing.getLast? = some 10 then existing else existing ++ [10]
  base ++ line ++ [10]

/-- Whether `base64.b64decode(text, validate=True)` succeeds: groups of four, the last one padded. -/
def validBase64 (text : Text) : Bool :=
  let digits := (text.reverse.dropWhile (· = '=')).reverse
  let padding := text.length - digits.length
  digits.all (fun c => (c.toNat < 128 && c.isAlphanum) || c = '+' || c = '/') && padding ≤ 2 &&
    text.length % 4 = 0

/-- `_parse_public_line`: the key type, the key and the comment. -/
def parsePublicLine (text : Text) (want_comment : Bool) : Except Reason (Text × Text × Option Text) :=
  let lines := ((charBreaks.lines (strip text)).map strip).filter (· ≠ [])
  match lines.getLast? with
  | none => .error .unknown
  | some line =>
    match split line with
    | key_type :: blob :: rest =>
      if validBase64 blob then .ok (key_type, blob, if want_comment then rest.head? else none)
      else .error .remoteKeyInvalid
    | _ => .error .remoteKeyInvalid

/-- Whether `_obtain_key` takes a text for a key id. -/
def validKeyId (recovered : Text) : Bool :=
  recovered ≠ [] && recovered.length ≤ 16 && recovered.all "0123456789abcdef".toList.contains

/-! ### The store of configured pairs -/

/-- `DirectAuthPairMetadata`, without its creation time. -/
structure PairMetadata where
  source_server_id : Text
  target_server_id : Text
  key_id : Text
  remote_private_key_path : Text
  remote_public_key_path : Text
  remote_known_hosts_path : Text
  public_key_fingerprint : Text
  deriving DecidableEq, Repr

/-- `DirectAuthMetadata`: the rows in memory and the rows of the file. -/
structure Metadata where
  records : List PairMetadata := []
  stored : List PairMetadata := []
  deriving DecidableEq, Repr

section Store
variable (casefold : Text → Text)

/-- `DirectAuthMetadata._key`. -/
def pairKey (source_server_id target_server_id : Text) : Text × Text :=
  (casefold source_server_id, casefold target_server_id)

/-- The key of a row. -/
def PairMetadata.key (r : PairMetadata) : Text × Text := pairKey casefold r.source_server_id r.target_server_id

/-- `DirectAuthMetadata.get`. -/
def Metadata.get (m : Metadata) (source_server_id target_server_id : Text) : Option PairMetadata :=
  m.records.find? fun r => r.key casefold = pairKey casefold source_server_id target_server_id

/-- The rows of the other pairs. -/
def others (records : List PairMetadata) (key : Text × Text) : List PairMetadata :=
  records.filter fun r => r.key casefold ≠ key

/-- `DirectAuthMetadata.put`, as far as it gets: the memory first, then the file. -/
def Metadata.put (m : Metadata) (r : PairMetadata) (steps : Nat) : Metadata :=
  let records := others casefold m.records (r.key casefold) ++ [r]
  { records := if 1 ≤ steps then records else m.records,
    stored := if 2 ≤ steps then records else m.stored }

/-- `DirectAuthMetadata.remove`, as far as it gets; the file is written only when a row went. -/
def Metadata.remove (m : Metadata) (source_server_id target_server_id : Text) (steps : Nat) : Metadata :=
  let records := others casefold m.records (pairKey casefold source_server_id target_server_id)
  { records := if 1 ≤ steps then records else m.records,
    stored := if 2 ≤ steps && records.length < m.records.length then records else m.stored }

/-- The service starts again: `DirectAuthMetadata._load`. -/
def Metadata.restart (m : Metadata) : Metadata := { records := m.stored, stored := m.stored }

end Store

/-! ### The environment -/

/-- What the console's own calls raise. -/
inductive Failure where
  /-- `ExecutorError`. -/
  | executor (code detail : Text)
  /-- `NotFoundError`. -/
  | notFound (detail : Text)
  /-- Any other `Exception` with its text. -/
  | other (text : Text)
  /-- `asyncio.CancelledError`. -/
  | cancelled
  deriving DecidableEq, Repr

/-- What the service's programs raise. -/
inductive Raised where
  /-- Raised by a file-transfer session. -/
  | session (e : Exn)
  | failure (f : Failure)
  /-- `_SetupFailure`. -/
  | setup (reason : Reason)
  deriving DecidableEq, Repr

/-- Whether `except Exception` catches it. -/
def Raised.isException : Raised → Bool
  | .session e => e.isException
  | .failure f => f ≠ .cancelled
  | .setup _ => true

/-- `str(exc)`, of what the steps of a probe raise. -/
def Failure.text : Failure → Text
  | .executor code detail => code ++ ": ".toList ++ detail
  | .notFound detail => detail
  | .other text => text
  | .cancelled => []

/-- `str(exc)`. -/
def Raised.text : Raised → Text
  | .session _ => []
  | .failure f => f.text
  | .setup reason => reason.value

/-- The fixed commands the service runs. -/
inductive Command where
  | true
  | whichKeygen
  | keygen (comment path : Text)
  | cat (path : Text)
  deriving DecidableEq, Repr

/-- The command line. -/
def Command.line : Command → Text
  | .true => "true".toList
  | .whichKeygen => "command -v ssh-keygen".toList
  | .keygen comment path =>
    "ssh-keygen -t ed25519 -N ".toList ++ quote [] ++ " -C ".toList ++ quote comment ++ " -f ".toList ++ quote path
  | .cat path => "cat ".toList ++ quote path

/-- The public key file next to a private one. -/
def pubPath (private_path : Text) : Text := private_path ++ ".pub".toList

/-- What a command that got so far did to the server: `ssh-keygen` writes the two key files. -/
def Command.perform (files : Bytes × Bytes) (steps : Nat) (s : Server) : Command → Server
  | .keygen _ path =>
    let s := if 1 ≤ steps then s.set path (some (.file ⟨files.1, 0o600, 0⟩)) else s
    if 2 ≤ steps then s.set (pubPath path) (some (.file ⟨files.2, 0o644, 0⟩)) else s
  | _ => s

structure CommandResult where
  exit_code : Int
  /-- Standard output of a fixed command, standard error of a probe. -/
  output : Text
  deriving DecidableEq, Repr

/-- `VerifiedHostKey`. -/
structure VerifiedHostKey where
  key_type : Text
  openssh_public_key_line : Text
  fingerprint : Text
  deriving DecidableEq, Repr

/-- `known_hosts_entry`. -/
def VerifiedHostKey.knownHostsEntry (key : VerifiedHostKey) (host : Text) (port : Int) : Text :=
  let host_part := if port ≠ 22 then '[' :: host ++ "]:".toList ++ ofInt port else host
  host_part ++ ' ' :: key.openssh_public_key_line

/-- The digits of `uuid4().hex[:8]`. -/
structure HexId where
  digits : Text
  length : digits.length = 8
  hex : digits.all "0123456789abcdef".toList.contains = true
  deriving DecidableEq

/-- The steps of the service's programs. -/
inductive AuthOp where
  /-- A primitive of a file-transfer session. -/
  | onServer (o : SideOp)
  /-- `_server`, with `_require_enabled` in a setup. -/
  | server (s : Side)
  | openSession (s : Side)
  | closeSession (s : Side)
  /-- `transfer_command_session(source)`. -/
  | openCommands
  | closeCommands
  /-- `LongCommandSession.run` on the source. -/
  | probe (command : Text)
  /-- `SshManager.run`. -/
  | run (s : Side) (command : Command)
  /-- `resolve_params_for(target)`. -/
  | resolveParams
  | verifiedHostKey
  | uuid
  | get (source_server_id target_server_id : Text)
  | put (r : PairMetadata)
  | remove (source_server_id target_server_id : Text)

@[reducible] def AuthOp.Ans : AuthOp → Type
  | .onServer o => o.2.Ans
  | .probe _ | .run _ _ => CommandResult
  | .resolveParams => ConnectParams
  | .verifiedHostKey => Option VerifiedHostKey
  | .uuid => HexId
  | .get _ _ => Option PairMetadata
  | _ => Unit

/-- What the environment chooses at one step. -/
structure AuthChoice where
  /-- At a primitive of a session. -/
  sftp : Choice
  /-- What another step raises instead of answering. -/
  raises : Option Failure
  /-- How far a step that raises, or a command that fails, got. -/
  steps : Nat
  result : CommandResult
  key_files : Bytes × Bytes
  params : ConnectParams
  host_key : Option VerifiedHostKey
  digits : HexId

/-- What a call of the service acts on. -/
structure World where
  servers : Servers
  metadata : Metadata := {}

/-- The settings of the service. -/
structure Config where
  /-- `str.casefold`. -/
  casefold : Text → Text
  /-- `_openssh_fingerprint`; none when the blob does not decode. -/
  opensshFingerprint : Text → Option Text
  /-- The rounds of a read loop; see `readLoop`. -/
  rounds : Nat

section Environment
variable (cfg : Config)

/-- What a step that is neither a primitive of a session nor of the store answers. -/
def AuthOp.answer (c : AuthChoice) : (o : AuthOp) → Except Raised o.Ans
  | .onServer _ => .error (.failure .cancelled)
  | .probe _ | .run _ _ => .ok c.result
  | .resolveParams => .ok c.params
  | .verifiedHostKey => .ok c.host_key
  | .uuid => .ok c.digits
  | .get _ _ => .ok none
  | .server _ | .openSession _ | .closeSession _ | .openCommands | .closeCommands | .put _ | .remove _ _ => .ok ()

/-- How far a step gets: a command that exits with 0, and a write of the store that returns, all the way. -/
def AuthOp.reach (c : AuthChoice) : AuthOp → Nat
  | .run _ _ => if c.raises = none && c.result.exit_code = 0 then 2 else c.steps
  | _ => if c.raises = none then 2 else c.steps

/-- What a step that got so far did. -/
def AuthOp.effect (c : AuthChoice) (w : World) (o : AuthOp) : World :=
  match o with
  | .run s command => { w with servers := w.servers.set s (command.perform c.key_files (o.reach c) (w.servers s)) }
  | .put r => { w with metadata := w.metadata.put cfg.casefold r (o.reach c) }
  | .remove s t => { w with metadata := w.metadata.remove cfg.casefold s t (o.reach c) }
  | _ => w

/-- One step in the environment. -/
def AuthOp.act (c : AuthChoice) (w : World) (o : AuthOp) : Except Raised o.Ans × World :=
  match o with
  | .onServer o => ((sftp.act o c.sftp w.servers).1.mapError .session,
      { w with servers := (sftp.act o c.sftp w.servers).2 })
  | .get s t => (.ok (w.metadata.get cfg.casefold s t), w)
  | .uuid => (.ok c.digits, w)
  | o =>
    match c.raises with
    | some f => (.error (.failure f), o.effect cfg c w)
    | none => (o.answer c, o.effect cfg c w)

/-- The environment of the service. -/
def environment : Sem AuthOp AuthOp.Ans Raised World AuthChoice where
  act o c w := o.act cfg c w

end Environment

abbrev Auth (α : Type) := Prog AuthOp AuthOp.Ans Raised α

/-- The exception a session's primitive raised. -/
def Raised.ofSession : Raised → Exn
  | .session e => e
  | _ => .other

/-- A program of a file-transfer session. -/
def ofSftp {α : Type} (p : Sftp α) : Auth α :=
  p.embed AuthOp.onServer (fun _ a => a) Raised.session Raised.ofSession

instance : MonadLift Sftp Auth := ⟨ofSftp⟩

/-- Call one step. -/
def call (o : AuthOp) : Auth o.Ans := Prog.perform o

/-- `with contextlib.suppress(Exception)`. -/
def suppressing (p : Auth Unit) : Auth Unit := Prog.suppress Raised.isException p

/-- `try … except Exception`, with the exception as a value. -/
def trying {α : Type} (p : Auth α) : Auth (Except Raised α) := Prog.catching Raised.isException p

end SshGpuConsole.DirectAuth
