import SshGpuConsole.DirectAuth.Service

/-!
# Setup and revoke

The operations of `DirectAuthService` on one pair of servers, as programs of the environment.
-/

namespace SshGpuConsole.DirectAuth
open Shell (Text)
open Effect PosixPath PyText PyLines Ssh Planner

/-- The server ids a call names. -/
structure Pair where
  source_id : Text
  target_id : Text
  deriving DecidableEq, Repr

/-- `DirectAuthMethod`. -/
inductive Method where
  | native
  | sgcKey
  deriving DecidableEq, Repr

/-- `DirectAuthStatus`, without the ids and the time. -/
structure Status where
  configured : Bool
  method : Option Method
  available : Option Bool
  reason : Option Text
  deriving DecidableEq, Repr

/-- The answer to a setup that did not come to a key. -/
def Status.unavailable (reason : Text) : Status := ⟨false, none, some false, some reason⟩

/-- The answer to a revoke that left nothing. -/
def Status.revoked : Status := ⟨false, none, none, none⟩

/-- `_executor_reason`. -/
def executorReason (code : Text) : Reason :=
  if code = "authentication_failed".toList then .authenticationFailed
  else if code = "host_key_mismatch".toList then .hostKeyMismatch
  else if code = "host_key_unknown".toList then .hostKeyUnknown
  else if code = "unknown".toList then .unknown
  else .routeUnreachable

def failSetup {α : Type} (reason : Reason) : Auth α := throw (.setup reason)

/-! ### The dedicated probe -/

/-- The command line of `dedicated_batch_mode_probe`. -/
def probeCommand (params : ConnectParams) (options : DedicatedKeyOptions) : Text :=
  let user_part := match params.username with
    | none | some [] => []
    | some user => user ++ ['@']
  let port := if params.port = 0 then 22 else params.port
  "ssh -i ".toList ++ quote options.private_key_path ++
    " -o IdentitiesOnly=yes -o BatchMode=yes -o StrictHostKeyChecking=yes".toList ++
    " -o UserKnownHostsFile=".toList ++ quote options.known_hosts_path ++
    " -o ConnectTimeout=8 -p ".toList ++ ofInt port ++ ' ' :: quote (user_part ++ params.host) ++ " true".toList

/-- `dedicated_batch_mode_probe` of the planner. -/
def dedicatedBatchModeProbe (params : ConnectParams) (options : DedicatedKeyOptions) : Auth (Bool × Text) := do
  match ← trying (call (.probe (probeCommand params options))) with
  | .error e => pure (false, probeError e.text)
  | .ok r => pure (if r.exit_code = 0 then (true, []) else (false, probeDetail r.output r.exit_code))

/-- `_run_probe` with the dedicated key. -/
def runProbe (options : DedicatedKeyOptions) : Auth (Bool × Text) := do
  let params ← call .resolveParams
  match ← trying (call .openCommands) with
  | .error e => pure (false, probeError e.text)
  | .ok _ =>
    Prog.andFinally
      (do
        match ← trying (dedicatedBatchModeProbe params options) with
        | .error e => pure (false, probeError e.text)
        | .ok outcome => pure outcome)
      (suppressing (call .closeCommands))

/-! ### Remote files -/

/-- The loop of `_read_remote_bytes`, for at most so many rounds: every round but the last reads a byte, so
the length of the file and one more do. Running out counts as a read that raises. -/
def readLoop : Nat → Handle → Bytes → Sftp Bytes
  | 0, _, _ => throw .other
  | n + 1, handle, chunks => do
    let (chunk, handle) ← handle.read 65536
    if chunk = [] then pure chunks else readLoop n handle (chunks ++ chunk)

/-- `_read_remote_bytes`. -/
def readRemoteBytes (rounds : Nat) (s : Side) (path : Text) : Sftp Bytes := do
  let handle ← openReader s path
  Prog.andFinally (readLoop rounds handle []) handle.closeQuiet

/-- What the service reads of a file: nothing where there is none. -/
def readExisting (rounds : Nat) (s : Side) (path : Text) : Sftp Bytes := do
  let stat_info ← stat s path
  if stat_info.exists_ then readRemoteBytes rounds s path else pure []

/-- `_write_remote_file` with the digits of a fresh UUID. -/
def writeFile (s : Side) (path : Text) (data : Bytes) (tag : Text) : Auth Unit := do
  let hex ← call .uuid
  writeRemoteFile s path data keyFileMode tag hex.digits

/-- `text.encode("ascii")`. -/
def encode (t : Text) : Auth Bytes :=
  match encodeAscii t with
  | some b => pure b
  | none => throw (.failure (.other "ordinal not in range".toList))

/-- The restricted line of a public key. -/
def restrictedLine (public_line comment : Text) : Text :=
  restrictedOptions ++ ' ' :: public_line ++ ' ' :: comment

section Operations
variable (cfg : Config) (pair : Pair)

/-- `_ensure_authorized_line`. -/
def ensureAuthorizedLine (public_line comment tag : Text) : Auth Unit := do
  let existing ← (readExisting cfg.rounds .target targetAuthKeys : Sftp _)
  if (byteBreaks.lines existing).any fun line => lineComment line = some comment then pure ()
  else
    let restricted ← encode (restrictedLine public_line comment)
    writeFile .target targetAuthKeys (appendLine existing restricted) tag

/-- `_ensure_known_hosts_entry`. -/
def ensureKnownHostsEntry (entry tag : Text) : Auth Unit := do
  let existing ← (readExisting cfg.rounds .source sourceKnownHosts : Sftp _)
  let entry_bytes ← encode entry
  if (byteBreaks.lines existing).any fun line => stripBytes line = entry_bytes then pure ()
  else writeFile .source sourceKnownHosts (appendLine existing entry_bytes) tag

/-- The loop of `_remove_authorized_line`: the first line with the comment and, where one is asked for, the
fingerprint goes; none when a fingerprint cannot be computed. -/
def dropAuthorized (fingerprint : Option Text) (comment : Text) : List Bytes → Option (List Bytes)
  | [] => some []
  | line :: rest =>
    if lineComment line = some comment then
      match fingerprint with
      | none => some rest
      | some wanted =>
        match lineBlob line with
        | none => (dropAuthorized fingerprint comment rest).map (line :: ·)
        | some blob =>
          match cfg.opensshFingerprint blob with
          | none => none
          | some found =>
            if found ≠ wanted then (dropAuthorized fingerprint comment rest).map (line :: ·) else some rest
    else (dropAuthorized fingerprint comment rest).map (line :: ·)

/-- The rest of both removals: read the file, drop a line, and write what is kept. -/
def removeLine (s : Side) (path tag : Text) (drop : List Bytes → Option (List Bytes)) : Auth Unit := do
  let stat_info ← (stat s path : Sftp _)
  if !stat_info.exists_ then pure ()
  else
    let existing ← (readRemoteBytes cfg.rounds s path : Sftp _)
    let lines := byteBreaks.keepLines existing
    match drop lines with
    | none => throw (.failure (.other "Incorrect padding".toList))
    | some kept => if kept = lines then pure () else writeFile s path kept.flatten tag

/-- `_remove_authorized_line`. -/
def removeAuthorizedLine (comment : Text) (fingerprint : Option Text) (tag : Text) : Auth Unit :=
  removeLine cfg .target targetAuthKeys tag (dropAuthorized cfg fingerprint comment)

/-- Whether a line of `known_hosts` carries a key. -/
def carries (blob : Text) (line : Bytes) : Bool :=
  match lineFields line with
  | some fields => fields.tail.contains blob
  | none => false

/-- `_remove_known_hosts_blob`: the first line that carries the key goes. -/
def removeKnownHostsBlob (blob tag : Text) : Auth Unit :=
  removeLine cfg .source sourceKnownHosts tag fun lines => some (lines.eraseP (carries blob))

/-! ### Removing a pair's materials -/

/-- One key file of `_remove_pair_materials`. -/
def removeKeyFile (path : Text) : Sftp (List Text) :=
  Prog.handle (do remove .source path; pure []) fun e =>
    if e.isException then do
      let stat_info ← stat .source path
      pure (if stat_info.exists_ then [basename path ++ " could not be removed".toList] else [])
    else throw e

/-- The authorized line, in a session of its own. -/
def removeFromTarget (record : PairMetadata) : Auth (List Text) := do
  match ← trying (call (.openSession .target)) with
  | .error _ => pure ["target session could not be opened".toList]
  | .ok _ =>
    let fingerprint := if record.public_key_fingerprint = [] then none else some record.public_key_fingerprint
    Prog.andFinally
      (do
        match ← trying (removeAuthorizedLine cfg (comment record.source_server_id record.target_server_id record.key_id)
            fingerprint record.key_id) with
        | .error _ => pure ["authorized_keys line could not be removed".toList]
        | .ok _ => pure [])
      (suppressing (call (.closeSession .target)))

/-- What the source session could not do, behind what it already noted. -/
def noting (notes : List Text) (p : Auth (List Text)) (k : List Text → Auth (List Text)) : Auth (List Text) := do
  match ← trying p with
  | .error _ => pure (notes ++ ["source materials could not be fully removed".toList])
  | .ok more => k (notes ++ more)

/-- The key files and, after a failed setup, the entry of `known_hosts`. -/
def removeFromSource (record : PairMetadata) (known_hosts_blob : Option Text) : Auth (List Text) := do
  match ← trying (call (.openSession .source)) with
  | .error _ => pure ["source session could not be opened".toList]
  | .ok _ =>
    Prog.andFinally
      (noting [] (removeKeyFile record.remote_private_key_path : Sftp _) fun notes =>
        noting notes (removeKeyFile record.remote_public_key_path : Sftp _) fun notes =>
          match known_hosts_blob with
          | none | some [] => pure notes
          | some blob =>
            noting notes (do removeKnownHostsBlob cfg blob record.key_id; pure []) pure)
      (suppressing (call (.closeSession .source)))

/-- `_remove_pair_materials`; `known_hosts_blob` is none when `remove_known_hosts` is false. -/
def removePairMaterials (record : PairMetadata) (known_hosts_blob : Option Text) : Auth (List Text) := do
  let failures ← removeFromTarget cfg record
  let more ← removeFromSource cfg record known_hosts_blob
  pure (failures ++ more)

/-! ### Setup -/

/-- What one attempt works with. -/
structure Attempt where
  key_id : HexId
  params : ConnectParams
  verified : VerifiedHostKey
  deriving DecidableEq

/-- The private key file of the pair. -/
def privatePath : Text :=
  sourceKeysDir ++ "/sgc-direct-".toList ++ slug pair.source_id ++ '-' :: slug pair.target_id

/-- The row an attempt persists; a rollback names its materials by one without a fingerprint. -/
def rowOf (key_id fingerprint : Text) : PairMetadata where
  source_server_id := pair.source_id
  target_server_id := pair.target_id
  key_id := key_id
  remote_private_key_path := privatePath pair
  remote_public_key_path := pubPath (privatePath pair)
  remote_known_hosts_path := sourceKnownHosts
  public_key_fingerprint := fingerprint

/-- `_ensure_dir`. -/
def ensureDir (s : Side) (path : Text) (mode : Nat) : Sftp Unit := do
  mkdir s path
  setMode s path mode

/-- `_ensure_source_dirs`. -/
def ensureSourceDirs : Sftp Unit := do
  let ssh ← stat .source sourceSshDir
  ensureDir .source sourceAppDir dirMode
  ensureDir .source sourceKeysDir dirMode
  if !ssh.exists_ then setMode .source sourceSshDir dirMode

/-- `_run_fixed`. -/
def runFixed (s : Side) (command : Command) : Auth Bool :=
  Prog.handle (do let r ← call (.run s command); pure (decide (r.exit_code = 0))) fun e =>
    match e with
    | .failure (.executor _ _) => pure false
    | e => throw e

/-- `_cat_public`. -/
def catPublic (pub_path : Text) : Auth Text :=
  Prog.handle
    (do
      let r ← call (.run .source (.cat pub_path))
      if r.exit_code ≠ 0 || strip r.output = [] then failSetup .unknown else pure r.output)
    fun e =>
      match e with
      | .failure (.executor code _) => failSetup (executorReason code)
      | e => throw e

/-- `_parse_public_line` of the public key file. -/
def readPublic (pub_path : Text) (want_comment : Bool) : Auth (Text × Text × Option Text) := do
  let text ← catPublic pub_path
  match parsePublicLine text want_comment with
  | .ok key => pure key
  | .error reason => failSetup reason

/-- The comment a key found on the source is installed under: its own id is recovered where it has one. -/
def reusedComment (attempt_key_id : Text) (existing_comment : Option Text) : Text :=
  let prefix_ := commentPrefix pair.source_id pair.target_id
  match existing_comment with
  | some c =>
    if startsWith prefix_ c && validKeyId (c.drop prefix_.length) then
      comment pair.source_id pair.target_id (c.drop prefix_.length)
    else comment pair.source_id pair.target_id attempt_key_id
  | none => comment pair.source_id pair.target_id attempt_key_id

/-- `_obtain_key`: the comment, the key type and the key. -/
def obtainKey (attempt_key_id : Text) : Auth (Text × Text × Text) := do
  let private_path := privatePath pair
  let found ← (stat .source private_path : Sftp _)
  if found.exists_ then
    let (key_type, blob, existing_comment) ← readPublic (pubPath private_path) true
    pure (reusedComment pair attempt_key_id existing_comment, key_type, blob)
  else
    let present ← runFixed .source .whichKeygen
    if !present then failSetup .keygenMissingSource
    else
      let comment := comment pair.source_id pair.target_id attempt_key_id
      let made ← runFixed .source (.keygen comment private_path)
      if !made then failSetup .keygenMissingSource
      else
        let (key_type, blob, _) ← readPublic (pubPath private_path) false
        pure (comment, key_type, blob)

/-- A key of the pair, as an attempt knows it. -/
structure PublicKey where
  comment : Text
  key_type : Text
  blob : Text
  fingerprint : Text
  deriving DecidableEq, Repr

/-- `public_line`. -/
def PublicKey.line (key : PublicKey) : Text := key.key_type ++ ' ' :: key.blob

/-- Steps 3 and 4: the key and its fingerprint. -/
def prepareKey (attempt : Attempt) : Auth PublicKey := do
  ensureSourceDirs
  let (comment, key_type, blob) ← obtainKey pair attempt.key_id.digits
  match cfg.opensshFingerprint blob with
  | none => throw (.failure (.other "Incorrect padding".toList))
  | some fingerprint => pure ⟨comment, key_type, blob, fingerprint⟩

/-- Steps 5 to 7: the authorized line, the entry of `known_hosts` and the check that decides. -/
def installKey (attempt : Attempt) (key : PublicKey) : Auth Unit := do
  ensureDir .target sourceSshDir dirMode
  ensureAuthorizedLine cfg key.line key.comment attempt.key_id.digits
  ensureKnownHostsEntry cfg (attempt.verified.knownHostsEntry attempt.params.host attempt.params.port)
    attempt.key_id.digits
  let (ok, detail) ← runProbe ⟨privatePath pair, sourceKnownHosts⟩
  if !ok then failSetup (classifyProbeFailure detail true)

/-- What the steps of an attempt came to: the key once its line is known, whether the target's session is
open, and the exception, if any. -/
structure Outcome where
  key : Option PublicKey
  target_open : Bool
  failed : Option Raised
  deriving DecidableEq

/-- Any exception as a value. -/
def catchAll {α : Type} (p : Auth α) : Auth (Except Raised α) := Prog.catching (fun _ => true) p

/-- Steps 3 to 8. -/
def attemptSteps (attempt : Attempt) : Auth Outcome := do
  match ← catchAll (prepareKey cfg pair attempt) with
  | .error e => pure ⟨none, false, some e⟩
  | .ok key =>
    match ← catchAll (call (.openSession .target)) with
    | .error e => pure ⟨some key, false, some e⟩
    | .ok _ =>
      match ← catchAll (installKey cfg pair attempt key) with
      | .error e =>
        if e.isException then
          match ← catchAll (suppressing (call (.closeSession .target))) with
          | .ok _ => pure ⟨some key, false, some e⟩
          | .error e' => pure ⟨some key, true, some e'⟩
        else pure ⟨some key, true, some e⟩
      | .ok _ =>
        -- the row is written only after the check passed
        match ← catchAll (call (.put (rowOf pair attempt.key_id.digits key.fingerprint))) with
        | .error e => pure ⟨some key, true, some e⟩
        | .ok _ => pure ⟨some key, true, none⟩

/-- `_rollback_attempt`. -/
def rollbackAttempt (attempt : Attempt) (public_line : Option Text) : Auth Unit :=
  suppressing do
    let _ ← removePairMaterials cfg (rowOf pair attempt.key_id.digits []) (public_line.bind fun line => (split line)[1]?)

/-- The reason a failed attempt is answered with. -/
def failureReason : Raised → Reason
  | .setup reason => reason
  | _ => .unknown

/-- The handlers and the end of `_setup_key_locked`. -/
def finishAttempt (attempt : Attempt) (outcome : Outcome) : Auth Status :=
  Prog.andFinally
    (match outcome.failed with
      | none => pure ⟨true, some .sgcKey, some true, none⟩
      | some e =>
        if e.isException then do
          rollbackAttempt cfg pair attempt (outcome.key.map PublicKey.line)
          pure (.unavailable (failureReason e).value)
        else throw e)
    (do
      if outcome.target_open then suppressing (call (.closeSession .target))
      suppressing (call (.closeSession .source)))

/-- `_console_reachable`. -/
def consoleReachable (s : Side) : Auth (Option Text) :=
  Prog.handle
    (do
      let r ← call (.run s .true)
      pure (if r.exit_code = 0 then none else some Reason.routeUnreachable.value))
    fun e =>
      match e with
      | .failure (.executor code _) => pure (some (executorReason code).value)
      | e => throw e

/-- A fresh setup, behind the repair: what is checked before anything is written, and the attempt. -/
def freshSetup : Auth Status := do
  let key_id ← call .uuid
  match ← consoleReachable .source with
  | some reason => pure (.unavailable reason)
  | none =>
    match ← consoleReachable .target with
    | some reason => pure (.unavailable reason)
    | none =>
      let params ← call .resolveParams
      match ← trying (call .verifiedHostKey) with
      | .error _ | .ok none => pure (.unavailable Reason.hostKeyUnknown.value)
      | .ok (some verified) =>
        match ← trying (call (.openSession .source)) with
        | .error _ => pure (.unavailable Reason.unknown.value)
        | .ok _ =>
          let attempt : Attempt := ⟨key_id, params, verified⟩
          let outcome ← attemptSteps cfg pair attempt
          finishAttempt cfg pair attempt outcome

/-- What is done about a pair before a fresh setup. -/
inductive Decision where
  | answer (status : Status)
  | repair (existing : PairMetadata)
  | fresh
  deriving DecidableEq, Repr

/-- The options of a configured pair. -/
def optionsFrom (record : PairMetadata) : DedicatedKeyOptions :=
  ⟨record.remote_private_key_path, record.remote_known_hosts_path⟩

/-- What is done about a probe of a configured pair. -/
def decideProbe (existing : PairMetadata) (ok : Bool) (detail : Text) : Decision :=
  if ok then .answer ⟨true, some .sgcKey, some true, some "already_configured".toList⟩
  else
    let reason := classifyProbeFailure detail true
    if reason ≠ .routeUnreachable then .repair existing
    else .answer ⟨true, some .sgcKey, some false, some reason.value⟩

/-- The repair decision of `_setup_key_locked`. -/
def decideSetup : Auth Decision := do
  match ← call (.get pair.source_id pair.target_id) with
  | none => pure .fresh
  | some existing => do
    let (ok, detail) ← runProbe (optionsFrom existing)
    pure (decideProbe existing ok detail)

/-- The repair of `_setup_key_locked`. -/
def repair (existing : PairMetadata) : Auth Unit := do
  suppressing do
    let _ ← removePairMaterials cfg existing none
  suppressing (call (.remove pair.source_id pair.target_id))

/-- `setup_key`. -/
def setupKey : Auth Status := do
  if cfg.casefold pair.source_id = cfg.casefold pair.target_id then
    throw (.failure (.other "source and target servers are the same".toList))
  else
    call (.server .source)
    call (.server .target)
    match ← decideSetup pair with
    | .answer status => pure status
    | .fresh => freshSetup cfg pair
    | .repair existing => do
      repair cfg pair existing
      freshSetup cfg pair

/-! ### Revoke -/

/-- Whether a program runs into a `NotFoundError`. -/
def notFound (p : Auth Unit) : Auth Bool :=
  Prog.handle (do p; pure false) fun e =>
    match e with
    | .failure (.notFound _) => pure true
    | e => throw e

/-- `revoke`. -/
def revoke : Auth Status := do
  match ← call (.get pair.source_id pair.target_id) with
  | none => pure .revoked
  | some record =>
    if ← notFound (do call (.server .source); call (.server .target)) then
      call (.remove pair.source_id pair.target_id)
      pure .revoked
    else
      let failures ← removePairMaterials cfg record none
      if failures ≠ [] then
        pure (.unavailable ("; ".toList.intercalate failures))
      else
        call (.remove pair.source_id pair.target_id)
        pure .revoked

end Operations

end SshGpuConsole.DirectAuth
