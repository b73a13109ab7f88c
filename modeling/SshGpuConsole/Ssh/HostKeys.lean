import SshGpuConsole.Lib.PyText

/-!
# Host keys on first use

The parameters of a connection (`ssh/config_resolver.py`), the gate that accepts a presented host key
(`ssh/transport.py`), the app-owned trust store (`ssh/known_hosts.py`) and the consent that puts an entry
there (`ssh/manager.py`). `casefold` is `str.casefold`, of which nothing is assumed.
-/

namespace SshGpuConsole.Ssh
open Shell (Text)
open PyText

/-! ### Connection parameters -/

/-- `SSHConfigEntry`. -/
structure SSHConfigEntry where
  hostname : Option Text := none
  user : Option Text := none
  port : Option Int := none
  identity_files : List Text := []
  proxy_jump : Option Text := none
  deriving DecidableEq, Repr

/-- What `resolve_connect_params` asks about the user's configuration. -/
structure Resolver where
  resolve : Text → SSHConfigEntry
  isFile : Text → Bool
  resolveProxyJump : Text → Except Text Text

/-- `ConnectParams`, without the fields that only describe where a value came from. -/
structure ConnectParams where
  host : Text
  port : Int := 22
  username : Option Text := none
  identity_files : List Text := []
  proxy_jump : Option Text := none
  original_host : Option Text := none
  server_id : Option Text := none
  deriving DecidableEq, Repr

/-- The fields of `ServerRecord` the SSH layer reads. -/
structure ServerRecord where
  server_id : Text
  ssh_host : Text
  username : Option Text := none
  port : Option Int := none
  deriving DecidableEq, Repr

/-- `HostKeyPrompt`. -/
structure HostKeyPrompt where
  host : Text
  port : Option Int
  key_type : Text
  fingerprint : Text
  deriving DecidableEq, Repr

/-- The codes of `SshErrorCode` the host-key path raises. -/
inductive SshErrorCode where
  | hostKeyMismatch
  | hostKeyUnknown
  | unknown
  deriving DecidableEq, Repr

/-- `ConnectError`. -/
structure ConnectError where
  code : SshErrorCode
  detail : Text
  retryable : Bool := true
  pending_host_key : Option HostKeyPrompt := none
  deriving DecidableEq, Repr

/-- `value or fallback` of a text. -/
def orText (value : Option Text) (fallback : Text) : Text :=
  match value with
  | some t => if t = [] then fallback else t
  | none => fallback

/-- `value or fallback` of a number. -/
def orInt (value : Option Int) (fallback : Int) : Int :=
  match value with
  | some n => if n = 0 then fallback else n
  | none => fallback

/-- `resolve_connect_params`. -/
def resolveConnectParams (resolver : Resolver) (server_host : Text) (username : Option Text)
    (port : Option Int) : Except ConnectError ConnectParams := do
  let entry := resolver.resolve server_host
  let jump_chain ← match entry.proxy_jump with
    | none => pure none
    | some jump =>
      match resolver.resolveProxyJump jump with
      | .ok chain => pure (if chain = [] then none else some chain)
      | .error message => throw { code := .unknown, detail := message, retryable := false }
  pure
    { host := orText entry.hostname server_host
      port := port.getD (orInt entry.port 22)
      username := username <|> entry.user
      identity_files := entry.identity_files.filter resolver.isFile
      proxy_jump := jump_chain
      original_host := some server_host }

/-- `SshManager._params`. -/
def paramsOf (resolver : Resolver) (server : ServerRecord) : Except ConnectError ConnectParams := do
  let params ← resolveConnectParams resolver server.ssh_host server.username server.port
  pure { params with server_id := some server.server_id }

/-! ### The trust store -/

/-- `TrustedHostKey`. -/
structure TrustedHostKey where
  host : Text
  port : Int
  key_type : Text
  fingerprint : Text
  deriving DecidableEq, Repr

/-- `HostKeyTrust`: the entries, without the file behind them. -/
structure HostKeyTrust where
  entries : List TrustedHostKey := []

variable (casefold : Text → Text)

namespace HostKeyTrust

/-- What `add` stores of an entry. -/
def normalized (entry : TrustedHostKey) : TrustedHostKey :=
  { entry with host := casefold entry.host, fingerprint := strip entry.fingerprint }

/-- `HostKeyTrust.is_trusted`. -/
def isTrusted (trust : HostKeyTrust) (host : Text) (port : Option Int) (fingerprint : Text) : Bool :=
  trust.entries.any fun entry =>
    entry.host = casefold host && entry.port = port.getD 22 && entry.fingerprint = strip fingerprint

/-- `HostKeyTrust.has_host`. -/
def hasHost (trust : HostKeyTrust) (host : Text) (port : Option Int) : Bool :=
  trust.entries.any fun entry => entry.host = casefold host && entry.port = port.getD 22

/-- `HostKeyTrust.add`. -/
def add (trust : HostKeyTrust) (entry : TrustedHostKey) : HostKeyTrust :=
  if normalized casefold entry ∈ trust.entries then trust
  else ⟨trust.entries ++ [normalized casefold entry]⟩

variable {casefold}

@[simp] lemma mem_add {trust : HostKeyTrust} {entry e : TrustedHostKey} :
    e ∈ (trust.add casefold entry).entries ↔ e ∈ trust.entries ∨ e = normalized casefold entry := by
  rw [add]
  split
  · rename_i h
    exact ⟨.inl, fun he => he.elim id fun he => he ▸ h⟩
  · exact List.mem_append.trans (or_congr_right List.mem_singleton)

lemma mem_foldl_add {later : List TrustedHostKey} {trust : HostKeyTrust} {e : TrustedHostKey} :
    e ∈ (later.foldl (add casefold) trust).entries ↔
      e ∈ trust.entries ∨ ∃ l ∈ later, e = normalized casefold l := by
  induction later generalizing trust with
  | nil => exact ⟨.inl, fun h => h.resolve_right fun ⟨l, hl, _⟩ => absurd hl List.not_mem_nil⟩
  | cons l ls ih =>
    rw [List.foldl_cons, ih, mem_add, or_assoc]
    refine or_congr_right ⟨?_, ?_⟩
    · rintro (h | ⟨l', hl', h⟩)
      · exact ⟨l, List.mem_cons_self, h⟩
      · exact ⟨l', List.mem_cons_of_mem l hl', h⟩
    · rintro ⟨l', hl', h⟩
      rcases List.mem_cons.1 hl' with rfl | hl'
      · exact .inl h
      · exact .inr ⟨l', hl', h⟩

lemma isTrusted_iff {trust : HostKeyTrust} {host fingerprint : Text} {port : Int} :
    trust.isTrusted casefold host (some port) fingerprint = true ↔ ∃ e ∈ trust.entries,
      e.host = casefold host ∧ e.port = port ∧ e.fingerprint = strip fingerprint := by
  simp [isTrusted, List.any_eq_true, and_assoc]

lemma hasHost_iff {trust : HostKeyTrust} {host : Text} {port : Int} :
    trust.hasHost casefold host (some port) = true ↔ ∃ e ∈ trust.entries,
      e.host = casefold host ∧ e.port = port := by
  simp [hasHost, List.any_eq_true]

end HostKeyTrust

/-! ### The gate -/

/-- What `fingerprint_from_key` and `key_type_of` read from a public key. -/
structure HostKey where
  fingerprint : Text
  key_type : Text
  deriving DecidableEq, Repr

/-- Whether the user's `known_hosts` has entries for a host, an address and a port. -/
abbrev KnownHosts := Text → Text → Int → Bool

/-- `HostKeyDecision` of a key that was not accepted. -/
structure HostKeyDecision where
  mismatch : Bool
  fingerprint : Text
  key_type : Text
  deriving DecidableEq, Repr

/-- `_HostKeyGate.validate_host_public_key`: nothing when the key is accepted. -/
def validateHostPublicKey (trust : HostKeyTrust) (known_hosts : KnownHosts) (lookup_names : List Text)
    (host addr : Text) (port : Int) (key : HostKey) : Option HostKeyDecision :=
  if trust.isTrusted casefold host (some port) key.fingerprint then none
  else
    let has_entries := known_hosts host addr port ||
      lookup_names.any fun name => name ≠ [] && name ≠ host && known_hosts name addr port
    some
      { mismatch := has_entries || trust.hasHost casefold host (some port)
        fingerprint := key.fingerprint
        key_type := key.key_type }

/-- `_host_key_error`. -/
def hostKeyError (params : ConnectParams) (decision : HostKeyDecision) : ConnectError :=
  let host := orText params.original_host params.host
  if decision.mismatch then
    { code := .hostKeyMismatch
      detail := "host key mismatch for ".toList ++ host ++ ": presented ".toList ++
        orText (some decision.fingerprint) "unknown key".toList ++
        " — possible MITM; connection blocked".toList
      retryable := false }
  else
    { code := .hostKeyUnknown
      detail := "host key for ".toList ++ host ++ " is not trusted yet".toList
      pending_host_key := some
        { host, port := some params.port
          key_type := orText (some decision.key_type) "unknown".toList
          fingerprint := decision.fingerprint } }

/-- `lookup_names` of `_connect`. -/
def lookupNames (params : ConnectParams) : List Text :=
  ([params.original_host.getD [], params.host].filter (· ≠ [])).eraseDups

/-- `_connect`, as far as the host key goes: the gate is asked about the host and the port given to
`asyncssh.connect`. -/
def presentKey (trust : HostKeyTrust) (known_hosts : KnownHosts) (params : ConnectParams) (addr : Text)
    (key : HostKey) : Except ConnectError Unit :=
  match validateHostPublicKey casefold trust known_hosts (lookupNames params) params.host addr params.port key with
  | none => .ok ()
  | some decision => .error (hostKeyError params decision)

/-! ### Consent -/

/-- The entry `trust_host_key` adds for a prompt, when the prompt agrees with the pending key. -/
def consent (pending prompt : HostKeyPrompt) : Option TrustedHostKey :=
  if strip pending.fingerprint ≠ strip prompt.fingerprint || pending.key_type ≠ prompt.key_type ||
      casefold pending.host ≠ casefold prompt.host then none
  else
    some
      { host := prompt.host
        port := (prompt.port <|> pending.port).getD 22
        key_type := prompt.key_type
        fingerprint := prompt.fingerprint }

/-- The prompt a connection test shows is consented to as it is. -/
lemma consent_self (prompt : HostKeyPrompt) :
    consent casefold prompt prompt = some ⟨prompt.host, prompt.port.getD 22, prompt.key_type, prompt.fingerprint⟩ := by
  cases hp : prompt.port <;> simp [consent, hp]

variable {casefold}

/-- A key is accepted exactly when an entry has its fingerprint. -/
lemma presentKey_ok {trust : HostKeyTrust} {known_hosts : KnownHosts} {params : ConnectParams} {addr : Text}
    {key : HostKey} : presentKey casefold trust known_hosts params addr key = .ok () ↔
      trust.isTrusted casefold params.host (some params.port) key.fingerprint = true := by
  rw [presentKey, validateHostPublicKey]
  cases trust.isTrusted casefold params.host (some params.port) key.fingerprint with
  | true => exact iff_of_true rfl rfl
  | false => exact iff_of_false nofun nofun

/-- A key that leaves a prompt behind was unknown, and the prompt is the key's. -/
lemma presentKey_pending {trust : HostKeyTrust} {known_hosts : KnownHosts} {params : ConnectParams} {addr : Text}
    {key : HostKey} {e : ConnectError} {prompt : HostKeyPrompt}
    (h : presentKey casefold trust known_hosts params addr key = .error e) (hp : e.pending_host_key = some prompt) :
    trust.hasHost casefold params.host (some params.port) = false ∧
      prompt = ⟨orText params.original_host params.host, some params.port,
        orText (some key.key_type) "unknown".toList, key.fingerprint⟩ := by
  rw [presentKey, validateHostPublicKey] at h
  split at h
  · cases h
  · rename_i d hd
    cases h
    split at hd
    · cases hd
    · cases hd
      rw [hostKeyError] at hp
      split at hp
      · cases hp
      · rename_i hm
        cases hp
        have hno := (Bool.or_eq_false_iff.1 (Bool.eq_false_iff.2 hm)).2
        exact ⟨hno, rfl⟩

lemma presentKey_pending_code {trust : HostKeyTrust} {known_hosts : KnownHosts} {params : ConnectParams}
    {addr : Text} {key : HostKey} {e : ConnectError} {prompt : HostKeyPrompt}
    (h : presentKey casefold trust known_hosts params addr key = .error e) (hp : e.pending_host_key = some prompt) :
    e.code = .hostKeyUnknown := by
  rw [presentKey] at h
  split at h
  · cases h
  · cases h
    rw [hostKeyError] at hp ⊢
    split at hp
    · cases hp
    · rename_i hm
      rw [if_neg hm]

/-- A key that no entry trusts, presented for a host that has one, is a mismatch. -/
lemma presentKey_mismatch {trust : HostKeyTrust} {params : ConnectParams} {key : HostKey}
    (hk : trust.isTrusted casefold params.host (some params.port) key.fingerprint = false)
    (hh : trust.hasHost casefold params.host (some params.port) = true) (known_hosts : KnownHosts) (addr : Text) :
    ∃ e, presentKey casefold trust known_hosts params addr key = .error e ∧ e.code = .hostKeyMismatch ∧
      e.pending_host_key = none := by
  refine ⟨hostKeyError params ⟨true, key.fingerprint, key.key_type⟩, ?_, rfl, rfl⟩
  simp only [presentKey, validateHostPublicKey, hk, hh, Bool.or_true, Bool.false_eq_true, if_false]

/-! ### Trust on first use -/

/-- After the key was pending and its prompt consented to, and after any consents for other prompts, the key
is accepted and every other key is a mismatch without a prompt. -/
def Remembers (casefold : Text → Text) (params : ConnectParams) (key : HostKey) (later : List TrustedHostKey) :
    Prop :=
  ∀ (trust : HostKeyTrust) (known_hosts : KnownHosts) (addr : Text) (e : ConnectError) (prompt : HostKeyPrompt)
    (entry : TrustedHostKey), presentKey casefold trust known_hosts params addr key = .error e →
    e.pending_host_key = some prompt → consent casefold prompt prompt = some entry →
    ∀ (known_hosts' : KnownHosts) (addr' : Text),
      let trust' := later.foldl (HostKeyTrust.add casefold) (trust.add casefold entry)
      presentKey casefold trust' known_hosts' params addr' key = .ok () ∧
        ∀ other : HostKey, strip other.fingerprint ≠ strip key.fingerprint →
          ∃ e', presentKey casefold trust' known_hosts' params addr' other = .error e' ∧
            e'.code = .hostKeyMismatch ∧ e'.pending_host_key = none

/-- An entry is for the host and port the connection is made to. -/
def IsFor (casefold : Text → Text) (params : ConnectParams) (entry : TrustedHostKey) : Prop :=
  casefold entry.host = casefold params.host ∧ entry.port = params.port

/-- An unknown key on an empty store, with an empty `known_hosts`. -/
lemma presentKey_fresh (casefold : Text → Text) (params : ConnectParams) (key : HostKey) :
    presentKey casefold ⟨[]⟩ (fun _ _ _ => false) params [] key = .error (hostKeyError params
      ⟨false, key.fingerprint, key.key_type⟩) := by
  have hany : ((lookupNames params).any fun _ => false) = false :=
    List.any_eq_false.2 fun _ _ => Bool.false_ne_true
  simp [presentKey, validateHostPublicKey, HostKeyTrust.isTrusted, HostKeyTrust.hasHost, hany]

/-- Trust on first use works exactly when the name in the record is, up to case, the host that is connected
to (or someone consented to the key under that host), and no other key was consented to for that host. -/
theorem tofu_remembers_iff (casefold : Text → Text) (params : ConnectParams) (key : HostKey)
    (later : List TrustedHostKey) :
    Remembers casefold params key later ↔
      (casefold (orText params.original_host params.host) = casefold params.host ∨
        ∃ e ∈ later, IsFor casefold params e ∧ strip e.fingerprint = strip key.fingerprint) ∧
      ∀ e ∈ later, IsFor casefold params e → strip e.fingerprint = strip key.fingerprint := by
  constructor
  · intro h
    have hpend := presentKey_fresh casefold params key
    obtain ⟨hok, hother⟩ := h ⟨[]⟩ _ _ _ _ _ hpend rfl (consent_self casefold _) (fun _ _ _ => false) []
    have hclean : ∀ e ∈ later, IsFor casefold params e → strip e.fingerprint = strip key.fingerprint := by
      -- an entry with another fingerprint would let another key in
      intro e he hfor
      by_contra hne
      obtain ⟨e', herr, -⟩ := hother ⟨e.fingerprint, []⟩ hne
      rw [presentKey_ok.2 (HostKeyTrust.isTrusted_iff.2
        ⟨_, HostKeyTrust.mem_foldl_add.2 (.inr ⟨e, he, rfl⟩), hfor.1, hfor.2, rfl⟩)] at herr
      cases herr
    refine ⟨?_, hclean⟩
    obtain ⟨e, he, hhost, hport, hfp⟩ := HostKeyTrust.isTrusted_iff.1 (presentKey_ok.1 hok)
    rcases HostKeyTrust.mem_foldl_add.1 he with he | ⟨l, hl, rfl⟩
    · rcases HostKeyTrust.mem_add.1 he with he | rfl
      · exact absurd he List.not_mem_nil
      · exact .inl hhost
    · exact .inr ⟨l, hl, ⟨hhost, hport⟩, hfp⟩
  · rintro ⟨hname, hclean⟩ trust known_hosts addr e prompt entry herr hprompt hentry known_hosts' addr'
    obtain ⟨hnone, rfl⟩ := presentKey_pending herr hprompt
    obtain rfl := Option.some.inj ((consent_self casefold _).symm.trans hentry)
    dsimp only
    have hkey : ∃ e ∈ (later.foldl (HostKeyTrust.add casefold) (trust.add casefold
        ⟨orText params.original_host params.host, params.port, orText (some key.key_type) "unknown".toList,
          key.fingerprint⟩)).entries,
        e.host = casefold params.host ∧ e.port = params.port ∧ e.fingerprint = strip key.fingerprint := by
      rcases hname with hname | ⟨l, hl, hfor, hfp⟩
      · exact ⟨_, HostKeyTrust.mem_foldl_add.2 (.inl (HostKeyTrust.mem_add.2 (.inr rfl))), hname, rfl, rfl⟩
      · exact ⟨_, HostKeyTrust.mem_foldl_add.2 (.inr ⟨l, hl, rfl⟩), hfor.1, hfor.2, hfp⟩
    refine ⟨presentKey_ok.2 (HostKeyTrust.isTrusted_iff.2 hkey), fun other hne => ?_⟩
    refine presentKey_mismatch (Bool.eq_false_iff.2 fun htrusted => hne ?_) ?_ known_hosts' addr'
    · -- every entry for the host has the fingerprint of the key
      obtain ⟨e', he', hhost, hport, hfp⟩ := HostKeyTrust.isTrusted_iff.1 htrusted
      rcases HostKeyTrust.mem_foldl_add.1 he' with he' | ⟨l, hl, rfl⟩
      · rcases HostKeyTrust.mem_add.1 he' with he' | rfl
        · exact absurd (HostKeyTrust.hasHost_iff.2 ⟨e', he', hhost, hport⟩) (Bool.eq_false_iff.1 hnone)
        · exact hfp.symm
      · exact hfp.symm.trans (hclean l hl ⟨hhost, hport⟩)
    · obtain ⟨e', he', hhost, hport, -⟩ := hkey
      exact HostKeyTrust.hasHost_iff.2 ⟨e', he', hhost, hport⟩

/-- A configuration in which `gpu` is an alias of an address. -/
def aliasResolver : Resolver where
  resolve name := if name = "gpu".toList then { hostname := some "10.0.0.5".toList } else {}
  isFile _ := false
  resolveProxyJump jump := .ok jump

/-- A key trusted under an alias is not found again: the gate asks for the address. -/
theorem tofu_forgets_alias :
    ¬∀ (casefold : Text → Text) (resolver : Resolver) (server : ServerRecord) (params : ConnectParams),
      paramsOf resolver server = .ok params → ∀ key : HostKey, Remembers casefold params key [] := by
  intro h
  have hfresh := presentKey_fresh id
    { host := "10.0.0.5".toList, original_host := some "gpu".toList, server_id := some [] }
    ⟨"SHA256:k".toList, "ssh-ed25519".toList⟩
  have hok := (h id aliasResolver { server_id := [], ssh_host := "gpu".toList } _ rfl _ _ _ _ _ _ _ hfresh rfl
    (consent_self id _) (fun _ _ _ => false) []).1
  exact absurd (presentKey_ok.1 hok) (by decide)

end SshGpuConsole.Ssh
