import SshGpuConsole.DirectAuth.Operations

/-!
# Transient failures and the repair

What `setup_key` does about a configured pair whose dedicated probe fails. The probe comes to a text, and
the text decides: `probeEnd` says how the probe ended, before it was flattened to text, and
`transient_safe_iff` for which ends a transport failure never costs the pair its key.
-/

namespace SshGpuConsole.DirectAuth
open Shell (Text)
open Effect PosixPath PyText PyLines Ssh Planner

section Runs
variable {cfg : Config}

lemma exec_call (o : AuthOp) (w : World) (c : ℕ → AuthChoice) :
    exec (environment cfg) (call o) w c = ((o.act cfg (c 0) w).1, (o.act cfg (c 0) w).2, later c) :=
  exec_perform _ _ _

/-- The steps that only talk: whatever they answer, nothing has changed. -/
def AuthOp.Talks : AuthOp → Prop
  | .server _ | .openSession _ | .closeSession _ | .openCommands | .closeCommands | .probe _ | .resolveParams
  | .verifiedHostKey => True
  | _ => False

variable (cfg) in
lemma exec_talk {o : AuthOp} (ho : o.Talks) (w : World) (c : ℕ → AuthChoice) :
    exec (environment cfg) (call o) w c =
      (match (c 0).raises with
        | some f => .error (.failure f)
        | none => o.answer (c 0), w, later c) := by
  rw [exec_call]
  cases o
  case onServer | run | uuid | get | put | remove => exact ho.elim
  all_goals
    simp only [AuthOp.act]
    cases (c 0).raises <;> rfl

lemma exec_trying_ok {α : Type} {p : Auth α} {w w' : World} {c c' : ℕ → AuthChoice} {a : α}
    (h : exec (environment cfg) p w c = (.ok a, w', c')) :
    exec (environment cfg) (trying p) w c = (.ok (.ok a), w', c') := by
  rw [trying, exec_catching, h]

lemma exec_trying_error {α : Type} {p : Auth α} {w w' : World} {c c' : ℕ → AuthChoice} {e : Raised}
    (h : exec (environment cfg) p w c = (.error e, w', c')) :
    exec (environment cfg) (trying p) w c = (if e.isException then .ok (.error e) else .error e, w', c') := by
  rw [trying, exec_catching, h]

/-! ### The probe -/

/-- How a probe ended. -/
inductive ProbeEnd where
  /-- An exception that no handler of the probe takes: resolving the parameters raised, or a cancellation. -/
  | passed (f : Failure)
  /-- Opening the command session, or the command, raised. -/
  | raised (f : Failure)
  /-- The command ran to an exit code. -/
  | exited (r : CommandResult)
  deriving DecidableEq, Repr

/-- How the probe ends that makes these choices: resolve, open, run and close. -/
def probeEnd (c : ℕ → AuthChoice) : ProbeEnd :=
  match (c 0).raises with
  | some f => .passed f
  | none =>
    match (c 1).raises with
    | some .cancelled => .passed .cancelled
    | some f => .raised f
    | none =>
      if (c 2).raises = some .cancelled || (c 3).raises = some .cancelled then .passed .cancelled
      else
        match (c 2).raises with
        | some f => .raised f
        | none => .exited (c 2).result

/-- What is left of it in the text. -/
def ProbeEnd.flatten : ProbeEnd → Except Raised (Bool × Text)
  | .passed f => .error (.failure f)
  | .raised f => .ok (false, probeError f.text)
  | .exited r => .ok (if r.exit_code = 0 then (true, []) else (false, probeDetail r.output r.exit_code))

/-- A failure that every handler of the probe takes. -/
lemma Failure.isException {f : Failure} (h : f ≠ .cancelled) : (Raised.failure f).isException = true :=
  decide_eq_true h

variable (cfg) in
lemma exec_probe (params : ConnectParams) (options : DedicatedKeyOptions) (w : World) (c : ℕ → AuthChoice) :
    exec (environment cfg) (dedicatedBatchModeProbe params options) w c =
      (match (c 0).raises with
        | some .cancelled => .error (.failure .cancelled)
        | some f => .ok (false, probeError f.text)
        | none =>
          .ok (if (c 0).result.exit_code = 0 then (true, [])
            else (false, probeDetail (c 0).result.output (c 0).result.exit_code)), w, later c) := by
  have h := exec_talk cfg (o := .probe (probeCommand params options)) trivial w c
  rw [dedicatedBatchModeProbe, Prog.bind_eq]
  cases hf : (c 0).raises with
  | none =>
    rw [hf] at h
    exact exec_bind_of_ok (exec_trying_ok h)
  | some f =>
    rw [hf] at h
    have ht := exec_trying_error h
    cases f with
    | cancelled => exact exec_bind_of_error ht
    | executor code detail => exact exec_bind_of_ok ht
    | notFound detail => exact exec_bind_of_ok ht
    | other text => exact exec_bind_of_ok ht

/-- A call whose exceptions are swallowed. -/
lemma exec_suppressing {p : Auth Unit} {w : World} {c : ℕ → AuthChoice}
    (h : exec (environment cfg) p w c =
      (match (c 0).raises with
        | some f => .error (.failure f)
        | none => .ok (), w, later c)) :
    exec (environment cfg) (suppressing p) w c =
      (if (c 0).raises = some .cancelled then .error (.failure .cancelled) else .ok (), w, later c) := by
  cases hf : (c 0).raises with
  | none =>
    rw [hf] at h
    exact exec_suppress_of_ok h
  | some f =>
    rw [hf] at h
    rw [suppressing, exec_suppress_of_error h]
    cases f <;> rfl

variable (cfg) in
lemma exec_closeCommands (w : World) (c : ℕ → AuthChoice) :
    exec (environment cfg) (suppressing (call .closeCommands)) w c =
      (if (c 0).raises = some .cancelled then .error (.failure .cancelled) else .ok (), w, later c) :=
  exec_suppressing (exec_talk cfg (o := .closeCommands) trivial w c)

variable (cfg) in
lemma exec_closeSession (s : Side) (w : World) (c : ℕ → AuthChoice) :
    exec (environment cfg) (suppressing (call (.closeSession s))) w c =
      (if (c 0).raises = some .cancelled then .error (.failure .cancelled) else .ok (), w, later c) :=
  exec_suppressing (exec_talk cfg (o := .closeSession s) trivial w c)

/-- What runs before the command session is closed. -/
lemma exec_closing {body : Auth (Bool × Text)} (r : Except Raised (Bool × Text)) {w : World} {c c' : ℕ → AuthChoice}
    (h : exec (environment cfg) body w c = (r, w, c')) :
    exec (environment cfg) (Prog.andFinally body (suppressing (call .closeCommands))) w c =
      (if (c' 0).raises = some .cancelled then .error (.failure .cancelled) else r, w, later c') := by
  have hclose := exec_closeCommands cfg w c'
  by_cases h0 : (c' 0).raises = some .cancelled
  · rw [if_pos h0] at hclose ⊢
    exact exec_andFinally_of_error h hclose
  · rw [if_neg h0] at hclose ⊢
    exact exec_andFinally_of_ok h hclose

variable (cfg) in
/-- A probe changes nothing and comes to the text of its end. -/
lemma exec_runProbe (options : DedicatedKeyOptions) (w : World) (c : ℕ → AuthChoice) :
    ∃ c', exec (environment cfg) (runProbe options) w c = ((probeEnd c).flatten, w, c') := by
  rw [runProbe, Prog.bind_eq]
  have hresolve := exec_talk cfg (o := .resolveParams) trivial w c
  cases h0 : (c 0).raises with
  | some f =>
    rw [h0] at hresolve
    have hend : (probeEnd c).flatten = .error (.failure f) := by
      rw [probeEnd, h0]
      rfl
    exact ⟨_, hend ▸ exec_bind_of_error hresolve⟩
  | none =>
    rw [h0] at hresolve
    rw [exec_bind_of_ok hresolve, Prog.bind_eq]
    have hopen := exec_talk cfg (o := .openCommands) trivial w (later c)
    cases h1 : (c 1).raises with
    | some f =>
      rw [show (later c 0).raises = some f from h1] at hopen
      have ht := exec_trying_error hopen
      have hcaught : f ≠ .cancelled → (probeEnd c).flatten = .ok (false, probeError f.text) := by
        intro hf
        simp [probeEnd, h0, h1, ProbeEnd.flatten]
      cases f with
      | cancelled =>
        have hend : (probeEnd c).flatten = .error (.failure .cancelled) := by
          rw [probeEnd, h0, h1]
          rfl
        exact ⟨_, hend ▸ exec_bind_of_error ht⟩
      | executor code detail =>
        rw [hcaught (by simp)]
        exact ⟨_, exec_bind_of_ok ht⟩
      | notFound detail =>
        rw [hcaught (by simp)]
        exact ⟨_, exec_bind_of_ok ht⟩
      | other text =>
        rw [hcaught (by simp)]
        exact ⟨_, exec_bind_of_ok ht⟩
    | none =>
      rw [show (later c 0).raises = none from h1] at hopen
      rw [exec_bind_of_ok (exec_trying_ok hopen)]
      have hprobe := exec_probe cfg (c 0).params options w (later (later c))
      -- a cancelled close wins over whatever the command came to
      have hend : ∀ {r : Except Raised (Bool × Text)} {e : ProbeEnd}, ((c 3).raises ≠ some .cancelled → r = e.flatten) →
          ((c 3).raises = some .cancelled → e = .passed .cancelled) →
          (if (c 3).raises = some .cancelled then .error (.failure .cancelled) else r) = e.flatten := by
        intro r e hr he
        by_cases h3 : (c 3).raises = some .cancelled
        · rw [if_pos h3, he h3]
          rfl
        · rw [if_neg h3, hr h3]
      have hcaught : ∀ f : Failure, f ≠ .cancelled → (c 2).raises = some f →
          (if (c 3).raises = some .cancelled then .error (.failure .cancelled) else .ok (false, probeError f.text)) =
            (probeEnd c).flatten := by
        intro f hf h2
        refine hend (fun h3 => ?_) fun h3 => ?_
        · simp [probeEnd, h0, h1, h2, h3, hf, ProbeEnd.flatten]
        · simp [probeEnd, h0, h1, h3]
      have hrun : ∀ {body : Auth (Bool × Text)} (r : Except Raised (Bool × Text)),
          exec (environment cfg) body w (later (later c)) = (r, w, later (later (later c))) →
          (if (c 3).raises = some .cancelled then .error (.failure .cancelled) else r) = (probeEnd c).flatten →
          ∃ c', exec (environment cfg) (Prog.andFinally body (suppressing (call .closeCommands))) w (later (later c)) =
            ((probeEnd c).flatten, w, c') := by
        intro body r hbody hr
        exact ⟨_, (exec_closing r hbody).trans (congrArg (fun r => (r, w, later (later (later (later c))))) hr)⟩
      cases h2 : (c 2).raises with
      | none =>
        rw [show (later (later c) 0).raises = none from h2] at hprobe
        refine hrun _ (exec_bind_of_ok (exec_trying_ok hprobe)) (hend (fun h3 => ?_) fun h3 => ?_)
        · simp only [probeEnd, h0, h1, h2, h3, ProbeEnd.flatten, reduceCtorEq, decide_false, Bool.or_false, if_false]
          rfl
        · simp [probeEnd, h0, h1, h3]
      | some f =>
        rw [show (later (later c) 0).raises = some f from h2] at hprobe
        cases f with
        | cancelled =>
          refine hrun _ (exec_bind_of_error (exec_trying_error hprobe)) (hend (fun _ => ?_) fun h3 => ?_)
          · simp [probeEnd, h0, h1, h2, ProbeEnd.flatten]
          · simp [probeEnd, h0, h1, h3]
        | executor code detail => exact hrun _ (exec_bind_of_ok (exec_trying_ok hprobe)) (hcaught _ (by simp) h2)
        | notFound detail => exact hrun _ (exec_bind_of_ok (exec_trying_ok hprobe)) (hcaught _ (by simp) h2)
        | other text => exact hrun _ (exec_bind_of_ok (exec_trying_ok hprobe)) (hcaught _ (by simp) h2)

/-! ### The decision -/

variable {pair : Pair} {w : World} {c : ℕ → AuthChoice} {existing : PairMetadata}

/-- The decision about a configured pair is the one about the text of the probe. -/
lemma exec_decideSetup (h : w.metadata.get cfg.casefold pair.source_id pair.target_id = some existing) :
    ∃ c', exec (environment cfg) (decideSetup pair) w c =
      ((probeEnd (later c)).flatten.map fun outcome => decideProbe existing outcome.1 outcome.2, w, c') := by
  have hget : exec (environment cfg) (call (.get pair.source_id pair.target_id)) w c = (.ok (some existing), w, later c) := by
    rw [exec_call]
    show (Except.ok (w.metadata.get cfg.casefold pair.source_id pair.target_id), w, later c) = _
    rw [h]
  obtain ⟨c', hprobe⟩ := exec_runProbe cfg (optionsFrom existing) w (later c)
  refine ⟨c', ?_⟩
  rw [decideSetup, Prog.bind_eq, exec_bind_of_ok hget]
  cases hend : (probeEnd (later c)).flatten with
  | error e =>
    rw [hend] at hprobe
    exact exec_bind_of_error hprobe
  | ok outcome =>
    rw [hend] at hprobe
    exact exec_bind_of_ok hprobe

/-- The checks in front of the decision, for two registered servers. -/
lemma exec_setupKey (hne : cfg.casefold pair.source_id ≠ cfg.casefold pair.target_id)
    (h0 : (c 0).raises = none) (h1 : (c 1).raises = none) :
    exec (environment cfg) (setupKey cfg pair) w c =
      exec (environment cfg)
        (do match ← decideSetup pair with
            | .answer status => pure status
            | .fresh => freshSetup cfg pair
            | .repair existing => do
              repair cfg pair existing
              freshSetup cfg pair) w (later (later c)) := by
  have hsource := exec_talk cfg (o := .server .source) trivial w c
  have htarget := exec_talk cfg (o := .server .target) trivial w (later c)
  rw [h0] at hsource
  rw [show (later c 0).raises = none from h1] at htarget
  rw [setupKey, if_neg hne]
  exact (exec_bind_of_ok hsource).trans (exec_bind_of_ok htarget)

/-- How the probe of a configured pair ends in a run: behind the two lookups and the row. -/
def setupProbe (c : ℕ → AuthChoice) : ProbeEnd := probeEnd (later (later (later c)))

/-- The run takes the repair branch. -/
def Repairs (cfg : Config) (pair : Pair) (w : World) (c : ℕ → AuthChoice) : Prop :=
  ∃ existing w' c', exec (environment cfg) (decideSetup pair) w (later (later c)) = (.ok (.repair existing), w', c')

/-- The row, the key files and the authorized lines of a pair are as they were. -/
structure Untouched (cfg : Config) (pair : Pair) (existing : PairMetadata) (w w' : World) : Prop where
  row : w'.metadata.get cfg.casefold pair.source_id pair.target_id =
    w.metadata.get cfg.casefold pair.source_id pair.target_id
  private_key : w'.servers .source existing.remote_private_key_path = w.servers .source existing.remote_private_key_path
  public_key : w'.servers .source existing.remote_public_key_path = w.servers .source existing.remote_public_key_path
  authorized : w'.servers .target targetAuthKeys = w.servers .target targetAuthKeys

/-- The classification of a probe that ran to an exit code. -/
def CommandResult.reason (r : CommandResult) : Reason := classifyProbeFailure (probeDetail r.output r.exit_code) true

/-- A transport failure: an exception, or a route or timeout text. -/
def ProbeEnd.Transport : ProbeEnd → Prop
  | .passed _ | .raised _ => True
  | .exited r => r.exit_code ≠ 0 ∧ r.reason = .routeUnreachable

/-- The probe ran to an exit code and its output shows a broken key, authorization or host trust. -/
def ProbeEnd.ShowsBroken : ProbeEnd → Prop
  | .exited r => r.exit_code ≠ 0 ∧ r.reason.broken = true
  | _ => False

/-- The law: a transport failure leaves the pair's materials, and only shown breakage is repaired. -/
structure TransientSafe (cfg : Config) (pair : Pair) (existing : PairMetadata) (w : World) (c : ℕ → AuthChoice) :
    Prop where
  spared : (setupProbe c).Transport →
    Untouched cfg pair existing w (exec (environment cfg) (setupKey cfg pair) w c).2.1
  shown : Repairs cfg pair w c → (setupProbe c).ShowsBroken

/-- The text of the failure is one the classifier knows: an exception that a handler of the probe takes reads as
an unreachable route, and the output of a failed command as anything it has a reason for. -/
def ProbeEnd.Recognized : ProbeEnd → Prop
  | .passed _ => True
  | .raised f => classifyProbeFailure (probeError f.text) true = .routeUnreachable
  | .exited r => r.exit_code = 0 ∨ r.reason ≠ .unknown

lemma Untouched.refl : Untouched cfg pair existing w w := ⟨rfl, rfl, rfl, rfl⟩

/-- What is decided about an end of the probe. -/
lemma exec_decision (h : w.metadata.get cfg.casefold pair.source_id pair.target_id = some existing) :
    ∃ c', exec (environment cfg) (decideSetup pair) w (later (later c)) =
      ((setupProbe c).flatten.map fun outcome => decideProbe existing outcome.1 outcome.2, w, c') :=
  exec_decideSetup h

/-- A probe that does not lead to a repair leaves the world. -/
lemma setupKey_spares (h : w.metadata.get cfg.casefold pair.source_id pair.target_id = some existing)
    (hne : cfg.casefold pair.source_id ≠ cfg.casefold pair.target_id)
    (h0 : (c 0).raises = none) (h1 : (c 1).raises = none) (hr : ¬Repairs cfg pair w c) :
    (exec (environment cfg) (setupKey cfg pair) w c).2.1 = w := by
  obtain ⟨c', hd⟩ := exec_decision (c := c) h
  rw [exec_setupKey hne h0 h1, Prog.bind_eq]
  cases hend : (setupProbe c).flatten with
  | error e =>
    rw [hend] at hd
    rw [exec_bind_of_error hd]
  | ok outcome =>
    rw [hend] at hd
    rw [exec_bind_of_ok hd]
    show (exec (environment cfg) (match decideProbe existing outcome.1 outcome.2 with
      | .answer status => pure status
      | .fresh => freshSetup cfg pair
      | .repair existing => do
        repair cfg pair existing
        freshSetup cfg pair) w c').2.1 = w
    cases hp : decideProbe existing outcome.1 outcome.2 with
    | answer status => rfl
    | repair r => exact absurd ⟨r, w, c', by rw [hd, ← hp]; rfl⟩ hr
    | fresh =>
      -- a probe has an answer or is repaired
      unfold decideProbe at hp
      dsimp only at hp
      split at hp
      · cases hp
      · split at hp <;> cases hp

/-- The run repairs exactly when the text of the failure is not read as an unreachable route. -/
lemma repairs_iff (h : w.metadata.get cfg.casefold pair.source_id pair.target_id = some existing) :
    Repairs cfg pair w c ↔ ∃ detail, (setupProbe c).flatten = .ok (false, detail) ∧
      classifyProbeFailure detail true ≠ .routeUnreachable := by
  obtain ⟨c', hd⟩ := exec_decision (c := c) h
  constructor
  · rintro ⟨r, w', c'', hx⟩
    have hx := congrArg Prod.fst (hd.symm.trans hx)
    cases hend : (setupProbe c).flatten with
    | error e =>
      rw [hend] at hx
      cases hx
    | ok outcome =>
      rw [hend] at hx
      have hx : decideProbe existing outcome.1 outcome.2 = .repair r := Except.ok.inj hx
      unfold decideProbe at hx
      dsimp only at hx
      split at hx
      · cases hx
      · rename_i hok
        split at hx
        · rename_i hreason
          exact ⟨outcome.2, by rw [← Bool.eq_false_iff.2 hok], hreason⟩
        · cases hx
  · rintro ⟨detail, hend, hreason⟩
    refine ⟨existing, w, c', ?_⟩
    rw [hd, hend]
    have hp : decideProbe existing false detail = .repair existing := if_pos hreason
    show (Except.ok (decideProbe existing false detail), w, c') = _
    rw [hp]

end Runs

/-! ### A configured pair -/

/-- The pair of servers `a` and `b`. -/
def abPair : Pair := ⟨['a'], ['b']⟩

/-- A service that tells server ids and keys apart by their text. -/
def plainConfig : Config := ⟨id, fun blob => some ("SHA256:".toList ++ blob), 4⟩

/-- The row of a configured pair. -/
def abRow : PairMetadata := rowOf abPair "0123abcd".toList "SHA256:AAAA".toList

/-- Its line of `authorized_keys`. -/
def abLine : Bytes :=
  ((restrictedLine "ssh-ed25519 AAAA".toList (comment ['a'] ['b'] "0123abcd".toList)).map fun c =>
    UInt8.ofNat c.toNat) ++ [10]

/-- The servers with everything in place. -/
def abServers : Servers
  | .source => ((Server.set (fun _ => none) (privatePath abPair) (some (.file ⟨[1], 0o600, 1⟩))).set
      (pubPath (privatePath abPair)) (some (.file ⟨[2], 0o644, 1⟩)))
  | .target => Server.set (fun _ => none) targetAuthKeys (some (.file ⟨abLine, 0o600, 1⟩))

def abWorld : World := ⟨abServers, ⟨[abRow], [abRow]⟩⟩

/-- The answers of servers that are reached, on which every command fails. -/
def failing : AuthChoice where
  sftp := .ok
  raises := none
  steps := 0
  result := ⟨1, []⟩
  key_files := ([], [])
  params := { host := ['b'] }
  host_key := none
  digits := ⟨"0123abcd".toList, rfl, rfl⟩

end SshGpuConsole.DirectAuth
