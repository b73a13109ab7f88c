import SshGpuConsole.Ssh.Quiet

/-!
# Where trusted host keys come from

Only a handshake that found a key unknown leaves a prompt behind, and only a consent that agrees with the
pending prompt adds an entry.
-/

namespace SshGpuConsole.Ssh.Manager
open Shell (Text)
open PyText

variable {cfg : Config} {σ σ' : State} {id : CallId} {call : Call} {server : ServerRecord}

/-! ### The provenance of an entry -/

/-- The prompt for a presented key. -/
def Presented.prompt (h : Presented) : HostKeyPrompt :=
  ⟨orText h.params.original_host h.params.host, some h.params.port, orText (some h.key.key_type) "unknown".toList,
    h.key.fingerprint⟩

/-- The prompt is that of an unknown key a handshake of the connection presented. -/
def Captured (σ : State) (c : ConnId) (prompt : HostKeyPrompt) : Prop :=
  ∃ h ∈ σ.presented, h.connection = c ∧ h.unknown = true ∧ prompt = h.prompt

/-- What the trust store holds of a prompt. -/
def entryOf (casefold : Text → Text) (prompt : HostKeyPrompt) : TrustedHostKey :=
  HostKeyTrust.normalized casefold ⟨prompt.host, prompt.port.getD 22, prompt.key_type, prompt.fingerprint⟩

/-- Every prompt that is pending, or about to be, was captured. -/
structure Pending (σ : State) : Prop where
  pending : ∀ c prompt, σ.pending c = some prompt → Captured σ c prompt
  judged : ∀ id call c params e prompt, σ.calls id = some call → call.pc = .handshake c params (some (.error e)) →
    e.pending_host_key = some prompt → Captured σ c prompt

/-- Every entry ever added is that of a key some handshake of the connection found unknown. -/
def Provenance (cfg : Config) (σ : State) : Prop :=
  ∀ x ∈ σ.added, ∃ h ∈ σ.presented, h.connection = x.1 ∧ h.unknown = true ∧ x.2 = entryOf cfg.casefold h.prompt

lemma Captured.mono {c : ConnId} {prompt : HostKeyPrompt} (h : Captured σ c prompt)
    (hp : ∀ k ∈ σ.presented, k ∈ σ'.presented) : Captured σ' c prompt := by
  obtain ⟨k, hk, hrest⟩ := h
  exact ⟨k, hp k hk, hrest⟩

lemma Captured.quiet {c : ConnId} {prompt : HostKeyPrompt} (h : Captured σ c prompt) (hq : Quiet id server σ σ') :
    Captured σ' c prompt := by
  apply h.mono
  rw [hq.presented]
  exact fun k hk => hk

lemma Pending.quiet (h : Pending σ) (hq : Quiet id server σ σ') : Pending σ' where
  pending c prompt hc := by
    rcases hq.pending c with he | he
    · exact (h.pending c prompt (he ▸ hc)).quiet hq
    · rw [he] at hc
      cases hc
  judged id call c params e prompt hc hpc he := by
    rcases hq.calls id call hc with hc | hc
    · exact (h.judged id call c params e prompt hc hpc he).quiet hq
    · rw [hpc] at hc
      exact hc.2.2.elim

lemma Provenance.quiet (h : Provenance cfg σ) (hq : Quiet id server σ σ') : Provenance cfg σ' := by
  rw [Provenance, hq.added, hq.presented]
  exact h

/-- A consent adds the entry of the pending prompt, unless the client's prompt names another port. -/
lemma normalized_consent {casefold : Text → Text} {pending prompt : HostKeyPrompt} {entry : TrustedHostKey}
    (h : consent casefold pending prompt = some entry)
    (hport : prompt.port = none ∨ prompt.port.getD 22 = pending.port.getD 22) :
    HostKeyTrust.normalized casefold entry = entryOf casefold pending := by
  rw [consent] at h
  split at h
  · cases h
  · rename_i hcmp
    cases h
    simp only [Bool.or_eq_true, decide_eq_true_eq, not_or, not_not] at hcmp
    obtain ⟨⟨hfp, htype⟩, hhost⟩ := hcmp
    rw [entryOf, HostKeyTrust.normalized, HostKeyTrust.normalized, hfp, htype, hhost]
    congr 1
    cases hp : prompt.port with
    | none => rfl
    | some n =>
      rw [hp] at hport
      exact hport.resolve_left (fun h => by cases h)

/-- What a judged key leaves behind as a prompt. -/
lemma captured_of_presentKey {c : ConnId} {params : ConnectParams} {addr : Text} {key : HostKey} {unknown : Bool}
    {e : ConnectError} {prompt : HostKeyPrompt} {trust : HostKeyTrust} {known_hosts : KnownHosts}
    (ha : .error e = presentKey cfg.casefold trust known_hosts params addr key)
    (hu : e.code = .hostKeyUnknown → unknown = true) (hp : e.pending_host_key = some prompt)
    (hin : ⟨c, params, key, unknown⟩ ∈ σ'.presented) : Captured σ' c prompt := by
  have hcode : e.code = .hostKeyUnknown := presentKey_pending_code ha.symm hp
  exact ⟨_, hin, rfl, hu hcode, (presentKey_pending ha.symm hp).2⟩

/-- Every step keeps the pending prompts captured. -/
lemma Pending.step {e : Event} (h : Pending σ) (hs : Step cfg σ e σ') : Pending σ' := by
  rcases hs.quiet_or_loud with ⟨id, server, hq, -⟩ | hl
  · exact h.quiet hq
  · cases hl with
    | @queued id kind server hid =>
      refine ⟨h.pending, fun i call c params e prompt hcall hpc he => ?_⟩
      by_cases hi : i = id
      · subst hi
        rw [calls_goto] at hcall
        cases hcall
        cases hpc
      · rw [calls_goto_of_ne _ _ _ hi] at hcall
        exact h.judged i call c params e prompt hcall hpc he
    | trusted hid hc hp he =>
      refine Pending.quiet (Pending.mk (fun c prompt hq => ?_) fun i call c params e prompt hcall hpc he => ?_)
        quiet_getEntry
      · rcases cleared σ.pending _ c with heq | heq
        · exact h.pending c prompt (heq ▸ hq)
        · exact nomatch heq.symm.trans hq
      · exact h.judged i call c params e prompt hcall hpc he
    | @judged id call key addr c params hid hpc answer ha unknown hu =>
      refine ⟨fun c' prompt hq => ?_, fun i call' c' params' e prompt hcall hpc' he => ?_⟩
      · exact (h.pending c' prompt hq).mono fun k hk => List.mem_cons_of_mem _ hk
      · by_cases hi : i = id
        · -- the key just judged
          subst hi
          rw [calls_goto] at hcall
          cases hcall
          cases hpc'
          exact captured_of_presentKey ha (hu e rfl) he List.mem_cons_self
        · rw [calls_goto_of_ne _ _ _ hi] at hcall
          exact (h.judged i call' c' params' e prompt hcall hpc' he).mono fun k hk => List.mem_cons_of_mem _ hk
    | @refused id call c params e hid hpc =>
      refine Pending.quiet (Pending.mk (fun c' prompt hq => ?_) fun i call' c' params' e' prompt hcall hpc' he => ?_)
        (show Quiet id call.server _ _ from quiet_leave)
      · by_cases hc : c' = c
        · -- the prompt of the gate's error becomes pending
          subst hc
          have hq : Function.update σ.pending c' e.pending_host_key c' = some prompt := hq
          rw [Function.update_self] at hq
          exact h.judged id call c' params e prompt hid hpc hq
        · have hq : Function.update σ.pending c e.pending_host_key c' = some prompt := hq
          rw [Function.update_of_ne hc] at hq
          exact h.pending c' prompt hq
      · exact h.judged i call' c' params' e' prompt hcall hpc' he

/-- The client's prompt of a consent names no port or that of the pending key. -/
def PinsPort (σ : State) : Event → Prop
  | .trust _ server prompt => ∀ c pending, σ.registered server.server_id = some c → σ.pending c = some pending →
      prompt.port = none ∨ prompt.port.getD 22 = pending.port.getD 22
  | _ => True

/-- A step whose consent pins the port keeps the provenance of every entry. -/
lemma Provenance.step {e : Event} (h : Provenance cfg σ) (hpend : Pending σ) (hpin : PinsPort σ e)
    (hs : Step cfg σ e σ') : Provenance cfg σ' := by
  rcases hs.quiet_or_loud with ⟨id, server, hq, -⟩ | hl
  · exact h.quiet hq
  · cases hl with
    | queued => exact h
    | trusted hid hc hp he =>
      refine Provenance.quiet (fun x hx => ?_) quiet_getEntry
      rcases List.mem_cons.1 hx with rfl | hx
      · obtain ⟨k, hk, hkc, hku, hkp⟩ := hpend.pending _ _ hp
        refine ⟨k, hk, hkc, hku, ?_⟩
        rw [← hkp]
        exact normalized_consent he (hpin _ _ hc hp)
      · exact h x hx
    | judged =>
      intro x hx
      obtain ⟨k, hk, hrest⟩ := h x hx
      exact ⟨k, List.mem_cons_of_mem _ hk, hrest⟩
    | refused => exact h

lemma Reachable.pending {admitted : State → Event → Prop} (h : Reachable cfg admitted σ) : Pending σ := by
  induction h with
  | init trust => exact ⟨fun _ _ h => (nomatch h), fun _ _ _ _ _ _ h => (nomatch h)⟩
  | step _ _ he ih => exact ih.step (step_of_next he)

lemma Reachable.provenance (h : Reachable cfg PinsPort σ) : Provenance cfg σ := by
  induction h with
  | init trust => exact fun x hx => absurd hx List.not_mem_nil
  | step h ha he ih => exact ih.step h.pending ha (step_of_next he)

/-- What a consent adds comes from the connection that is registered for the server. -/
lemma added_of_trust {server : ServerRecord} {prompt : HostKeyPrompt}
    (h : σ.next cfg (.trust id server prompt) = some σ') {x : ConnId × TrustedHostKey} (hx : x ∈ σ'.added) :
    x ∈ σ.added ∨ σ.registered server.server_id = some x.1 := by
  cases step_of_next h with
  | untrusted => exact .inl hx
  | trusted hid hc hp he =>
    rw [quiet_getEntry.added] at hx
    rcases List.mem_cons.1 hx with rfl | hx
    · exact .inr hc
    · exact .inl hx

/-- In every run whose consents name no port of their own, every entry that was ever added is the host, the
port, the key type and the fingerprint of a key that a handshake of the server's current connection presented
and that was unknown. -/
theorem added_entries_were_presented (cfg : Config) (σ : State) (h : Reachable cfg PinsPort σ) :
    Provenance cfg σ ∧ ∀ id server prompt σ', σ.next cfg (.trust id server prompt) = some σ' →
      ∀ x ∈ σ'.added, x ∈ σ.added ∨ σ.registered server.server_id = some x.1 :=
  ⟨h.provenance, fun _ _ _ _ he _ hx => added_of_trust he hx⟩

/-- A connection test of `gpu` meets a key nobody knows, and the client consents to it. -/
def consentRun (port : Option Int) : List Event :=
  let server := { server_id := ['s'], ssh_host := "gpu".toList }
  [.start 0 .test server false, .resume 0 false, .present 0 ⟨['f'], ['t']⟩ [], .ended 0 .refused,
    .trust 1 server ⟨"gpu".toList, port, ['t'], ['f']⟩]

theorem added_entries_were_presented_gpu :
    ∃ σ, Reachable (plainConfig 8 2) PinsPort σ ∧ σ.added = [(0, ⟨"gpu".toList, 22, ['t'], ['f']⟩)] ∧
      Provenance (plainConfig 8 2) σ := by
  obtain ⟨σ, hσ, hadd⟩ : ∃ σ, State.run (plainConfig 8 2) { trust := {} } (consentRun none) = some σ ∧
    σ.added = [(0, ⟨"gpu".toList, 22, ['t'], ['f']⟩)] := ⟨_, rfl, rfl⟩
  have hr : Reachable (plainConfig 8 2) PinsPort σ := by
    refine (Reachable.init {}).run (fun e he σ => ?_) hσ
    simp only [consentRun, List.mem_cons, List.not_mem_nil, or_false] at he
    rcases he with rfl | rfl | rfl | rfl | rfl
    · trivial
    · trivial
    · trivial
    · trivial
    · exact fun _ _ _ _ => .inl rfl
  exact ⟨σ, hr, hadd, (added_entries_were_presented _ σ hr).1⟩

/-- The port of the client's prompt is stored though no key was presented for it. -/
theorem added_entry_has_the_prompts_port :
    ¬∀ (cfg : Config) (σ : State), Reachable cfg (fun _ _ => True) σ → Provenance cfg σ := by
  intro h
  obtain ⟨σ, hσ, hadd, hpres⟩ : ∃ σ, State.run (plainConfig 8 2) { trust := {} } (consentRun (some 2222)) = some σ ∧
    σ.added = [(0, ⟨"gpu".toList, 2222, ['t'], ['f']⟩)] ∧
    σ.presented.map (fun k => k.params.port) = [22] := ⟨_, rfl, rfl, rfl⟩
  have hr := (Reachable.init {}).run (fun _ _ _ => trivial) hσ
  obtain ⟨k, hk, -, -, hentry⟩ := h _ _ hr _ (hadd ▸ List.mem_cons_self)
  have hport : k.params.port = 22 := by
    have hk := List.mem_map_of_mem (f := fun k : Presented => k.params.port) hk
    rw [hpres] at hk
    exact List.mem_singleton.1 hk
  have hentry := congrArg TrustedHostKey.port hentry
  rw [show (entryOf (plainConfig 8 2).casefold k.prompt).port = k.params.port from rfl, hport] at hentry
  exact absurd hentry (by decide)

end SshGpuConsole.Ssh.Manager
