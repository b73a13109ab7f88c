import SshGpuConsole.Lib.Runs
import SshGpuConsole.Servers.Registry

/-!
# The identity of a server

What `ServerRegistry` keeps of its records over any calls. `_validate_host` and `_validate_username` check the
text without the white space around it, and the record keeps the text as it was given: records stay proper as
long as the calls give hosts and usernames that are trimmed already.
-/

namespace SshGpuConsole.Registry
open Shell (Text)
open PyText
open Workspace (optional required nullable passing)

section Identity
variable {φ : Type} [PyFloat φ] (casefold : Text → Text)

/-- `self._servers` and `self.revision`. -/
structure State (φ : Type) [PyFloat φ] where
  servers : Servers φ
  revision : ℕ

/-- A call, and whether the save succeeds that it comes to. -/
structure Call (φ : Type) where
  op : RegistryOp φ
  saves : Bool

/-- A call raises a refusal before it touches the records; when the save raises, they have changed and the
revision has not. -/
def State.call (σ : State φ) (c : Call φ) : State φ :=
  match c.op.change casefold σ.servers with
  | .error _ => σ
  | .ok servers => { servers, revision := if c.saves then σ.revision + 1 else σ.revision }

/-- The registry rejects the call. -/
def State.Rejects (σ : State φ) (c : Call φ) : Prop := ∃ refusal, c.op.change casefold σ.servers = .error refusal

/-- Host, username and port as a user reads them. -/
def identity (s : Server φ) : Text × Option Text × Option Int :=
  (casefold (strip s.val.ssh_host), s.val.username.map strip, s.val.port)

/-- A host as `_validate_host` returns it. -/
structure ProperHost (host : Text) : Prop where
  trimmed : strip host = host
  valid : validHost host = true
  no_dash : host.head? ≠ some '-'
  allowed : ∀ c ∈ host, c ∉ forbiddenHostChars

/-- A username as `_validate_username` returns it, without a leading dash. -/
structure ProperUsername (username : Text) : Prop where
  trimmed : strip username = username
  valid : validUsername username = true
  no_dash : username.head? ≠ some '-'
  allowed : ∀ c ∈ username, isUsernameChar c = true

structure Proper (servers : Servers φ) : Prop where
  distinct : ∀ a ∈ servers.rows, ∀ b ∈ servers.rows, identity casefold a = identity casefold b → a = b
  host : ∀ s ∈ servers.rows, ProperHost s.val.ssh_host
  username : ∀ s ∈ servers.rows, ∀ u, s.val.username = some u → ProperUsername u

/-- The host a call gives a record. -/
def RegistryOp.givenHost : RegistryOp φ → Option Text
  | .create _ request => some request.ssh_host
  | .update _ request => request.ssh_host.join
  | .delete _ => none

/-- The username a call gives a record. -/
def RegistryOp.givenUsername : RegistryOp φ → Option Text
  | .create _ request => request.username
  | .update _ request => request.username.join
  | .delete _ => none

/-- The call gives its host and username trimmed, and no username with a leading dash. -/
structure RegistryOp.Tidy (op : RegistryOp φ) : Prop where
  host : ∀ h, op.givenHost = some h → strip h = h
  username : ∀ u, op.givenUsername = some u → strip u = u ∧ u.head? ≠ some '-'

/-! ### A record that passes -/

lemma validatedRecord_ok {r s : Server φ} (h : validatedRecord r = .ok s) :
    s = r ∧ validHost r.val.ssh_host = true ∧ optional validUsername r.val.username = true := by
  rw [validatedRecord] at h
  split_ifs at h with hhost husername
  cases h
  exact ⟨rfl, by simpa using hhost, by simpa using husername⟩

lemma built_ok {fields : Option (ServerRecord φ)} {s : Server φ} (h : built fields = .ok s) : fields = some s.val := by
  rw [built] at h
  split at h
  · rename_i record hbind
    cases h
    obtain ⟨r, rfl, hbuild⟩ := Option.bind_eq_some_iff.1 hbind
    have hval : passing ServerRecord.bounds r = some s.val := Validated.build_val hbuild
    rw [passing] at hval
    split at hval
    · exact hval
    · cases hval
  · cases h

/-- A trimmed host that passes is proper. -/
lemma properHost_of {host : Text} (ht : strip host = host) (hv : validHost host = true) : ProperHost host := by
  have hparts := hv
  simp only [validHost, ht, Bool.and_eq_true, decide_eq_true_iff, Bool.not_eq_true', List.any_eq_false] at hparts
  refine ⟨ht, hv, hparts.1.2, fun c hc hm => ?_⟩
  exact hparts.2 c hc (List.contains_iff_mem.2 hm)

lemma properUsername_of {username : Text} (ht : strip username = username) (hd : username.head? ≠ some '-')
    (hv : validUsername username = true) : ProperUsername username := by
  have hparts := hv
  simp only [validUsername, ht, Bool.and_eq_true, List.all_eq_true] at hparts
  exact ⟨ht, hv, hd, hparts.2⟩

/-! ### A record that is set -/

section Set
variable {casefold} {servers : Servers φ} {record : Server φ}

/-- For proper records the key is the identity. -/
lemma key_eq_identity {s : Server φ} (hh : ProperHost s.val.ssh_host)
    (hu : ∀ u, s.val.username = some u → ProperUsername u) : Server.key casefold s = identity casefold s := by
  have husername : s.val.username.map strip = s.val.username := by
    cases hs : s.val.username with
    | none => rfl
    | some u => exact congrArg some (hu u hs).trimmed
  rw [Server.key, identity, hh.trimmed, husername]

/-- No other record has the key of one that passes the check for duplicates. -/
lemma key_ne_of_isDuplicate {exclude : Option Text} (hdup : isDuplicate casefold servers record exclude = false)
    (hexclude : ∀ id, exclude = some id → id = record.val.server_id) {s : Server φ} (hs : s ∈ servers.rows)
    (hne : s.val.server_id ≠ record.val.server_id) : Server.key casefold s ≠ Server.key casefold record := by
  intro hkey
  have hpass := List.any_eq_false.1 hdup s hs
  rw [Bool.and_eq_true, decide_eq_true_iff, decide_eq_true_iff] at hpass
  exact hpass ⟨fun he => hne (hexclude _ he.symm), hkey⟩

lemma Proper.set {exclude : Option Text} (h : Proper casefold servers) (hhost : ProperHost record.val.ssh_host)
    (husername : ∀ u, record.val.username = some u → ProperUsername u)
    (hdup : isDuplicate casefold servers record exclude = false)
    (hexclude : ∀ id, exclude = some id → id = record.val.server_id) : Proper casefold (servers.set record) := by
  have hrecord : record ∈ (servers.set record).rows := (Table.get_eq_some.1 (Table.get_set_self servers record)).1
  -- a row of the new table with the record's identity is the record
  have hsame : ∀ s ∈ (servers.set record).rows, identity casefold s = identity casefold record → s = record := by
    intro s hs hid
    by_contra hne
    have hid' : s.val.server_id ≠ record.val.server_id := fun he =>
      hne (List.inj_on_of_nodup_map (servers.set record).nodup hs hrecord he)
    have hold : s ∈ servers.rows := (Table.mem_set hs).resolve_left hne
    refine key_ne_of_isDuplicate hdup hexclude hold hid' ?_
    rw [key_eq_identity (h.host s hold) (h.username s hold), key_eq_identity hhost husername, hid]
  refine ⟨?_, ?_, ?_⟩
  · intro a ha b hb hab
    rcases Table.mem_set ha with rfl | ha'
    · exact (hsame b hb hab.symm).symm
    · rcases Table.mem_set hb with rfl | hb'
      · exact hsame a ha hab
      · exact h.distinct a ha' b hb' hab
  · intro s hs
    rcases Table.mem_set hs with rfl | hs
    · exact hhost
    · exact h.host s hs
  · intro s hs
    rcases Table.mem_set hs with rfl | hs
    · exact husername
    · exact h.username s hs

lemma Proper.erase (h : Proper casefold servers) (server_id : Text) : Proper casefold (servers.erase server_id) where
  distinct a ha b hb := h.distinct a (Table.mem_erase.1 ha).1 b (Table.mem_erase.1 hb).1
  host s hs := h.host s (Table.mem_erase.1 hs).1
  username s hs := h.username s (Table.mem_erase.1 hs).1

end Set

/-! ### Calls -/

variable {casefold} {servers servers' : Servers φ}

lemma proper_create {new_id : Text} {request : ServerCreate φ} (h : Proper casefold servers)
    (ht : (RegistryOp.create new_id request).Tidy) (hok : create casefold servers new_id request = .ok servers') :
    Proper casefold servers' := by
  obtain ⟨candidate, hbuilt, hchecked⟩ := Except.ok_of_bind hok
  obtain ⟨record, hvalid, hset⟩ := Except.ok_of_bind hchecked
  obtain ⟨rfl, hhost, husername⟩ := validatedRecord_ok hvalid
  have hfields : request.record new_id = record.val := Option.some.inj (built_ok hbuilt)
  split_ifs at hset with hlimit hdup
  cases hset
  have hh : strip record.val.ssh_host = record.val.ssh_host := by
    rw [← hfields]
    exact ht.host _ rfl
  refine h.set (properHost_of hh hhost) ?_ (Bool.eq_false_iff.2 hdup) fun id hid => by cases hid
  intro u hu
  obtain ⟨htrim, hdash⟩ := ht.username u (by rw [← hu, ← hfields]; rfl)
  rw [hu] at husername
  exact properUsername_of htrim hdash husername

lemma proper_update {server_id : Text} {request : ServerPatch φ} (h : Proper casefold servers)
    (ht : (RegistryOp.update server_id request).Tidy) (hok : update casefold servers server_id request = .ok servers') :
    Proper casefold servers' := by
  rw [update] at hok
  cases hget : servers.get server_id with
  | none =>
    rw [hget] at hok
    cases hok
  | some current =>
    rw [hget] at hok
    obtain ⟨hmem, hid⟩ := Table.get_eq_some.1 hget
    obtain ⟨candidate, hbuilt, hchecked⟩ := Except.ok_of_bind hok
    obtain ⟨record, hvalid, hset⟩ := Except.ok_of_bind hchecked
    obtain ⟨rfl, hhost, husername⟩ := validatedRecord_ok hvalid
    split_ifs at hset with hdup
    cases hset
    -- the merged fields are those of the patch, or those the record had
    obtain ⟨name, -, hmerge⟩ := Option.bind_eq_some_iff.1 (built_ok hbuilt)
    obtain ⟨host, hhost', hmerge⟩ := Option.bind_eq_some_iff.1 hmerge
    obtain ⟨tags, -, hmerge⟩ := Option.bind_eq_some_iff.1 hmerge
    obtain ⟨enabled, -, hmerge⟩ := Option.bind_eq_some_iff.1 hmerge
    have hfields := Option.some.inj hmerge
    have hrecord_id : record.val.server_id = server_id := by rw [← hfields, ← hid]
    have hrecord_host : record.val.ssh_host = host := by rw [← hfields]
    have hrecord_user : record.val.username = nullable request.username current.val.username := by rw [← hfields]
    have hh : strip record.val.ssh_host = record.val.ssh_host := by
      rw [hrecord_host]
      cases hp : request.ssh_host with
      | none =>
        rw [hp] at hhost'
        cases hhost'
        exact (h.host current hmem).trimmed
      | some given =>
        rw [hp] at hhost'
        refine ht.host host ?_
        rw [RegistryOp.givenHost, hp]
        exact hhost'
    refine h.set (properHost_of hh hhost) ?_ (Bool.eq_false_iff.2 hdup) fun id hid => ?_
    · intro u hu
      rw [hu] at husername
      rw [hrecord_user] at hu
      cases hp : request.username with
      | none =>
        rw [hp] at hu
        exact h.username current hmem u hu
      | some given =>
        rw [hp] at hu
        obtain ⟨htrim, hdash⟩ := ht.username u (by rw [RegistryOp.givenUsername, hp]; exact hu)
        exact properUsername_of htrim hdash husername
    · rw [hrecord_id]
      exact (Option.some.inj hid).symm

/-- A tidy call leaves proper records, whether it is rejected or not. -/
lemma proper_call {σ : State φ} {c : Call φ} (h : Proper casefold σ.servers) (ht : c.op.Tidy) :
    Proper casefold (σ.call casefold c).servers := by
  rw [State.call]
  cases hok : c.op.change casefold σ.servers with
  | error refusal => exact h
  | ok servers =>
    show Proper casefold servers
    cases hop : c.op with
    | create new_id request =>
      rw [hop] at hok ht
      exact proper_create h ht hok
    | update server_id request =>
      rw [hop] at hok ht
      exact proper_update h ht hok
    | delete server_id =>
      rw [hop] at hok
      have hdelete : delete σ.servers server_id = .ok servers := hok
      rw [delete] at hdelete
      split_ifs at hdelete
      cases hdelete
      exact h.erase server_id

lemma call_of_rejects {σ : State φ} {c : Call φ} (h : σ.Rejects casefold c) : σ.call casefold c = σ := by
  obtain ⟨refusal, hr⟩ := h
  rw [State.call, hr]

/-- While the calls give trimmed hosts and usernames, the records stay proper and no rejected call changes
anything. -/
theorem identities_hold {σ : State φ} {calls : List (Call φ)} (h : Proper casefold σ.servers)
    (ht : ∀ c ∈ calls, c.op.Tidy) :
    Machine.Always (State.call casefold)
      (fun σ => Proper casefold σ.servers ∧ ∀ c, σ.Rejects casefold c → σ.call casefold c = σ) σ calls := by
  have halong : Machine.Along (State.call casefold) (fun _ c => c.op.Tidy) σ calls := by
    clear h
    induction calls generalizing σ with
    | nil => trivial
    | cons c calls ih => exact ⟨ht c List.mem_cons_self, ih fun d hd => ht d (List.mem_cons_of_mem _ hd)⟩
  have halways : Machine.Always (State.call casefold) (fun σ => Proper casefold σ.servers) σ calls :=
    Machine.always_of_along h (fun _ _ => proper_call) halong
  exact halways.imp fun σ hσ => ⟨hσ, fun c => call_of_rejects⟩

end Identity

/-! ### Two records for one server -/

/-- No record has a float. -/
instance : PyFloat Empty where
  repr x := x.elim
  parse _ := none
  parse_repr x := x.elim
  isInterval _ := true

/-- A saved call that adds a server of the host. -/
def adding (new_id host : String) : Call Empty :=
  ⟨.create new_id.toList { display_name := new_id.toList, ssh_host := host.toList, username := some "ml".toList }, true⟩

lemma tidy_adding {new_id host : String} (h : strip host.toList = host.toList) : (adding new_id host).op.Tidy where
  host t ht := by
    cases ht
    exact h
  username u hu := by
    cases hu
    exact ⟨by decide, by decide⟩

/-- Of two calls for one host the second is rejected. -/
theorem identities_hold_adding :
    Machine.Always (State.call id)
      (fun σ => Proper id σ.servers ∧ ∀ c, σ.Rejects id c → σ.call id c = σ) ⟨.empty, 0⟩
      [adding "a" "gpu", adding "b" "gpu"] :=
  identities_hold ⟨fun _ ha => absurd ha List.not_mem_nil, fun _ ha => absurd ha List.not_mem_nil,
    fun _ ha => absurd ha List.not_mem_nil⟩ fun c hc => by
      rcases List.mem_pair.1 hc with rfl | rfl <;> exact tidy_adding (by decide)

/-- The host with a blank behind it is taken for another host. -/
theorem identities_fail_on_blank :
    ¬∀ calls : List (Call Empty), Machine.Always (State.call id)
      (fun σ => Proper id σ.servers ∧ ∀ c, σ.Rejects id c → σ.call id c = σ) ⟨.empty, 0⟩ calls := by
  intro h
  have hproper := (h [adding "a" "gpu", adding "b" "gpu "]).last.1
  have htwo : ∃ a ∈ (Machine.after (State.call id) ⟨.empty, 0⟩ [adding "a" "gpu", adding "b" "gpu "]).servers.rows,
      ∃ b ∈ (Machine.after (State.call id) ⟨.empty, 0⟩ [adding "a" "gpu", adding "b" "gpu "]).servers.rows,
        identity id a = identity id b ∧ a ≠ b := by decide +kernel
  obtain ⟨a, ha, b, hb, hab, hne⟩ := htwo
  exact hne (hproper.distinct a ha b hb hab)

end SshGpuConsole.Registry
