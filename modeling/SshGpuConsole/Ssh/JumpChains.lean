import SshGpuConsole.Ssh.ConfigResolver

/-!
# Chains of jumps

`resolve_proxy_jump` calls itself for the jump in front of each hop, and what ends it is that no host may come twice.
A value with `%h` makes a new host of each, so there need not be an end: the stack is exhausted exactly when a chain
of jumps fills it (`resolveProxyJump_recursion`). Without `%` in the values the hosts are those that the blocks name,
and there is an end (`connectParams_unexpanded`).
-/

namespace SshGpuConsole.Ssh.Config
open Shell (Text)
open PyText

section
variable (py : Python) (blocks : List Block)

/-- The hops of a spec that are not skipped. -/
def tokensOf (raws : List Text) : List Text := (raws.map strip).filter fun token => !isSkipped py token

/-- A hop can be read, its host was not seen, and so it is with the hops in front of it. -/
inductive Clear : List Text → Text → Prop
  | intro {seen token hop} (hresolve : resolveHop py blocks seen token = .ok hop)
    (hinner : ∀ spec, hop.proxy_jump = some spec → ∀ token ∈ tokensOf py (spec.splitOn ','), Clear hop.seen token) :
    Clear seen token

/-- A spec has a hop that jumps, and the hops before it are clear. -/
inductive Leads : List Text → Text → List Text → Text → Prop
  | intro {seen spec before token after hop proxy_jump} (htokens : tokensOf py (spec.splitOn ',') = before ++ token :: after)
    (hbefore : ∀ token ∈ before, Clear py blocks seen token) (hresolve : resolveHop py blocks seen token = .ok hop)
    (hjump : hop.proxy_jump = some proxy_jump) : Leads seen spec hop.seen proxy_jump

/-- A chain of so many jumps starts from the spec. -/
inductive JumpChain : ℕ → List Text → Text → Prop
  | zero {seen spec} : JumpChain 0 seen spec
  | succ {n seen spec seen' spec'} (hleads : Leads py blocks seen spec seen' spec') (hchain : JumpChain n seen' spec') :
    JumpChain (n + 1) seen spec

end

section
variable {py : Python} {blocks : List Block} {inner : List Text → Text → Except JumpError Text} {seen : List Text}

/-! ### One call -/

lemma resolveHop_recursion {token : Text} : resolveHop py blocks seen token ≠ .error .recursionError := by
  unfold resolveHop
  cases splitHop py token with
  | error message => exact fun h => by cases h
  | ok hop =>
    dsimp only
    split
    · exact fun h => by cases h
    · exact fun h => by cases h

lemma resolveToken_ok {token : Text} : (∃ r, resolveToken py blocks inner seen token = .ok r) ↔
    ∃ hop, resolveHop py blocks seen token = .ok hop ∧
      ∀ spec, hop.proxy_jump = some spec → ∃ chain, inner hop.seen spec = .ok chain := by
  unfold resolveToken
  cases resolveHop py blocks seen token with
  | error error =>
    constructor
    · rintro ⟨r, h⟩
      cases h
    · rintro ⟨hop, h, -⟩
      cases h
  | ok hop =>
    dsimp only
    cases hjump : hop.proxy_jump with
    | none =>
      constructor
      · exact fun _ => ⟨hop, rfl, fun spec h => by rw [hjump] at h; cases h⟩
      · exact fun _ => ⟨_, rfl⟩
    | some spec =>
      dsimp only
      constructor
      · rintro ⟨r, h⟩
        refine ⟨hop, rfl, fun spec' h' => ?_⟩
        rw [hjump] at h'
        cases h'
        cases hinner : inner hop.seen spec with
        | error error =>
          rw [hinner] at h
          cases h
        | ok chain => exact ⟨chain, rfl⟩
      · rintro ⟨hop', h, hinner⟩
        cases h
        obtain ⟨chain, hchain⟩ := hinner spec hjump
        rw [hchain]
        exact ⟨_, rfl⟩

lemma resolveToken_recursion {token : Text} : resolveToken py blocks inner seen token = .error .recursionError ↔
    ∃ hop spec, resolveHop py blocks seen token = .ok hop ∧ hop.proxy_jump = some spec ∧
      inner hop.seen spec = .error .recursionError := by
  unfold resolveToken
  cases hhop : resolveHop py blocks seen token with
  | error error =>
    dsimp only
    constructor
    · intro h
      cases h
      exact absurd hhop resolveHop_recursion
    · rintro ⟨hop, spec, h, -⟩
      cases h
  | ok hop =>
    dsimp only
    cases hjump : hop.proxy_jump with
    | none =>
      constructor
      · intro h
        cases h
      · rintro ⟨hop', spec, h, h', -⟩
        cases h
        rw [hjump] at h'
        cases h'
    | some spec =>
      dsimp only
      constructor
      · intro h
        refine ⟨hop, spec, rfl, hjump, ?_⟩
        cases hinner : inner hop.seen spec with
        | error error =>
          rw [hinner] at h
          cases h
          rfl
        | ok chain =>
          rw [hinner] at h
          cases h
      · rintro ⟨hop', spec', h, h', hinner⟩
        cases h
        rw [hjump] at h'
        cases h'
        rw [hinner]
        rfl

lemma tokensOf_skip {raw : Text} {raws : List Text} (h : isSkipped py (strip raw) = true) :
    tokensOf py (raw :: raws) = tokensOf py raws := by
  unfold tokensOf
  rw [List.map_cons, List.filter_cons_of_neg (by rw [h]; decide)]

lemma tokensOf_keep {raw : Text} {raws : List Text} (h : ¬isSkipped py (strip raw) = true) :
    tokensOf py (raw :: raws) = strip raw :: tokensOf py raws := by
  unfold tokensOf
  rw [List.map_cons, List.filter_cons_of_pos (by rw [Bool.eq_false_of_not_eq_true h]; rfl)]

/-- The first hop that fails is what the loop fails with. -/
lemma resolveHops_cases (done : List Text) (raws : List Text) :
    ((∀ token ∈ tokensOf py raws, ∃ r, resolveToken py blocks inner seen token = .ok r) ∧
      ∃ hops, resolveHops py blocks inner seen done raws = .ok hops) ∨
    ∃ before token after e, tokensOf py raws = before ++ token :: after ∧
      (∀ t ∈ before, ∃ r, resolveToken py blocks inner seen t = .ok r) ∧
      resolveToken py blocks inner seen token = .error e ∧ resolveHops py blocks inner seen done raws = .error e := by
  induction raws generalizing done with
  | nil => exact .inl ⟨fun _ h => absurd h List.not_mem_nil, done, rfl⟩
  | cons raw raws ih =>
    by_cases hskip : isSkipped py (strip raw) = true
    · rw [tokensOf_skip hskip, resolveHops, if_pos hskip]
      exact ih done
    · rw [tokensOf_keep hskip, resolveHops, if_neg hskip]
      cases htoken : resolveToken py blocks inner seen (strip raw) with
      | error e => exact .inr ⟨[], strip raw, tokensOf py raws, e, rfl, fun _ h => absurd h List.not_mem_nil, htoken, rfl⟩
      | ok r =>
        obtain ⟨hall, hok⟩ | ⟨before, token, after, e, htokens, hbefore, hfail, herror⟩ := ih (r.1 ++ done ++ [r.2])
        · exact .inl ⟨List.forall_mem_cons.2 ⟨⟨r, htoken⟩, hall⟩, hok⟩
        · exact .inr ⟨strip raw :: before, token, after, e, congrArg (strip raw :: ·) htokens,
            List.forall_mem_cons.2 ⟨⟨r, htoken⟩, hbefore⟩, hfail, herror⟩

/-- Of two elements of a list one comes first, if they are not one. -/
lemma split_twice {α : Type} {before after before' after' : List α} {x y : α}
    (h : before ++ x :: after = before' ++ y :: after') : x ∈ before' ∨ x = y ∨ y ∈ before := by
  induction before generalizing before' with
  | nil =>
    cases before' with
    | nil => exact .inr (.inl (List.cons.inj h).1)
    | cons z before' => exact .inl (List.mem_cons.2 (.inl (List.cons.inj h).1))
  | cons z before ih =>
    cases before' with
    | nil => exact .inr (.inr (List.mem_cons.2 (.inl (List.cons.inj h).1.symm)))
    | cons z' before' =>
      rcases ih (List.cons.inj h).2 with hm | hm | hm
      · exact .inl (List.mem_cons_of_mem z' hm)
      · exact .inr (.inl hm)
      · exact .inr (.inr (List.mem_cons_of_mem z hm))

/-! ### Chains -/

lemma resolveProxyJump_ok {n : ℕ} {spec : Text} : (∃ chain, resolveProxyJump py blocks (n + 1) seen spec = .ok chain) ↔
    ∀ token ∈ tokensOf py (spec.splitOn ','), ∃ r, resolveToken py blocks (resolveProxyJump py blocks n) seen token = .ok r := by
  rw [resolveProxyJump]
  obtain ⟨hall, hops, hok⟩ | ⟨before, token, after, e, htokens, -, hfail, herror⟩ :=
    @resolveHops_cases py blocks (resolveProxyJump py blocks n) seen [] (spec.splitOn ',')
  · rw [hok]
    exact iff_of_true ⟨_, rfl⟩ hall
  · rw [herror]
    refine iff_of_false (fun h => ?_) fun h => ?_
    · obtain ⟨chain, h⟩ := h
      cases h
    · obtain ⟨r, hr⟩ := h token (htokens ▸ List.mem_append_right before List.mem_cons_self)
      rw [hfail] at hr
      cases hr

/-- What a call resolves within the stack is clear. -/
lemma clear_of_ok {n : ℕ} {token : Text}
    (h : ∃ r, resolveToken py blocks (resolveProxyJump py blocks n) seen token = .ok r) : Clear py blocks seen token := by
  induction n generalizing seen token with
  | zero =>
    obtain ⟨hop, hhop, hinner⟩ := resolveToken_ok.1 h
    refine .intro hhop fun spec hspec => ?_
    obtain ⟨chain, hchain⟩ := hinner spec hspec
    cases hchain
  | succ n ih =>
    obtain ⟨hop, hhop, hinner⟩ := resolveToken_ok.1 h
    exact .intro hhop fun spec hspec token ht => ih (resolveProxyJump_ok.1 (hinner spec hspec) token ht)

/-- What is clear has a result, unless the stack is exhausted. -/
lemma ok_of_clear {token : Text} (h : Clear py blocks seen token) (n : ℕ) :
    (∃ r, resolveToken py blocks (resolveProxyJump py blocks n) seen token = .ok r) ∨
      resolveToken py blocks (resolveProxyJump py blocks n) seen token = .error .recursionError := by
  induction h generalizing n with
  | @intro seen token hop hhop hinner ih =>
    cases hjump : hop.proxy_jump with
    | none =>
      refine .inl (resolveToken_ok.2 ⟨hop, hhop, fun spec hspec => ?_⟩)
      rw [hjump] at hspec
      cases hspec
    | some spec =>
      cases hn : resolveProxyJump py blocks n hop.seen spec with
      | ok chain =>
        refine .inl (resolveToken_ok.2 ⟨hop, hhop, fun spec' hspec => ?_⟩)
        rw [hjump] at hspec
        cases hspec
        exact ⟨chain, hn⟩
      | error e =>
        refine .inr (resolveToken_recursion.2 ⟨hop, spec, hhop, hjump, ?_⟩)
        cases n with
        | zero => rfl
        | succ n =>
          rw [resolveProxyJump] at hn ⊢
          obtain ⟨-, hops, hok⟩ | ⟨before, token', after, e', htokens, -, hfail, herror⟩ :=
            @resolveHops_cases py blocks (resolveProxyJump py blocks n) hop.seen [] (spec.splitOn ',')
          · rw [hok] at hn
            cases hn
          · rw [herror] at hn ⊢
            have hmem := List.mem_append_right before (List.mem_cons_self (a := token') (l := after))
            rw [← htokens] at hmem
            rcases ih spec hjump token' hmem n with ⟨r, hr⟩ | hr
            · rw [hfail] at hr
              cases hr
            · rw [hfail] at hr
              rw [Except.error.inj hr]
              rfl

/-- The stack is exhausted exactly when a chain of jumps fills it. -/
lemma resolveProxyJump_recursion {n : ℕ} {spec : Text} :
    resolveProxyJump py blocks n seen spec = .error .recursionError ↔ JumpChain py blocks n seen spec := by
  induction n generalizing seen spec with
  | zero => exact iff_of_true rfl .zero
  | succ n ih =>
    rw [resolveProxyJump]
    constructor
    · intro h
      obtain ⟨-, hops, hok⟩ | ⟨before, token, after, e, htokens, hbefore, hfail, herror⟩ :=
        @resolveHops_cases py blocks (resolveProxyJump py blocks n) seen [] (spec.splitOn ',')
      · rw [hok] at h
        cases h
      · rw [herror] at h
        cases h
        obtain ⟨hop, proxy_jump, hhop, hjump, hinner⟩ := resolveToken_recursion.1 hfail
        exact .succ (.intro htokens (fun t ht => clear_of_ok (hbefore t ht)) hhop hjump) (ih.1 hinner)
    · intro h
      obtain _ | ⟨hleads, hchain⟩ := h
      obtain ⟨htokens, hbefore, hhop, hjump⟩ := hleads
      rename_i before token after hop
      have hdeep : resolveToken py blocks (resolveProxyJump py blocks n) seen token = .error .recursionError :=
        resolveToken_recursion.2 ⟨hop, _, hhop, hjump, ih.2 hchain⟩
      obtain ⟨hall, -⟩ | ⟨before', token', after', e, htokens', hbefore', hfail, herror⟩ :=
        @resolveHops_cases py blocks (resolveProxyJump py blocks n) seen [] (spec.splitOn ',')
      · obtain ⟨r, hr⟩ := hall token (htokens ▸ List.mem_append_right before List.mem_cons_self)
        rw [hdeep] at hr
        cases hr
      · -- the hop that fails is this one, or one before it
        have hrecursion : e = .recursionError := by
          rcases split_twice (htokens.symm.trans htokens') with hmem | hsame | hmem
          · obtain ⟨r, hr⟩ := hbefore' token hmem
            rw [hdeep] at hr
            cases hr
          · rw [← hsame, hdeep] at hfail
            exact (Except.error.inj hfail).symm
          · rcases ok_of_clear (hbefore token' hmem) n with ⟨r, hr⟩ | hr
            · rw [hfail] at hr
              cases hr
            · rw [hfail] at hr
              exact Except.error.inj hr
        rw [herror, hrecursion]
        rfl

lemma mapError_ne_recursion {x : Except ConnectError ConnectParams} :
    x.mapError ParamsError.connectError ≠ .error .recursionError := by
  cases x with
  | error e => exact fun h => by cases h
  | ok params => exact fun h => by cases h

/-- A connection has parameters or a `ConnectError` unless a chain of jumps fills the stack. -/
theorem stack_holds_iff (py : Python) (blocks : List Block) :
    (∀ n seen spec, resolveProxyJump py blocks n seen spec ≠ .error .recursionError ↔ ¬JumpChain py blocks n seen spec) ∧
    ∀ n server_host username port, connectParams py blocks n server_host username port ≠ .error .recursionError ↔
      ∀ spec, (resolve py blocks server_host).proxy_jump = some spec → ¬JumpChain py blocks n [] spec := by
  refine ⟨fun n seen spec => not_congr resolveProxyJump_recursion, fun n server_host username port => ?_⟩
  unfold connectParams
  cases hjump : (resolve py blocks server_host).proxy_jump with
  | none =>
    rw [if_neg (by rw [Option.any_none]; decide)]
    exact iff_of_true mapError_ne_recursion fun spec h => by cases h
  | some spec =>
    rw [Option.any_some]
    constructor
    · intro h spec' hspec hchain
      cases hspec
      rw [if_pos (decide_eq_true (resolveProxyJump_recursion.2 hchain))] at h
      exact h rfl
    · intro h
      rw [if_neg fun hr => h spec rfl (resolveProxyJump_recursion.1 (of_decide_eq_true hr))]
      exact mapError_ne_recursion

end

/-! ### Values that are not expanded -/

section
variable {py : Python} {blocks : List Block}

/-- No host and no jump of the block is made of the alias. -/
def Block.Unexpanded (block : Block) : Prop :=
  ∀ value, block.first "hostname" = some value ∨ block.first "proxyjump" = some value → '%' ∉ value

/-- The hosts of a spec. -/
def hostsOf (py : Python) (spec : Text) : List Text :=
  (tokensOf py (spec.splitOn ',')).filterMap fun token => (splitHop py token).toOption.map fun hop => hop.2.1

/-- The hosts that blocks name. -/
def hostsNamed (py : Python) (blocks : List Block) : List Text :=
  blocks.filterMap (fun block => (block.first "hostname").map strip) ++
    (blocks.filterMap fun block => (block.first "proxyjump").map strip).flatMap (hostsOf py)

lemma expand_unexpanded {value : Text} (h : '%' ∉ value) (host_alias : Text) : expand value host_alias = strip value := by
  have hh : replace "%h".toList host_alias value = value := replace_of_notMem h
  have hn : replace "%n".toList host_alias value = value := replace_of_notMem h
  unfold expand
  rw [hh, hn]

/-- What an entry has is the value of a block. -/
lemma resolve_field {host_alias : Text} {t : Text} (key : String) (field : SSHConfigEntry → Option Text)
    (hmerge : ∀ entry block, field (merge py host_alias entry block) =
      (field entry <|> (block.first key).map fun value => expand value host_alias))
    (hempty : field {} = none) (h : field (resolve py blocks host_alias) = some t) :
    ∃ block ∈ blocks, ∃ value, block.first key = some value ∧ t = expand value host_alias := by
  unfold resolve at h
  have hsub : ∀ block ∈ blocks.filter fun block => block.Matches py host_alias, block ∈ blocks := fun block hb =>
    (List.mem_filter.1 hb).1
  generalize (blocks.filter fun block => block.Matches py host_alias) = matching at h hsub
  induction matching using List.reverseRecOn with
  | nil =>
    rw [List.foldl_nil, hempty] at h
    cases h
  | append_singleton matching block ih =>
    rw [List.foldl_append, List.foldl_cons, List.foldl_nil, hmerge] at h
    cases hbefore : field (matching.foldl (merge py host_alias) {}) with
    | some t' =>
      rw [hbefore] at h
      exact ih (hbefore.trans h) fun block hb => hsub block (List.mem_append_left _ hb)
    | none =>
      rw [hbefore] at h
      cases hv : block.first key with
      | none =>
        rw [hv] at h
        cases h
      | some value =>
        rw [hv] at h
        exact ⟨block, hsub block List.mem_concat_self, value, hv, (Option.some.inj h).symm⟩

/-- The jump of a host names hosts of the blocks. -/
lemma hosts_proxy_jump (h : ∀ block ∈ blocks, block.Unexpanded) {host_alias spec : Text}
    (hspec : (resolve py blocks host_alias).proxy_jump = some spec) : ∀ host ∈ hostsOf py spec, host ∈ hostsNamed py blocks := by
  obtain ⟨block, hb, value, hv, rfl⟩ := resolve_field "proxyjump" SSHConfigEntry.proxy_jump (fun _ _ => rfl) rfl hspec
  rw [expand_unexpanded (h block hb value (.inr hv))]
  intro host hh
  refine List.mem_append_right _ (List.mem_flatMap.2 ⟨strip value, List.mem_filterMap.2 ⟨block, hb, ?_⟩, hh⟩)
  rw [hv]
  rfl

/-- A hop leads to a host that the blocks name, and that was not seen. -/
lemma resolveHop_named (h : ∀ block ∈ blocks, block.Unexpanded) {seen : List Text} {spec token : Text} {hop : Hop}
    (hspec : ∀ host ∈ hostsOf py spec, host ∈ hostsNamed py blocks) (htoken : token ∈ tokensOf py (spec.splitOn ','))
    (hhop : resolveHop py blocks seen token = .ok hop) :
    (∃ host ∈ hostsNamed py blocks, hop.seen = py.casefold host :: seen ∧ py.casefold host ∉ seen) ∧
      ∀ proxy_jump, hop.proxy_jump = some proxy_jump → ∀ host ∈ hostsOf py proxy_jump, host ∈ hostsNamed py blocks := by
  unfold resolveHop at hhop
  cases hsplit : splitHop py token with
  | error message =>
    rw [hsplit] at hhop
    cases hhop
  | ok parts =>
    obtain ⟨user, host, port⟩ := parts
    rw [hsplit] at hhop
    dsimp only at hhop
    split at hhop
    · cases hhop
    · rename_i hnew
      cases hhop
      refine ⟨⟨_, ?_, rfl, fun hm => hnew (List.contains_iff_mem.2 hm)⟩, fun proxy_jump hjump => ?_⟩
      · have hhost : host ∈ hostsNamed py blocks := by
          refine hspec host (List.mem_filterMap.2 ⟨token, htoken, ?_⟩)
          rw [hsplit]
          rfl
        unfold orText
        cases hname : (resolve py blocks host).hostname with
        | none => exact hhost
        | some name =>
          dsimp only
          split
          · exact hhost
          · obtain ⟨block, hb, value, hv, hvalue⟩ :=
              resolve_field "hostname" SSHConfigEntry.hostname (fun _ _ => rfl) rfl hname
            rw [expand_unexpanded (h block hb value (.inl hv))] at hvalue
            refine List.mem_append_left _ (List.mem_filterMap.2 ⟨block, hb, ?_⟩)
            rw [hv, hvalue]
            rfl
      · exact hosts_proxy_jump h (Option.filter_eq_some_iff.1 hjump).1

/-- A chain sees another host that the blocks name with each jump. -/
lemma jumpChain_le (h : ∀ block ∈ blocks, block.Unexpanded) {n : ℕ} {seen : List Text} {spec : Text}
    (hchain : JumpChain py blocks n seen spec) (hspec : ∀ host ∈ hostsOf py spec, host ∈ hostsNamed py blocks)
    (hseen : ∀ name ∈ seen, name ∈ (hostsNamed py blocks).map py.casefold) (hnodup : seen.Nodup) :
    n + seen.length ≤ (hostsNamed py blocks).length := by
  induction hchain with
  | zero =>
    have hsub := (List.subperm_of_subset hnodup hseen).length_le
    rw [List.length_map] at hsub
    omega
  | succ hleads hrest ih =>
    obtain ⟨htokens, -, hhop, hjump⟩ := hleads
    rename_i before token after hop
    have htoken := List.mem_append_right before (List.mem_cons_self (a := token) (l := after))
    rw [← htokens] at htoken
    obtain ⟨⟨host, hhost, hsame, hnew⟩, hnext⟩ := resolveHop_named h hspec htoken hhop
    have hbound := ih (hnext _ hjump)
    rw [hsame] at hbound
    have hle := hbound (List.forall_mem_cons.2 ⟨List.mem_map_of_mem hhost, hseen⟩) (List.nodup_cons.2 ⟨hnew, hnodup⟩)
    rw [List.length_cons] at hle
    omega

/-- Where no host and no jump is made of the alias, a stack for as many calls as the blocks name hosts is enough. -/
theorem connectParams_unexpanded (h : ∀ block ∈ blocks, block.Unexpanded) (server_host : Text) (username : Option Text)
    (port : Option ℤ) :
    connectParams py blocks ((hostsNamed py blocks).length + 1) server_host username port ≠ .error .recursionError := by
  unfold connectParams
  cases hjump : (resolve py blocks server_host).proxy_jump with
  | none =>
    rw [if_neg (by rw [Option.any_none]; decide)]
    exact mapError_ne_recursion
  | some spec =>
    rw [Option.any_some, if_neg fun hr => ?_]
    · exact mapError_ne_recursion
    · have hle := jumpChain_le h (resolveProxyJump_recursion.1 (of_decide_eq_true hr)) (hosts_proxy_jump h hjump)
        (fun _ hm => absurd hm List.not_mem_nil) List.nodup_nil
      rw [List.length_nil] at hle
      omega
end

/-! ### A chain without end -/

/-- `Host *` and `ProxyJump a%h`. -/
def everyHost : List Block := [⟨["*".toList], [("proxyjump".toList, ["a%h".toList])]⟩]

/-- The hosts of its chain: each has one more `a` in front. -/
def longer (k : ℕ) : Text := List.replicate k 'a' ++ ['x']

lemma mem_longer {k : ℕ} {c : Char} (h : c ∈ longer k) : c = 'a' ∨ c = 'x' := by
  rw [longer, List.mem_append, List.mem_singleton] at h
  exact h.imp_left List.eq_of_mem_replicate

lemma notMem_longer (k : ℕ) {c : Char} (ha : c ≠ 'a') (hx : c ≠ 'x') : c ∉ longer k := fun h =>
  (mem_longer h).elim ha hx

lemma lower_longer (k : ℕ) : asciiPython.casefold (longer k) = longer k := by
  have hlower : ∀ c ∈ longer k, c.toLower = id c := fun c hc => by
    rcases mem_longer hc with rfl | rfl
    · rfl
    · rfl
  exact (List.map_congr_left hlower).trans (List.map_id _)

lemma strip_longer (k : ℕ) : strip (longer k) = longer k := strip_unspaced fun c hc => by
  rcases mem_longer hc with rfl | rfl
  · rfl
  · rfl

lemma tokensOf_longer (k : ℕ) : tokensOf asciiPython ((longer k).splitOn ',') = [longer k] := by
  have hkeep : ¬isSkipped asciiPython (strip (longer k)) = true := by
    unfold isSkipped
    rw [strip_longer, lower_longer, Bool.or_eq_true, decide_eq_true_iff, decide_eq_true_iff, not_or]
    refine ⟨fun h => ?_, fun h => ?_⟩
    · exact absurd (congrArg List.length h) (by simp [longer])
    · exact notMem_longer k (by decide) (by decide) (h ▸ (by decide : 'n' ∈ "none".toList))
  rw [List.splitOn_eq_singleton (notMem_longer k (by decide) (by decide)), tokensOf_keep hkeep, strip_longer]
  rfl

lemma expand_longer (k : ℕ) : expand "a%h".toList (longer k) = longer (k + 1) := by
  have hreplace : replace "%h".toList (longer k) "a%h".toList = 'a' :: (longer k ++ []) := rfl
  have hnext : 'a' :: (longer k ++ []) = longer (k + 1) := by
    rw [List.append_nil]
    rfl
  unfold expand
  rw [hreplace, hnext]
  have hname : replace "%n".toList (longer k) (longer (k + 1)) = longer (k + 1) :=
    replace_of_notMem (notMem_longer (k + 1) (by decide) (by decide))
  rw [hname, strip_longer]

lemma resolve_longer (k : ℕ) : resolve asciiPython everyHost (longer k) = { proxy_jump := some (longer (k + 1)) } := by
  have hmatches : Block.Matches asciiPython ⟨["*".toList], [("proxyjump".toList, ["a%h".toList])]⟩ (longer k) = true := by
    have hstar : Fnmatch.fnmatchcase (asciiPython.casefold (longer k)) ['*'] = true :=
      List.any_eq_true.2 ⟨[], (List.mem_tails _ _).2 List.nil_suffix, rfl⟩
    exact if_pos hstar
  have hblocks : (everyHost.filter fun block => block.Matches asciiPython (longer k)) = everyHost := by
    refine List.filter_eq_self.2 fun block hb => ?_
    cases List.mem_singleton.1 hb
    exact hmatches
  unfold resolve
  rw [hblocks, ← expand_longer]
  rfl

lemma resolveHop_longer {k : ℕ} {seen : List Text} (h : ∀ t ∈ seen, t.length ≤ k) :
    resolveHop asciiPython everyHost seen (longer k) =
      .ok { text := longer k, proxy_jump := some (longer (k + 1)), seen := longer k :: seen } := by
  have hsplit : splitHop asciiPython (longer k) = .ok (none, longer k, none) := by
    have huser : splitUser (longer k) = (none, longer k) := by
      unfold splitUser
      rw [rpartition_none.2 (notMem_longer k (by decide) (by decide))]
    have haddress : splitAddress asciiPython (longer k) = .ok (longer k, none) := by
      unfold splitAddress
      rw [if_neg fun h => notMem_longer k (by decide) (by decide) (List.mem_of_head? h),
        rpartition_none.2 (notMem_longer k (by decide) (by decide))]
    unfold splitHop
    rw [huser]
    dsimp only
    rw [haddress]
    rfl
  have hnew : ¬seen.contains (longer k) = true := by
    rw [List.contains_iff_mem]
    intro hm
    have hlength := h _ hm
    rw [longer, List.length_append, List.length_replicate, List.length_singleton] at hlength
    omega
  have hhost : ¬(longer k).contains ':' = true := by
    rw [List.contains_iff_mem]
    exact notMem_longer k (by decide) (by decide)
  unfold resolveHop
  rw [hsplit]
  dsimp only
  rw [resolve_longer, show asciiPython.casefold (orText none (longer k)) = longer k from lower_longer k, if_neg hnew]
  have htext : hopText (none <|> none) (longer k) 22 = longer k := by
    unfold hopText
    rw [if_neg (by rw [Bool.and_eq_true]; exact fun hc => hhost hc.1)]
    exact List.append_nil _
  have hjump : orNone (some (longer (k + 1))) = some (longer (k + 1)) :=
    Option.filter_eq_some_iff.2 ⟨rfl, decide_eq_true (by simp [longer])⟩
  show Except.ok (Hop.mk (hopText (none <|> none) (longer k) 22) (orNone (some (longer (k + 1)))) (longer k :: seen)) = _
  rw [htext, hjump]

lemma jumpChain_longer (n k : ℕ) {seen : List Text} (h : ∀ t ∈ seen, t.length ≤ k) :
    JumpChain asciiPython everyHost n seen (longer k) := by
  induction n generalizing k seen with
  | zero => exact .zero
  | succ n ih =>
    have hseen : ∀ t ∈ longer k :: seen, t.length ≤ k + 1 := by
      refine List.forall_mem_cons.2 ⟨?_, fun t ht => Nat.le_succ_of_le (h t ht)⟩
      simp [longer]
    have hbefore : ∀ token ∈ ([] : List Text), Clear asciiPython everyHost seen token := fun _ ht =>
      absurd ht List.not_mem_nil
    exact .succ (.intro (tokensOf_longer k) hbefore (resolveHop_longer h) rfl) (ih (k + 1) hseen)

/-- No stack is deep enough for the jumps of the host `x`. -/
theorem everyHost_exhausts_stack : ¬∃ n, connectParams asciiPython everyHost n ['x'] none none ≠ .error .recursionError := by
  rintro ⟨n, h⟩
  have hjump : (resolve asciiPython everyHost ['x']).proxy_jump = some (longer 1) :=
    congrArg SSHConfigEntry.proxy_jump (resolve_longer 0)
  have hchain := resolveProxyJump_recursion.2 (@jumpChain_longer n 1 [] fun _ ht => absurd ht List.not_mem_nil)
  unfold connectParams at h
  rw [hjump, Option.any_some, if_pos (decide_eq_true hchain)] at h
  exact h rfl

end SshGpuConsole.Ssh.Config
