import SshGpuConsole.Ssh.ConfigResolver

/-!
# Hops

A hop is written by `resolve_proxy_jump` and read by `_split_hop`, which is written apart from it: the brackets of an
address stand there only when a port follows. What is written is read back but for an address without a port whose
last part looks like one (`readsBack_iff`); a chain of hops that are read back is resolved already (`hops_agree`).
-/

namespace SshGpuConsole.Ssh.Config
open Shell (Text)
open PyText

/-- A user, a host and a port, as the entries make them. -/
structure Effective where
  user : Option Text
  host : Text
  port : ℕ

def Effective.text (hop : Effective) : Text := hopText hop.user hop.host hop.port

/-- The host is a name or an address, and the port a port; of the user nothing is asked. -/
structure Effective.Valid (hop : Effective) : Prop where
  host_ne : hop.host ≠ []
  host : ∀ c ∈ hop.host, c ≠ '@' ∧ c ≠ '[' ∧ c ≠ ']'
  port : 1 ≤ hop.port ∧ hop.port ≤ 65535

/-- The hop can stand in a chain, which white space and commas divide. -/
structure Effective.Listed (hop : Effective) : Prop where
  user : ∀ user, hop.user = some user → ∀ c ∈ user, c ≠ ',' ∧ isSpace c = false
  host : ∀ c ∈ hop.host, c ≠ ',' ∧ isSpace c = false

section
variable {py : Python}

variable (py) in
/-- The hop is read as it was written; the port of SSH is not written. -/
def Effective.ReadsBack (hop : Effective) : Prop :=
  ∃ port, splitHop py hop.text = .ok (hop.user, hop.host, port) ∧ (port = some hop.port ∨ hop.port = 22 ∧ port = none)

variable (py) in
/-- The host ends like one with a port. -/
def EndsInPort (host : Text) : Prop := ∃ candidate digits, rpartition ':' host = some (candidate, digits) ∧
  candidate ≠ [] ∧ py.isdigit digits = true

variable (py) in
/-- The user is not empty, and a port is written behind a host that ends like one with a port. -/
def Effective.Plain (hop : Effective) : Prop := hop.user ≠ some [] ∧ (hop.port = 22 → ¬EndsInPort py hop.host)

/-! ### One hop -/

lemma ofInt_natCast (n : ℕ) : ofInt n = Nat.toDigits 10 n := by
  show (Nat.repr n).toList = _
  unfold Nat.repr
  rw [String.toList_ofList]

lemma digit_ne {n : ℕ} {c d : Char} (h : c ∈ Nat.toDigits 10 n) (hd : d.isDigit = false) : c ≠ d := by
  rintro rfl
  rw [Nat.isDigit_of_mem_toDigits (by decide) (by decide) h] at hd
  cases hd

/-- The text of a hop behind its user. -/
def addressText (host : Text) (port : ℕ) : Text :=
  if host.contains ':' && (port : ℤ) ≠ 22 then '[' :: host ++ ']' :: ':' :: Nat.toDigits 10 port
  else host ++ if (port : ℤ) ≠ 22 then ':' :: Nat.toDigits 10 port else []

lemma Effective.text_eq (hop : Effective) : hop.text = userText hop.user ++ addressText hop.host hop.port := by
  unfold Effective.text hopText addressText
  rw [ofInt_natCast]

lemma addressText_host {host : Text} : addressText host 22 = host := by
  unfold addressText
  rw [if_neg (by simp), if_neg (by simp), List.append_nil]

lemma addressText_name {host : Text} {port : ℕ} (h : ':' ∉ host) (hport : port ≠ 22) :
    addressText host port = host ++ ':' :: Nat.toDigits 10 port := by
  have hport' : (port : ℤ) ≠ 22 := fun e => hport (by exact_mod_cast e)
  unfold addressText
  rw [if_neg (by simp [h]), if_pos hport']

lemma addressText_brackets {host : Text} {port : ℕ} (h : ':' ∈ host) (hport : port ≠ 22) :
    addressText host port = '[' :: host ++ ']' :: ':' :: Nat.toDigits 10 port := by
  have hport' : (port : ℤ) ≠ 22 := fun e => hport (by exact_mod_cast e)
  unfold addressText
  rw [if_pos (by simp [h, hport'])]

lemma addressText_cases (host : Text) (port : ℕ) : (port = 22 ∧ addressText host port = host) ∨
    (port ≠ 22 ∧ ':' ∉ host ∧ addressText host port = host ++ ':' :: Nat.toDigits 10 port) ∨
    (port ≠ 22 ∧ ':' ∈ host ∧ addressText host port = '[' :: host ++ ']' :: ':' :: Nat.toDigits 10 port) := by
  by_cases hport : port = 22
  · subst hport
    exact .inl ⟨rfl, addressText_host⟩
  · by_cases hcolon : ':' ∈ host
    · exact .inr (.inr ⟨hport, hcolon, addressText_brackets hcolon hport⟩)
    · exact .inr (.inl ⟨hport, hcolon, addressText_name hcolon hport⟩)

/-- A character of a hop behind its user is one of the host, a digit of the port, or punctuation. -/
lemma mem_addressText {host : Text} {port : ℕ} {c : Char} (h : c ∈ addressText host port) :
    c ∈ host ∨ c ∈ Nat.toDigits 10 port ∨ c = '[' ∨ c = ']' ∨ c = ':' := by
  obtain ⟨-, he⟩ | ⟨-, -, he⟩ | ⟨-, -, he⟩ := addressText_cases host port
  · rw [he] at h
    exact .inl h
  · rw [he, List.mem_append, List.mem_cons] at h
    rcases h with h | h | h
    · exact .inl h
    · exact .inr (.inr (.inr (.inr h)))
    · exact .inr (.inl h)
  · rw [he, List.cons_append, List.mem_cons, List.mem_append, List.mem_cons, List.mem_cons] at h
    rcases h with h | h | h | h | h
    · exact .inr (.inr (.inl h))
    · exact .inl h
    · exact .inr (.inr (.inr (.inl h)))
    · exact .inr (.inr (.inr (.inr h)))
    · exact .inr (.inl h)

lemma splitUser_text {hop : Effective} (h : hop.Valid) :
    splitUser hop.text = (orNone hop.user, addressText hop.host hop.port) := by
  have hat : '@' ∉ addressText hop.host hop.port := by
    intro hm
    rcases mem_addressText hm with hm | hm | hm | hm | hm
    · exact (h.host '@' hm).1 rfl
    · exact digit_ne hm rfl rfl
    · cases hm
    · cases hm
    · cases hm
  rw [hop.text_eq]
  unfold splitUser userText
  cases hu : orNone hop.user with
  | none =>
    dsimp only
    rw [List.nil_append, rpartition_none.2 hat]
  | some user =>
    dsimp only
    rw [List.append_assoc, List.singleton_append, rpartition_append user hat]
    dsimp only
    have hsome : orNone (some user) = some user := by
      obtain ⟨-, hne⟩ := Option.filter_eq_some_iff.1 hu
      exact Option.filter_eq_some_iff.2 ⟨rfl, hne⟩
    rw [hsome]

lemma head_ne_bracket {host rest : Text} (hne : host ≠ []) (h : ∀ c ∈ host, c ≠ '[') :
    (host ++ rest).head? ≠ some '[' := by
  cases host with
  | nil => exact absurd rfl hne
  | cons c host =>
    intro he
    exact h c List.mem_cons_self (Option.some.inj he)

/-- A port in front of which brackets or a host without a colon stand is read back. -/
lemma splitAddress_port {hop : Effective} (h : hop.Valid) (hport : hop.port ≠ 22) :
    splitAddress py (addressText hop.host hop.port) = .ok (hop.host, some (hop.port : ℤ)) := by
  obtain ⟨he, -⟩ | ⟨-, hcolon, he⟩ | ⟨-, hcolon, he⟩ := addressText_cases hop.host hop.port
  · exact absurd he hport
  · rw [he]
    unfold splitAddress
    rw [if_neg (head_ne_bracket h.host_ne fun c hc => (h.host c hc).2.1),
      rpartition_append _ fun hm => digit_ne hm rfl rfl]
    dsimp only
    rw [if_pos ⟨h.host_ne, py.isdigit_decimal hop.port⟩, py.int_decimal]
    rfl
  · have hclose : ∀ c ∈ hop.host, decide (c ≠ ']') = true := fun c hc => decide_eq_true (h.host c hc).2.2
    have hdrop : ('[' :: hop.host ++ ']' :: ':' :: Nat.toDigits 10 hop.port).dropWhile (· ≠ ']') =
        ']' :: ':' :: Nat.toDigits 10 hop.port := by
      rw [List.cons_append, List.dropWhile_cons_of_pos (by decide), List.dropWhile_append_of_pos hclose,
        List.dropWhile_cons_of_neg (by decide)]
    have htake : (('[' :: hop.host ++ ']' :: ':' :: Nat.toDigits 10 hop.port).drop 1).takeWhile (· ≠ ']') =
        hop.host := by
      rw [List.cons_append, List.drop_one, List.tail_cons, List.takeWhile_append_of_pos hclose,
        List.takeWhile_cons_of_neg (by decide), List.append_nil]
    rw [he]
    unfold splitAddress
    have hhead : ('[' :: hop.host ++ ']' :: ':' :: Nat.toDigits 10 hop.port).head? = some '[' := rfl
    rw [if_pos hhead, hdrop]
    dsimp only
    rw [htake]
    show (if _ then _ else _) = _
    rw [if_pos (py.isdigit_decimal hop.port), py.int_decimal]
    rfl

/-- A host alone is read back when it does not end like one with a port. -/
lemma splitAddress_host {hop : Effective} (h : hop.Valid) (hend : ¬EndsInPort py hop.host) :
    splitAddress py hop.host = .ok (hop.host, none) := by
  have hhead := @head_ne_bracket hop.host [] h.host_ne fun c hc => (h.host c hc).2.1
  rw [List.append_nil] at hhead
  unfold splitAddress
  rw [if_neg hhead]
  cases hp : rpartition ':' hop.host with
  | none => rfl
  | some x => exact if_neg fun hx => hend ⟨x.1, x.2, hp, hx.1, hx.2⟩

/-- A host that ends like one with a port is read as that. -/
lemma splitAddress_endsInPort {hop : Effective} (h : hop.Valid) (hend : EndsInPort py hop.host) (port : Option ℤ) :
    splitAddress py hop.host ≠ .ok (hop.host, port) := by
  have hhead := @head_ne_bracket hop.host [] h.host_ne fun c hc => (h.host c hc).2.1
  rw [List.append_nil] at hhead
  obtain ⟨candidate, digits, hp, hcandidate, hdigits⟩ := hend
  unfold splitAddress
  rw [if_neg hhead, hp]
  dsimp only
  rw [if_pos ⟨hcandidate, hdigits⟩]
  intro he
  cases hint : py.int digits with
  | error message =>
    rw [hint] at he
    cases he
  | ok n =>
    rw [hint] at he
    have hsame : candidate = hop.host := congrArg Prod.fst (Except.ok.inj he)
    have hlength := congrArg List.length (rpartition_some hp).1
    rw [hsame, List.length_append, List.length_cons] at hlength
    omega

/-- A hop is read back as it was written, but for a host that ends like one with a port when none is written. -/
lemma readsBack_iff {hop : Effective} (h : hop.Valid) : hop.ReadsBack py ↔ hop.Plain py := by
  unfold Effective.ReadsBack splitHop
  rw [splitUser_text h]
  dsimp only
  constructor
  · rintro ⟨port, hsplit, -⟩
    cases ha : splitAddress py (addressText hop.host hop.port) with
    | error message =>
      rw [ha] at hsplit
      cases hsplit
    | ok address =>
      rw [ha] at hsplit
      have hsame := Except.ok.inj hsplit
      refine ⟨fun hu => ?_, fun hport hend => ?_⟩
      · have huser : orNone hop.user = hop.user := congrArg Prod.fst hsame
        rw [hu] at huser
        cases huser
      · have haddress : address = (hop.host, port) := congrArg Prod.snd hsame
        rw [hport, addressText_host, haddress] at ha
        exact splitAddress_endsInPort h hend port ha
  · rintro ⟨hu, hend⟩
    have huser : orNone hop.user = hop.user := by
      cases hopuser : hop.user with
      | none => rfl
      | some user => exact Option.filter_eq_some_iff.2 ⟨rfl, decide_eq_true fun e => hu (hopuser.trans (congrArg some e))⟩
    rw [huser]
    by_cases hport : hop.port = 22
    · refine ⟨none, ?_, .inr ⟨hport, rfl⟩⟩
      rw [hport, addressText_host, splitAddress_host h (hend hport)]
      rfl
    · refine ⟨some hop.port, ?_, .inl rfl⟩
      rw [splitAddress_port h hport]
      rfl

/-! ### A chain -/

/-- The text of a chain of hops. -/
def chainText (hops : List Effective) : Text := [','].intercalate (hops.map Effective.text)

variable (py) in
/-- A chain of hops that no block is for is resolved already. -/
def Resolved (hops : List Effective) : Prop :=
  ∀ blocks, (∀ hop ∈ hops, configMatches py blocks hop.host = false) → ∀ n,
    resolveProxyJump py blocks (n + 1) [] (chainText hops) = .ok (chainText hops)

lemma resolve_of_not_matches {blocks : List Block} {host : Text} (h : configMatches py blocks host = false) :
    resolve py blocks host = {} := by
  have hnone : (blocks.filter fun block => block.Matches py host) = [] := by
    rw [List.filter_eq_nil_iff]
    intro block hb hm
    rw [configMatches, List.any_eq_false] at h
    exact h block hb hm
  rw [resolve, hnone]
  rfl

/-- A character of a hop that is listed is not what divides hops. -/
lemma mem_text {hop : Effective} (hl : hop.Listed) {c : Char} (h : c ∈ hop.text) : c ≠ ',' ∧ isSpace c = false := by
  rw [hop.text_eq, List.mem_append] at h
  cases h with
  | inl h =>
    unfold userText at h
    cases hu : orNone hop.user with
    | none =>
      rw [hu] at h
      cases h
    | some user =>
      rw [hu, List.mem_append, List.mem_singleton] at h
      cases h with
      | inl h => exact hl.user user (Option.filter_eq_some_iff.1 hu).1 c h
      | inr h =>
        rw [h]
        exact ⟨by decide, rfl⟩
  | inr h =>
    rcases mem_addressText h with h | h | h | h | h
    · exact hl.host c h
    · refine ⟨digit_ne h rfl, ?_⟩
      have hd := Nat.isDigit_of_mem_toDigits (by decide) (by decide) h
      rw [Char.isDigit, Bool.and_eq_true, decide_eq_true_iff, decide_eq_true_iff] at hd
      have h₁ : 48 ≤ c.toNat := hd.1
      have h₂ : c.toNat ≤ 57 := hd.2
      simp only [isSpace, Bool.or_eq_false_iff, Bool.and_eq_false_iff, decide_eq_false_iff_not]
      omega
    · rw [h]
      exact ⟨by decide, rfl⟩
    · rw [h]
      exact ⟨by decide, rfl⟩
    · rw [h]
      exact ⟨by decide, rfl⟩

lemma text_ne_nil {hop : Effective} (h : hop.Valid) : hop.text ≠ [] := by
  rw [hop.text_eq]
  intro he
  have hnil := (List.append_eq_nil_iff.1 he).2
  obtain ⟨-, ha⟩ | ⟨-, -, ha⟩ | ⟨-, -, ha⟩ := addressText_cases hop.host hop.port
  · exact h.host_ne (ha.symm.trans hnil)
  · rw [ha] at hnil
    exact h.host_ne (List.append_eq_nil_iff.1 hnil).1
  · rw [ha] at hnil
    cases hnil

/-- A hop that is read back, and that no block is for. -/
lemma resolveHop_readsBack {hop : Effective} (h : hop.ReadsBack py) {blocks : List Block}
    (hm : configMatches py blocks hop.host = false) :
    resolveHop py blocks [] hop.text = .ok { text := hop.text, proxy_jump := none, seen := [py.casefold hop.host] } := by
  obtain ⟨port, hsplit, hport⟩ := h
  have hp : port.getD 22 = (hop.port : ℤ) := by
    rcases hport with rfl | ⟨h22, rfl⟩
    · rfl
    · rw [h22]
      rfl
  unfold resolveHop
  rw [hsplit]
  dsimp only
  rw [resolve_of_not_matches hm]
  have huser : (hop.user <|> none) = hop.user := by
    cases hop.user with
    | none => rfl
    | some user => rfl
  show Except.ok (Hop.mk (hopText (hop.user <|> none) hop.host (port.getD 22)) none [py.casefold hop.host]) = _
  rw [huser, hp]
  rfl

/-- The hops of a chain that is read back stay, but for those that are skipped. -/
lemma resolveHops_readsBack {blocks : List Block} {inner : List Text → Text → Except JumpError Text}
    {hops : List Effective} (h : ∀ hop ∈ hops, hop.ReadsBack py ∧ hop.Listed)
    (hm : ∀ hop ∈ hops, configMatches py blocks hop.host = false) (done : List Text) :
    resolveHops py blocks inner [] done (hops.map Effective.text) =
      .ok (done ++ (hops.map Effective.text).filter fun token => !isSkipped py token) := by
  induction hops generalizing done with
  | nil =>
    rw [List.map_nil, List.filter_nil, List.append_nil]
    rfl
  | cons hop hops ih =>
    have hrest := ih (fun hop hh => h hop (List.mem_cons_of_mem _ hh)) fun hop hh => hm hop (List.mem_cons_of_mem _ hh)
    obtain ⟨hread, hlisted⟩ := h hop List.mem_cons_self
    rw [List.map_cons, resolveHops, strip_unspaced fun c hc => (mem_text hlisted hc).2]
    by_cases hskip : isSkipped py hop.text = true
    · rw [if_pos hskip, hrest, List.filter_cons_of_neg (by rw [hskip]; decide)]
    · rw [if_neg hskip, resolveToken, resolveHop_readsBack hread (hm hop List.mem_cons_self),
        List.filter_cons_of_pos (by rw [Bool.eq_false_of_not_eq_true hskip]; rfl)]
      show resolveHops py blocks inner [] ([] ++ done ++ [hop.text]) (hops.map Effective.text) = _
      rw [hrest, List.nil_append, List.append_assoc, List.singleton_append]

/-- What a chain of hops that are read back resolves to. -/
lemma resolveProxyJump_readsBack {blocks : List Block} {hops : List Effective}
    (h : ∀ hop ∈ hops, hop.ReadsBack py ∧ hop.Listed) (hm : ∀ hop ∈ hops, configMatches py blocks hop.host = false)
    (n : ℕ) : resolveProxyJump py blocks (n + 1) [] (chainText hops) =
      .ok ([','].intercalate ((hops.map Effective.text).filter fun token => !isSkipped py token)) := by
  cases hops with
  | nil => rfl
  | cons hop hops =>
    have hsplit : (chainText (hop :: hops)).splitOn ',' = (hop :: hops).map Effective.text := by
      refine List.splitOn_intercalate ',' (fun t ht hc => ?_) (by simp)
      obtain ⟨hop', hh, rfl⟩ := List.mem_map.1 ht
      exact (mem_text (h hop' hh).2 hc).1 rfl
    rw [resolveProxyJump, hsplit, resolveHops_readsBack h hm]
    rfl

/-- Writing and reading hops agree on the hops that are `Plain`, and a chain of them is resolved already unless one of
them says `none`. -/
theorem hops_agree (py : Python) : (∀ hop : Effective, hop.Valid → (hop.ReadsBack py ↔ hop.Plain py)) ∧
    ∀ hops : List Effective, (∀ hop ∈ hops, hop.Valid ∧ hop.Listed) →
      (((∀ hop ∈ hops, hop.ReadsBack py) ∧ Resolved py hops) ↔
        ∀ hop ∈ hops, hop.Plain py ∧ py.casefold hop.text ≠ "none".toList) := by
  refine ⟨fun hop h => readsBack_iff h, fun hops h => ?_⟩
  have hskip : ∀ hop ∈ hops, (isSkipped py hop.text = false ↔ py.casefold hop.text ≠ "none".toList) := by
    intro hop hh
    unfold isSkipped
    rw [Bool.or_eq_false_iff, decide_eq_false_iff_not, decide_eq_false_iff_not]
    exact and_iff_right (text_ne_nil (h hop hh).1)
  constructor
  · rintro ⟨hread, hresolved⟩ hop hh
    refine ⟨(readsBack_iff (h hop hh).1).1 (hread hop hh), (hskip hop hh).1 ?_⟩
    have hchain := hresolved [] (fun _ _ => rfl) 0
    rw [resolveProxyJump_readsBack (fun hop hh => ⟨hread hop hh, (h hop hh).2⟩) fun _ _ => rfl] at hchain
    have hnone : ∀ t ∈ hops.map Effective.text, ',' ∉ t := by
      intro t ht hc
      obtain ⟨hop', hh', rfl⟩ := List.mem_map.1 ht
      exact (mem_text (h hop' hh').2 hc).1 rfl
    have htexts : (chainText hops).splitOn ',' = hops.map Effective.text :=
      List.splitOn_intercalate ',' hnone (List.ne_nil_of_mem (List.mem_map_of_mem hh))
    rw [← Except.ok.inj hchain] at htexts
    have hmem := List.mem_map_of_mem (f := Effective.text) hh
    rw [← htexts] at hmem
    by_cases hkept : (hops.map Effective.text).filter (fun token => !isSkipped py token) = []
    · -- a chain of which nothing is left has no hop with a text
      rw [hkept] at hmem
      exact absurd (List.mem_singleton.1 hmem) (text_ne_nil (h hop hh).1)
    · rw [List.splitOn_intercalate ',' (fun t ht => hnone t (List.mem_filter.1 ht).1) hkept] at hmem
      exact Bool.not_eq_true' _ ▸ (List.mem_filter.1 hmem).2
  · intro hplain
    have hread : ∀ hop ∈ hops, hop.ReadsBack py := fun hop hh => (readsBack_iff (h hop hh).1).2 (hplain hop hh).1
    refine ⟨hread, fun blocks hm n => ?_⟩
    rw [resolveProxyJump_readsBack (fun hop hh => ⟨hread hop hh, (h hop hh).2⟩) hm]
    have hall : (hops.map Effective.text).filter (fun token => !isSkipped py token) = hops.map Effective.text := by
      rw [List.filter_eq_self]
      intro t ht
      obtain ⟨hop, hh, rfl⟩ := List.mem_map.1 ht
      rw [(hskip hop hh).2 (hplain hop hh).2]
      rfl
    rw [hall]
    rfl

end

lemma undivided {t : Text} (h : (t.all fun c => c ≠ ',' && !isSpace c) = true) :
    ∀ c ∈ t, c ≠ ',' ∧ isSpace c = false := by
  intro c hc
  have hall := List.all_eq_true.1 h c hc
  rw [Bool.and_eq_true, decide_eq_true_iff, Bool.not_eq_true'] at hall
  exact hall

/-- A hop with a user, an address and a port, and an address alone. -/
def bastions : List Effective := [⟨some "ops".toList, "fd00::9".toList, 2203⟩, ⟨none, "fd00::ab".toList, 22⟩]

theorem hops_agree_bastions : (∀ hop ∈ bastions, hop.ReadsBack asciiPython) ∧ Resolved asciiPython bastions := by
  refine ((hops_agree asciiPython).2 bastions fun hop hh => ?_).2 fun hop hh => ?_
  · rcases List.mem_pair.1 hh with rfl | rfl
    · refine ⟨⟨by decide, by simp, by decide⟩, ⟨fun user hu => ?_, undivided (by decide +kernel)⟩⟩
      cases hu
      exact undivided (by decide +kernel)
    · exact ⟨⟨by decide, by simp, by decide⟩, ⟨nofun, undivided (by decide +kernel)⟩⟩
  · rcases List.mem_pair.1 hh with rfl | rfl
    · exact ⟨⟨by decide, fun h => absurd h (by decide)⟩, by decide +kernel⟩
    · refine ⟨⟨by decide, fun _ hend => ?_⟩, by decide +kernel⟩
      obtain ⟨candidate, digits, hp, -, hdigits⟩ := hend
      have hsplit : rpartition ':' "fd00::ab".toList = some ("fd00:".toList, "ab".toList) := by decide +kernel
      rw [hsplit] at hp
      cases hp
      exact absurd hdigits (by decide +kernel)

/-- An address whose last part is a number, at the port of SSH. -/
def loopback : Effective := ⟨none, "fd00::1".toList, 22⟩

/-- It is read as a host `fd00:` and a port, and written with brackets when it is resolved once more. -/
theorem loopback_not_readsBack : loopback.Valid ∧ loopback.Listed ∧ ¬loopback.ReadsBack asciiPython ∧
    ¬Resolved asciiPython [loopback] := by
  refine ⟨⟨by decide, by simp [loopback], by decide⟩, ⟨nofun, undivided (by decide +kernel)⟩, ?_, ?_⟩
  · rintro ⟨port, hsplit, -⟩
    have hread : (splitHop asciiPython loopback.text).toOption.map (·.2.1) = some "fd00:".toList := by decide +kernel
    rw [hsplit] at hread
    cases hread
  · intro h
    have hchain := h [] (fun _ _ => rfl) 0
    exact absurd hchain (by decide +kernel)

end SshGpuConsole.Ssh.Config
