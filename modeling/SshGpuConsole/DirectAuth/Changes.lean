import SshGpuConsole.DirectAuth.Materials

/-!
# What setup and removal change

The contracts of the steps that write: a line appended to a file is there or the file is as it was or lost,
a line taken out is the first of its kind, and a removal that notes no failure has removed the line and both
key files.
-/

namespace SshGpuConsole.DirectAuth
open Shell (Text)
open Effect PosixPath PyText PyLines Ssh Planner

section Changes
variable {cfg : Config} {w : World}

/-- What the service reads of a file: nothing where there is none. -/
def Old (s : Side) (path : Text) (w : Servers) (old : Bytes) : Prop :=
  w s path = none ∧ old = [] ∨ (w s).content path = some old

/-- A line of the file ends with the comment. -/
def HasComment (cm : Text) (content : Bytes) : Prop := ∃ fields ∈ entries content, entryComment fields = some cm

lemma any_lines_comment (cm : Text) (content : Bytes) :
    ((byteBreaks.lines content).any fun line => lineComment line = some cm) = true ↔ HasComment cm content := by
  rw [List.any_eq_true]
  constructor
  · rintro ⟨line, hline, hc⟩
    obtain ⟨l, hl, rfl⟩ := List.mem_map.1 hline
    have hc := of_decide_eq_true hc
    rw [lineComment_eq, entryOf_chop] at hc
    obtain ⟨fields, hf, hcm⟩ := Option.bind_eq_some_iff.1 hc
    exact ⟨fields, List.mem_filterMap.2 ⟨l, hl, hf⟩, hcm⟩
  · rintro ⟨fields, hf, hcm⟩
    obtain ⟨l, hl, he⟩ := List.mem_filterMap.1 hf
    refine ⟨byteBreaks.chop l, List.mem_map.2 ⟨l, hl, rfl⟩, decide_eq_true ?_⟩
    rw [lineComment_eq, entryOf_chop, he]
    exact hcm

lemma written_mapError {s : Side} {path : Text} {data : Bytes} {v : Servers} {ε ε' : Type} {r : Except ε Unit}
    {v' : Servers} (f : ε → ε') (h : Written s path data v r v') : Written s path data v (r.mapError f) v' := by
  cases r with
  | ok u => exact h
  | error e => exact h

lemma writeFile_eq (s : Side) (path : Text) (data : Bytes) (tag : Text) : writeFile s path data tag =
    (call .uuid).bind fun hex => ofSftp (writeRemoteFile s path data keyFileMode tag hex.digits) := rfl

lemma ensures_writeFile {s : Side} {path tag : Text} (data : Bytes) (hn : path.reverse[8]? ≠ some '-') :
    Ensures cfg (writeFile s path data tag) (fun r w' => Written s path data w.servers r w'.servers) w := by
  rw [writeFile_eq, Ensures, wp_bind]
  refine ensures_call fun c _ => ?_
  refine ensures_ofSftp (wp_mono (fun r v h => written_mapError _ h) ?_)
  exact ensures_writeRemoteFile data keyFileMode (tempPath_ne tag c.digits.length hn)

/-- Reading changes nothing, and what it returns is the old content. -/
lemma ensures_existing {s : Side} {path : Text} : Ensures cfg (ofSftp (readExisting cfg.rounds s path))
    (fun r w' => w' = w ∧ ∀ b, r = .ok b → Old s path w.servers b) w := by
  refine ensures_ofSftp (wp_mono (fun r v h => ?_) (ensures_readExisting cfg.rounds))
  obtain ⟨rfl, h⟩ := h
  refine ⟨rfl, fun b hb => ?_⟩
  cases r with
  | ok b' => exact h b' rfl |>.imp (fun hx => by cases hb; exact hx) fun hx => by cases hb; exact hx
  | error e => cases hb

/-! ### Appending -/

/-- A line appended to a file: the file is as it was, or the line is there, or, when the step raises, it is lost. -/
def Appended (s : Side) (path : Text) (line old : Bytes) (w : Servers) {ε α : Type} (r : Except ε α) (w' : Servers) : Prop :=
  w' s path = w s path ∧ (∀ a, r ≠ .ok a) ∨ (w' s).content path = some (appendLine old line) ∨
    (∀ a, r ≠ .ok a) ∧ w' s path = none

lemma appended_of_written {s : Side} {path : Text} {line old : Bytes} {v v' : Servers} {ε : Type} {r : Except ε Unit}
    (h : Written s path (appendLine old line) v r v') : Appended s path line old v r v' := by
  cases r with
  | ok u => exact .inr (.inl h)
  | error e =>
    rcases h with h | h | h
    · exact .inl ⟨h, fun _ hx => by cases hx⟩
    · exact .inr (.inl h)
    · exact .inr (.inr ⟨(fun _ hx => by cases hx), h⟩)

/-- What `_ensure_authorized_line` comes to. -/
def LineEnsured (public_line cm : Text) (w : World) (r : Except Raised Unit) (w' : World) : Prop :=
  w'.servers .target targetAuthKeys = w.servers .target targetAuthKeys ∧
      (∀ u, r = .ok u → ∃ old, Old .target targetAuthKeys w.servers old ∧ HasComment cm old) ∨
    ∃ old line, Old .target targetAuthKeys w.servers old ∧ ¬HasComment cm old ∧
      encodeAscii (restrictedLine public_line cm) = some line ∧
      Appended .target targetAuthKeys line old w.servers r w'.servers

lemma ensureAuthorizedLine_eq (public_line cm tag : Text) : ensureAuthorizedLine cfg public_line cm tag =
    (ofSftp (readExisting cfg.rounds .target targetAuthKeys)).bind fun existing =>
      if (byteBreaks.lines existing).any fun line => lineComment line = some cm then .ret ()
      else (encode (restrictedLine public_line cm)).bind fun restricted =>
        writeFile .target targetAuthKeys (appendLine existing restricted) tag := rfl

lemma ensures_ensureAuthorizedLine (public_line cm tag : Text) :
    Ensures cfg (ensureAuthorizedLine cfg public_line cm tag) (LineEnsured public_line cm w) w := by
  rw [ensureAuthorizedLine_eq]
  refine wp_bind_of ensures_existing (fun existing w' h => ?_) fun e w' h => .inl ⟨by rw [h.1], fun u hu => by cases hu⟩
  obtain ⟨rfl, h⟩ := h
  have hold := h existing rfl
  refine wp_ite (fun hc => ?_) fun hc => ?_
  · exact .inl ⟨rfl, fun _ _ => ⟨existing, hold, (any_lines_comment cm existing).1 hc⟩⟩
  · have hno : ¬HasComment cm existing := fun hx => hc ((any_lines_comment cm existing).2 hx)
    rw [encode]
    cases henc : encodeAscii (restrictedLine public_line cm) with
    | none => exact .inl ⟨rfl, fun u hu => by cases hu⟩
    | some line =>
      refine wp_mono (fun r w'' hw => ?_) (ensures_writeFile _ targetAuthKeys_ninth)
      exact .inr ⟨existing, line, hold, hno, henc, appended_of_written hw⟩

/-- What `_ensure_known_hosts_entry` comes to. -/
def EntryEnsured (entry : Text) (w : World) (r : Except Raised Unit) (w' : World) : Prop :=
  w'.servers .source sourceKnownHosts = w.servers .source sourceKnownHosts ∨
    ∃ old line, Old .source sourceKnownHosts w.servers old ∧ encodeAscii entry = some line ∧
      Appended .source sourceKnownHosts line old w.servers r w'.servers

lemma ensureKnownHostsEntry_eq (entry tag : Text) : ensureKnownHostsEntry cfg entry tag =
    (ofSftp (readExisting cfg.rounds .source sourceKnownHosts)).bind fun existing =>
      (encode entry).bind fun entry_bytes =>
        if (byteBreaks.lines existing).any fun line => stripBytes line = entry_bytes then .ret ()
        else writeFile .source sourceKnownHosts (appendLine existing entry_bytes) tag := rfl

lemma ensures_ensureKnownHostsEntry (entry tag : Text) :
    Ensures cfg (ensureKnownHostsEntry cfg entry tag) (EntryEnsured entry w) w := by
  rw [ensureKnownHostsEntry_eq]
  refine wp_bind_of ensures_existing (fun existing w' h => ?_) fun e w' h => .inl (by rw [h.1])
  obtain ⟨rfl, h⟩ := h
  have hold := h existing rfl
  rw [encode]
  cases henc : encodeAscii entry with
  | none => exact .inl rfl
  | some line =>
    refine wp_ite (fun _ => .inl rfl) fun _ => ?_
    refine wp_mono (fun r w'' hw => ?_) (ensures_writeFile _ sourceKnownHosts_ninth)
    exact .inr ⟨existing, line, hold, henc, appended_of_written hw⟩

/-! ### Taking lines out -/

/-- The first line of a kind is gone from a file, if there is a file. -/
def Erased (s : Side) (path : Text) (p : Bytes → Bool) (w w' : Servers) : Prop :=
  w s path = none ∧ w' s path = none ∨
    ∃ b, (w s).content path = some b ∧ (w' s).content path = some ((byteBreaks.keepLines b).eraseP p).flatten

/-- A removal: the line is gone, or, when the step raises, the file is as it was or lost. -/
def LineRemoved (s : Side) (path : Text) (p : Bytes → Bool) (w : World) {ε α : Type} (r : Except ε α) (w' : World) : Prop :=
  Erased s path p w.servers w'.servers ∨
    (∀ a, r ≠ .ok a) ∧ (w'.servers s path = w.servers s path ∨ w'.servers s path = none)

lemma removeLine_eq (s : Side) (path tag : Text) (drop : List Bytes → Option (List Bytes)) :
    removeLine cfg s path tag drop = (ofSftp (stat s path)).bind fun stat_info =>
      if (!stat_info.exists_) = true then .ret ()
      else (ofSftp (readRemoteBytes cfg.rounds s path)).bind fun existing =>
        match drop (byteBreaks.keepLines existing) with
        | none => .raise (.failure (.other "Incorrect padding".toList))
        | some kept => if kept = byteBreaks.keepLines existing then .ret () else writeFile s path kept.flatten tag := rfl

lemma ensures_removeLine {s : Side} {path tag : Text} {drop : List Bytes → Option (List Bytes)} {p : Bytes → Bool}
    (hdrop : ∀ ls kept, drop ls = some kept → kept = ls.eraseP p) (hn : path.reverse[8]? ≠ some '-') :
    Ensures cfg (removeLine cfg s path tag drop) (LineRemoved s path p w) w := by
  have hsame : ∀ (e : Raised), LineRemoved s path p w (.error e : Except Raised Unit) w := fun e =>
    .inr ⟨(fun _ hx => by cases hx), .inl rfl⟩
  have hstat : Ensures cfg (ofSftp (stat s path))
      (fun r w' => w' = w ∧ ∀ st, r = .ok st → st.exists_ = (w.servers s path).isSome) w := by
    refine ensures_ofSftp (wp_mono (fun r v h => ?_) ensures_stat)
    obtain ⟨rfl, h⟩ := h
    refine ⟨rfl, fun st hst => ?_⟩
    cases r with
    | ok st' => exact h st (by cases hst; rfl)
    | error e => cases hst
  have hread : Ensures cfg (ofSftp (readRemoteBytes cfg.rounds s path))
      (fun r w' => w' = w ∧ ∀ b, r = .ok b → (w.servers s).content path = some b) w := by
    refine ensures_ofSftp (wp_mono (fun r v h => ?_) (ensures_readRemoteBytes cfg.rounds))
    obtain ⟨rfl, h⟩ := h
    refine ⟨rfl, fun b hb => ?_⟩
    cases r with
    | ok b' => exact h b (by cases hb; rfl)
    | error e => cases hb
  rw [removeLine_eq]
  refine wp_bind_of hstat (fun st w' h => ?_) fun e w' h => h.1 ▸ hsame e
  obtain ⟨rfl, hst⟩ := h
  have hexists := hst st rfl
  refine wp_ite (fun hno => ?_) fun _ => ?_
  · have hnone : w'.servers s path = none := by
      rw [hexists] at hno
      simpa using hno
    exact .inl (.inl ⟨hnone, hnone⟩)
  · refine wp_bind_of hread (fun existing w'' h => ?_) fun e w'' h => h.1 ▸ hsame e
    obtain ⟨rfl, hb⟩ := h
    have hb := hb existing rfl
    cases hd : drop (byteBreaks.keepLines existing) with
    | none => exact hsame _
    | some kept =>
      have hkept := hdrop _ _ hd
      refine wp_ite (fun heq => ?_) fun _ => ?_
      · refine .inl (.inr ⟨existing, hb, ?_⟩)
        rw [← hkept, heq, Breaks.flatten_keepLines]
        exact hb
      · refine wp_mono (fun r w3 hw => ?_) (ensures_writeFile _ hn)
        rw [hkept] at hw
        cases r with
        | ok u => exact .inl (.inr ⟨existing, hb, hw⟩)
        | error e =>
          rcases hw with hw | hw | hw
          · exact .inr ⟨(fun _ hx => by cases hx), .inl hw⟩
          · exact .inl (.inr ⟨existing, hb, hw⟩)
          · exact .inr ⟨(fun _ hx => by cases hx), .inr hw⟩

/-- The line of `authorized_keys` a removal looks for. -/
def isLineOf (cfg : Config) (fingerprint : Option Text) (cm : Text) (line : Bytes) : Bool :=
  lineComment line = some cm &&
    match fingerprint with
    | none => true
    | some wanted => (lineBlob line).bind cfg.opensshFingerprint = some wanted

lemma dropAuthorized_eraseP {fingerprint : Option Text} {cm : Text} {ls kept : List Bytes}
    (h : dropAuthorized cfg fingerprint cm ls = some kept) : kept = ls.eraseP (isLineOf cfg fingerprint cm) := by
  induction ls generalizing kept with
  | nil => exact (Option.some.inj h).symm
  | cons line rest ih =>
    have hkeep : isLineOf cfg fingerprint cm line = false →
        (dropAuthorized cfg fingerprint cm rest).map (line :: ·) = some kept →
        kept = (line :: rest).eraseP (isLineOf cfg fingerprint cm) := by
      intro hno hmap
      obtain ⟨k, hk, rfl⟩ := Option.map_eq_some_iff.1 hmap
      rw [List.eraseP_cons_of_neg (by rw [hno]; exact Bool.false_ne_true), ih hk]
    unfold dropAuthorized at h
    by_cases hc : lineComment line = some cm
    · rw [if_pos hc] at h
      cases hf : fingerprint with
      | none =>
        subst hf
        have hyes : isLineOf cfg none cm line = true := by simp [isLineOf, hc]
        rw [List.eraseP_cons_of_pos hyes]
        exact (Option.some.inj h).symm
      | some wanted =>
        subst hf
        dsimp only at h
        cases hb : lineBlob line with
        | none =>
          rw [hb] at h
          exact hkeep (by simp [isLineOf, hb]) h
        | some blob =>
          rw [hb] at h
          dsimp only at h
          cases hfound : cfg.opensshFingerprint blob with
          | none =>
            rw [hfound] at h
            cases h
          | some found =>
            rw [hfound] at h
            dsimp only at h
            by_cases hw : found = wanted
            · rw [if_neg (not_not.2 hw)] at h
              have hyes : isLineOf cfg (some wanted) cm line = true := by simp [isLineOf, hc, hb, hfound, hw]
              rw [List.eraseP_cons_of_pos hyes]
              exact (Option.some.inj h).symm
            · rw [if_pos hw] at h
              exact hkeep (by simp [isLineOf, hb, hfound, hw]) h
    · rw [if_neg hc] at h
      exact hkeep (by simp [isLineOf, hc]) h

lemma ensures_removeAuthorizedLine (cm : Text) (fingerprint : Option Text) (tag : Text) :
    Ensures cfg (removeAuthorizedLine cfg cm fingerprint tag)
      (LineRemoved .target targetAuthKeys (isLineOf cfg fingerprint cm) w) w :=
  ensures_removeLine (fun _ _ => dropAuthorized_eraseP) targetAuthKeys_ninth

lemma ensures_removeKnownHostsBlob (blob tag : Text) :
    Ensures cfg (removeKnownHostsBlob cfg blob tag) (LineRemoved .source sourceKnownHosts (carries blob) w) w :=
  ensures_removeLine (fun _ _ h => (Option.some.inj h).symm) sourceKnownHosts_ninth

/-! ### Paths -/

/-- Where the key files of a pair differ from everything else the service writes on the source. -/
lemma keyFile_ne {q : Text} (hq : q[17]? = some 'k' ∧ q[18]? = some 'e') :
    q ≠ sourceKnownHosts ∧ ∀ tag hex, q ≠ tempPath sourceKnownHosts tag hex := by
  constructor
  · rintro rfl
    cases hq.2
  · intro tag hex h
    have h17 : (tempPath sourceKnownHosts tag hex)[17]? = some '.' := rfl
    rw [← h, hq.1] at h17
    cases h17

lemma privatePath_key (pair : Pair) : (privatePath pair)[17]? = some 'k' ∧ (privatePath pair)[18]? = some 'e' :=
  ⟨rfl, rfl⟩

lemma pubPath_key (pair : Pair) :
    (pubPath (privatePath pair))[17]? = some 'k' ∧ (pubPath (privatePath pair))[18]? = some 'e' :=
  ⟨rfl, rfl⟩

lemma privatePath_ne_pubPath (path : Text) : path ≠ pubPath path := by
  intro h
  have hl := congrArg List.length h
  rw [pubPath, List.length_append] at hl
  have hpub : ".pub".toList.length = 4 := rfl
  omega

lemma avoids_writeRemoteFile {s t : Side} {q path tag hex : Text} {data : Bytes} {mode : Nat}
    (h : t = s → q ≠ path ∧ q ≠ tempPath path tag hex) : Avoids s q (writeRemoteFile t path data mode tag hex) := by
  have htemp : t = s → q ∉ [tempPath path tag hex] := fun ht hm => (h ht).2 (List.mem_singleton.1 hm)
  -- the handle is the one that was opened
  have hbody : Avoids s q (writeBody t (tempPath path tag hex) path data mode) := by
    rw [writeBody]
    simp only [openWriter, lt_irrefl, if_false, Prog.bind_eq, Prog.pure_eq, Prog.bind_assoc, Prog.ret_bind]
    refine Prog.Only.bind (avoids_client htemp) fun _ => ?_
    refine Prog.Only.bind (Prog.Only.andFinally ?_ ((reads_closeQuiet _).avoids s q)) fun _ => ?_
    · exact Prog.Only.bind (Prog.Only.bind (avoids_client htemp) fun _ => trivial) fun _ => trivial
    · exact Prog.Only.bind (avoids_setMode mode fun ht => (h ht).2) fun _ => avoids_rename fun ht => ⟨(h ht).2, (h ht).1⟩
  exact Prog.Only.handle hbody fun e =>
    Prog.Only.bind (Prog.Only.suppress (avoids_remove fun ht => (h ht).2)) fun _ => trivial

lemma spares_writeFile {s t : Side} {q path tag : Text} {data : Bytes}
    (h : t = s → q ≠ path ∧ ∀ hex, q ≠ tempPath path tag hex) : Spares s q (writeFile t path data tag) :=
  Prog.Only.bind (Prog.Only.perform trivial) fun hex =>
    spares_ofSftp (avoids_writeRemoteFile fun ht => ⟨(h ht).1, (h ht).2 hex.digits⟩)

lemma avoids_readRemoteBytes {s t : Side} {q path : Text} (rounds : Nat) : Avoids s q (readRemoteBytes rounds t path) := by
  refine Prog.Only.bind ((reads_openReader path 0).avoids s q) fun handle => ?_
  refine Prog.Only.andFinally (Reads.avoids ?_ s q) ((reads_closeQuiet handle).avoids s q)
  generalize ([] : Bytes) = chunks
  induction rounds generalizing handle chunks with
  | zero => trivial
  | succ n ih =>
    rw [readLoop, Prog.bind_eq]
    exact Prog.Only.bind (reads_read handle 65536) fun x => Prog.Only.ite trivial (ih x.2 _)

lemma avoids_readExisting {s t : Side} {q path : Text} (rounds : Nat) : Avoids s q (readExisting rounds t path) :=
  Prog.Only.bind ((reads_stat path).avoids s q) fun _ => Prog.Only.ite (avoids_readRemoteBytes rounds) trivial

lemma spares_encode {s : Side} {q t : Text} : Spares s q (encode t) := by
  rw [encode]
  cases encodeAscii t with
  | none => trivial
  | some b => trivial

lemma spares_removeLine {s t : Side} {q path tag : Text} {drop : List Bytes → Option (List Bytes)}
    (h : t = s → q ≠ path ∧ ∀ hex, q ≠ tempPath path tag hex) : Spares s q (removeLine cfg t path tag drop) := by
  rw [removeLine_eq]
  refine Prog.Only.bind (spares_ofSftp ((reads_stat path).avoids s q)) fun st => Prog.Only.ite trivial ?_
  refine Prog.Only.bind (spares_ofSftp (avoids_readRemoteBytes cfg.rounds)) fun existing => ?_
  cases drop (byteBreaks.keepLines existing) with
  | none => trivial
  | some kept => exact Prog.Only.ite trivial (spares_writeFile h)

/-! ### Removing the materials -/

lemma removeKeyFile_eq (path : Text) : removeKeyFile path =
    Prog.handle ((remove .source path).bind fun _ => .ret []) fun e =>
      if e.isException then (stat .source path).bind fun stat_info =>
        .ret (if stat_info.exists_ then [basename path ++ " could not be removed".toList] else [])
      else .raise e := rfl

/-- A key file whose removal is not noted as failed is gone. -/
lemma ensures_removeKeyFile (path : Text) : EnsuresSftp (removeKeyFile path)
    (fun r v' => r = .ok [] → v' .source path = none) w.servers := by
  rw [removeKeyFile_eq]
  refine wp_handle_of (R := fun r v' => ∀ notes, r = .ok notes → v' .source path = none) ?_ ?_ ?_
  · rw [wp_bind, remove]
    refine wp_client fun c _ => ?_
    cases hr : ((SftpOp.remove path).act c (w.servers .source)).1 with
    | error e => exact fun notes hn => by cases hn
    | ok u =>
      intro notes _
      obtain ⟨hf, hp⟩ := act_ok hr
      rw [Servers.set_same, SftpOp.act, hf]
      simp only [SftpOp.perform] at hp ⊢
      split at hp
      · cases hp
      · cases hp
      · rename_i f hn
        exact Server.set_same _ _ _
  · exact fun notes v' h _ => h notes rfl
  · intro e v' _
    refine wp_ite (fun _ => ?_) fun _ h => by cases h
    refine wp_bind_of ensures_stat (fun st v'' h => ?_) fun e v'' _ h => by cases h
    obtain ⟨rfl, hst⟩ := h
    intro h
    have hexists := hst st rfl
    by_cases hx : st.exists_ = true
    · rw [if_pos hx] at h
      cases h
    · rw [hexists] at hx
      simpa using hx

lemma avoids_removeKeyFile {s : Side} {q path : Text} (h : Side.source = s → q ≠ path) :
    Avoids s q (removeKeyFile path) := by
  rw [removeKeyFile_eq]
  refine Prog.Only.handle (Prog.Only.bind (avoids_remove h) fun _ => trivial) fun e => Prog.Only.ite ?_ trivial
  exact Prog.Only.bind ((reads_stat path).avoids s q) fun _ => trivial

lemma noting_eq (notes : List Text) (p : Auth (List Text)) (k : List Text → Auth (List Text)) :
    noting notes p k = (trying p).bind fun r => match r with
      | .error _ => .ret (notes ++ ["source materials could not be fully removed".toList])
      | .ok more => k (notes ++ more) := rfl

/-- A note that no failure was noted: the step noted none, and what follows neither. -/
lemma ensures_noting {notes : List Text} {p : Auth (List Text)} {k : List Text → Auth (List Text)}
    {R D : World → Prop} (hp : Ensures cfg p (fun r w' => r = .ok [] → R w') w)
    (hk : ∀ more w', Ensures cfg (k more) (fun r w'' => r = .ok [] → more = [] ∧ (R w' → D w'')) w') :
    Ensures cfg (noting notes p k) (fun r w'' => r = .ok [] → notes = [] ∧ D w'') w := by
  rw [noting_eq]
  refine wp_bind_of (R := fun r w' => r = .ok (.ok []) → R w') ?_ (fun r w' h => ?_) fun e w' _ h => by cases h
  · refine ensures_trying hp (fun more w' h hx => h ?_) (fun e w' _ _ hx => ?_) fun e w' _ _ hx => ?_
    · rw [Except.ok.inj (Except.ok.inj hx)]
    · cases hx
    · cases hx
  · cases r with
    | error e =>
      intro hx
      have := congrArg List.length (Except.ok.inj hx)
      simp at this
    | ok more =>
      refine wp_mono (fun r w'' hr hx => ?_) (hk (notes ++ more) w')
      obtain ⟨hnil, hd⟩ := hr hx
      obtain ⟨h1, h2⟩ := List.append_eq_nil_iff.1 hnil
      exact ⟨h1, hd (h (by rw [h2]))⟩

lemma spares_noting {s : Side} {q : Text} {notes : List Text} {p : Auth (List Text)} {k : List Text → Auth (List Text)}
    (hp : Spares s q p) (hk : ∀ more, Spares s q (k more)) : Spares s q (noting notes p k) := by
  rw [noting_eq]
  refine Prog.Only.bind (spares_trying hp) fun r => ?_
  cases r with
  | error e => trivial
  | ok more => exact hk _

lemma spares_closing {s t : Side} {q : Text} : Spares s q (suppressing (call (.closeSession t))) :=
  Prog.Only.suppress (spares_talk trivial)

/-- What a removal does to `known_hosts`: nothing, or the first line with the key goes. -/
def HostsErased (blob : Option Text) (w w' : Servers) : Prop :=
  match blob with
  | none | some [] => w' .source sourceKnownHosts = w .source sourceKnownHosts
  | some blob => Erased .source sourceKnownHosts (carries blob) w w'

/-- A row whose key files are the pair's. -/
structure OfPair (pair : Pair) (record : PairMetadata) : Prop where
  private_path : record.remote_private_key_path = privatePath pair
  public_path : record.remote_public_key_path = pubPath (privatePath pair)

/-- The last step of the removal on the source. -/
def removeEntry (cfg : Config) (record : PairMetadata) (known_hosts_blob : Option Text) (notes : List Text) :
    Auth (List Text) :=
  match known_hosts_blob with
  | none | some [] => .ret notes
  | some blob => noting notes ((removeKnownHostsBlob cfg blob record.key_id).bind fun _ => .ret []) .ret

lemma removeFromSource_eq (record : PairMetadata) (known_hosts_blob : Option Text) :
    removeFromSource cfg record known_hosts_blob =
      (trying (call (.openSession .source))).bind fun r => match r with
        | .error _ => .ret ["source session could not be opened".toList]
        | .ok _ =>
          Prog.andFinally
            (noting [] (ofSftp (removeKeyFile record.remote_private_key_path)) fun notes =>
              noting notes (ofSftp (removeKeyFile record.remote_public_key_path)) (removeEntry cfg record known_hosts_blob))
            (suppressing (call (.closeSession .source))) := by
  rw [removeFromSource]
  refine congrArg (Prog.bind (trying (call (.openSession .source)))) (funext fun r => ?_)
  cases r with
  | error e => rfl
  | ok u =>
    cases known_hosts_blob with
    | none => rfl
    | some blob => cases blob <;> rfl

/-- Both key files are gone. -/
def KeysGone (pair : Pair) (w : Servers) : Prop :=
  w .source (privatePath pair) = none ∧ w .source (pubPath (privatePath pair)) = none

lemma spares_removeEntry {s : Side} {q : Text} {record : PairMetadata} {blob : Option Text} {notes : List Text}
    (h : Side.source = s → q ≠ sourceKnownHosts ∧ ∀ hex, q ≠ tempPath sourceKnownHosts record.key_id hex) :
    Spares s q (removeEntry cfg record blob notes) := by
  have hblob : ∀ b : Text, Spares s q
      (noting notes ((removeKnownHostsBlob cfg b record.key_id).bind fun _ => .ret []) .ret) := fun b =>
    spares_noting (Prog.Only.bind (spares_removeLine h) fun _ => trivial) fun _ => trivial
  unfold removeEntry
  split
  · trivial
  · trivial
  · exact hblob _

lemma ensures_removeEntry (pair : Pair) {record : PairMetadata} {blob : Option Text} (notes : List Text) :
    Ensures cfg (removeEntry cfg record blob notes)
      (fun r w' => r = .ok [] → notes = [] ∧
        (KeysGone pair w.servers → KeysGone pair w'.servers ∧ HostsErased blob w.servers w'.servers)) w := by
  have hblob : ∀ b : Text, Ensures cfg
      (noting notes ((removeKnownHostsBlob cfg b record.key_id).bind fun _ => .ret []) .ret)
      (fun r w' => r = .ok [] → notes = [] ∧ (KeysGone pair w.servers →
        KeysGone pair w'.servers ∧ Erased .source sourceKnownHosts (carries b) w.servers w'.servers)) w := by
    intro b
    have hspare : ∀ {q : Text}, q[17]? = some 'k' ∧ q[18]? = some 'e' →
        Spares .source q (removeKnownHostsBlob cfg b record.key_id) := fun hq =>
      spares_removeLine fun _ => ⟨(keyFile_ne hq).1, (keyFile_ne hq).2 _⟩
    have hremove : Ensures cfg ((removeKnownHostsBlob cfg b record.key_id).bind fun _ => .ret ([] : List Text))
        (fun r w' => r = .ok [] → KeysGone pair w.servers →
          KeysGone pair w'.servers ∧ Erased .source sourceKnownHosts (carries b) w.servers w'.servers) w := by
      refine wp_bind_of (wp_and (ensures_removeKnownHostsBlob b record.key_id)
        (wp_and ((hspare (privatePath_key pair)).ensures rfl) ((hspare (pubPath_key pair)).ensures rfl)))
        (fun _ w' h _ hgone => ?_) fun e w' _ h => by cases h
      obtain ⟨hline, hpriv, hpub⟩ := h
      refine ⟨⟨hpriv.trans hgone.1, hpub.trans hgone.2⟩, ?_⟩
      rcases hline with h | ⟨h, -⟩
      · exact h
      · exact absurd rfl (h _)
    refine wp_mono (fun r w' h hr => h hr) (ensures_noting (R := fun w' => KeysGone pair w.servers →
        KeysGone pair w'.servers ∧ Erased .source sourceKnownHosts (carries b) w.servers w'.servers)
      (D := fun w' => KeysGone pair w.servers →
        KeysGone pair w'.servers ∧ Erased .source sourceKnownHosts (carries b) w.servers w'.servers) hremove ?_)
    exact fun more w' hr => ⟨Except.ok.inj hr, id⟩
  unfold removeEntry HostsErased
  split
  · exact fun hr => ⟨Except.ok.inj hr, fun h => ⟨h, rfl⟩⟩
  · exact fun hr => ⟨Except.ok.inj hr, fun h => ⟨h, rfl⟩⟩
  · exact hblob _

/-- Only the node at the path matters. -/
lemma Erased.congr {s : Side} {path : Text} {p : Bytes → Bool} {v v' v'' : Servers} (h : v' s path = v s path)
    (he : Erased s path p v' v'') : Erased s path p v v'' := by
  have hcontent : (v' s).content path = (v s).content path := by rw [Server.content, h, Server.content]
  rwa [Erased, h, hcontent] at he

lemma HostsErased.congr {blob : Option Text} {v v' v'' : Servers}
    (h : v' .source sourceKnownHosts = v .source sourceKnownHosts) (he : HostsErased blob v' v'') :
    HostsErased blob v v'' := by
  cases blob with
  | none => exact Eq.trans he h
  | some b =>
    cases b with
    | nil => exact Eq.trans he h
    | cons c b => exact Erased.congr h he

/-- A removal on the source that notes no failure. -/
lemma ensures_removeFromSource {pair : Pair} {record : PairMetadata} (hrec : OfPair pair record) (blob : Option Text) :
    Ensures cfg (removeFromSource cfg record blob)
      (fun r w' => r = .ok [] → KeysGone pair w'.servers ∧ HostsErased blob w.servers w'.servers) w := by
  have hne := privatePath_ne_pubPath (privatePath pair)
  have hspare : ∀ {q path : Text}, q ≠ path → Spares .source q (ofSftp (removeKeyFile path)) := fun h =>
    spares_ofSftp (avoids_removeKeyFile fun _ => h)
  have hfile : ∀ (path : Text) (w : World), Ensures cfg (ofSftp (removeKeyFile path))
      (fun r w' => r = .ok [] → w'.servers .source path = none) w := by
    intro path w
    refine ensures_ofSftp (wp_mono (fun r v h hr => h ?_) (ensures_removeKeyFile path))
    cases r with
    | ok notes => rw [Except.ok.inj hr]
    | error e => cases hr
  -- the public key file and what follows, from any state
  have hrest : ∀ (more : List Text) (w' : World), Ensures cfg
      (noting more (ofSftp (removeKeyFile (pubPath (privatePath pair)))) (removeEntry cfg record blob))
      (fun r w'' => r = .ok [] → more = [] ∧ ((w'.servers .source (privatePath pair) = none ∧
          w'.servers .source sourceKnownHosts = w.servers .source sourceKnownHosts) →
        KeysGone pair w''.servers ∧ HostsErased blob w.servers w''.servers)) w' := by
    intro more w'
    refine ensures_noting (R := fun w₂ => (w'.servers .source (privatePath pair) = none ∧
        w'.servers .source sourceKnownHosts = w.servers .source sourceKnownHosts) →
        KeysGone pair w₂.servers ∧ w₂.servers .source sourceKnownHosts = w.servers .source sourceKnownHosts)
      (wp_mono (fun r w₂ h hr hw => ?_) (wp_and (hfile (pubPath (privatePath pair)) w')
        (wp_and ((hspare hne).ensures rfl) ((hspare (keyFile_ne (pubPath_key pair)).1.symm).ensures rfl)))) ?_
    · exact ⟨⟨h.2.1.trans hw.1, h.1 hr⟩, h.2.2.trans hw.2⟩
    · intro more₂ w₂
      refine wp_mono (fun r w₃ h hr => ⟨(h hr).1, fun hr₂ hw => ?_⟩) (ensures_removeEntry pair more₂)
      obtain ⟨hgone, hkh⟩ := hr₂ hw
      obtain ⟨hgone', hhosts⟩ := (h hr).2 hgone
      exact ⟨hgone', hhosts.congr hkh⟩
  have hbody : Ensures cfg
      (noting [] (ofSftp (removeKeyFile (privatePath pair))) fun notes =>
        noting notes (ofSftp (removeKeyFile (pubPath (privatePath pair)))) (removeEntry cfg record blob))
      (fun r w' => r = .ok [] → KeysGone pair w'.servers ∧ HostsErased blob w.servers w'.servers) w := by
    refine wp_mono (fun r w' h hr => (h hr).2) (ensures_noting (R := fun w₁ =>
        w₁.servers .source (privatePath pair) = none ∧
          w₁.servers .source sourceKnownHosts = w.servers .source sourceKnownHosts)
      (wp_mono (fun r w₁ h hr => ⟨h.1 hr, h.2⟩) (wp_and (hfile (privatePath pair) w)
        ((hspare (keyFile_ne (privatePath_key pair)).1.symm).ensures rfl))) hrest)
  rw [removeFromSource_eq, hrec.private_path, hrec.public_path]
  refine wp_bind_of (ensures_tryTalk trivial) (fun r w' h => ?_) fun e w' _ hr => by cases hr
  subst h
  cases r with
  | error e => exact fun hr => by cases hr
  | ok u =>
    refine wp_andFinally hbody fun r w'' hr => ?_
    refine wp_mono (fun r' w₃ h₃ => ?_) ensures_closing
    subst h₃
    cases r' with
    | ok u => exact hr
    | error e => exact fun h => by cases h

lemma spares_removeFromSource {q : Text} {record : PairMetadata} {blob : Option Text} :
    Spares .target q (removeFromSource cfg record blob) := by
  have hfile : ∀ path, Spares .target q (ofSftp (removeKeyFile path)) := fun path =>
    spares_ofSftp (avoids_removeKeyFile fun h => by cases h)
  rw [removeFromSource_eq]
  refine Prog.Only.bind (spares_trying (spares_talk trivial)) fun r => ?_
  cases r with
  | error e => trivial
  | ok u =>
    refine Prog.Only.andFinally (spares_noting (hfile _) fun more => spares_noting (hfile _) fun more => ?_) spares_closing
    exact spares_removeEntry fun h => by cases h

/-! ### The authorized line -/

/-- The line a row stands for. -/
def recordLine (cfg : Config) (record : PairMetadata) : Bytes → Bool :=
  isLineOf cfg (if record.public_key_fingerprint = [] then none else some record.public_key_fingerprint)
    (comment record.source_server_id record.target_server_id record.key_id)

lemma removeFromTarget_eq (record : PairMetadata) : removeFromTarget cfg record =
    (trying (call (.openSession .target))).bind fun r => match r with
      | .error _ => .ret ["target session could not be opened".toList]
      | .ok _ =>
        Prog.andFinally
          ((trying (removeAuthorizedLine cfg (comment record.source_server_id record.target_server_id record.key_id)
              (if record.public_key_fingerprint = [] then none else some record.public_key_fingerprint) record.key_id)).bind
            fun r => match r with
              | .error _ => .ret ["authorized_keys line could not be removed".toList]
              | .ok _ => .ret [])
          (suppressing (call (.closeSession .target))) := rfl

/-- A removal on the target: what becomes of the file, and that the line is gone when nothing is noted. -/
lemma ensures_removeFromTarget (record : PairMetadata) :
    Ensures cfg (removeFromTarget cfg record)
      (fun r w' => LineRemoved .target targetAuthKeys (recordLine cfg record) w
        (match r with
          | .ok [] => (.ok () : Except Raised Unit)
          | .ok _ => .error (.setup .unknown)
          | .error e => .error e) w') w := by
  have hsame : ∀ (e : Raised), LineRemoved .target targetAuthKeys (recordLine cfg record) w
      (.error e : Except Raised Unit) w := fun e => .inr ⟨(fun _ hx => by cases hx), .inl rfl⟩
  have hweak : ∀ {r : Except Raised Unit} {e : Raised} {w' : World},
      LineRemoved .target targetAuthKeys (recordLine cfg record) w r w' →
      LineRemoved .target targetAuthKeys (recordLine cfg record) w (.error e : Except Raised Unit) w' := fun h =>
    h.imp id fun h => ⟨(fun _ hx => by cases hx), h.2⟩
  rw [removeFromTarget_eq]
  refine wp_bind_of (ensures_tryTalk trivial) (fun r w' h => ?_) fun e w' h => by
    subst h
    exact hsame e
  subst h
  cases r with
  | error e => exact hsame _
  | ok u =>
    refine wp_andFinally (R := fun r w'' => LineRemoved .target targetAuthKeys (recordLine cfg record) w'
        (match r with
          | .ok [] => (.ok () : Except Raised Unit)
          | .ok _ => .error (.setup .unknown)
          | .error e => .error e) w'') ?_ fun r w'' hr => ?_
    · refine wp_bind_of (R := fun r w'' => LineRemoved .target targetAuthKeys (recordLine cfg record) w'
        (match r with
          | .ok r => r
          | .error e => (.error e : Except Raised Unit)) w'') ?_ (fun r w'' h => ?_) fun e w'' h => h
      · exact ensures_trying (ensures_removeAuthorizedLine _ _ _) (fun u w'' h => h) (fun e w'' _ h => h)
          fun e w'' _ h => h
      · cases r with
        | error e => exact hweak h
        | ok u => exact h
    · refine wp_mono (fun r' w₃ h₃ => ?_) ensures_closing
      subst h₃
      cases r' with
      | ok u => exact hr
      | error e => exact hweak hr

end Changes

end SshGpuConsole.DirectAuth
