import SshGpuConsole.Ssh.Primitives
import SshGpuConsole.Transfer.LocalRelay

/-!
# Resuming never stitches

Jobs run one after another for one source, one target and one artifact; between the jobs the source may be
replaced. A job may be stopped at any call, with any part of the call's effect. The law is about what the
next job finds: a sidecar that matches the current source on all five keys stands next to a staged file
that is a prefix of the current source. `Sound` is the invariant behind it: the sidecar of any version of
the source, once it is whole, stands next to a prefix of that version.
-/

namespace SshGpuConsole.LocalRelay
open Shell (Text)
open Effect PosixPath PyText Ssh

/-- What the jobs have in common; a source file is determined by its size and its mtime. -/
structure Transfer where
  artifact_id : Text
  source_path : Text
  target_path : Text
  content : Nat → Nat → Bytes

namespace Transfer
variable (T : Transfer)

/-- A version of the source. -/
def Genuine (f : RegularFile) : Prop := f.data = T.content f.data.length f.mtime

/-- The whole sidecar of a version. -/
def payload (f : RegularFile) : Bytes :=
  encodeUtf8 (metaText T.artifact_id T.source_path T.target_path f.data.length f.mtime)

def partialBytes (w : Servers) : Option Bytes := (w .target).content (partialPath T.target_path)

def metaBytes (w : Servers) : Option Bytes := (w .target).content (metaPath T.target_path)

/-- The sidecar matches a version on all five keys. -/
def Describes (w : Servers) (f : RegularFile) : Prop :=
  ∃ d kvs, T.metaBytes w = some d ∧ (decodeUtf8 d).bind Json.loads = some (.obj kvs) ∧
    metaMatches (some kvs) T.artifact_id T.source_path T.target_path f.data.length f.mtime = true

/-- The staged file, when it is neither empty nor too long, is a prefix of a version. -/
def Fits (w : Servers) (f : RegularFile) : Prop :=
  ∀ d, T.partialBytes w = some d → d ≠ [] → d.length ≤ f.data.length → d <+: f.data

/-- The law: what a sidecar of the current source stands next to fits the current source. -/
def Law (w : Servers) : Prop :=
  ∀ f, w .source T.source_path = some (.file f) → T.Describes w f → T.Fits w f

/-- The invariant between any two calls outside the window. -/
structure Sound (w : Servers) : Prop where
  source : ∃ f, w .source T.source_path = some (.file f) ∧ T.Genuine f
  sidecar : ∀ d, T.metaBytes w = some d → ∃ f n, d = (T.payload f).take n
  fits : ∀ f, T.Genuine f → T.metaBytes w = some (T.payload f) → T.Fits w f

variable {T}

/-! ### The sidecar is read back -/

/-- The members of a whole sidecar. -/
def fields (T : Transfer) (f : RegularFile) : List (Text × Json.Value) :=
  [("artifact_id".toList, .str T.artifact_id), ("source_path".toList, .str T.source_path),
    ("target_path".toList, .str T.target_path), ("source_size_b".toList, .int f.data.length),
    ("source_mtime_s".toList, .int f.mtime)]

lemma loads_metaText (f : RegularFile) :
    Json.loads (metaText T.artifact_id T.source_path T.target_path f.data.length f.mtime) =
      some (.obj (T.fields f)) :=
  Json.loads_dumps _

lemma loads_payload (f : RegularFile) :
    (decodeUtf8 (T.payload f)).bind Json.loads = some (.obj (T.fields f)) := by
  rw [payload, decodeUtf8_encodeUtf8, Option.bind_some, loads_metaText]

/-- The fields of one version match another exactly when size and mtime agree. -/
lemma matches_fields {f : RegularFile} {size mtime : Nat} :
    metaMatches (some (T.fields f)) T.artifact_id T.source_path T.target_path size mtime = true ↔
      f.data.length = size ∧ f.mtime = mtime := by
  have hk : (metaKeys.all (fun k => (T.fields f).any (·.1 = k)) &&
      (T.fields f).all (fun kv => metaKeys.contains kv.1)) = true := rfl
  have h1 : hasText (T.fields f) "artifact_id".toList T.artifact_id = decide (T.artifact_id = T.artifact_id) := rfl
  have h2 : hasText (T.fields f) "source_path".toList T.source_path = decide (T.source_path = T.source_path) := rfl
  have h3 : hasText (T.fields f) "target_path".toList T.target_path = decide (T.target_path = T.target_path) := rfl
  have h4 : hasNat (T.fields f) "source_size_b".toList size = decide ((f.data.length : Int) = size) := rfl
  have h5 : hasNat (T.fields f) "source_mtime_s".toList mtime = decide ((f.mtime : Int) = mtime) := rfl
  simp only [metaMatches, hk, h1, h2, h3, h4, h5]
  simp

/-- A part of a sidecar is the bytes of a part of its text. -/
lemma payload_take (f : RegularFile) (n : Nat) :
    (T.payload f).take n =
      encodeUtf8 ((metaText T.artifact_id T.source_path T.target_path f.data.length f.mtime).take n) :=
  take_encodeUtf8 (Json.dumps_ascii _) n

/-- A part of a sidecar that reads as an object is the whole of it. -/
lemma take_payload {f : RegularFile} {n : Nat} {kvs : List (Text × Json.Value)}
    (h : (decodeUtf8 ((T.payload f).take n)).bind Json.loads = some (.obj kvs)) :
    (T.payload f).take n = T.payload f ∧ kvs = T.fields f := by
  rw [payload_take, decodeUtf8_encodeUtf8, Option.bind_some] at h
  have hall := List.take_append_drop n (metaText T.artifact_id T.source_path T.target_path f.data.length f.mtime)
  have hx := Json.loads_prefix h hall
  rw [hx, List.append_nil] at hall
  rw [hall, loads_metaText] at h
  refine ⟨?_, (Json.Value.obj.inj (Option.some.inj h)).symm⟩
  rw [payload_take, hall]
  rfl

lemma payload_congr {f g : RegularFile} (hs : f.data.length = g.data.length) (hm : f.mtime = g.mtime) :
    T.payload f = T.payload g := by
  rw [payload, payload, hs, hm]

/-- Two versions with one sidecar have the same bytes. -/
lemma Genuine.eq_of_payload {f g : RegularFile} (hf : T.Genuine f) (hg : T.Genuine g)
    (h : T.payload f = T.payload g) : f.data = g.data := by
  have hd : (decodeUtf8 ((T.payload f).take (T.payload f).length)).bind Json.loads = some (.obj (T.fields g)) := by
    rw [List.take_length, h, loads_payload]
  have hk := (take_payload hd).2
  have hm : metaMatches (some (T.fields f)) T.artifact_id T.source_path T.target_path g.data.length g.mtime = true := by
    rw [← hk]
    exact matches_fields.2 ⟨rfl, rfl⟩
  obtain ⟨hs, ht⟩ := matches_fields.1 hm
  rw [hf, hg, hs, ht]

/-- A sidecar that is part of some version's and matches a version is that version's. -/
lemma payload_of_matches {f g : RegularFile} {n m : Nat} {kvs : List (Text × Json.Value)}
    (h : (decodeUtf8 (((T.payload f).take n).take m)).bind Json.loads = some (.obj kvs))
    (hm : metaMatches (some kvs) T.artifact_id T.source_path T.target_path g.data.length g.mtime = true) :
    (T.payload f).take n = T.payload g := by
  rw [List.take_take] at h
  obtain ⟨hall, rfl⟩ := take_payload h
  obtain ⟨hs, ht⟩ := matches_fields.1 hm
  have hlen : (T.payload f).length ≤ min m n := by
    by_contra hlt
    have := congrArg List.length hall
    rw [List.length_take] at this
    omega
  rw [List.take_of_length_le (hlen.trans (min_le_right _ _)), payload_congr hs ht]

/-- The invariant gives the law. -/
lemma Sound.law {w : Servers} (h : T.Sound w) : T.Law w := by
  rintro f hf ⟨d, kvs, hd, hl, hm⟩
  obtain ⟨g, hg, hgen⟩ := h.source
  obtain rfl : g = f := Node.file.inj (Option.some.inj (hg.symm.trans hf))
  obtain ⟨f', n, rfl⟩ := h.sidecar d hd
  have hp := payload_of_matches (m := ((T.payload f').take n).length) (by rwa [List.take_length]) hm
  exact h.fits g hgen (by rw [hd, hp])

/-! ### What may stop a job -/

section
variable (T : Transfer)

/-- The current source and the staged file do not fit together. -/
def Leftover (w : Servers) : Prop := ∃ f, w .source T.source_path = some (.file f) ∧ ¬T.Fits w f

/-- The sidecar matches the current source. -/
def Described (w : Servers) : Prop := ∃ f, w .source T.source_path = some (.file f) ∧ T.Describes w f

/-- The calls between the write of the sidecar and the truncation of the staged file. -/
def Window (o : SideOp) : Prop :=
  o = (.target, .close (metaPath T.target_path) .write) ∨ o = (.source, .open T.source_path .read) ∨
    o = (.target, .open (partialPath T.target_path) .write)

/-- A call is not stopped so that a whole sidecar of the current source stays next to a leftover: not in the
write of the sidecar once all of it is there, and not at a call of the window before its effect. -/
def Unexposed (o : SideOp) (w : Servers) (c : Choice) : Prop :=
  c.fails ≠ none → T.Leftover w →
    (∀ data, o = (.target, .write (metaPath T.target_path) 0 data) → c.applied < data.length) ∧
      (T.Described w → T.Window o → o = (.target, .open (partialPath T.target_path) .write) ∧ c.applied ≠ 0)

/-- The source is not reported missing while it is there. -/
def Stays (o : SideOp) (c : Choice) : Prop :=
  o = (.source, .stat T.source_path) → ∀ e, c.fails = some e → e.isMissing = false

/-- The choices of the runs the law is about. -/
def Admitted (o : SideOp) (w : Servers) (c : Choice) : Prop := T.Stays o c ∧ T.Unexposed o w c

/-- The weakest precondition of a session program; at every call outside the window the law holds. -/
abbrev Holds {α : Type} (p : Sftp α) (Q : Except Exn α → Servers → Prop) (w : Servers) : Prop :=
  wp sftp T.Admitted (fun o s => T.Window o ∨ T.Law s) p Q w

end

/-! ### Calls that change no content -/

/-- No bytes differ, and on the source nothing does. -/
def Quiet (w w' : Servers) : Prop :=
  w' .source = w .source ∧ ∀ p, (w' .target).content p = (w .target).content p

lemma Quiet.refl (w : Servers) : Quiet w w := ⟨rfl, fun _ => rfl⟩

lemma Quiet.trans {w w' w'' : Servers} (h : Quiet w w') (h' : Quiet w' w'') : Quiet w w'' :=
  ⟨h'.1.trans h.1, fun p => (h'.2 p).trans (h.2 p)⟩

lemma Quiet.partialBytes {w w' : Servers} (h : Quiet w w') : T.partialBytes w' = T.partialBytes w := h.2 _

lemma Quiet.metaBytes {w w' : Servers} (h : Quiet w w') : T.metaBytes w' = T.metaBytes w := h.2 _

lemma Quiet.fits {w w' : Servers} (h : Quiet w w') {f : RegularFile} (hf : T.Fits w f) : T.Fits w' f := by
  intro d hd
  exact hf d (h.partialBytes ▸ hd)

lemma Sound.quiet {w w' : Servers} (hs : T.Sound w) (h : Quiet w w') : T.Sound w' where
  source := by
    rw [h.1]
    exact hs.source
  sidecar d hd := hs.sidecar d (h.metaBytes ▸ hd)
  fits f hf hm := h.fits (hs.fits f hf (h.metaBytes ▸ hm))

/-- The primitives that change no bytes. -/
def Passive : SftpOp → Prop
  | .open _ m => m ≠ .write
  | .write _ _ _ | .posixRename _ _ | .rename _ _ | .remove _ => False
  | _ => True

/-- The primitives that change nothing. -/
def Still : SftpOp → Prop
  | .open _ m => m ≠ .write
  | .stat _ | .lstat _ | .read _ _ _ | .close _ _ => True
  | _ => False

lemma content_set {s : Server} {p : Text} {n : Option Node}
    (h : (Server.set s p n).content p = s.content p) (q : Text) : (s.set p n).content q = s.content q := by
  by_cases hq : q = p
  · rw [hq, h]
  · rw [Server.content, Server.set_other _ hq, Server.content]

lemma perform_passive {o : SftpOp} (h : Passive o) (now : Nat) (s : Server) (q : Text) :
    (o.perform now s).2.content q = s.content q := by
  cases o with
  | stat p => simp only [SftpOp.perform]; split <;> rfl
  | lstat p => simp only [SftpOp.perform]; split <;> rfl
  | mkdir p =>
    simp only [SftpOp.perform]
    split
    · rfl
    · rename_i hp
      refine content_set ?_ q
      have hn : s p = none := by simpa using hp
      rw [Server.content, Server.set_same, Server.content, hn]
  | «open» p m =>
    cases m with
    | write => exact absurd rfl h
    | read => simp only [SftpOp.perform]; split <;> first | rfl | contradiction
    | update => simp only [SftpOp.perform]; split <;> first | rfl | contradiction
  | read p k n => simp only [SftpOp.perform]; split <;> rfl
  | write p k d => exact h.elim
  | close p m => rfl
  | posixRename a b => exact h.elim
  | rename a b => exact h.elim
  | remove p => exact h.elim
  | setMtime p t =>
    simp only [SftpOp.perform]
    split
    · rfl
    · rfl
    · rename_i f hp
      refine content_set ?_ q
      rw [Server.content, Server.set_same, Server.content, hp]
  | chmod p t =>
    simp only [SftpOp.perform]
    split
    · rfl
    · rfl
    · rename_i f hp
      refine content_set ?_ q
      rw [Server.content, Server.set_same, Server.content, hp]

lemma perform_still {o : SftpOp} (h : Still o) (now : Nat) (s : Server) : (o.perform now s).2 = s := by
  cases o with
  | stat p => simp only [SftpOp.perform]; split <;> rfl
  | lstat p => simp only [SftpOp.perform]; split <;> rfl
  | «open» p m =>
    cases m with
    | write => exact absurd rfl h
    | read => simp only [SftpOp.perform]; split <;> first | rfl | contradiction
    | update => simp only [SftpOp.perform]; split <;> first | rfl | contradiction
  | read p k n => simp only [SftpOp.perform]; split <;> rfl
  | close p m => rfl
  | _ => exact h.elim

lemma cut_passive {o : SftpOp} (h : Passive o) (k : Nat) : o.cut k = o := by
  cases o with
  | write p n d => exact h.elim
  | _ => rfl

lemma passive_of_still {o : SftpOp} (h : Still o) : Passive o := by
  cases o with
  | «open» p m => exact h
  | stat p => trivial
  | lstat p => trivial
  | read p k n => trivial
  | close p m => trivial
  | _ => exact h.elim

/-- A passive primitive on the target, or a still one on the source, is quiet. -/
lemma quiet_act {side : Side} {o : SftpOp} (h : if side = .target then Passive o else Still o) (c : Choice)
    (w : Servers) : Quiet w (w.set side (o.act c (w side)).2) := by
  have hcut : ∀ k, o.cut k = o := by
    cases side with
    | source => exact cut_passive (passive_of_still h)
    | target => exact cut_passive h
  cases side with
  | source =>
    have hs : (o.act c (w .source)).2 = w .source := by
      rw [SftpOp.act]
      split
      · exact perform_still h _ _
      · dsimp only
        split
        · rfl
        · rw [hcut]
          exact perform_still h _ _
    rw [hs, Servers.set_self]
    exact Quiet.refl w
  | target =>
    refine ⟨Servers.set_other w (by decide) _, fun p => ?_⟩
    rw [Servers.set_same, SftpOp.act]
    split
    · exact perform_passive h _ _ p
    · dsimp only
      split
      · rfl
      · rw [hcut]
        exact perform_passive h _ _ p

/-- A quiet call from a sound state. -/
lemma holds_quiet (side : Side) (o : SftpOp) (h : if side = .target then Passive o else Still o) {w : Servers}
    (hs : T.Sound w) :
    T.Holds (client side o) (fun r w' => Quiet w w' ∧
      ∃ c, T.Admitted (side, o) w c ∧ r = (o.act c (w side)).1) w := by
  rw [client, Holds, wp_perform]
  exact ⟨.inr hs.law, fun c hc => ⟨quiet_act h c w, c, hc, rfl⟩⟩

/-! ### The parts of the relay -/

/-- `mkdir` is quiet. -/
lemma holds_mkdir (path : Text) {w : Servers} (hs : T.Sound w) :
    T.Holds (mkdir .target path) (fun _ w' => Quiet w w') w := by
  have hstat : ∀ {w : Servers} (p : Text), T.Sound w →
      T.Holds (client .target (.stat p)) (fun _ w' => Quiet w w') w := fun p hs =>
    wp_mono (fun _ _ h => h.1) (holds_quiet .target (.stat p) trivial hs)
  have hlevel : ∀ {w : Servers} (p : Text), T.Sound w →
      T.Holds (mkdirLevel .target p) (fun _ w' => Quiet w w') w := by
    intro w p hs
    rw [mkdirLevel]
    simp only [Prog.bind_eq, Prog.throw_eq]
    refine wp_handle_of (R := fun _ w' => Quiet w w') ?_ (fun _ _ h => h) fun e w' h => ?_
    · exact wp_bind_of (hstat p hs) (fun _ _ h => h) fun _ _ h => h
    · split
      · refine wp_handle_of (R := fun _ w' => Quiet w w') ?_ (fun _ _ h => h) fun e' w'' h' => ?_
        · exact wp_mono (fun _ _ h' => h.trans h'.1)
            (holds_quiet .target (.mkdir p) trivial (hs.quiet h))
        · split
          · exact wp_bind_of (wp_mono (fun _ _ k => h'.trans k) (hstat p (hs.quiet h'))) (fun _ _ h => h)
              fun _ _ h => h
          · exact h'
      · exact h
  have hloop : ∀ (parts : List Text) (current : Text) {w : Servers}, T.Sound w →
      T.Holds (mkdirLoop .target path current parts) (fun _ w' => Quiet w w') w := by
    intro parts
    induction parts with
    | nil => exact fun _ w _ => Quiet.refl w
    | cons part parts ih =>
      intro current w hs
      rw [mkdirLoop]
      simp only [Prog.bind_eq]
      refine wp_bind_of (hlevel _ hs) (fun _ w' h => ?_) fun _ _ h => h
      exact wp_mono (fun _ _ k => h.trans k) (ih _ (hs.quiet h))
  exact hloop _ _ hs

/-- `stat` of the source answers what it is. -/
lemma holds_statSource {w : Servers} {f : RegularFile} (hs : T.Sound w)
    (hf : w .source T.source_path = some (.file f)) :
    T.Holds (stat .source T.source_path) (fun r w' => Quiet w w' ∧
      ∀ st, r = .ok st → st = FileStat.of (Node.file f).attrs) w := by
  rw [stat]
  simp only [Prog.bind_eq, Prog.pure_eq, Prog.throw_eq]
  refine wp_handle_of (R := fun r w' => Quiet w w' ∧ (∀ st, r = .ok st → st = FileStat.of (Node.file f).attrs) ∧
    ∀ e, r = .error e → e.isMissing = false) ?_ (fun _ _ h => ⟨h.1, h.2.1⟩) fun e w' h => ?_
  · refine wp_bind_of (holds_quiet .source (.stat T.source_path) trivial hs) ?_ ?_
    · rintro a w' ⟨hq, c, -, hr⟩
      have hp := (act_ok hr.symm).2
      simp only [SftpOp.perform, hf] at hp
      cases hp
      exact ⟨hq, fun st hst => (Except.ok.inj hst).symm, fun _ he => by cases he⟩
    · rintro e w' ⟨hq, c, hc, hr⟩
      refine ⟨hq, fun _ he => (by cases he), fun e' he' => ?_⟩
      cases he'
      rcases act_error hr.symm with h | ⟨-, h⟩
      · exact hc.1 rfl e h
      · simp only [SftpOp.perform, hf] at h
        cases h
  · rw [h.2.2 e rfl]
    exact ⟨h.1, fun _ he => by cases he⟩

/-- What `lstat` answers about the staged file. -/
lemma holds_lstat (path : Text) {w : Servers} (hs : T.Sound w) :
    T.Holds (lstat .target path) (fun r w' => Quiet w w' ∧ ∀ st, r = .ok st →
      st = .missing ∨ ∃ n, w .target path = some n ∧ st = FileStat.of n.attrs) w := by
  rw [lstat]
  simp only [Prog.bind_eq, Prog.pure_eq, Prog.throw_eq]
  refine wp_handle_of (R := fun r w' => Quiet w w' ∧ ∀ st, r = .ok st →
    ∃ n, w .target path = some n ∧ st = FileStat.of n.attrs) ?_
    (fun _ _ h => ⟨h.1, fun st hst => .inr (h.2 st hst)⟩) fun e w' h => ?_
  · refine wp_bind_of (holds_quiet .target (.lstat path) trivial hs) ?_ ?_
    · rintro a w' ⟨hq, c, -, hr⟩
      have hp := (act_ok hr.symm).2
      simp only [SftpOp.perform] at hp
      cases hn : w .target path with
      | none =>
        rw [hn] at hp
        cases hp
      | some n =>
        rw [hn] at hp
        cases hp
        exact ⟨hq, fun st hst => ⟨n, rfl, (Except.ok.inj hst).symm⟩⟩
    · rintro e w' ⟨hq, -⟩
      exact ⟨hq, fun _ he => by cases he⟩
  · split
    · exact ⟨h.1, fun st hst => .inl (Except.ok.inj hst).symm⟩
    · exact ⟨h.1, fun _ he => by cases he⟩

/-- Closing quietly is quiet. -/
lemma holds_closeQuiet (p : Text) (m : OpenMode) (k : Nat) (side : Side) {w : Servers} (hs : T.Sound w) :
    T.Holds (Handle.mk side p m k).closeQuiet (fun _ w' => Quiet w w') w := by
  rw [Handle.closeQuiet]
  have hc : T.Holds (Handle.mk side p m k).close (fun _ w' => Quiet w w') w :=
    wp_mono (fun _ _ h => h.1) (holds_quiet side (.close p m) (by split <;> trivial) hs)
  exact wp_suppress hc

/-- The chunks read from a file from its start are a part of it. -/
lemma holds_readChunks {meta_path : Text} {d : Bytes} (n : Nat) {k : Nat} {w : Servers} (hs : T.Sound w)
    (hd : (w .target).content meta_path = some d) (hk : k ≤ d.length) :
    T.Holds (readChunks n ⟨.target, meta_path, .read, k⟩ (d.take k)) (fun r w' => Quiet w w' ∧
      ∀ b, r = .ok b → ∃ j, b = d.take j) w := by
  induction n generalizing k w with
  | zero => exact ⟨Quiet.refl w, fun b hb => ⟨k, (Except.ok.inj hb).symm⟩⟩
  | succ n ih =>
    rw [readChunks]
    split
    · simp only [Handle.read, Prog.bind_eq, Prog.pure_eq]
      refine wp_bind_of (R := fun r w' => Quiet w w' ∧ ∀ x, r = .ok x →
        x = ((d.drop k).take 4096, (⟨.target, meta_path, .read, k + ((d.drop k).take 4096).length⟩ : Handle)))
        ?_ ?_ fun e w' h => ⟨h.1, fun _ he => nomatch he⟩
      · refine wp_bind_of (holds_quiet .target (.read meta_path k 4096) trivial hs) ?_
          fun e w' h => ⟨h.1, fun _ he => nomatch he⟩
        rintro a w' ⟨hq, c, -, hr⟩
        have hp := (act_ok hr.symm).2
        have ha : a = (d.drop k).take 4096 := by
          rw [Server.content] at hd
          split at hd
          · rename_i f hf
            simp only [SftpOp.perform, hf] at hp
            cases hp
            cases hd
            rfl
          · cases hd
        subst ha
        exact ⟨hq, fun x hx => (Except.ok.inj hx).symm⟩
      · rintro ⟨chunk, reader⟩ w' ⟨hq, hx⟩
        obtain ⟨rfl, rfl⟩ := Prod.mk.inj (hx _ rfl)
        dsimp only
        split
        · exact ⟨hq, fun b hb => ⟨k, (Except.ok.inj hb).symm⟩⟩
        · have htake : d.take k ++ (d.drop k).take 4096 = d.take (k + ((d.drop k).take 4096).length) := by
            rw [List.take_add, List.length_take]
            congr 1
            rw [← List.take_take, List.take_length] 
          rw [htake]
          refine wp_mono (fun _ _ h => ⟨hq.trans h.1, h.2⟩) (ih (hs.quiet hq) (by rw [hq.2, hd]) ?_)
          simp only [List.length_take, List.length_drop]
          omega
    · exact ⟨Quiet.refl w, fun b hb => ⟨k, (Except.ok.inj hb).symm⟩⟩

/-- What `_read_meta` returns was read from a part of the sidecar. -/
lemma holds_readMeta (meta_path : Text) {w : Servers} (hs : T.Sound w) :
    T.Holds (readMeta meta_path) (fun r w' => Quiet w w' ∧ ∀ kvs, r = .ok (some kvs) →
      ∃ d j, (w .target).content meta_path = some d ∧
        (decodeUtf8 (d.take j)).bind Json.loads = some (.obj kvs)) w := by
  rw [readMeta]
  simp only [Prog.bind_eq, Prog.pure_eq, Prog.throw_eq]
  refine wp_handle_of (R := fun r w' => Quiet w w' ∧ ∀ kvs, r = .ok (some kvs) →
      ∃ d j, (w .target).content meta_path = some d ∧
        (decodeUtf8 (d.take j)).bind Json.loads = some (.obj kvs)) ?_ (fun _ _ h => h) fun e w' h => ?_
  · refine wp_bind_of (R := fun r w' => Quiet w w' ∧ ∀ h, r = .ok h →
        h = ⟨.target, meta_path, .read, 0⟩ ∧ ∃ d, (w .target).content meta_path = some d) ?_ ?_
      fun e w' h => ⟨h.1, fun _ he => by cases he⟩
    · rw [openReader]
      simp only [Prog.bind_eq, Prog.pure_eq]
      refine wp_bind_of (holds_quiet .target (.open meta_path .read) (fun h => by cases h) hs) ?_
        fun e w' h => ⟨h.1, fun _ he => by cases he⟩
      rintro a w' ⟨hq, c, -, hr⟩
      have hp := (act_ok hr.symm).2
      refine ⟨hq, fun h hh => ⟨(Except.ok.inj hh).symm, ?_⟩⟩
      rw [Server.content]
      cases hn : w .target meta_path with
      | none =>
        simp only [SftpOp.perform, hn] at hp
        cases hp
      | some n =>
        cases n with
        | dir =>
          simp only [SftpOp.perform, hn] at hp
          cases hp
        | file g => exact ⟨g.data, rfl⟩
    · rintro reader w' ⟨hq, hx⟩
      obtain ⟨rfl, d, hd⟩ := hx _ rfl
      refine wp_bind_of (R := fun r w' => Quiet w w' ∧ ∀ b, r = .ok b → ∃ j, b = d.take j) ?_ ?_
        fun e w' h => ⟨h.1, fun _ he => by cases he⟩
      · have hread := holds_readChunks (T := T) metaMaxBytes (k := 0) (hs.quiet hq) ((hq.2 _).trans hd) (Nat.zero_le _)
        refine wp_andFinally hread fun r w'' h => ?_
        refine wp_mono (fun r' w3 hc => ?_) (holds_closeQuiet meta_path .read 0 .target ((hs.quiet hq).quiet h.1))
        cases r' with
        | ok u => exact ⟨(hq.trans h.1).trans hc, h.2⟩
        | error e => exact ⟨(hq.trans h.1).trans hc, fun _ he => by cases he⟩
      · rintro b w'' ⟨hq', hb⟩
        obtain ⟨j, rfl⟩ := hb _ rfl
        split
        · rename_i kvs hl
          refine ⟨hq', fun kvs' hk => ⟨d, j, hd, ?_⟩⟩
          obtain rfl := Option.some.inj (Except.ok.inj hk)
          exact hl
        · exact ⟨hq', fun _ hk => by cases hk⟩
  · split
    · exact ⟨h.1, fun _ he => by cases he⟩
    · exact ⟨h.1, fun _ he => by cases he⟩

/-- What `_resume_offset` returns: nothing to keep, or the length of a prefix whose sidecar is whole. -/
lemma holds_resumeOffset {job : Job} (hj : job.artifact_id = T.artifact_id) {w : Servers} {f : RegularFile}
    (hs : T.Sound w) (hf : w .source T.source_path = some (.file f)) :
    T.Holds (resumeOffset job (partialPath T.target_path) (metaPath T.target_path) T.source_path T.target_path
        f.data.length f.mtime) (fun r w' => Quiet w w' ∧ ∀ k, r = .ok k → k = 0 ∨
      k ≤ f.data.length ∧ T.metaBytes w = some (T.payload f) ∧ T.partialBytes w = some (f.data.take k)) w := by
  rw [resumeOffset]
  simp only [Prog.bind_eq, Prog.pure_eq]
  refine wp_bind_of (holds_lstat (partialPath T.target_path) hs) ?_ fun e w' h => ⟨h.1, fun _ he => nomatch he⟩
  rintro st w' ⟨hq, hst⟩
  split
  · exact ⟨hq, fun k hk => .inl (Except.ok.inj hk).symm⟩
  · rename_i hcond
    refine wp_bind_of (holds_readMeta (metaPath T.target_path) (hs.quiet hq)) ?_
      fun e w'' h => ⟨hq.trans h.1, fun _ he => nomatch he⟩
    rintro kvs w'' ⟨hq', hkvs⟩
    have hqq := hq.trans hq'
    split
    · exact ⟨hqq, fun k hk => .inl (Except.ok.inj hk).symm⟩
    · rename_i hmatch
      split
      · exact ⟨hqq, fun k hk => .inl (Except.ok.inj hk).symm⟩
      · rename_i hle
        refine ⟨hqq, fun k hk => .inr ?_⟩
        obtain rfl := (Except.ok.inj hk).symm
        -- the sidecar was whole and the current source's, so the invariant speaks about the staged file
        have hm : metaMatches kvs job.artifact_id T.source_path T.target_path f.data.length f.mtime = true := by
          simpa using hmatch
        rw [hj] at hm
        cases kvs with
        | none => cases hm
        | some kvs =>
          obtain ⟨d, j, hd, hl⟩ := hkvs kvs rfl
          have hmeta : T.metaBytes w = some d := (hq.metaBytes (T := T)).symm.trans hd
          obtain ⟨g, n, rfl⟩ := hs.sidecar d hmeta
          rw [payload_of_matches hl hm] at hmeta
          obtain ⟨f', hf', hgen⟩ := hs.source
          obtain rfl : f' = f := Node.file.inj (Option.some.inj (hf'.symm.trans hf))
          have hfits := hs.fits f' hgen hmeta
          rcases hst st rfl with rfl | ⟨n, hn, rfl⟩
          · simp [FileStat.missing] at hcond
          · cases n with
            | dir => simp [FileStat.of, Node.attrs] at hcond
            | file p =>
              have hp : T.partialBytes w = some p.data := by rw [partialBytes, Server.content, hn]
              have hne : p.data ≠ [] := by simpa [FileStat.of, Node.attrs] using hcond
              have hlen : p.data.length ≤ f'.data.length := by simpa [FileStat.of, Node.attrs] using hle
              have hpre := hfits p.data hp hne hlen
              refine ⟨hlen, hmeta, ?_⟩
              rw [hp]
              exact congrArg some (List.prefix_iff_eq_take.1 hpre)

/-! ### The states of a copy -/

/-- The sidecar is the current source's; behind a position, so is the staged file. -/
structure Armed (T : Transfer) (w : Servers) (f : RegularFile) (k : Nat) : Prop where
  source : w .source T.source_path = some (.file f)
  genuine : T.Genuine f
  sidecar : T.metaBytes w = some (T.payload f)
  kept : 0 < k → k ≤ f.data.length ∧ T.partialBytes w = some (f.data.take k)

/-- The staged file holds the current source up to a position. -/
structure Copying (T : Transfer) (w : Servers) (f : RegularFile) (k : Nat) : Prop where
  source : w .source T.source_path = some (.file f)
  genuine : T.Genuine f
  sidecar : T.metaBytes w = some (T.payload f)
  bound : k ≤ f.data.length
  staged : T.partialBytes w = some (f.data.take k)

lemma Armed.quiet {w w' : Servers} {f : RegularFile} {k : Nat} (h : T.Armed w f k) (hq : Quiet w w') :
    T.Armed w' f k where
  source := by rw [hq.1, h.source]
  genuine := h.genuine
  sidecar := by rw [hq.metaBytes, h.sidecar]
  kept hk := by
    rw [hq.partialBytes]
    exact h.kept hk

lemma Copying.quiet {w w' : Servers} {f : RegularFile} {k : Nat} (h : T.Copying w f k) (hq : Quiet w w') :
    T.Copying w' f k where
  source := by rw [hq.1, h.source]
  genuine := h.genuine
  sidecar := by rw [hq.metaBytes, h.sidecar]
  bound := h.bound
  staged := by rw [hq.partialBytes, h.staged]

lemma Armed.sound {w : Servers} {f : RegularFile} {k : Nat} (h : T.Armed w f k) (hf : T.Fits w f) :
    T.Sound w where
  source := ⟨f, h.source, h.genuine⟩
  sidecar d hd := by
    obtain rfl := Option.some.inj (h.sidecar.symm.trans hd)
    exact ⟨f, (T.payload f).length, List.take_length.symm⟩
  fits g hg hm := by
    have hp := Option.some.inj (h.sidecar.symm.trans hm)
    have hdata := h.genuine.eq_of_payload hg hp
    intro d hd hne hle
    rw [← hdata] at hle ⊢
    exact hf d hd hne hle

lemma Copying.armed {w : Servers} {f : RegularFile} {k : Nat} (h : T.Copying w f k) : T.Armed w f k :=
  ⟨h.source, h.genuine, h.sidecar, fun _ => ⟨h.bound, h.staged⟩⟩

lemma Copying.sound {w : Servers} {f : RegularFile} {k : Nat} (h : T.Copying w f k) : T.Sound w := by
  refine h.armed.sound fun d hd _ _ => ?_
  obtain rfl := Option.some.inj (h.staged.symm.trans hd)
  exact List.take_prefix _ _

lemma Armed.described {w : Servers} {f : RegularFile} {k : Nat} (h : T.Armed w f k) : T.Described w := by
  refine ⟨f, h.source, _, T.fields f, h.sidecar, ?_, matches_fields.2 ⟨rfl, rfl⟩⟩
  rw [loads_payload]

/-- A call that may not be stopped next to a leftover is stopped in a sound state. -/
lemma Armed.fits {w : Servers} {f : RegularFile} {k : Nat} (h : T.Armed w f k) (hl : ¬T.Leftover w) :
    T.Fits w f := by
  by_contra hf
  exact hl ⟨f, h.source, hf⟩

/-! ### From the sidecar to the rename -/

/-- One call. -/
lemma holds_client {side : Side} {o : SftpOp} {Q : Except Exn o.Ans → Servers → Prop} {w : Servers}
    (hI : T.Window (side, o) ∨ T.Law w)
    (hQ : ∀ c, T.Admitted (side, o) w c → Q (o.act c (w side)).1 (w.set side (o.act c (w side)).2)) :
    T.Holds (client side o) Q w := by
  rw [client, Holds, wp_perform]
  exact ⟨hI, hQ⟩

/-- A part of one sidecar that is another's is the whole of it. -/
lemma length_of_take_payload {f g : RegularFile} {n : Nat} (h : (T.payload f).take n = T.payload g) :
    (T.payload f).length ≤ n := by
  have hl : (decodeUtf8 ((T.payload f).take n)).bind Json.loads = some (.obj (T.fields g)) := by
    rw [h, loads_payload]
  have hlen := congrArg List.length (take_payload hl).1
  rw [List.length_take] at hlen
  omega

/-- A sidecar that is not all there describes nothing. -/
lemma sound_of_cut {w : Servers} {f : RegularFile} {n : Nat} (hsrc : w .source T.source_path = some (.file f))
    (hgen : T.Genuine f) (hm : T.metaBytes w = some ((T.payload f).take n)) (hn : n < (T.payload f).length) :
    T.Sound w where
  source := ⟨f, hsrc, hgen⟩
  sidecar d hd := ⟨f, n, (Option.some.inj (hm.symm.trans hd)).symm⟩
  fits g _ hg := by
    have h := length_of_take_payload (Option.some.inj (hm.symm.trans hg))
    omega

lemma set_target_source (w : Servers) (s : Server) : (w.set .target s) .source = w .source :=
  Servers.set_other w (by decide) s

lemma payload_pos (f : RegularFile) : (T.payload f).take 0 ≠ T.payload f := by
  intro h
  have hl : (decodeUtf8 ((T.payload f).take 0)).bind Json.loads = some (.obj (T.fields f)) := by
    rw [h, loads_payload]
  have h0 : (decodeUtf8 (encodeUtf8 [])).bind Json.loads = some (.obj (T.fields f)) := hl
  rw [decodeUtf8_encodeUtf8] at h0
  exact nomatch h0

/-- The sidecar is written, or the job ends in a sound state. -/
lemma holds_writeMeta {job : Job} (hj : job.artifact_id = T.artifact_id) {w : Servers} {f : RegularFile}
    (hs : T.Sound w) (hf : w .source T.source_path = some (.file f)) :
    T.Holds (writeMeta job (metaPath T.target_path) T.source_path T.target_path f.data.length f.mtime)
      (seqPost (fun _ w' => T.Armed w' f 0) fun _ w' => T.Sound w') w := by
  obtain ⟨f', hf', hgen⟩ := hs.source
  obtain rfl : f' = f := Node.file.inj (Option.some.inj (hf'.symm.trans hf))
  have hpm := metaPath_ne_partialPath T.target_path
  have hpay : encodeUtf8 (metaText T.artifact_id T.source_path T.target_path f'.data.length f'.mtime) =
      T.payload f' := rfl
  rw [writeMeta, hj]
  simp only [Prog.bind_eq, Prog.throw_eq, hpay]
  refine wp_bind_of (R := fun r w' => T.Sound w' ∧ w' .source = w .source ∧
    ∀ h, r = .ok h → h = ⟨.target, metaPath T.target_path, .write, 0⟩ ∧ T.metaBytes w' = some []) ?_ ?_
    fun e w' h => h.1
  · simp only [openWriter, lt_irrefl, if_false, Prog.bind_eq, Prog.pure_eq]
    refine wp_bind_of (R := fun r w' => T.Sound w' ∧ w' .source = w .source ∧
      (r = .ok () → T.metaBytes w' = some [])) ?_ ?_ fun e w' h => ⟨h.1, h.2.1, fun _ he => by cases he⟩
    · refine holds_client (.inr hs.law) fun c _ => ?_
      obtain ⟨ho, hp⟩ := act_openWrite (metaPath T.target_path) c (w .target)
      have hsrc := set_target_source w ((SftpOp.open (metaPath T.target_path) .write).act c (w .target)).2
      rcases hp with ⟨hsame, -, hne⟩ | hempty
      · have hq : Quiet w (w.set .target ((SftpOp.open (metaPath T.target_path) .write).act c (w .target)).2) := by
          refine ⟨hsrc, fun q => ?_⟩
          rw [Servers.set_same]
          by_cases hq : q = metaPath T.target_path
          · rw [hq, hsame]
          · exact ho q hq
        exact ⟨hs.quiet hq, hsrc, fun h => absurd h hne⟩
      · have hm : T.metaBytes (w.set .target ((SftpOp.open (metaPath T.target_path) .write).act c (w .target)).2) =
            some [] := by
          rw [metaBytes, Servers.set_same, hempty]
        refine ⟨?_, hsrc, fun _ => hm⟩
        have hpos : 0 < (T.payload f').length := by
          rcases Nat.eq_zero_or_pos (T.payload f').length with h | h
          · exact absurd (by rw [List.take_zero, List.length_eq_zero_iff.1 h]) (payload_pos f')
          · exact h
        exact sound_of_cut (n := 0) (by rw [hsrc, hf]) hgen hm hpos
    · rintro ⟨⟩ w' ⟨h1, h2, h3⟩
      exact ⟨h1, h2, fun h hh => ⟨(Except.ok.inj hh).symm, h3 rfl⟩⟩
  · rintro writer w' ⟨hs', hsrc', hx⟩
    obtain ⟨rfl, hempty⟩ := hx _ rfl
    refine wp_handle_of (R := seqPost (fun _ w' => T.Armed w' f' 0) fun _ w' => T.Sound w') ?_ (fun _ _ h => h)
      fun e w'' h => ?_
    · simp only [Handle.write, Prog.bind_eq, Prog.pure_eq]
      refine wp_bind_of (R := seqPost (fun h w'' => h.path = metaPath T.target_path ∧ h.side = .target ∧
        h.mode = .write ∧ T.Armed w'' f' 0) fun _ w' => T.Sound w') ?_ ?_ fun e w'' h => h
      · refine wp_bind_of (R := seqPost (fun _ w'' => T.Armed w'' f' 0) fun _ w' => T.Sound w') ?_
          (fun _ w'' h => ⟨rfl, rfl, rfl, h⟩) fun e w'' h => h
        refine holds_client (.inr hs'.law) fun c hc => ?_
        obtain ⟨ho, hp⟩ := act_write (k := 0) (c := c) hempty rfl (T.payload f')
        have hsrc2 := (set_target_source w' ((SftpOp.write (metaPath T.target_path) 0 (T.payload f')).act c
          (w' .target)).2).trans hsrc'
        have hpart : ∀ d, T.partialBytes (w'.set .target ((SftpOp.write (metaPath T.target_path) 0
            (T.payload f')).act c (w' .target)).2) = some d → T.partialBytes w' = some d := by
          intro d hd
          rw [partialBytes, Servers.set_same, ho _ hpm.symm] at hd
          exact hd
        rcases hp with ⟨-, hok, hall⟩ | ⟨⟨e, he, herr⟩, hpart'⟩
        · rw [hok]
          refine ⟨by rw [hsrc2, hf], hgen, ?_, fun h => absurd h (lt_irrefl 0)⟩
          rw [metaBytes, Servers.set_same]
          exact hall
        · rw [herr]
          have hsrcf : (w'.set .target ((SftpOp.write (metaPath T.target_path) 0 (T.payload f')).act c
              (w' .target)).2) .source T.source_path = some (.file f') := by rw [hsrc2, hf]
          have hm : T.metaBytes (w'.set .target ((SftpOp.write (metaPath T.target_path) 0 (T.payload f')).act c
              (w' .target)).2) = some ((T.payload f').take c.applied) := by
            rw [metaBytes, Servers.set_same]
            exact hpart'
          by_cases hcut : c.applied < (T.payload f').length
          · exact sound_of_cut hsrcf hgen hm hcut
          · -- all of the sidecar is there, so the staged file was no leftover
            have hfit : T.Fits w' f' := by
              by_contra hnf
              have hlo : T.Leftover w' := ⟨f', by rw [hsrc', hf], hnf⟩
              exact hcut ((hc.2 (by rw [he]; exact fun h => by cases h) hlo).1 _ rfl)
            rw [List.take_of_length_le (not_lt.1 hcut)] at hm
            have ha : T.Armed (w'.set .target ((SftpOp.write (metaPath T.target_path) 0 (T.payload f')).act c
              (w' .target)).2) f' 0 := ⟨hsrcf, hgen, hm, fun h => absurd h (lt_irrefl 0)⟩
            exact ha.sound fun d hd => hfit d (hpart d hd)
      · rintro ⟨side, path, mode, pos⟩ w'' ⟨hpath, hside, hmode, ha⟩
        dsimp only at hpath hside hmode
        subst hpath hside hmode
        refine holds_client (.inl (.inl rfl)) fun c hc => ?_
        have hq := @quiet_act .target (.close (metaPath T.target_path) .write) trivial c w''
        cases hcf : c.fails with
        | none =>
          have hok : ((SftpOp.close (metaPath T.target_path) .write).act c (w'' .target)).1 = .ok () := by
            rw [SftpOp.act, hcf]
            rfl
          rw [hok]
          exact ha.quiet hq
        | some e =>
          have herr : ((SftpOp.close (metaPath T.target_path) .write).act c (w'' .target)).1 = .error e := by
            rw [SftpOp.act, hcf]
          rw [herr]
          refine (ha.sound (ha.fits fun hl => ?_)).quiet hq
          cases ((hc.2 (by rw [hcf]; exact fun h => by cases h) hl).2 ha.described (.inl rfl)).1
    · refine wp_bind_of (wp_mono (fun _ _ hq => Sound.quiet h hq) (holds_closeQuiet _ _ _ .target h)) ?_ ?_
      · exact fun _ w3 h3 => h3
      · exact fun _ w3 h3 => h3

/-- The source is opened, or the job ends in a sound state. -/
lemma holds_openReader {w : Servers} {f : RegularFile} {k : Nat} (h : T.Armed w f k) :
    T.Holds (openReader .source T.source_path k)
      (seqPost (fun r w' => r = ⟨.source, T.source_path, .read, k⟩ ∧ T.Armed w' f k) fun _ w' => T.Sound w') w := by
  rw [openReader]
  simp only [Prog.bind_eq, Prog.pure_eq]
  refine wp_bind_of (R := seqPost (fun _ w' => T.Armed w' f k) fun _ w' => T.Sound w') ?_
    (fun _ _ h => ⟨rfl, h⟩) fun _ _ h => h
  refine holds_client (.inl (.inr (.inl rfl))) fun c hc => ?_
  have hq := @quiet_act .source (.open T.source_path .read) (fun h => by cases h) c w
  cases hcf : c.fails with
  | none =>
    have hok : ((SftpOp.open T.source_path .read).act c (w .source)).1 = .ok () := by
      rw [SftpOp.act, hcf]
      simp only [SftpOp.perform, h.source]
    rw [hok]
    exact h.quiet hq
  | some e =>
    have herr : ((SftpOp.open T.source_path .read).act c (w .source)).1 = .error e := by
      rw [SftpOp.act, hcf]
    rw [herr]
    refine (h.sound (h.fits fun hl => ?_)).quiet hq
    cases ((hc.2 (by rw [hcf]; exact fun h => by cases h) hl).2 h.described (.inr (.inl rfl))).1

/-- The staged file is opened where the copy goes on, or the job ends in a sound state. -/
lemma holds_openWriter {w : Servers} {f : RegularFile} {k : Nat} (h : T.Armed w f k) :
    T.Holds (openWriter .target (partialPath T.target_path) k)
      (seqPost (fun r w' => ∃ m, r = ⟨.target, partialPath T.target_path, m, k⟩ ∧ T.Copying w' f k)
        fun _ w' => T.Sound w') w := by
  simp only [openWriter, Prog.bind_eq, Prog.pure_eq]
  split
  · -- resuming: the staged file is kept
    rename_i hk
    have hcopy : T.Copying w f k := ⟨h.source, h.genuine, h.sidecar, (h.kept hk).1, (h.kept hk).2⟩
    refine wp_bind_of (holds_quiet .target (.open (partialPath T.target_path) .update) nofun hcopy.sound) ?_ ?_
    · exact fun _ w' h' => ⟨_, rfl, hcopy.quiet h'.1⟩
    · exact fun _ w' h' => hcopy.sound.quiet h'.1
  · -- fresh: the staged file is truncated
    rename_i hk
    obtain rfl : k = 0 := by omega
    refine wp_bind_of (R := seqPost (fun _ w' => T.Copying w' f 0) fun _ w' => T.Sound w') ?_
      (fun _ _ h => ⟨_, rfl, h⟩) fun _ _ h => h
    refine holds_client (.inl (.inr (.inr rfl))) fun c hc => ?_
    obtain ⟨w', hw'⟩ : ∃ w', w' = w.set .target ((SftpOp.open (partialPath T.target_path) .write).act c
      (w .target)).2 := ⟨_, rfl⟩
    rw [← hw']
    obtain ⟨ho, hp⟩ := act_openWrite (partialPath T.target_path) c (w .target)
    have hsrc : w' .source = w .source := by rw [hw', set_target_source]
    have ha : T.Armed w' f 0 := by
      refine ⟨by rw [hsrc, h.source], h.genuine, ?_, fun h0 => absurd h0 (lt_irrefl 0)⟩
      rw [metaBytes, hw', Servers.set_same, ho _ (metaPath_ne_partialPath T.target_path)]
      exact h.sidecar
    rcases hp with ⟨hsame, hcut, hne⟩ | hempty
    · have hpart : T.partialBytes w' = T.partialBytes w := by
        rw [partialBytes, partialBytes, hw', Servers.set_same, hsame]
      have hfit : T.Fits w' f := by
        intro d hd hd0 hle
        rw [hpart] at hd
        by_contra hnp
        have hlo : T.Leftover w := ⟨f, h.source, fun hf => hnp (hf d hd hd0 hle)⟩
        have hnone : T.partialBytes w = none := by
          cases hcf : c.fails with
          | some e =>
            have hg := (hc.2 (by rw [hcf]; exact nofun) hlo).2 h.described (.inr (.inr rfl))
            exact hcut (by rw [hcf]; exact nofun) hg.2
          | none =>
            -- the server itself refused: what is there is no regular file
            rw [partialBytes, Server.content]
            cases hn : w .target (partialPath T.target_path) with
            | none => rfl
            | some n =>
              cases n with
              | dir => rfl
              | file g =>
                refine absurd ?_ hne
                rw [SftpOp.act, hcf]
                simp only [SftpOp.perform, hn]
        rw [hnone] at hd
        cases hd
      have hsound := ha.sound hfit
      cases hr : ((SftpOp.open (partialPath T.target_path) .write).act c (w .target)).1 with
      | ok u => exact absurd hr hne
      | error e => exact hsound
    · have hcopy : T.Copying w' f 0 := by
        refine ⟨ha.source, ha.genuine, ha.sidecar, Nat.zero_le _, ?_⟩
        rw [partialBytes, hw', Servers.set_same, hempty]
        rfl
      cases hr : ((SftpOp.open (partialPath T.target_path) .write).act c (w .target)).1 with
      | ok u => exact hcopy
      | error e => exact hcopy.sound

/-- A read of the source answers its next chunk. -/
lemma holds_readSource {w : Servers} {f : RegularFile} {k : Nat} (h : T.Copying w f k) (n : Nat) :
    T.Holds (Handle.read ⟨.source, T.source_path, .read, k⟩ n) (fun r w' => T.Copying w' f k ∧ ∀ x, r = .ok x →
      x = ((f.data.drop k).take n, ⟨.source, T.source_path, .read, k + ((f.data.drop k).take n).length⟩)) w := by
  simp only [Handle.read, Prog.bind_eq, Prog.pure_eq]
  refine wp_bind_of (holds_quiet .source (.read T.source_path k n) trivial h.sound) ?_ ?_
  · rintro a w' ⟨hq, c, -, hr⟩
    have hp := (act_ok hr.symm).2
    simp only [SftpOp.perform, h.source] at hp
    cases hp
    exact ⟨h.quiet hq, fun x hx => (Except.ok.inj hx).symm⟩
  · exact fun e w' h' => ⟨h.quiet h'.1, fun _ he => by cases he⟩

/-- A write to the staged file puts the chunk, or a part of it, behind what is there. -/
lemma holds_writeStaged {w : Servers} {f : RegularFile} {k n : Nat} {m : OpenMode} (h : T.Copying w f k) :
    T.Holds (Handle.write ⟨.target, partialPath T.target_path, m, k⟩ ((f.data.drop k).take n))
      (seqPost (fun r w' => r = ⟨.target, partialPath T.target_path, m, k + ((f.data.drop k).take n).length⟩ ∧
        T.Copying w' f (k + ((f.data.drop k).take n).length)) fun _ w' => T.Sound w') w := by
  have htake : ∀ n, f.data.take k ++ (f.data.drop k).take n =
      f.data.take (k + ((f.data.drop k).take n).length) := by
    intro n
    rw [List.take_add, List.length_take]
    congr 1
    rw [← List.take_take, List.take_length]
  have hle : ∀ n, k + ((f.data.drop k).take n).length ≤ f.data.length := by
    intro n
    have := h.bound
    simp only [List.length_take, List.length_drop]
    omega
  simp only [Handle.write, Prog.bind_eq, Prog.pure_eq]
  refine wp_bind_of (R := seqPost (fun _ w' => T.Copying w' f (k + ((f.data.drop k).take n).length))
    fun _ w' => T.Sound w') ?_ (fun _ _ h => ⟨rfl, h⟩) fun _ _ h => h
  refine holds_client (.inr h.sound.law) fun c hc => ?_
  have hb : (f.data.take k).length = k := by rw [List.length_take]; exact min_eq_left h.bound
  obtain ⟨ho, hp⟩ := act_write (k := k) (c := c) h.staged hb ((f.data.drop k).take n)
  have hsrc := set_target_source w ((SftpOp.write (partialPath T.target_path) k ((f.data.drop k).take n)).act c
    (w .target)).2
  have hcopy : ∀ j, ((SftpOp.write (partialPath T.target_path) k ((f.data.drop k).take n)).act c
      (w .target)).2.content (partialPath T.target_path) = some (f.data.take k ++ (f.data.drop k).take j) →
      T.Copying (w.set .target ((SftpOp.write (partialPath T.target_path) k ((f.data.drop k).take n)).act c
        (w .target)).2) f (k + ((f.data.drop k).take j).length) := by
    intro j hj
    refine ⟨by rw [hsrc, h.source], h.genuine, ?_, hle j, ?_⟩
    · rw [metaBytes, Servers.set_same, ho _ (metaPath_ne_partialPath T.target_path)]
      exact h.sidecar
    · rw [partialBytes, Servers.set_same, hj, htake]
  rcases hp with ⟨-, hok, hall⟩ | ⟨⟨e, -, herr⟩, hpart⟩
  · rw [hok]
    exact hcopy n hall
  · rw [herr]
    rw [List.take_take] at hpart
    exact (hcopy _ hpart).sound

/-! ### The rename -/

/-- While the staged file is renamed: it is complete, or it is gone. -/
structure Renaming (T : Transfer) (w : Servers) (f : RegularFile) : Prop where
  source : w .source T.source_path = some (.file f)
  genuine : T.Genuine f
  sidecar : T.metaBytes w = some (T.payload f)
  staged : (∃ g, w .target (partialPath T.target_path) = some (.file g) ∧ g.data = f.data) ∨
    w .target (partialPath T.target_path) = none

lemma Renaming.sound {w : Servers} {f : RegularFile} (h : T.Renaming w f) : T.Sound w := by
  have ha : T.Armed w f 0 := ⟨h.source, h.genuine, h.sidecar, fun h0 => absurd h0 (lt_irrefl 0)⟩
  refine ha.sound fun d hd _ _ => ?_
  rw [partialBytes, Server.content] at hd
  rcases h.staged with ⟨g, hg, hdata⟩ | hnone
  · rw [hg] at hd
    obtain rfl := Option.some.inj hd
    rw [hdata]
  · rw [hnone] at hd
    cases hd

lemma Copying.renaming {w : Servers} {f : RegularFile} (h : T.Copying w f f.data.length) : T.Renaming w f := by
  refine ⟨h.source, h.genuine, h.sidecar, .inl ?_⟩
  have hs := h.staged
  rw [List.take_length, partialBytes, Server.content] at hs
  split at hs
  · rename_i g hg
    exact ⟨g, hg, Option.some.inj hs⟩
  · cases hs

/-- The target holds the source, and the state is sound. -/
def Arrived (T : Transfer) (w : Servers) (f : RegularFile) : Prop :=
  T.Sound w ∧ (w .target).content T.target_path = some f.data

lemma Arrived.quiet {w w' : Servers} {f : RegularFile} (h : T.Arrived w f) (hq : Quiet w w') :
    T.Arrived w' f :=
  ⟨h.1.quiet hq, (hq.2 _).trans h.2⟩

/-- A move of the staged file in a renaming state. -/
lemma Renaming.act {w : Servers} {f : RegularFile} (h : T.Renaming w f) {o : SftpOp}
    (ho : o = .posixRename (partialPath T.target_path) T.target_path ∨
      o = .rename (partialPath T.target_path) T.target_path) (c : Choice) :
    T.Renaming (w.set .target (o.act c (w .target)).2) f ∧
      ∀ r, (o.act c (w .target)).1 = .ok r → T.Arrived (w.set .target (o.act c (w .target)).2) f := by
  have hab := partialPath_ne_target T.target_path
  have hmoved : w .target (partialPath T.target_path) ≠ none →
      T.Renaming (w.set .target ((w .target).move (partialPath T.target_path) T.target_path)) f ∧
      ((w.set .target ((w .target).move (partialPath T.target_path) T.target_path)) .target).content
        T.target_path = some f.data := by
    intro hne
    obtain ⟨g, hg, hdata⟩ := h.staged.resolve_right hne
    refine ⟨⟨?_, h.genuine, ?_, .inr ?_⟩, ?_⟩
    · rw [set_target_source, h.source]
    · rw [metaBytes, Servers.set_same, Server.move, if_neg hab,
        content_set_other (metaPath_ne_partialPath T.target_path),
        content_set_other (metaPath_ne_target T.target_path)]
      exact h.sidecar
    · rw [Servers.set_same, Server.move, if_neg hab, Server.set_same]
    · rw [Servers.set_same, Server.content, Server.move_target hab, hg]
      exact congrArg some hdata
  obtain ⟨h1, h2⟩ := act_move ho c (w .target)
  refine ⟨?_, fun r hr => ?_⟩
  · rcases h1 with hs | ⟨hne, hs⟩
    · rw [hs, Servers.set_self]
      exact h
    · rw [hs]
      exact (hmoved hne).1
  · obtain ⟨hne, hs⟩ := h2 r hr
    rw [hs]
    exact ⟨(hmoved hne).1.sound, (hmoved hne).2⟩

/-- The rename that ends a copy puts the source at the target, or ends the job in a sound state. -/
lemma holds_rename {w : Servers} {f : RegularFile} (h : T.Copying w f f.data.length) :
    T.Holds (rename .target (partialPath T.target_path) T.target_path)
      (seqPost (fun _ w' => T.Arrived w' f) fun _ w' => T.Sound w') w := by
  have hmove : ∀ {w : Servers} {o : SftpOp}, T.Renaming w f →
      (o = .posixRename (partialPath T.target_path) T.target_path ∨
        o = .rename (partialPath T.target_path) T.target_path) →
      T.Holds (client .target o) (seqPost (fun _ w' => T.Arrived w' f) fun _ w' => T.Renaming w' f) w := by
    intro w o hw ho
    refine holds_client (.inr hw.sound.law) fun c _ => ?_
    obtain ⟨h1, h2⟩ := hw.act ho c
    cases hr : (o.act c (w .target)).1 with
    | ok r => exact h2 r hr
    | error e => exact h1
  rw [rename]
  simp only [Prog.bind_eq, Prog.throw_eq]
  refine wp_handle_of (hmove h.renaming (.inl rfl)) (fun _ _ h => h) fun e w' hw' => ?_
  split
  · -- the fallback
    refine wp_bind_of (R := fun _ w'' => T.Renaming w'' f) ?_ (fun _ w'' hw'' => ?_) fun _ _ h => h.sound
    · have hrem : T.Holds (client .target (.remove T.target_path)) (fun _ w'' => T.Renaming w'' f) w' := by
        refine holds_client (.inr hw'.sound.law) fun c _ => ?_
        rcases act_remove T.target_path c (w' .target) with hs | hs
        · rw [hs, Servers.set_self]
          exact hw'
        · rw [hs]
          refine ⟨?_, hw'.genuine, ?_, ?_⟩
          · rw [set_target_source, hw'.source]
          · rw [metaBytes, Servers.set_same, content_set_other (metaPath_ne_target T.target_path)]
            exact hw'.sidecar
          · rw [Servers.set_same, Server.set_other _ (partialPath_ne_target T.target_path)]
            exact hw'.staged
      exact wp_suppress hrem
    · refine wp_mono (fun r w3 h3 => ?_) (hmove hw'' (.inr rfl))
      cases r with
      | ok u => exact h3
      | error e => exact Renaming.sound h3
  · exact hw'.sound

/-- Removing the sidecar keeps what arrived. -/
lemma holds_removeMeta {w : Servers} {f : RegularFile} (h : T.Arrived w f) :
    T.Holds (Prog.suppress Exn.isException (remove .target (metaPath T.target_path)))
      (fun _ w' => T.Arrived w' f) w := by
  have hrem : T.Holds (remove .target (metaPath T.target_path)) (fun _ w' => T.Arrived w' f) w := by
    refine holds_client (.inr h.1.law) fun c _ => ?_
    rcases act_remove (metaPath T.target_path) c (w .target) with hs | hs
    · rw [hs, Servers.set_self]
      exact h
    · rw [hs]
      have hnone : T.metaBytes (w.set .target ((w .target).set (metaPath T.target_path) none)) = none := by
        rw [metaBytes, Servers.set_same, Server.content, Server.set_same]
      refine ⟨⟨?_, (fun d hd => by cases hnone.symm.trans hd), fun g _ hg => by cases hnone.symm.trans hg⟩, ?_⟩
      · rw [set_target_source]
        exact h.1.source
      · rw [Servers.set_same, content_set_other (metaPath_ne_target T.target_path).symm]
        exact h.2
  exact wp_suppress hrem

/-- Setting the mtime keeps what arrived. -/
lemma holds_setMtime {w : Servers} {f : RegularFile} (h : T.Arrived w f) (p : Text) (t : Nat) :
    T.Holds (Prog.suppress Exn.isException (setMtime .target p t)) (fun _ w' => T.Arrived w' f) w := by
  have hset : T.Holds (setMtime .target p t) (fun _ w' => T.Arrived w' f) w :=
    wp_mono (fun _ _ hq => h.quiet hq.1) (holds_quiet .target (.setMtime p t) trivial h.1)
  exact wp_suppress hset

end Transfer

end SshGpuConsole.LocalRelay
