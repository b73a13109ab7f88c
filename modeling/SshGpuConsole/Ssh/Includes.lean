import SshGpuConsole.Ssh.ConfigFile

/-!
# Included files

The blocks of a configuration that includes other files are those of one text without an `Include`: each included
file stands in front of the block that its `Include` stands in, and a file that was met before is left out. Where all of
them come first in their files, it is the text with every `Include` replaced where it stands. Wherever the files are
finitely many, loading comes to an end, and loads each file that is met once.
-/

namespace SshGpuConsole.Ssh.Config
open Shell (Text)

/-! ### One text -/

/-- The blocks of the lines of a text, behind the block that is open. -/
def blocksOf : Option Block → List Line → List Block
  | current, [] => current.toList
  | current, .host patterns :: lines => current.toList ++ blocksOf (some ⟨patterns, []⟩) lines
  | current, .criteria :: lines => current.toList ++ blocksOf none lines
  | current, .value key value :: lines => blocksOf (current.map (·.add key value)) lines

/-- The line starts a block or ends the one in front of it. -/
def Line.heads : Line → Bool
  | .value _ _ => false
  | _ => true

/-- No line of the text belongs to what stands in front of it. -/
def Headed (lines : List Line) : Prop := ∀ line, lines.head? = some line → line.heads = true

lemma headed_append {lines lines' : List Line} (h : Headed lines) (h' : Headed lines') : Headed (lines ++ lines') := by
  cases lines with
  | nil => exact h'
  | cons line lines => exact h

lemma blocksOf_headed {lines : List Line} (h : Headed lines) (current : Option Block) :
    blocksOf current lines = current.toList ++ blocksOf none lines := by
  cases lines with
  | nil => exact (List.append_nil _).symm
  | cons line lines =>
    cases line with
    | host patterns => rfl
    | criteria => rfl
    | value key value => cases h _ rfl

lemma blocksOf_append {lines' : List Line} (h : Headed lines') (lines : List Line) (current : Option Block) :
    blocksOf current (lines ++ lines') = blocksOf current lines ++ blocksOf none lines' := by
  induction lines generalizing current with
  | nil => exact blocksOf_headed h current
  | cons line lines ih =>
    cases line with
    | host patterns =>
      show current.toList ++ blocksOf _ (lines ++ lines') = current.toList ++ blocksOf _ lines ++ _
      rw [ih, List.append_assoc]
    | criteria =>
      show current.toList ++ blocksOf _ (lines ++ lines') = current.toList ++ blocksOf _ lines ++ _
      rw [ih, List.append_assoc]
    | value key value => exact ih _

/-- The loader makes of a file without an `Include` the blocks of its lines. -/
lemma loadLines_line (inc : Text → Loading → Option Loading) (lines : List Line) (current : Option Block) (st : Loading) :
    loadLines inc (lines.map .line) current st = some { st with blocks := st.blocks ++ blocksOf current lines } := by
  induction lines generalizing current st with
  | nil => rfl
  | cons line lines ih =>
    cases line with
    | host patterns =>
      show loadLines inc (lines.map .line) (some ⟨patterns, []⟩) (st.finish current) = _
      rw [ih]
      unfold Loading.finish
      dsimp only
      rw [List.append_assoc]
      rfl
    | criteria =>
      show loadLines inc (lines.map .line) none (st.finish current) = _
      rw [ih]
      unfold Loading.finish
      dsimp only
      rw [List.append_assoc]
      rfl
    | value key value => exact ih _ st

/-! ### Hoisting -/

/-- A text under way, and the files that were met. -/
structure Hoisting where
  lines : List Line := []
  loaded : List Text := []

/-- The lines of a file behind those of the files it includes: `current` is what the file says of the block that is
open, and does not end before the next block. -/
def hoistLines (inc : Text → Hoisting → Option Hoisting) : List Directive → List Line → Hoisting → Option Hoisting
  | [], current, st => some { st with lines := st.lines ++ current }
  | .line (.value key value) :: lines, current, st =>
    -- a value in front of the first block says nothing
    hoistLines inc lines (if current = [] then [] else current ++ [.value key value]) st
  | .line line :: lines, current, st => hoistLines inc lines [line] { st with lines := st.lines ++ current }
  | .include patterns :: lines, current, st =>
    (patterns.foldlM (fun st pattern => inc pattern st) st).bind (hoistLines inc lines current)

/-- What an included file is replaced by where its `Include` stands. -/
def textLines (inc : Text → Hoisting → Option Hoisting) : List Directive → Hoisting → Option Hoisting
  | [], st => some st
  | .line line :: lines, st => textLines inc lines { st with lines := st.lines ++ [line] }
  | .include patterns :: lines, st => (patterns.foldlM (fun st pattern => inc pattern st) st).bind (textLines inc lines)

section
variable (py : Python) (files : Files)

/-- The text of a file and of what it includes, put together by `lines`; the stack has room for so many files. -/
def assemble (lines : (Text → Hoisting → Option Hoisting) → List Directive → Hoisting → Option Hoisting) :
    ℕ → Text → Hoisting → Option Hoisting
  | 0, _, _ => none
  | n + 1, path, st =>
    let path := files.resolve path
    if st.loaded.contains path then some st
    else
      let st := { st with loaded := path :: st.loaded }
      match files.read path with
      | none => some st
      | some text =>
        lines (fun pattern st =>
          (included py files path pattern).foldlM (fun st matched => assemble lines n matched st) st) (readLines py text) st

/-- The text in which included files stand in front of the open block. -/
def hoistFile : ℕ → Text → Hoisting → Option Hoisting := assemble py files fun inc lines => hoistLines inc lines []

/-- The text in which included files stand where their `Include` does. -/
def textFile : ℕ → Text → Hoisting → Option Hoisting := assemble py files textLines

/-- The file has an `Include` that names the other. -/
def Includes (path other : Text) : Prop :=
  ∃ text patterns pattern matched, files.read path = some text ∧ .include patterns ∈ readLines py text ∧
    pattern ∈ patterns ∧ matched ∈ included py files path pattern ∧ files.resolve matched = other

/-- The files that are met from a file on. -/
inductive Reaches (path : Text) : Text → Prop
  | root : Reaches path (files.resolve path)
  | step {referring_file other} : Reaches path referring_file → Includes py files referring_file other → Reaches path other

end

/-- The lines of an open block. -/
inductive Opens : List Line → Option Block → Prop
  | outside : Opens [] none
  | host (patterns) : Opens [.host patterns] (some ⟨patterns, []⟩)
  | criteria : Opens [.criteria] none
  | value {lines current} (key value) : lines ≠ [] → Opens lines current →
    Opens (lines ++ [.value key value]) (current.map (·.add key value))

lemma Opens.headed {lines : List Line} {current : Option Block} (h : Opens lines current) : Headed lines := by
  induction h with
  | outside => exact fun line h => nomatch h
  | host patterns =>
    intro line h
    cases h
    rfl
  | criteria =>
    intro line h
    cases h
    rfl
  | @value lines current key value hne _ ih =>
    cases lines with
    | nil => exact absurd rfl hne
    | cons line lines => exact ih

lemma Opens.blocksOf {lines : List Line} {current : Option Block} (h : Opens lines current) (hne : lines ≠ [])
    (rest : List Line) : blocksOf none (lines ++ rest) = Config.blocksOf current rest := by
  induction h generalizing rest with
  | outside => exact absurd rfl hne
  | host patterns => rfl
  | criteria => rfl
  | value key value hlines _ ih =>
    rw [List.append_assoc, ih hlines]
    rfl

lemma Opens.outside_of_nil {lines : List Line} {current : Option Block} (h : Opens lines current) (hnil : lines = []) :
    current = none := by
  cases h with
  | outside => rfl
  | criteria => rfl
  | host patterns => cases hnil
  | value key value _ _ => exact absurd (List.append_eq_nil_iff.1 hnil).2 (List.cons_ne_nil _ _)

lemma Opens.blocks {lines : List Line} {current : Option Block} (h : Opens lines current) :
    Config.blocksOf none lines = current.toList := by
  by_cases hne : lines = []
  · rw [h.outside_of_nil hne, hne]
    rfl
  · rw [← List.append_nil lines, h.blocksOf hne]
    rfl

/-- The blocks are those of the text. -/
structure Follows (st : Loading) (flat : Hoisting) : Prop where
  blocks : st.blocks = blocksOf none flat.lines
  loaded : st.loaded = flat.loaded

/-- The block that is open is closed. -/
lemma Follows.finish {st : Loading} {flat : Hoisting} {lines : List Line} {current : Option Block} (h : Follows st flat)
    (ho : Opens lines current) : Follows (st.finish current) { flat with lines := flat.lines ++ lines } where
  blocks := by
    unfold Loading.finish
    dsimp only
    rw [blocksOf_append ho.headed, ho.blocks, h.blocks]
  loaded := h.loaded

lemma foldlM_follows {f : Loading → Text → Option Loading} {g : Hoisting → Text → Option Hoisting}
    (hfg : ∀ x st flat, Follows st flat → Option.Rel Follows (f st x) (g flat x)) (xs : List Text) {st : Loading}
    {flat : Hoisting} (h : Follows st flat) : Option.Rel Follows (xs.foldlM f st) (xs.foldlM g flat) := by
  induction xs generalizing st flat with
  | nil => exact .some h
  | cons x xs ih =>
    rw [List.foldlM_cons, List.foldlM_cons]
    cases hx : f st x with
    | none =>
      have hrel := hfg x st flat h
      rw [hx] at hrel
      cases hg : g flat x with
      | none => exact .none
      | some flat' =>
        rw [hg] at hrel
        cases hrel
    | some st' =>
      have hrel := hfg x st flat h
      rw [hx] at hrel
      cases hg : g flat x with
      | none =>
        rw [hg] at hrel
        cases hrel
      | some flat' =>
        rw [hg] at hrel
        cases hrel with
        | some hnext => exact ih hnext

lemma loadLines_follows {inc : Text → Loading → Option Loading} {inc' : Text → Hoisting → Option Hoisting}
    (hinc : ∀ pattern st flat, Follows st flat → Option.Rel Follows (inc pattern st) (inc' pattern flat))
    (directives : List Directive) {lines : List Line} {current : Option Block} (ho : Opens lines current) {st : Loading}
    {flat : Hoisting} (h : Follows st flat) :
    Option.Rel Follows (loadLines inc directives current st) (hoistLines inc' directives lines flat) := by
  induction directives generalizing lines current st flat with
  | nil => exact .some (h.finish ho)
  | cons directive directives ih =>
    cases directive with
    | line line =>
      cases line with
      | host patterns => exact ih (.host patterns) (h.finish ho)
      | criteria => exact ih .criteria (h.finish ho)
      | value key value =>
        show Option.Rel Follows (loadLines inc directives (current.map (·.add key value)) st)
          (hoistLines inc' directives (if lines = [] then [] else lines ++ [.value key value]) flat)
        split
        · rename_i hnil
          rw [ho.outside_of_nil hnil]
          exact ih .outside h
        · rename_i hne
          exact ih (.value key value hne ho) h
    | «include» patterns =>
      have hrel : Option.Rel Follows (patterns.foldlM (fun st pattern => inc pattern st) st)
          (patterns.foldlM (fun st pattern => inc' pattern st) flat) :=
        foldlM_follows (fun pattern st flat h => hinc pattern st flat h) patterns h
      show Option.Rel Follows ((patterns.foldlM (fun st pattern => inc pattern st) st).bind _)
        ((patterns.foldlM (fun st pattern => inc' pattern st) flat).bind _)
      generalize patterns.foldlM (fun st pattern => inc pattern st) st = st' at hrel ⊢
      generalize patterns.foldlM (fun st pattern => inc' pattern st) flat = flat' at hrel ⊢
      cases hrel with
      | none => exact .none
      | some hnext => exact ih ho hnext

section
variable (py : Python) (files : Files)

lemma loadFile_follows (n : ℕ) (path : Text) {st : Loading} {flat : Hoisting} (h : Follows st flat) :
    Option.Rel Follows (loadFile py files n path st) (hoistFile py files n path flat) := by
  induction n generalizing path st flat with
  | zero => exact .none
  | succ n ih =>
    unfold loadFile hoistFile assemble
    dsimp only
    rw [h.loaded]
    split
    · exact .some h
    · have hmet : Follows { st with loaded := files.resolve path :: st.loaded }
          { flat with loaded := files.resolve path :: flat.loaded } := ⟨h.blocks, congrArg _ h.loaded⟩
      rw [h.loaded] at hmet
      cases files.read (files.resolve path) with
      | none => exact .some hmet
      | some text =>
        refine loadLines_follows (fun pattern st flat h => ?_) (readLines py text) .outside hmet
        exact foldlM_follows (fun matched st flat h => ih matched h) _ h

lemma loadConfig_eq (n : ℕ) (path : Text) :
    loadConfig py files n path = (hoistFile py files n path {}).map fun flat => blocksOf none flat.lines := by
  have hrel : Option.Rel Follows (loadFile py files n path {}) (hoistFile py files n path {}) :=
    loadFile_follows py files n path ⟨rfl, rfl⟩
  unfold loadConfig
  generalize loadFile py files n path {} = st at hrel ⊢
  generalize hoistFile py files n path {} = flat at hrel ⊢
  cases hrel with
  | none => rfl
  | some h => exact congrArg some h.blocks

end

/-! ### Where every `Include` comes first -/

/-- The file has its `Include`s in front of its blocks, and nothing between. -/
def IncludesFirst (directives : List Directive) : Prop :=
  ∃ (includes : List (List Text)) (lines : List Line), directives = includes.map .include ++ lines.map .line ∧ Headed lines

section
variable {inc inc' : Text → Hoisting → Option Hoisting} {st : Hoisting}

lemma hoistLines_line (lines current : List Line) (h : current ≠ [] ∨ Headed lines) :
    hoistLines inc (lines.map .line) current st = some { st with lines := st.lines ++ current ++ lines } := by
  induction lines generalizing current st with
  | nil =>
    show some _ = some _
    rw [List.append_nil]
  | cons line lines ih =>
    have hnext : ∀ line : Line, [line] ≠ [] ∨ Headed lines := fun line => .inl (List.cons_ne_nil _ _)
    cases line with
    | host patterns =>
      show hoistLines inc (lines.map .line) [.host patterns] _ = _
      rw [ih _ (hnext _), List.append_assoc _ _ lines]
      rfl
    | criteria =>
      show hoistLines inc (lines.map .line) [.criteria] _ = _
      rw [ih _ (hnext _), List.append_assoc _ _ lines]
      rfl
    | value key value =>
      have hne : current ≠ [] := h.resolve_right fun hheaded => absurd (hheaded _ rfl) Bool.noConfusion
      show hoistLines inc (lines.map .line) (if current = [] then [] else current ++ [.value key value]) st = _
      rw [if_neg hne, ih _ (.inl (List.append_ne_nil_of_left_ne_nil hne _)), ← List.append_assoc,
        List.append_assoc _ _ lines]
      rfl

lemma textLines_line (lines : List Line) :
    textLines inc (lines.map .line) st = some { st with lines := st.lines ++ lines } := by
  induction lines generalizing st with
  | nil =>
    show some _ = some _
    rw [List.append_nil]
  | cons line lines ih =>
    show textLines inc (lines.map .line) _ = _
    rw [ih, List.append_assoc]
    rfl

lemma hoistLines_eq_textLines {directives : List Directive} (h : IncludesFirst directives)
    (hinc : ∀ patterns, .include patterns ∈ directives → ∀ pattern ∈ patterns, ∀ st, inc pattern st = inc' pattern st) :
    hoistLines inc directives [] st = textLines inc' directives st := by
  obtain ⟨includes, lines, rfl, hheaded⟩ := h
  induction includes generalizing st with
  | nil =>
    rw [List.map_nil, List.nil_append, hoistLines_line lines [] (.inr hheaded), textLines_line, List.append_nil]
  | cons patterns includes ih =>
    have hfold : ∀ st, patterns.foldlM (fun st pattern => inc pattern st) st =
        patterns.foldlM (fun st pattern => inc' pattern st) st := by
      have hpatterns := hinc patterns List.mem_cons_self
      clear hinc ih
      induction patterns with
      | nil => exact fun _ => rfl
      | cons pattern patterns ih =>
        intro st
        rw [List.foldlM_cons, List.foldlM_cons, hpatterns pattern List.mem_cons_self]
        exact bind_congr fun st => ih (fun pattern hp => hpatterns pattern (List.mem_cons_of_mem _ hp)) st
    show (patterns.foldlM (fun st pattern => inc pattern st) st).bind _ =
      (patterns.foldlM (fun st pattern => inc' pattern st) st).bind _
    rw [hfold]
    refine Option.bind_congr fun st _ => ih fun patterns' hmem => hinc patterns' (List.mem_cons_of_mem _ hmem)

end

section
variable (py : Python) (files : Files)

lemma assemble_congr {path : Text}
    (h : ∀ p text, Reaches py files path p → files.read p = some text → IncludesFirst (readLines py text)) (n : ℕ)
    (p : Text) (hp : Reaches py files path (files.resolve p)) (st : Hoisting) :
    hoistFile py files n p st = textFile py files n p st := by
  induction n generalizing p st with
  | zero => rfl
  | succ n ih =>
    unfold hoistFile textFile assemble
    dsimp only
    split
    · rfl
    · cases hread : files.read (files.resolve p) with
      | none => rfl
      | some text =>
        refine hoistLines_eq_textLines (h _ text hp hread) fun patterns hmem pattern hpattern st => ?_
        have hmatched : ∀ matched ∈ included py files (files.resolve p) pattern, ∀ st,
            hoistFile py files n matched st = textFile py files n matched st :=
          fun matched hm st => ih matched (.step hp ⟨text, patterns, pattern, matched, hread, hmem, hpattern, hm, rfl⟩) st
        generalize included py files (files.resolve p) pattern = all at hmatched ⊢
        induction all generalizing st with
        | nil => rfl
        | cons matched all ih' =>
          rw [List.foldlM_cons, List.foldlM_cons]
          have hfirst := hmatched matched List.mem_cons_self st
          unfold hoistFile textFile at hfirst
          rw [hfirst]
          exact bind_congr fun st => ih' st fun matched hm => hmatched matched (List.mem_cons_of_mem _ hm)

/-- A configuration has the blocks of one text, in which every included file stands in front of the block that its
`Include` stands in; where every file that is met has its `Include`s first, this is the text in which each of them is
replaced by what it includes. -/
theorem loadConfig_hoisted (n : ℕ) (path : Text) :
    (loadConfig py files n path = (hoistFile py files n path {}).map fun flat => blocksOf none flat.lines) ∧
      ((∀ p text, Reaches py files path p → files.read p = some text → IncludesFirst (readLines py text)) →
        loadConfig py files n path = (textFile py files n path {}).map fun flat => blocksOf none flat.lines) := by
  refine ⟨loadConfig_eq py files n path, fun h => ?_⟩
  rw [loadConfig_eq, assemble_congr py files h n path .root]

end

/-! ### The walk -/

/-- The files of the directives, as `inc` finds them. -/
def targets (inc : Text → List Text) (directives : List Directive) : List Text :=
  directives.flatMap fun
    | .line _ => []
    | .include patterns => patterns.flatMap inc

/-- With a stack of `n` calls or more a part of the loader comes to the same end, with the files loaded. -/
def Loads (W : List Text → Prop) (n : ℕ) (f : ℕ → Loading → Option Loading) (paths : List Text) : Prop :=
  ∀ st, W st.loaded → ∃ st', (∀ m, n ≤ m → f m st = some st') ∧ W st'.loaded ∧ st.loaded ⊆ st'.loaded ∧ paths ⊆ st'.loaded

section
variable {W : List Text → Prop} {n : ℕ}

lemma loads_foldlM {f : ℕ → Text → Loading → Option Loading} {paths : Text → List Text} (xs : List Text)
    (h : ∀ x ∈ xs, Loads W n (f · x) (paths x)) :
    Loads W n (fun m st => xs.foldlM (fun st x => f m x st) st) (xs.flatMap paths) := by
  induction xs with
  | nil => exact fun st hW => ⟨st, fun m _ => rfl, hW, List.Subset.refl _, List.nil_subset _⟩
  | cons x xs ih =>
    intro st hW
    obtain ⟨st₁, hx, hW₁, hsub, hpaths⟩ := h x List.mem_cons_self st hW
    obtain ⟨st₂, hxs, hW₂, hsub', hpaths'⟩ := ih (fun y hy => h y (List.mem_cons_of_mem _ hy)) st₁ hW₁
    refine ⟨st₂, fun m hm => ?_, hW₂, List.Subset.trans hsub hsub',
      List.append_subset.2 ⟨List.Subset.trans hpaths hsub', hpaths'⟩⟩
    show (x :: xs).foldlM (fun st x => f m x st) st = _
    rw [List.foldlM_cons, show f m x st = _ from hx m hm]
    exact hxs m hm

lemma loads_lines {inc : ℕ → Text → Loading → Option Loading} {paths : Text → List Text} (directives : List Directive)
    (h : ∀ patterns, .include patterns ∈ directives → ∀ pattern ∈ patterns, Loads W n (inc · pattern) (paths pattern))
    (current : Option Block) :
    Loads W n (fun m st => loadLines (inc m) directives current st) (targets paths directives) := by
  induction directives generalizing current with
  | nil => exact fun st hW => ⟨st.finish current, fun m _ => rfl, hW, List.Subset.refl _, List.nil_subset _⟩
  | cons directive directives ih =>
    have hnext := ih fun patterns hmem => h patterns (List.mem_cons_of_mem _ hmem)
    intro st hW
    cases directive with
    | line line =>
      cases line with
      | host patterns => exact hnext _ (st.finish current) hW
      | criteria => exact hnext none (st.finish current) hW
      | value key value => exact hnext _ st hW
    | «include» patterns =>
      obtain ⟨st₁, hfold, hW₁, hsub, hpaths⟩ := loads_foldlM patterns (h patterns List.mem_cons_self) st hW
      obtain ⟨st₂, hlines, hW₂, hsub', hpaths'⟩ := hnext current st₁ hW₁
      refine ⟨st₂, fun m hm => ?_, hW₂, List.Subset.trans hsub hsub',
      List.append_subset.2 ⟨List.Subset.trans hpaths hsub', hpaths'⟩⟩
      show (patterns.foldlM (fun st pattern => inc m pattern st) st).bind _ = _
      rw [show patterns.foldlM (fun st pattern => inc m pattern st) st = _ from hfold m hm]
      exact hlines m hm

end

section
variable (py : Python) (files : Files)

/-- The files loaded so far when a file is reached: those under way are on the stack, and at most `n` of the `known` ones
are left. -/
structure Walked (path : Text) (known stack : List Text) (n : ℕ) (loaded : List Text) : Prop where
  nodup : loaded.Nodup
  reached : ∀ p ∈ loaded, Reaches py files path p
  closed : ∀ p ∈ loaded, p ∉ stack → ∀ q, Includes py files p q → q ∈ loaded
  left : (known.toFinset \ loaded.toFinset).card ≤ n

variable {py files} {path : Text} {known stack loaded : List Text} {n : ℕ}

lemma Walked.enter {p : Text} (h : Walked py files path known stack (n + 1) loaded) (hp : Reaches py files path p)
    (hknown : p ∈ known) (hnew : p ∉ loaded) : Walked py files path known (p :: stack) n (p :: loaded) where
  nodup := List.nodup_cons.2 ⟨hnew, h.nodup⟩
  reached := List.forall_mem_cons.2 ⟨hp, h.reached⟩
  closed q hq hstack r hr := by
    rw [List.mem_cons, not_or] at hstack
    exact List.mem_cons_of_mem _ (h.closed q ((List.mem_cons.1 hq).resolve_left hstack.1) hstack.2 r hr)
  left := by
    have hmem : p ∈ known.toFinset \ loaded.toFinset :=
      Finset.mem_sdiff.2 ⟨List.mem_toFinset.2 hknown, fun hp => hnew (List.mem_toFinset.1 hp)⟩
    rw [List.toFinset_cons, Finset.sdiff_insert, Finset.card_erase_of_mem hmem]
    exact Nat.sub_le_of_le_add h.left

lemma Walked.leave {p : Text} (h : Walked py files path known (p :: stack) n loaded)
    (hp : ∀ q, Includes py files p q → q ∈ loaded) : Walked py files path known stack (n + 1) loaded where
  nodup := h.nodup
  reached := h.reached
  closed q hq hstack r hr := by
    by_cases heq : q = p
    · exact hp r (heq ▸ hr)
    · exact h.closed q hq (fun hmem => (List.mem_cons.1 hmem).elim heq hstack) r hr
  left := Nat.le_succ_of_le h.left

lemma mem_targets {p q text : Text} (hread : files.read p = some text) (h : Includes py files p q) :
    q ∈ targets (fun pattern => (included py files p pattern).flatMap fun matched => [files.resolve matched])
      (readLines py text) := by
  obtain ⟨text', patterns, pattern, matched, hread', hmem, hpattern, hmatched, rfl⟩ := h
  obtain rfl : text = text' := Option.some.inj (hread.symm.trans hread')
  refine List.mem_flatMap.2 ⟨_, hmem, List.mem_flatMap.2 ⟨pattern, hpattern, ?_⟩⟩
  exact List.mem_flatMap.2 ⟨matched, hmatched, List.mem_singleton_self _⟩

lemma loadFile_met {p : Text} {st : Loading} (hmet : files.resolve p ∈ st.loaded) {m : ℕ} (hm : n + 1 ≤ m) :
    loadFile py files m p st = some st := by
  obtain ⟨m, rfl⟩ := Nat.exists_eq_add_of_le' (Nat.le_of_add_left_le hm)
  exact if_pos (List.contains_iff_mem.2 hmet)

lemma loadFile_enter {p : Text} {st : Loading} (hnew : files.resolve p ∉ st.loaded) (m : ℕ) :
    loadFile py files (m + 1) p st =
      match files.read (files.resolve p) with
      | none => some { st with loaded := files.resolve p :: st.loaded }
      | some text =>
        loadLines (fun pattern st => (included py files (files.resolve p) pattern).foldlM (fun st matched =>
          loadFile py files m matched st) st) (readLines py text) none { st with loaded := files.resolve p :: st.loaded } :=
  if_neg fun hmet => hnew (List.contains_iff_mem.1 hmet)

/-- A file that was met before is not read again. -/
lemma loads_met {p : Text} {st : Loading} (hW : Walked py files path known stack n st.loaded)
    (hmet : files.resolve p ∈ st.loaded) :
    ∃ st', (∀ m, n + 1 ≤ m → loadFile py files m p st = some st') ∧ Walked py files path known stack n st'.loaded ∧
      st.loaded ⊆ st'.loaded ∧ [files.resolve p] ⊆ st'.loaded :=
  ⟨st, fun _ hm => loadFile_met hmet hm, hW, List.Subset.refl _, List.cons_subset.2 ⟨hmet, List.nil_subset _⟩⟩

lemma loads_file (hknown : ∀ p, Reaches py files path p → p ∈ known) (n : ℕ) (stack : List Text) (p : Text)
    (hp : Reaches py files path (files.resolve p)) :
    Loads (Walked py files path known stack n) (n + 1) (fun m st => loadFile py files m p st) [files.resolve p] := by
  induction n generalizing stack p with
  | zero =>
    intro st hW
    -- no file is left, so this one was met
    have hempty := Finset.card_eq_zero.1 (Nat.le_zero.1 hW.left)
    have hmet := Finset.sdiff_eq_empty_iff_subset.1 hempty (List.mem_toFinset.2 (hknown _ hp))
    exact loads_met hW (List.mem_toFinset.1 hmet)
  | succ n ih =>
    intro st hW
    by_cases hnew : files.resolve p ∈ st.loaded
    · exact loads_met hW hnew
    have hin := hW.enter hp (hknown _ hp) hnew
    have hfuel : ∀ m, n + 1 + 1 ≤ m → ∃ m', m = m' + 1 ∧ n + 1 ≤ m' := fun m hm => ⟨m - 1, by omega, by omega⟩
    cases hread : files.read (files.resolve p) with
    | none =>
      refine ⟨{ st with loaded := files.resolve p :: st.loaded }, fun m hm => ?_, hin.leave fun q hq => ?_,
        List.subset_cons_self _ _, List.cons_subset.2 ⟨List.mem_cons_self, List.nil_subset _⟩⟩
      · obtain ⟨m, rfl, -⟩ := hfuel m hm
        show loadFile py files (m + 1) p st = _
        rw [loadFile_enter hnew, hread]
      · obtain ⟨text, _, _, _, htext, _⟩ := hq
        cases hread.symm.trans htext
    | some text =>
      have hlines := loads_lines (readLines py text) (fun patterns hmem pattern hpattern =>
        loads_foldlM (included py files (files.resolve p) pattern) fun matched hmatched =>
          ih (files.resolve p :: stack) matched
            (.step hp ⟨text, patterns, pattern, matched, hread, hmem, hpattern, hmatched, rfl⟩)) none
      obtain ⟨st', hload, hW', hsub, hpaths⟩ := hlines { st with loaded := files.resolve p :: st.loaded } hin
      have hsub' := List.cons_subset.1 hsub
      refine ⟨st', fun m hm => ?_, hW'.leave fun q hq => hpaths (mem_targets hread hq), hsub'.2,
        List.cons_subset.2 ⟨hsub'.1, List.nil_subset _⟩⟩
      obtain ⟨m, rfl, hroom⟩ := hfuel m hm
      show loadFile py files (m + 1) p st = _
      rw [loadFile_enter hnew, hread]
      exact hload m hroom

/-- Where finitely many files are met, loading comes to an end with a stack that has room for all of them and one more;
each file that is met is loaded once, and no other. -/
theorem loadFile_loads_reached (py : Python) (files : Files) (path : Text) (known : List Text)
    (hknown : ∀ p, Reaches py files path p → p ∈ known) :
    ∃ st, (∀ n, known.length < n → loadFile py files n path {} = some st) ∧ st.loaded.Nodup ∧
      ∀ p, p ∈ st.loaded ↔ Reaches py files path p := by
  have hstart : Walked py files path known [] known.length [] :=
    ⟨List.nodup_nil, (fun p hp => nomatch hp), (fun p hp => nomatch hp),
      (Finset.card_le_card Finset.sdiff_subset).trans known.toFinset_card_le⟩
  obtain ⟨st, hload, hW, -, hroot⟩ := loads_file hknown known.length [] path .root {} hstart
  refine ⟨st, hload, hW.nodup, fun p => ⟨hW.reached p, fun hp => ?_⟩⟩
  induction hp with
  | root => exact hroot List.mem_cons_self
  | step _ hinc ih => exact hW.closed _ ih List.not_mem_nil _ hinc

end

/-- Two files that include each other, the first from inside a block. -/
def eachOther : Files where
  resolve path := path
  read path :=
    if path = "/config".toList then some "Host first\nInclude /more\nPort 2222\n".toList
    else if path = "/more".toList then some "Include /config\nHost second\nUser root\n".toList
    else none
  beside _ name := name
  glob pattern := ["/config".toList, "/more".toList].filter (· = pattern)

lemma reaches_eachOther (p : Text) (h : Reaches asciiPython eachOther "/config".toList p) :
    p ∈ ["/config".toList, "/more".toList] := by
  cases h with
  | root => exact List.mem_cons_self
  | step _ hinc =>
    obtain ⟨text, patterns, pattern, matched, -, -, -, hmatched, rfl⟩ := hinc
    have hglob : matched ∈ ["/config".toList, "/more".toList].filter (· = asciiPython.expandPath pattern) := by
      unfold included at hmatched
      have hbeside : ∀ a b, eachOther.beside a b = b := fun _ _ => rfl
      rw [List.mem_mergeSort, hbeside, ite_self] at hmatched
      exact hmatched
    exact List.mem_of_mem_filter hglob

theorem loadFile_loads_reached_eachOther :
    ∃ st, (∀ n, 2 < n → loadFile asciiPython eachOther n "/config".toList {} = some st) ∧ st.loaded.Nodup ∧
      ∀ p, p ∈ st.loaded ↔ Reaches asciiPython eachOther "/config".toList p :=
  loadFile_loads_reached asciiPython eachOther "/config".toList ["/config".toList, "/more".toList] reaches_eachOther

example : loadConfig asciiPython eachOther 3 "/config".toList =
    some [⟨["second".toList], [("user".toList, ["root".toList])]⟩, ⟨["first".toList], [("port".toList, ["2222".toList])]⟩] := by
  decide +kernel

end SshGpuConsole.Ssh.Config
