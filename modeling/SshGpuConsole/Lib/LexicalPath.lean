import SshGpuConsole.Lib.PosixPath

/-!
# What a path text denotes

A path names a directory by its components, relative or from the root: empty components and `.` say nothing, and `..`
takes one back. `posixpath.normpath` keeps what a path denotes, and one thing more: whether it starts with exactly two
slashes (`stripped_eq_iff`).
-/

namespace PosixPath
open Shell (Text)

/-- A directory, by its components from the root or from wherever the path is read. -/
structure Directory where
  rooted : Bool
  components : List Text
  deriving DecidableEq, Repr

/-- One more component behind the kept ones, which are in reverse. -/
def walk (rooted : Bool) (kept : List Text) (comp : Text) : List Text :=
  if comp = [] ∨ comp = ['.'] then kept
  else if comp = ['.', '.'] then
    match kept with
    | [] => if rooted then [] else [comp]
    | last :: rest => if last = ['.', '.'] then comp :: kept else rest
  else comp :: kept

/-- The directory that a path names. -/
def denotes (p : Text) : Directory where
  rooted := p.head? = some '/'
  components := ((p.splitOn '/').foldl (walk (p.head? = some '/')) []).reverse

variable {p q : Text} {comps : List Text}

/-- What is left of a path behind the components. -/
def Plain (comp : Text) : Prop := comp ≠ [] ∧ comp ≠ ['.'] ∧ '/' ∉ comp

/-- The loop of `normpath` resolves the components. -/
lemma normStep_eq_walk (rooted : Bool) (kept : List Text) (comp : Text) :
    normStep rooted kept comp = walk rooted kept comp := by
  unfold normStep walk
  simp only [Bool.or_eq_true, decide_eq_true_eq]
  split
  · rfl
  · by_cases hup : comp = ['.', '.']
    · rw [if_pos hup]
      cases kept with
      | nil => cases rooted <;> simp [hup]
      | cons last rest => simp [hup]
    · rw [if_neg hup, if_pos (.inl (.inl hup))]

lemma slash_notMem_splitOn (p : Text) : ∀ comp ∈ p.splitOn '/', '/' ∉ comp := by
  induction p with
  | nil =>
    intro comp hc
    rw [List.mem_singleton.1 hc]
    exact List.not_mem_nil
  | cons c p ih =>
    intro comp hc
    rw [List.splitOn_cons_eq_if_modifyHead] at hc
    split at hc
    · rcases List.mem_cons.1 hc with rfl | hc
      · exact List.not_mem_nil
      · exact ih comp hc
    · rename_i hne
      cases hs : p.splitOn '/' with
      | nil => exact absurd hs (List.splitOn_ne_nil '/' p)
      | cons first rest =>
        rw [hs] at hc ih
        rcases List.mem_cons.1 hc with rfl | hc
        · intro hmem
          rcases List.mem_cons.1 hmem with hmem | hmem
          · exact hne (beq_iff_eq.2 hmem.symm)
          · exact ih first List.mem_cons_self hmem
        · exact ih comp (List.mem_cons_of_mem _ hc)

lemma plain_walk {rooted : Bool} {kept : List Text} {comp : Text} (hkept : ∀ c ∈ kept, Plain c) (hcomp : '/' ∉ comp) :
    ∀ c ∈ walk rooted kept comp, Plain c := by
  unfold walk
  split
  · exact hkept
  · rename_i hne
    rw [not_or] at hne
    have hplain : Plain comp := ⟨hne.1, hne.2, hcomp⟩
    have hcons : ∀ c ∈ comp :: kept, Plain c := by
      intro c hc
      rcases List.mem_cons.1 hc with rfl | hc
      · exact hplain
      · exact hkept c hc
    split
    · cases kept with
      | nil =>
        cases rooted with
        | true => exact hkept
        | false => exact hcons
      | cons last rest =>
        dsimp only
        split
        · exact hcons
        · exact fun c hc => hkept c (List.mem_cons_of_mem _ hc)
    · exact hcons

/-- The components that a path denotes are plain names, or go up. -/
lemma plain_components (p : Text) : ∀ comp ∈ (denotes p).components, Plain comp := by
  have hfold : ∀ (comps kept : List Text), (∀ c ∈ comps, '/' ∉ c) → (∀ c ∈ kept, Plain c) →
      ∀ c ∈ comps.foldl (walk (p.head? = some '/')) kept, Plain c := by
    intro comps
    induction comps with
    | nil => exact fun kept _ hkept => hkept
    | cons comp comps ih =>
      intro kept hcomps hkept
      exact ih _ (fun c hc => hcomps c (List.mem_cons_of_mem _ hc))
        (plain_walk hkept (hcomps comp List.mem_cons_self))
  intro comp hcomp
  exact hfold _ [] (slash_notMem_splitOn p) (fun c hc => absurd hc List.not_mem_nil) comp (List.mem_reverse.1 hcomp)

lemma initialSlashes_eq_zero : initialSlashes p = 0 ↔ p.head? ≠ some '/' := by
  cases p with
  | nil => exact iff_of_true rfl (Option.some_ne_none '/').symm
  | cons c p =>
    rw [List.head?_cons, ne_eq, Option.some_inj]
    unfold initialSlashes
    split <;> simp_all

/-- `normpath` in terms of what the path denotes. -/
lemma normpath_eq (p : Text) : normpath p =
    if initialSlashes p = 0 ∧ (denotes p).components = [] then ['.']
    else List.replicate (initialSlashes p) '/' ++ ['/'].intercalate (denotes p).components := by
  have hrooted : decide (initialSlashes p ≠ 0) = decide (p.head? = some '/') := by
    rw [decide_eq_decide, ne_eq, initialSlashes_eq_zero, not_not]
  have hcomps : ((p.splitOn '/').foldl (normStep (initialSlashes p ≠ 0)) []).reverse = (denotes p).components := by
    rw [hrooted, show normStep (p.head? = some '/') = walk (p.head? = some '/') from
      funext fun kept => funext fun comp => normStep_eq_walk _ kept comp]
    rfl
  have hempty : List.replicate (initialSlashes p) '/' ++ ['/'].intercalate (denotes p).components = [] ↔
      initialSlashes p = 0 ∧ (denotes p).components = [] := by
    rw [List.append_eq_nil_iff, List.replicate_eq_nil_iff]
    refine and_congr_right fun _ => ⟨fun h => ?_, fun h => by rw [h]; rfl⟩
    cases hc : (denotes p).components with
    | nil => rfl
    | cons first rest =>
      have hplain := plain_components p first (hc ▸ List.mem_cons_self)
      rw [hc] at h
      cases rest with
      | nil =>
        rw [List.intercalate_singleton] at h
        exact absurd h hplain.1
      | cons second rest =>
        rw [List.intercalate_cons_cons, List.append_assoc, List.append_eq_nil_iff] at h
        exact absurd h.1 hplain.1
  unfold normpath
  dsimp only
  rw [hcomps]
  split
  · rename_i h
    rw [if_pos (hempty.1 h)]
  · rename_i h
    rw [if_neg fun e => h (hempty.2 e)]

/-! ### Below a directory -/

/-- The directory that a component leads to. -/
def Directory.enter (d : Directory) (comp : Text) : Directory :=
  ⟨d.rooted, (walk d.rooted d.components.reverse comp).reverse⟩

/-- A name in a directory. -/
def Name (comp : Text) : Prop := Plain comp ∧ comp ≠ ['.', '.']

/-- A component that leads from the directory to itself: nothing, `.`, and `..` at the root. -/
def Directory.Stays (d : Directory) (comp : Text) : Prop :=
  comp = [] ∨ comp = ['.'] ∨ comp = ['.', '.'] ∧ d.rooted = true ∧ d.components = []

lemma Directory.enter_name {comp : Text} (h : Name comp) (d : Directory) :
    d.enter comp = ⟨d.rooted, d.components ++ [comp]⟩ := by
  have hplain : ¬(comp = [] ∨ comp = ['.']) := not_or.2 ⟨h.1.1, h.1.2.1⟩
  unfold enter walk
  rw [if_neg hplain, if_neg h.2, List.reverse_cons, List.reverse_reverse]

lemma Directory.enter_eq_self_iff {d : Directory} {comp : Text} : d.enter comp = d ↔ d.Stays comp := by
  obtain ⟨rooted, components⟩ := d
  have hiff : enter ⟨rooted, components⟩ comp = ⟨rooted, components⟩ ↔
      walk rooted components.reverse comp = components.reverse := by
    rw [← List.reverse_eq_iff]
    exact ⟨congrArg Directory.components, fun h => congrArg (Directory.mk rooted) h⟩
  rw [hiff]
  unfold walk Stays
  by_cases hsame : comp = [] ∨ comp = ['.']
  · rw [if_pos hsame]
    exact iff_of_true rfl (or_assoc.1 (.inl hsame))
  · rw [if_neg hsame, ← or_assoc, or_iff_right hsame]
    have hlonger : comp :: components.reverse ≠ components.reverse := fun h => List.cons_ne_self comp _ h
    by_cases hup : comp = ['.', '.']
    · rw [if_pos hup, and_iff_right hup]
      dsimp only
      cases hrev : components.reverse with
      | nil =>
        rw [List.reverse_eq_nil_iff] at hrev
        cases rooted with
        | true => exact iff_of_true rfl ⟨rfl, hrev⟩
        | false => exact iff_of_false (List.cons_ne_nil _ _) fun h => Bool.false_ne_true h.1
      | cons last rest =>
        have hne : components ≠ [] := by
          rintro rfl
          cases hrev
        refine iff_of_false ?_ fun h => hne h.2
        rw [hrev] at hlonger
        dsimp only
        split
        · exact hlonger
        · exact fun h => List.cons_ne_self last rest h.symm
    · rw [if_neg hup]
      exact iff_of_false hlonger fun h => hup h.1

/-- A path with one more component. -/
lemma denotes_enter (front : Text) {comp : Text} (hcomp : '/' ∉ comp) :
    denotes (front ++ '/' :: comp) = (denotes (front ++ ['/'])).enter comp := by
  have hhead : (front ++ '/' :: comp).head? = (front ++ ['/']).head? := by
    cases front <;> rfl
  have hsplit : ∀ rest : Text, (front ++ '/' :: rest).splitOn '/' = front.splitOn '/' ++ rest.splitOn '/' :=
    fun rest => List.splitOnP_append_cons _ _ (beq_self_eq_true '/')
  have hone : comp.splitOn '/' = [comp] :=
    List.splitOnP_eq_singleton fun c hc => beq_eq_false_iff_ne.2 fun e => hcomp (e ▸ hc)
  unfold Directory.enter denotes
  rw [hhead, hsplit comp, hsplit [], hone, List.foldl_append, List.foldl_append]
  show Directory.mk _ _ = Directory.mk _ _
  rw [List.reverse_reverse]
  rfl

/-- A slash behind a path says nothing. -/
lemma denotes_append_slash (hne : p ≠ []) : denotes (p ++ ['/']) = denotes p := by
  have hhead : (p ++ ['/']).head? = p.head? := List.head?_append_of_ne_nil p hne
  have hsplit : (p ++ ['/']).splitOn '/' = p.splitOn '/' ++ [[]] :=
    List.splitOnP_append_cons p [] (beq_self_eq_true '/')
  unfold denotes
  rw [hhead, hsplit, List.foldl_append]
  rfl

/-! ### Without the slashes behind it -/

lemma rstripSlash_append {front comp : Text} (hne : comp ≠ []) (hslash : '/' ∉ comp) :
    rstripSlash (front ++ comp) = front ++ comp := by
  obtain ⟨init, c, rfl⟩ := List.eq_nil_or_concat comp |>.resolve_left hne
  have hc : c ≠ '/' := by
    rintro rfl
    rw [List.concat_eq_append] at hslash
    exact hslash (List.mem_append_right _ (List.mem_singleton_self _))
  rw [rstripSlash, List.concat_eq_append, ← List.append_assoc, List.reverse_append, List.reverse_singleton,
    List.singleton_append, List.dropWhile_cons_of_neg (by simpa using hc), List.reverse_cons, List.reverse_reverse]

lemma rstripSlash_slash (p : Text) : rstripSlash (p ++ ['/']) = rstripSlash p := by
  rw [rstripSlash, List.reverse_append, List.reverse_singleton, List.singleton_append,
    List.dropWhile_cons_of_pos (by rfl), rstripSlash]

/-- What is in a directory under a name: `f"{dir.rstrip('/')}/{name}"`. -/
def child (dir name : Text) : Text := rstripSlash dir ++ '/' :: name

/-- What is below a directory under names. -/
def below (dir : Text) (names : List Text) : Text := names.foldl child dir

/-- The directory that children are written below. -/
def place (dir : Text) : Directory := denotes (rstripSlash dir ++ ['/'])

section
variable {dir name : Text}

lemma denotes_child (hname : '/' ∉ name) : denotes (child dir name) = (place dir).enter name :=
  denotes_enter (rstripSlash dir) hname

lemma place_child (hname : '/' ∉ name) : place (child dir name) = (place dir).enter name := by
  rw [← denotes_child hname]
  unfold place child
  by_cases hne : name = []
  · subst hne
    rw [rstripSlash_slash]
    have hsame : rstripSlash (rstripSlash dir) = rstripSlash dir := by
      unfold rstripSlash
      rw [List.reverse_reverse, List.dropWhile_idempotent]
    rw [hsame]
  · have hsplit : rstripSlash dir ++ '/' :: name = (rstripSlash dir ++ ['/']) ++ name := by
      rw [List.append_assoc, List.singleton_append]
    rw [hsplit, rstripSlash_append hne hname]
    exact denotes_append_slash fun h => hne (List.append_eq_nil_iff.1 h).2

lemma place_below {names : List Text} (hnames : ∀ name ∈ names, Name name) :
    place (below dir names) = names.foldl Directory.enter (place dir) := by
  induction names generalizing dir with
  | nil => rfl
  | cons name names ih =>
    have hname : '/' ∉ name := (hnames name List.mem_cons_self).1.2.2
    show place (below (child dir name) names) = _
    rw [ih fun n hn => hnames n (List.mem_cons_of_mem _ hn), place_child hname, List.foldl_cons]

/-- A file's path says where its directory is and what it is called. -/
lemma denotes_below {names : List Text} (hnames : ∀ name ∈ names, Name name) (hne : names ≠ []) :
    denotes (below dir names) = names.foldl Directory.enter (place dir) := by
  obtain ⟨init, last, rfl⟩ := (List.eq_nil_or_concat names).resolve_left hne
  rw [List.concat_eq_append] at hnames ⊢
  have hinit : ∀ name ∈ init, Name name := fun n hn => hnames n (List.mem_append_left _ hn)
  have hlast : Name last := hnames last (List.mem_append_right _ (List.mem_singleton_self _))
  have hbelow : below dir (init ++ [last]) = child (below dir init) last := by
    unfold below
    rw [List.foldl_append, List.foldl_cons, List.foldl_nil]
  rw [hbelow, denotes_child hlast.1.2.2, place_below hinit, List.foldl_append, List.foldl_cons, List.foldl_nil]

end

/-- What is joined ends in the last component. -/
lemma intercalate_ends (hplain : ∀ c ∈ comps, Plain c) (hne : comps ≠ []) :
    ∃ front comp, Plain comp ∧ ['/'].intercalate comps = front ++ comp := by
  induction comps with
  | nil => exact absurd rfl hne
  | cons first rest ih =>
    cases rest with
    | nil => exact ⟨[], first, hplain first List.mem_cons_self, List.intercalate_singleton⟩
    | cons second rest =>
      obtain ⟨front, comp, hcomp, heq⟩ := ih (fun c hc => hplain c (List.mem_cons_of_mem _ hc)) (List.cons_ne_nil _ _)
      refine ⟨first ++ ['/'] ++ front, comp, hcomp, ?_⟩
      rw [List.intercalate_cons_cons, heq, List.append_assoc, List.append_assoc, List.append_assoc]

/-- A normalized path without the slashes behind it. -/
lemma stripped_eq (p : Text) : rstripSlash (normpath p) =
    if (denotes p).components = [] then (if initialSlashes p = 0 then ['.'] else [])
    else List.replicate (initialSlashes p) '/' ++ ['/'].intercalate (denotes p).components := by
  rw [normpath_eq]
  by_cases hc : (denotes p).components = []
  · rw [if_pos hc, hc]
    split
    · rename_i h
      rw [if_pos h.1]
      rfl
    · rename_i h
      rw [if_neg fun e => h ⟨e, rfl⟩]
      show (List.dropWhile _ (List.reverse (List.replicate _ '/' ++ []))).reverse = []
      rw [List.append_nil, List.reverse_replicate, List.dropWhile_replicate]
      rfl
  · obtain ⟨front, comp, hcomp, heq⟩ := intercalate_ends (plain_components p) hc
    rw [if_neg hc, if_neg fun h => hc h.2, heq, ← List.append_assoc]
    exact rstripSlash_append hcomp.1 hcomp.2.2

lemma intercalate_head (hplain : ∀ c ∈ comps, Plain c) (hne : comps ≠ []) :
    ∃ c text, c ≠ '/' ∧ ['/'].intercalate comps = c :: text := by
  obtain ⟨first, rest, rfl⟩ := List.exists_cons_of_ne_nil hne
  have hfirst := hplain first List.mem_cons_self
  obtain ⟨c, text, rfl⟩ := List.exists_cons_of_ne_nil hfirst.1
  have hc : c ≠ '/' := by
    rintro rfl
    exact hfirst.2.2 List.mem_cons_self
  cases rest with
  | nil => exact ⟨c, text, hc, List.intercalate_singleton⟩
  | cons second rest =>
    refine ⟨c, text ++ ['/'] ++ ['/'].intercalate (second :: rest), hc, ?_⟩
    rw [List.intercalate_cons_cons, List.cons_append, List.cons_append]

/-- The slashes in front of what is joined can be told from it. -/
lemma replicate_append_inj {n m : ℕ} {comps comps' : List Text} (hplain : ∀ c ∈ comps, Plain c)
    (hplain' : ∀ c ∈ comps', Plain c) (hne : comps ≠ []) (hne' : comps' ≠ [])
    (h : List.replicate n '/' ++ ['/'].intercalate comps = List.replicate m '/' ++ ['/'].intercalate comps') :
    n = m ∧ comps = comps' := by
  obtain ⟨c, text, hc, heq⟩ := intercalate_head hplain hne
  obtain ⟨c', text', hc', heq'⟩ := intercalate_head hplain' hne'
  have hcount : ∀ (k : ℕ) (d : Char) (t : Text), d ≠ '/' →
      ((List.replicate k '/' ++ d :: t).takeWhile (· = '/')).length = k := by
    intro k d t hd
    induction k with
    | zero => rw [List.replicate_zero, List.nil_append, List.takeWhile_cons_of_neg (by simpa using hd)]; rfl
    | succ k ih => rw [List.replicate_succ, List.cons_append, List.takeWhile_cons_of_pos (by simp), List.length_cons, ih]
  have hn : n = m := by
    have hlen := congrArg (fun t => (List.takeWhile (· = '/') t).length) h
    rw [heq, heq', hcount n c text hc, hcount m c' text' hc'] at hlen
    exact hlen
  refine ⟨hn, ?_⟩
  rw [hn] at h
  have hjoin := congrArg (List.splitOn '/') (List.append_cancel_left h)
  rw [List.splitOn_intercalate _ (fun c hc => (hplain c hc).2.2) hne,
    List.splitOn_intercalate _ (fun c hc => (hplain' c hc).2.2) hne'] at hjoin
  exact hjoin

/-- How a directory is written for comparison: without what says nothing, and the root as one slash. -/
def spelling (p : Text) : Text :=
  let trimmed := rstripSlash (normpath p)
  if trimmed = [] then ['/'] else trimmed

lemma spelling_eq (p : Text) : spelling p =
    if (denotes p).components = [] then (if initialSlashes p = 0 then ['.'] else ['/'])
    else List.replicate (initialSlashes p) '/' ++ ['/'].intercalate (denotes p).components := by
  unfold spelling
  rw [stripped_eq]
  by_cases hc : (denotes p).components = []
  · rw [if_pos hc, if_pos hc]
    split
    · rfl
    · rfl
  · obtain ⟨c, text, -, heq⟩ := intercalate_head (plain_components p) hc
    rw [if_neg hc, if_neg hc, heq]
    exact if_neg fun h => List.cons_ne_nil c text (List.append_eq_nil_iff.1 h).2

lemma denotes_rooted (p : Text) : (denotes p).rooted = decide (initialSlashes p ≠ 0) := by
  show decide (p.head? = some '/') = _
  rw [decide_eq_decide, ne_eq, initialSlashes_eq_zero, not_not]

/-- Two spellings of one directory agree, but for two slashes at the start. -/
theorem spelling_eq_iff : spelling p = spelling q ↔
    denotes p = denotes q ∧ ((denotes p).components ≠ [] → initialSlashes p = initialSlashes q) := by
  have hdirectory : denotes p = denotes q ↔
      (initialSlashes p = 0 ↔ initialSlashes q = 0) ∧ (denotes p).components = (denotes q).components := by
    constructor
    · intro h
      have hr := congrArg Directory.rooted h
      rw [denotes_rooted, denotes_rooted, decide_eq_decide, ne_eq, ne_eq, not_iff_not] at hr
      exact ⟨hr, congrArg Directory.components h⟩
    · rintro ⟨hr, hc⟩
      have hrooted : (denotes p).rooted = (denotes q).rooted := by
        rw [denotes_rooted, denotes_rooted, decide_eq_decide, ne_eq, ne_eq, hr]
      cases hp : denotes p
      cases hq : denotes q
      rw [hp, hq] at hrooted hc
      exact congrArg₂ Directory.mk hrooted hc
  have hroot : ∀ (c : Char) (n : ℕ) (comps : List Text), (∀ x ∈ comps, Plain x) → comps ≠ [] → (c = '.' ∨ c = '/') →
      [c] ≠ List.replicate n '/' ++ ['/'].intercalate comps := by
    intro c n comps hplain hne hc h
    obtain ⟨d, text, hd, heq⟩ := intercalate_head hplain hne
    cases n with
    | zero =>
      rw [List.replicate_zero, List.nil_append] at h
      rcases hc with rfl | rfl
      · have hjoin := congrArg (List.splitOn '/') h
        rw [List.splitOn_intercalate _ (fun c hc => (hplain c hc).2.2) hne] at hjoin
        exact (hplain ['.'] (hjoin ▸ List.mem_singleton_self _)).2.1 rfl
      · rw [heq] at h
        exact hd (List.cons.inj h).1.symm
    | succ n =>
      have hlen := congrArg List.length h
      rw [heq, List.length_append, List.length_replicate, List.length_cons, List.length_cons, List.length_nil] at hlen
      omega
  rw [spelling_eq, spelling_eq, hdirectory]
  by_cases hp : (denotes p).components = []
  · rw [if_pos hp, hp]
    by_cases hq : (denotes q).components = []
    · rw [if_pos hq, hq]
      by_cases h₀ : initialSlashes p = 0
      · by_cases h₁ : initialSlashes q = 0
        · simp [h₀, h₁]
        · simp [h₀, h₁]
      · by_cases h₁ : initialSlashes q = 0
        · simp [h₀, h₁]
        · simp [h₀, h₁]
    · rw [if_neg hq]
      refine iff_of_false ?_ fun h => hq h.1.2.symm
      split
      · exact hroot '.' _ _ (plain_components q) hq (.inl rfl)
      · exact hroot '/' _ _ (plain_components q) hq (.inr rfl)
  · rw [if_neg hp]
    by_cases hq : (denotes q).components = []
    · rw [if_pos hq]
      refine iff_of_false (fun h => ?_) fun h => hp (h.1.2.trans hq)
      split at h
      · exact hroot '.' _ _ (plain_components p) hp (.inl rfl) h.symm
      · exact hroot '/' _ _ (plain_components p) hp (.inr rfl) h.symm
    · rw [if_neg hq]
      constructor
      · intro h
        obtain ⟨hn, hc⟩ := replicate_append_inj (plain_components p) (plain_components q) hp hq h
        exact ⟨⟨by rw [hn], hc⟩, fun _ => hn⟩
      · rintro ⟨⟨-, hc⟩, hn⟩
        rw [hn hp, hc]

/-! ### Other spellings -/

/-- One more slash in front of the first says nothing. -/
lemma denotes_slash (p : Text) : denotes ('/' :: '/' :: p) = denotes ('/' :: p) := by
  have hsplit : ('/' :: '/' :: p).splitOn '/' = [] :: ('/' :: p).splitOn '/' := by
    rw [List.splitOn_cons_eq_if_modifyHead, if_pos (beq_self_eq_true '/')]
  show Directory.mk _ _ = Directory.mk _ _
  rw [hsplit]
  rfl

/-- Every directory below the root has another spelling, with one slash in front or with two. -/
lemma exists_other_spelling (hrooted : (denotes p).rooted = true) (hcomps : (denotes p).components ≠ []) :
    ∃ q, denotes q = denotes p ∧ spelling q ≠ spelling p := by
  suffices h : ∃ q, denotes q = denotes p ∧ initialSlashes q ≠ initialSlashes p by
    obtain ⟨q, hq, hn⟩ := h
    exact ⟨q, hq, fun e => hn ((spelling_eq_iff.1 e).2 (hq ▸ hcomps))⟩
  -- the slashes in front, and what is behind them
  obtain ⟨n, rest, hrest, rfl⟩ : ∃ n rest, rest.head? ≠ some '/' ∧ p = List.replicate n '/' ++ rest := by
    refine ⟨(p.takeWhile (· = '/')).length, p.dropWhile (· = '/'), fun h => ?_, ?_⟩
    · have hhead := List.head?_dropWhile_not (· = '/') p
      rw [h] at hhead
      exact Bool.noConfusion hhead
    · have htake : List.replicate (p.takeWhile (· = '/')).length '/' = p.takeWhile (· = '/') :=
        (List.eq_replicate_iff.2 ⟨rfl, fun c hc => by simpa using List.mem_takeWhile_imp hc⟩).symm
      rw [htake, List.takeWhile_append_dropWhile]
  have hsame : ∀ n, denotes (List.replicate (n + 1) '/' ++ rest) = denotes ('/' :: rest) := by
    intro n
    induction n with
    | zero => rfl
    | succ n ih => exact (denotes_slash _).trans ih
  obtain ⟨n, rfl⟩ : ∃ m, n = m + 1 := by
    cases n with
    | zero => exact absurd (of_decide_eq_true hrooted) hrest
    | succ n => exact ⟨n, rfl⟩
  rw [hsame] at hcomps ⊢
  have hone : initialSlashes ('/' :: rest) = 1 := by
    cases rest with
    | nil => rfl
    | cons c rest =>
      have hc : c ≠ '/' := fun e => hrest (congrArg some e)
      simp [initialSlashes, hc]
  have htwo : initialSlashes ('/' :: '/' :: rest) = 2 := by
    cases rest with
    | nil => rfl
    | cons c rest =>
      have hc : c ≠ '/' := fun e => hrest (congrArg some e)
      simp [initialSlashes, hc]
  by_cases hn : initialSlashes (List.replicate (n + 1) '/' ++ rest) = 2
  · exact ⟨'/' :: rest, rfl, by rw [hone, hn]; exact Nat.ne_of_lt Nat.one_lt_two⟩
  · exact ⟨'/' :: '/' :: rest, denotes_slash rest, by rw [htwo]; exact fun e => hn e.symm⟩

/-! ### Relative paths -/

/-- A path read in a directory. -/
def absolute (cwd p : Text) : Text := if p.head? = some '/' then p else join cwd p

/-- The components that are written out in the normal form of a path. -/
def parts (cwd p : Text) : List Text := ((normpath (absolute cwd p)).splitOn '/').filter (· ≠ [])

/-- How long two lists are one. -/
def commonLength : List Text → List Text → ℕ
  | a :: as, b :: bs => if a = b then commonLength as bs + 1 else 0
  | _, _ => 0

/-- `posixpath.relpath` -/
def relpath (cwd p start : Text) : Text :=
  let start_list := parts cwd start
  let path_list := parts cwd p
  let i := commonLength start_list path_list
  match List.replicate (start_list.length - i) ['.', '.'] ++ path_list.drop i with
  | [] => ['.']
  | first :: rest => rest.foldl join first

lemma rstripSlash_spec (p : Text) : ∃ k, p = rstripSlash p ++ List.replicate k '/' := by
  refine ⟨(p.reverse.takeWhile (· = '/')).length, ?_⟩
  have htake : p.reverse.takeWhile (· = '/') = List.replicate (p.reverse.takeWhile (· = '/')).length '/' :=
    List.eq_replicate_iff.2 ⟨rfl, fun c hc => by simpa using List.mem_takeWhile_imp hc⟩
  have hsplit := congrArg List.reverse (List.takeWhile_append_dropWhile (p := (· = '/')) (l := p.reverse))
  rw [List.reverse_append, List.reverse_reverse, htake, List.reverse_replicate] at hsplit
  exact hsplit.symm

/-- The slashes behind a path say nothing. -/
lemma place_eq (hne : p ≠ []) : place p = denotes p := by
  obtain ⟨k, hk⟩ := rstripSlash_spec p
  have hslashes : ∀ k, denotes (rstripSlash p ++ List.replicate (k + 1) '/') = place p := by
    intro k
    induction k with
    | zero => rfl
    | succ k ih =>
      have hfront : rstripSlash p ++ List.replicate (k + 1) '/' ≠ [] :=
        fun h => List.cons_ne_nil _ _ (List.append_eq_nil_iff.1 h).2
      rw [List.replicate_succ', ← List.append_assoc, denotes_append_slash hfront]
      exact ih
  cases k with
  | zero =>
    have hsame : rstripSlash p = p := by
      rw [List.replicate_zero, List.append_nil] at hk
      exact hk.symm
    unfold place
    rw [hsame]
    exact denotes_append_slash hne
  | succ k => rw [← hslashes k, ← hk]

lemma child_ne_nil (dir name : Text) : child dir name ≠ [] :=
  fun h => List.cons_ne_nil _ _ (List.append_eq_nil_iff.1 h).2

lemma head_child {dir : Text} (hne : dir ≠ []) (name : Text) : (child dir name).head? = dir.head? := by
  obtain ⟨k, hk⟩ := rstripSlash_spec dir
  unfold child
  cases hr : rstripSlash dir with
  | nil =>
    rw [hr, List.nil_append] at hk
    cases k with
    | zero => exact absurd hk hne
    | succ k =>
      rw [hk]
      rfl
  | cons c rest =>
    rw [hk, hr]
    rfl

lemma rstripSlash_append_left (front : Text) (hne : rstripSlash p ≠ []) :
    rstripSlash (front ++ p) = front ++ rstripSlash p := by
  have hdrop : p.reverse.dropWhile (· = '/') ≠ [] := fun h => hne (congrArg List.reverse h)
  unfold rstripSlash
  rw [List.reverse_append, List.dropWhile_append, if_neg (by simpa using hdrop), List.reverse_append,
    List.reverse_reverse]

/-- Reading a path in a directory and going down commute. -/
lemma absolute_child (cwd : Text) {dir : Text} (hne : dir ≠ []) (name : Text) :
    absolute cwd (child dir name) = child (absolute cwd dir) name := by
  unfold absolute
  rw [head_child hne]
  split
  · rfl
  · rename_i hrel
    have hrelChild : (child dir name).head? ≠ some '/' := by
      rw [head_child hne]
      exact hrel
    have hr : rstripSlash dir ≠ [] := by
      intro hr
      obtain ⟨k, hk⟩ := rstripSlash_spec dir
      rw [hr, List.nil_append] at hk
      cases k with
      | zero => exact hne hk
      | succ k =>
        rw [hk] at hrel
        exact hrel rfl
    unfold join
    rw [if_neg hrelChild, if_neg hrel]
    unfold child
    split
    · rw [rstripSlash_append_left cwd hr, List.append_assoc]
    · have hcons : cwd ++ '/' :: dir = (cwd ++ ['/']) ++ dir := by
        rw [List.append_assoc, List.singleton_append]
      rw [hcons, rstripSlash_append_left _ hr, List.append_assoc, List.append_assoc, List.singleton_append]

lemma absolute_below (cwd : Text) {dir : Text} (hne : dir ≠ []) (names : List Text) :
    absolute cwd (below dir names) = below (absolute cwd dir) names := by
  induction names generalizing dir with
  | nil => rfl
  | cons name names ih =>
    show absolute cwd (below (child dir name) names) = _
    rw [ih (child_ne_nil dir name), absolute_child cwd hne]
    rfl

lemma head_absolute {cwd : Text} (hcwd : cwd.head? = some '/') (p : Text) : (absolute cwd p).head? = some '/' := by
  unfold absolute
  split
  · assumption
  · rename_i hrel
    obtain ⟨rest, rfl⟩ := List.head?_eq_some_iff.1 hcwd
    unfold join
    rw [if_neg hrel]
    split
    · rfl
    · rfl

/-- The components of a path from the root are those that it denotes. -/
lemma parts_eq {cwd : Text} (hcwd : cwd.head? = some '/') (p : Text) :
    parts cwd p = (denotes (absolute cwd p)).components := by
  have hhead := head_absolute hcwd p
  have hslashes : ∀ (n : ℕ) (t : Text),
      ((List.replicate n '/' ++ t).splitOn '/').filter (· ≠ []) = (t.splitOn '/').filter (· ≠ []) := by
    intro n t
    induction n with
    | zero => rfl
    | succ n ih =>
      rw [List.replicate_succ, List.cons_append, List.splitOn_cons_eq_if_modifyHead, if_pos (beq_self_eq_true '/'),
        List.filter_cons_of_neg (by simp), ih]
  have hrooted : ¬(initialSlashes (absolute cwd p) = 0 ∧ (denotes (absolute cwd p)).components = []) :=
    fun h => initialSlashes_eq_zero.1 h.1 hhead
  have hplain := plain_components (absolute cwd p)
  unfold parts
  rw [normpath_eq, if_neg hrooted, hslashes]
  by_cases hnil : (denotes (absolute cwd p)).components = []
  · rw [hnil]
    rfl
  · rw [List.splitOn_intercalate _ (fun c hc => (hplain c hc).2.2) hnil]
    exact List.filter_eq_self.2 fun c hc => by simpa using (hplain c hc).1

lemma commonLength_append (start names : List Text) : commonLength start (start ++ names) = start.length := by
  induction start with
  | nil => cases names <;> rfl
  | cons first rest ih =>
    unfold commonLength
    rw [List.cons_append]
    dsimp only
    rw [if_pos rfl, ih]
    rfl

/-- Joining names writes slashes between them. -/
lemma foldl_join {first : Text} {names : List Text} (hfirst : Name first) (hnames : ∀ name ∈ names, Name name) :
    names.foldl join first = ['/'].intercalate (first :: names) := by
  have hlast : ∀ (front : Text) {name : Text}, Name name → (front ++ name).getLast? ≠ some '/' := by
    intro front name hname h
    rw [List.getLast?_append_of_ne_nil _ hname.1.1] at h
    exact hname.1.2.2 (List.mem_of_getLast? h)
  have hfold : ∀ (names : List Text) (front first : Text), Name first → (∀ name ∈ names, Name name) →
      names.foldl join (front ++ first) = front ++ ['/'].intercalate (first :: names) := by
    intro names
    induction names with
    | nil =>
      intro front first _ _
      rw [List.intercalate_singleton]
      rfl
    | cons name names ih =>
      intro front first hfirst hnames
      have hname := hnames name List.mem_cons_self
      have hhead : name.head? ≠ some '/' := fun h => hname.1.2.2 (List.mem_of_mem_head? h)
      have hne : front ++ first ≠ [] := fun h => hfirst.1.1 (List.append_eq_nil_iff.1 h).2
      have hjoin : join (front ++ first) name = (front ++ first ++ ['/']) ++ name := by
        have hcond : ¬(decide (front ++ first = []) || decide ((front ++ first).getLast? = some '/')) = true := by
          rw [decide_eq_false hne, decide_eq_false (hlast front hfirst)]
          exact Bool.false_ne_true
        unfold join
        rw [if_neg hhead, if_neg hcond, List.append_assoc _ ['/'], List.singleton_append]
      rw [List.foldl_cons, hjoin, ih _ _ hname fun n hn => hnames n (List.mem_cons_of_mem _ hn),
        List.intercalate_cons_cons, List.append_assoc, List.append_assoc, List.append_assoc]
  exact hfold names [] first hfirst hnames

/-- The text of what is below a directory. -/
lemma below_eq {dir : Text} {names : List Text} (hnames : ∀ name ∈ names, Name name) (hne : names ≠ []) :
    below dir names = rstripSlash dir ++ '/' :: ['/'].intercalate names := by
  induction names generalizing dir with
  | nil => exact absurd rfl hne
  | cons first rest ih =>
    cases rest with
    | nil =>
      rw [List.intercalate_singleton]
      rfl
    | cons second rest =>
      have hfirst := (hnames first List.mem_cons_self).1
      have htrim : rstripSlash (child dir first) = rstripSlash dir ++ '/' :: first := by
        have hsplit : child dir first = (rstripSlash dir ++ ['/']) ++ first := by
          rw [List.append_assoc, List.singleton_append]
          rfl
        rw [hsplit, rstripSlash_append hfirst.1 hfirst.2.2, List.append_assoc, List.singleton_append]
      show below (child dir first) (second :: rest) = _
      rw [ih (fun n hn => hnames n (List.mem_cons_of_mem _ hn)) (List.cons_ne_nil _ _), htrim,
        List.intercalate_cons_cons, List.append_assoc, List.append_assoc, List.cons_append, List.singleton_append]

/-- From a directory, what is below it is reached by its names. -/
theorem relpath_below {cwd dir : Text} {names : List Text} (hcwd : cwd.head? = some '/') (hdir : dir ≠ [])
    (hnames : ∀ name ∈ names, Name name) (hne : names ≠ []) :
    relpath cwd (below dir names) dir = ['/'].intercalate names := by
  obtain ⟨first, rest, rfl⟩ := List.exists_cons_of_ne_nil hne
  have hfirst := hnames first List.mem_cons_self
  have hrest : ∀ name ∈ rest, Name name := fun n hn => hnames n (List.mem_cons_of_mem _ hn)
  have habs : absolute cwd dir ≠ [] := by
    intro h
    have hhead := head_absolute hcwd dir
    rw [h] at hhead
    cases hhead
  have henter : ∀ (names : List Text) (d : Directory), (∀ name ∈ names, Name name) →
      (names.foldl Directory.enter d).components = d.components ++ names := by
    intro names
    induction names with
    | nil => exact fun d _ => (List.append_nil _).symm
    | cons name names ih =>
      intro d hnames
      rw [List.foldl_cons, ih _ fun n hn => hnames n (List.mem_cons_of_mem _ hn),
        Directory.enter_name (hnames name List.mem_cons_self), List.append_assoc, List.singleton_append]
  have hparts : parts cwd (below dir (first :: rest)) = parts cwd dir ++ first :: rest := by
    rw [parts_eq hcwd, parts_eq hcwd, absolute_below cwd hdir, denotes_below hnames hne, henter _ _ hnames,
      place_eq habs]
  have hlist : List.replicate ((parts cwd dir).length - commonLength (parts cwd dir) (parts cwd dir ++ first :: rest))
      ['.', '.'] ++ (parts cwd dir ++ first :: rest).drop
        (commonLength (parts cwd dir) (parts cwd dir ++ first :: rest)) = first :: rest := by
    rw [commonLength_append, Nat.sub_self, List.drop_left]
    rfl
  unfold relpath
  dsimp only
  rw [hparts, hlist]
  exact foldl_join hfirst hrest

end PosixPath
