import SshGpuConsole.Lib.PyText
import SshGpuConsole.Workspace.Models

/-!
# Placement inspection

The command string of `PlacementInspector.inspect` (`workspace/inspection.py`) and its counterpart in
the sync planner. Both assign the path to a shell variable and run a fixed script on the variable; the
planner quotes the path, the inspector pastes it in.
-/

namespace SshGpuConsole.Inspection
open Shell PyText Workspace

/-- `_safe_path`: the path without blanks around it, if it is one line. -/
def safePath (remote_path : Text) : Except Text Text :=
  let candidate := strip remote_path
  if candidate.isEmpty then .error "remote path is empty".toList
  else if candidate.any isControl then .error "remote path contains control characters".toList
  else .ok candidate

/-- The script `inspect` runs on the variable `p`. -/
def inspectionScript : Text :=
  ("if [ -e \"$p\" ]; then" ++ " printf 'EXISTS '; stat -c '%F|%s' -- \"$p\";" ++
    " if [ -d \"$p\" ]; then printf ' COUNT ';" ++
    " find \"$p\" -maxdepth 1 -type f 2>/dev/null | wc -l;" ++ " else echo; fi;" ++
    "else echo MISSING; fi").toList

/-- The command `PlacementInspector.inspect` hands to the executor for a checked path. -/
def inspectCommand (path : Text) : Text := "p=".toList ++ path ++ ";".toList ++ inspectionScript

/-- `_PREFLIGHT_COMMAND` of the sync planner, behind the assignment of `p`. -/
def preflightScript : Text :=
  "if [ -L \"$p\" ]; then echo SYMLINK; elif [ -e \"$p\" ]; then echo OK; else echo MISSING; fi".toList

/-- A command that assigns `path` to `p`, verbatim, and then is `script` and nothing else. -/
def AssignsPath (command path script : Text) : Prop :=
  ∃ w ts, lex (.gap false) command = some (.word w :: ts) ∧ assigns w = some ("p".toList, path) ∧
    lex (.gap true) (';' :: script) = some ts

/-- A path the shell takes as it stands in an assignment: no active character and no tilde-prefix. -/
def PathInert (path : Text) : Prop :=
  Inert path ∧ hasTildePrefix true (path.map fun c => (false, c)) = false

/-- The sync planner's preflight command for a path. -/
def preflightCommand (path : Text) : Text :=
  "p=".toList ++ quote path ++ ";".toList ++ preflightScript

/-- The script of an assignment is read from where the assigned word ends. -/
lemma lex_assignment {source : Text} {w : Word}
    (h : run (.bare (lits false "p=".toList)) source = some (.bare w, [])) (script : Text) :
    lex (.gap false) ("p=".toList ++ source ++ ";".toList ++ script) =
      (lex (.gap true) (';' :: script)).map (.word w :: ·) := by
  have hp : run (.gap false) "p=".toList = some (.bare (lits false "p=".toList), []) := rfl
  have hw : step (.bare w) ';' = some (.gap true, [.word w, .op true ';']) := rfl
  have hg : step (.gap true) ';' = some (.gap true, [.op true ';']) := rfl
  rw [List.append_assoc, List.append_assoc, lex_append hp, lex_append h]
  simp only [show ";".toList ++ script = ';' :: script from rfl, lex_cons, hw, hg, Option.bind_some,
    Option.map_map]
  rfl

/-- The assignment a literal word `p=...` makes. -/
lemma assigns_literal {w : Word} {cs : List (Bool × Char)} (h : literal w = some cs)
    (ht : hasTildePrefix true cs = false) :
    assigns (lits false "p=".toList ++ w) = some ("p".toList, cs.map Prod.snd) := by
  have hl : literal (lits false "p=".toList ++ w) = some ((false, 'p') :: (false, '=') :: cs) := by
    rw [literal_append, literal_lits, h]
    rfl
  have hs : assignSplit ((false, 'p') :: (false, '=') :: cs) = some ("p".toList, cs) := rfl
  rw [assigns, hl, Option.bind_eq_bind, Option.bind_some, hs]
  simp [ht]

/-- The inspection command assigns an inert path verbatim. -/
lemma assignsPath_of_inert {path script : Text} {ts : List Token}
    (hs : lex (.gap true) (';' :: script) = some ts) (h : PathInert path) :
    AssignsPath ("p=".toList ++ path ++ ";".toList ++ script) path script := by
  have hr := run_bare_inert h.1 (lits false "p=".toList)
  refine ⟨lits false "p=".toList ++ lits false path, ts, ?_, ?_, hs⟩
  · rw [lex_assignment hr, hs]
    rfl
  · have ha := assigns_literal (literal_lits false path) h.2
    simpa [Function.comp_def] using ha

/-- Only an inert path is assigned verbatim. -/
lemma inert_of_assignsPath {path script : Text} (hnl : '\n' ∉ path)
    (h : AssignsPath ("p=".toList ++ path ++ ";".toList ++ script) path script) : PathInert path := by
  obtain ⟨w, ts, hlex, hw, hts⟩ := h
  obtain ⟨n, v, hlit, hn, hv, ht⟩ := text_of_assigns hw
  have htext : text w = some ("p=".toList ++ path) := by
    rw [text, hlit, Option.map_some, List.map_append, List.map_cons, hn, hv]
    rfl
  have hp : run (.gap false) "p=".toList = some (.bare (lits false "p=".toList), []) := rfl
  have hp' : ∀ c ∈ ['p', '='], isTerminator c = false :=
    List.forall_mem_cons.2 ⟨rfl, List.forall_mem_singleton.2 rfl⟩
  have hi : Inert path := by
    rw [List.append_assoc, List.append_assoc, lex_append hp] at hlex
    exact inert_of_text_eq (d := ';') (text_lits false _) hp' hnl (by decide)
      (by decide) (by simpa using hlex) htext
  refine ⟨hi, ?_⟩
  rw [lex_assignment (run_bare_inert hi _), hts] at hlex
  simp only [Option.map_some, Option.some.injEq, List.cons.injEq, Token.word.injEq] at hlex
  obtain ⟨rfl, -⟩ := hlex
  -- the literal pieces of the word are those of `p=` and of the path, so `v` is the path unquoted
  have ha : literal (lits false "p=".toList ++ lits false path) =
      some ("p=".toList.map (false, ·) ++ path.map (false, ·)) := by
    rw [literal_append, literal_lits, literal_lits]
    rfl
  have hcs := Option.some.inj (hlit.symm.trans ha)
  have hlen : n.length = 1 := by simpa using congrArg List.length hn
  obtain ⟨b, rfl⟩ := List.length_eq_one_iff.1 hlen
  have hv' : v = path.map (false, ·) := (List.cons.inj (List.cons.inj hcs).2).2
  rw [← hv']
  exact ht

/-- An accepted path is one line. -/
lemma safePath_ok {remote_path path : Text} (h : safePath remote_path = .ok path) :
    path = strip remote_path ∧ path ≠ [] ∧ '\n' ∉ path := by
  simp only [safePath] at h
  split_ifs at h with he hc
  cases h
  refine ⟨rfl, by simpa using he, fun hm => ?_⟩
  exact hc (List.any_eq_true.2 ⟨'\n', hm, rfl⟩)

/-- The characters of a text that ends in a literal. -/
lemma toList_append_ofList {s : String} {t l : Text} (h : s.toList = t) : (s ++ String.ofList l).toList = t ++ l := by
  rw [String.toList_append, h, String.toList_ofList]

/-- The inspection script is complete: the lexer reads it to its end. -/
lemma inspectionScript_lexes : ∃ ts, lex (.gap true) (';' :: inspectionScript) = some ts := by
  -- the script as a list of characters, for the kernel is slow to decode literals
  have hscript : inspectionScript = _ := toList_append_ofList (toList_append_ofList (toList_append_ofList
    (toList_append_ofList (toList_append_ofList String.toList_ofList))))
  rw [hscript]
  exact Option.isSome_iff_exists.1 (by decide +kernel)

/-- What `inspect` runs is the fixed script on the accepted path exactly when the shell takes that path
as it stands. -/
theorem inspect_assigns_iff {remote_path path : Text} (h : safePath remote_path = .ok path) :
    AssignsPath (inspectCommand path) path inspectionScript ↔ PathInert path := by
  obtain ⟨ts, hs⟩ := inspectionScript_lexes
  exact ⟨inert_of_assignsPath (safePath_ok h).2.2, assignsPath_of_inert hs⟩

/-- At an ordinary path. -/
theorem inspect_assigns_ordinary :
    safePath " /data/sets/v1 ".toList = .ok "/data/sets/v1".toList ∧
      (AssignsPath (inspectCommand "/data/sets/v1".toList) "/data/sets/v1".toList inspectionScript ↔
        PathInert "/data/sets/v1".toList) :=
  ⟨by decide, @inspect_assigns_iff " /data/sets/v1 ".toList _ (by decide)⟩

/-- A path with a blank in it is accepted, and the shell runs its second half as a command. -/
theorem inspect_splits_blank_path :
    ¬∀ remote_path path, safePath remote_path = .ok path →
      AssignsPath (inspectCommand path) path inspectionScript := by
  intro h
  have hi := inert_of_assignsPath (by decide) (h "/data/my set".toList "/data/my set".toList (by decide))
  exact absurd (hi.1 ' ' (by decide)) (by decide)

/-- A quoted word holds no tilde-prefix. -/
lemma hasTildePrefix_quoteWord (path : Text) (start : Bool) :
    hasTildePrefix start (path.map fun c => (path.isEmpty || !path.all isSafe, c)) = false := by
  have key : ∀ (q : Bool) (t : Text), (q = true ∨ '~' ∉ t) → ∀ start,
      hasTildePrefix start (t.map fun c => (q, c)) = false := by
    intro q t hq
    induction t with
    | nil => exact fun _ => rfl
    | cons c t ih =>
      intro start
      rw [List.map_cons, hasTildePrefix, ih (hq.imp_right fun h hm => h (List.mem_cons_of_mem _ hm))]
      rcases hq with rfl | hq
      · simp
      · have hc : c ≠ '~' := fun h => hq (h ▸ List.mem_cons_self)
        simp [hc]
  refine key _ path ?_ start
  by_cases hq : (path.isEmpty || !path.all isSafe) = true
  · exact .inl hq
  · right
    intro hm
    simp only [Bool.or_eq_true, not_or, Bool.not_eq_true', Bool.not_eq_false] at hq
    exact (isSafe_plain (List.all_eq_true.1 hq.2 _ hm)).2.2.1 rfl

/-- The sync planner's command assigns every path verbatim, for it quotes it. -/
theorem preflight_assigns (path : Text) :
    AssignsPath (preflightCommand path) path preflightScript := by
  obtain ⟨ts, hs⟩ : ∃ ts, lex (.gap true) (';' :: preflightScript) = some ts := by
    have hscript : preflightScript = _ := String.toList_ofList
    rw [hscript]
    exact Option.isSome_iff_exists.1 (by decide +kernel)
  have hr := run_bare_quote path (lits false "p=".toList)
  refine ⟨lits false "p=".toList ++ quoteWord path, ts, ?_, ?_, hs⟩
  · rw [preflightCommand, lex_assignment hr, hs]
    rfl
  · have hl : literal (quoteWord path) = some (path.map fun c => (path.isEmpty || !path.all isSafe, c)) :=
      literal_lits _ path
    have ha := assigns_literal hl (hasTildePrefix_quoteWord path true)
    simpa [Function.comp_def] using ha

end SshGpuConsole.Inspection
