import SshGpuConsole.Lib.PyLines
import SshGpuConsole.Transfer.Batch
import SshGpuConsole.Workspace.Inspection
import SshGpuConsole.Workspace.Service

/-!
# Placement checks and the distribution

`PlacementInspector` (`workspace/inspection.py`) and `DistributionService` (`workspace/distribution.py`) as
programs over what they call: the repository, the executors of the servers, the cache of observations, the
transfer service and the clock. The cache keeps with each observation the placement record it was made for,
and every command that was answered is remembered; no program reads either. At the end, what the parsers make
of the output the inspection command prints.
-/

namespace SshGpuConsole.Workspace
open Shell PyText
open Effect (Prog Sem)

inductive InspectionState where
  | declared
  | verified
  | missing
  | unavailable
  deriving DecidableEq, Repr

structure PlacementInspection where
  placement_id : Text
  state : InspectionState
  file_type : Option Text := none
  size_b : Option Int := none
  file_count : Option Int := none
  checked_at : Text := []
  detail : Text := []
  deriving DecidableEq, Repr

inductive DistributionState where
  | declared
  | verified
  | missing
  | unavailable
  | syncing
  deriving DecidableEq, Repr

/-- `_OBSERVATION_STATE`, and `_INSPECTION_TO_STATE` of the sync planner. -/
def InspectionState.distribution : InspectionState → DistributionState
  | .verified => .verified
  | .missing => .missing
  | .unavailable => .unavailable
  | .declared => .declared

structure ArtifactServerDistribution where
  artifact_id : Text
  artifact_label : Text
  artifact_kind : Text
  server_id : Text
  placement_id : Text
  remote_path : Text
  state : DistributionState
  checked_at : Option Text := none
  detail : Option Text := none
  active_transfer_job_id : Option Text := none
  deriving DecidableEq, Repr

structure ProjectDistribution where
  project_id : Text
  generated_at : Text
  items : List ArtifactServerDistribution
  deriving DecidableEq, Repr

/-- What the distribution reads of a `TransferJob`. -/
structure TransferJob where
  job_id : Text
  state : Batch.TransferState
  artifact_id : Text
  target_server_id : Text
  deriving DecidableEq, Repr

inductive TransferStrategy where
  | auto
  | directRsync
  | localRelay
  deriving DecidableEq, Repr

structure TransferRequest where
  artifact_id : Text
  source_placement_id : Text
  target_server_id : Text
  target_path : Text
  strategy : TransferStrategy := .auto
  deriving DecidableEq, Repr

/-- What the sync planner reads of a `TransferPlan`. -/
structure TransferPlan where
  strategy_selected : Option TransferStrategy := none
  reason : Text := []
  space_warning : Text := []
  deriving DecidableEq, Repr

structure CommandResult where
  exit_code : Option Int
  stdout : Text
  deriving DecidableEq, Repr

/-! ### The environment -/

/-- What a program raises. -/
inductive Raised where
  /-- by the workspace -/
  | failure (f : Failure)
  /-- another `AppError` -/
  | app (message : Text)
  /-- another `Exception` -/
  | exception (message : Text)
  /-- a `BaseException` that is no `Exception`, such as a cancellation -/
  | base
  deriving DecidableEq, Repr

/-- `isinstance(exc, AppError)`. -/
def Raised.isApp : Raised → Bool
  | .failure (.conflict _) | .failure (.notFound _ _) | .app _ => true
  | _ => false

/-- `isinstance(exc, Exception)`. -/
def Raised.isException : Raised → Bool
  | .base => false
  | _ => true

inductive SiteOp where
  | repo (o : RepoOp)
  /-- `executor_for(server_id)` -/
  | executorFor (server_id : Text)
  /-- `executor.run(command)` of the server's executor -/
  | run (server_id command : Text)
  /-- `_latest.get(placement_id)` -/
  | latest (placement_id : Text)
  /-- `_record`, for the placement that was checked -/
  | record (placement : Placement) (inspection : PlacementInspection)
  /-- `active_transfers()` -/
  | activeTransfers
  /-- `plan_transfer(request)` -/
  | planTransfer (request : TransferRequest)
  /-- `utc_now()` -/
  | now
  /-- the end of `asyncio.gather`, and the first exception among its results -/
  | gathered

@[reducible] def SiteOp.Ans : SiteOp → Type
  | .repo o => o.Ans
  | .run _ _ => CommandResult
  | .latest _ => Option PlacementInspection
  | .activeTransfers => List TransferJob
  | .planTransfer _ => TransferPlan
  | .now => Text
  | .executorFor _ | .record _ _ | .gathered => Unit

/-- An observation with the placement record it was made for. -/
structure Recorded where
  placement : Placement
  inspection : PlacementInspection
  deriving DecidableEq

structure Site where
  repo : Repo
  cache : Table fun r : Recorded => r.inspection.placement_id
  /-- The commands that were answered, with their servers. -/
  executed : List (Text × Text)
  deriving DecidableEq

/-- What the environment decides about a call. -/
structure SiteChoice where
  /-- The save succeeds. -/
  saves : Bool := true
  executor : Except Raised Unit := .ok ()
  result : Except Raised CommandResult := .error (.exception [])
  jobs : List TransferJob := []
  plan : Except Raised TransferPlan := .error (.exception [])
  now : Text := []
  gathered : Except Raised Unit := .ok ()

def site : Sem SiteOp SiteOp.Ans Raised Site SiteChoice where
  act
    | .repo o, c, s =>
      ((repository.act o c.saves s.repo).1.mapError .failure, { s with repo := (repository.act o c.saves s.repo).2 })
    | .executorFor _, c, s => (c.executor, s)
    | .run server_id command, c, s =>
      match c.result with
      | .ok result => (.ok result, { s with executed := (server_id, command) :: s.executed })
      | .error e => (.error e, s)
    | .latest placement_id, _, s => (.ok ((s.cache.get placement_id).map Recorded.inspection), s)
    | .record placement inspection, _, s => (.ok (), { s with cache := s.cache.set ⟨placement, inspection⟩ })
    | .activeTransfers, c, s => (.ok c.jobs, s)
    | .planTransfer _, c, s => (c.plan, s)
    | .now, c, s => (.ok c.now, s)
    | .gathered, c, s => (c.gathered, s)

abbrev Watch (α : Type) := Prog SiteOp SiteOp.Ans Raised α

def ask (o : SiteOp) : Watch o.Ans := Prog.perform o

/-- The workspace's own failure, of an exception a repository step raised. -/
def Raised.toFailure : Raised → Failure
  | .failure f => f
  | _ => .save

/-- A service method. -/
def ofService {α : Type} (p : Service α) : Watch α := Prog.embed SiteOp.repo (fun _ => id) Raised.failure Raised.toFailure p

/-- A function for each element, one after the other. -/
def eachOf {α β : Type} (f : α → Watch β) : List α → Watch (List β)
  | [] => return []
  | a :: as => do
    let first ← f a
    let others ← eachOf f as
    return first :: others

/-- Python's functions on texts and exceptions that the checks use. -/
structure Config where
  category : Category
  /-- `\d` -/
  isDigit : Char → Bool
  /-- `int`; nothing where it raises `ValueError` -/
  toInt : Text → Option Int
  /-- `str(exc)` -/
  str : Raised → Text
  /-- `registry.contains` -/
  server_exists : Text → Bool

/-! ### One check -/

/-- `_parse_type`: the second word of the first line that has two. -/
def parseType (stdout : Text) : Option Text :=
  ((PyLines.charBreaks.lines stdout).find? fun line => 2 ≤ (PyLines.split line).length).bind fun line =>
    (PyLines.split line)[1]?

/-- `int` of a match. -/
def matchedInt (cfg : Config) : Option Text → Watch (Option Int)
  | none => return none
  | some digits =>
    match cfg.toInt digits with
    | some n => return some n
    | none => .raise (.exception "Exceeds the limit for integer string conversion".toList)

/-- `_parse_size`: the digits behind a blank at the end of the first line. -/
def sizeMatch (cfg : Config) (stdout : Text) : Option Text :=
  let line := (PyLines.charBreaks.lines stdout).headD []
  let digits := line.rtakeWhile cfg.isDigit
  if digits ≠ [] && (line.rdropWhile cfg.isDigit).getLast?.any isSpace then some digits else none

/-- `_parse_count`: the last line of digits. -/
def countMatch (cfg : Config) (stdout : Text) : Option Text :=
  ((stdout.splitOn '\n').filter fun line => line ≠ [] && line.all cfg.isDigit).getLast?

/-- `_record`, at the time of the call. -/
def recorded (placement : Placement) (inspection : PlacementInspection) : Watch PlacementInspection := do
  let checked_at ← ask .now
  let stamped := { inspection with placement_id := placement.val.placement_id, checked_at }
  ask (.record placement stamped)
  return stamped

/-- The observation for an exception. -/
def unavailable (cfg : Config) (e : Raised) : PlacementInspection :=
  { placement_id := [], state := .unavailable, detail := (cfg.str e).take 200 }

/-- What `inspect` makes of the answer. -/
def observed (cfg : Config) (placement : Placement) (result : CommandResult) : Watch PlacementInspection :=
  let stdout := strip result.stdout
  if startsWith "MISSING".toList stdout then recorded placement { placement_id := [], state := .missing }
  else if !startsWith "EXISTS".toList stdout then
    recorded placement
      { placement_id := [], state := .unavailable, detail := "unexpected inspection output".toList }
  else do
    let size_b ← matchedInt cfg (sizeMatch cfg stdout)
    let file_count ← matchedInt cfg (countMatch cfg stdout)
    recorded placement
      { placement_id := [], state := .verified, file_type := parseType stdout, size_b, file_count }

/-- `PlacementInspector.inspect`. -/
def inspect (cfg : Config) (placement : Placement) : Watch PlacementInspection := do
  match Inspection.safePath placement.val.remote_path with
  | .error message => .raise (.app message)
  | .ok path =>
    match ← Prog.catching Raised.isException
      (ask (.run placement.val.server_id (Inspection.inspectCommand path))) with
    | .error e => recorded placement (unavailable cfg e)
    | .ok result => observed cfg placement result

/-- `_inspect_one`. -/
def inspectOne (cfg : Config) (placement : Placement) : Watch PlacementInspection := do
  match ← Prog.catching Raised.isException (ask (.executorFor placement.val.server_id)) with
  | .error e => recorded placement (unavailable cfg e)
  | .ok _ => inspect cfg placement

/-- `inspect_placement`. -/
def inspectPlacement (cfg : Config) (placement_id : Text) : Watch PlacementInspection := do
  let found ← ofService (placement placement_id)
  inspectOne cfg found

/-! ### The read model -/

/-- `_ACTIVE_JOB_STATES`. -/
def isActive (state : Batch.TransferState) : Bool := !state.terminal

/-- `_syncing_job`. -/
def syncingJob (placement : Placement) (jobs : List TransferJob) : Option TransferJob :=
  jobs.find? fun job => isActive job.state && job.artifact_id = placement.val.artifact_id &&
    job.target_server_id = placement.val.server_id

/-- `f"{name}:{version}"`, or the name alone. -/
def artifactLabel (artifact : Artifact) : Text :=
  match artifact.val.version with
  | none | some [] => artifact.val.name
  | some version => artifact.val.name ++ ':' :: version

/-- `text or None`. -/
def orNone (text : Text) : Option Text := if text = [] then none else some text

/-- `_item`. -/
def distributionItem (artifact_id : Text) (artifact : Artifact) (jobs : List TransferJob) (placement : Placement) :
    Watch ArtifactServerDistribution := do
  let observation ← ask (.latest placement.val.placement_id)
  let overlay := syncingJob placement jobs
  let state := (observation.map fun o => o.state.distribution).getD .declared
  return {
    artifact_id := artifact_id
    artifact_label := artifactLabel artifact
    artifact_kind := artifact.val.kind.value
    server_id := placement.val.server_id
    placement_id := placement.val.placement_id
    remote_path := placement.val.remote_path
    state := if overlay.isSome then .syncing else state
    checked_at := observation.bind fun o => orNone o.checked_at
    detail := observation.bind fun o => orNone o.detail
    active_transfer_job_id := overlay.map TransferJob.job_id }

/-- The items of one artifact. -/
def artifactItems (jobs : List TransferJob) (artifact_id : Text) : Watch (List ArtifactServerDistribution) := do
  let found ← ofService (artifact artifact_id)
  let placements ← ofService (placementsOf artifact_id)
  eachOf (distributionItem artifact_id found jobs) placements

/-- `distribution`. -/
def distribution (project_id : Text) : Watch ProjectDistribution := do
  let found ← ofService (project project_id)
  let jobs ← ask .activeTransfers
  let items ← eachOf (artifactItems jobs) (fromkeys found.val.artifact_ids)
  let generated_at ← ask .now
  return { project_id := found.val.project_id, generated_at, items := items.flatten }

/-- `_project_placements` of the project `inspect_project` reads. -/
def projectPlacements (project_id : Text) : Watch (List Placement) := do
  let found ← ofService (project project_id)
  let placements ← eachOf (fun artifact_id => ofService (placementsOf artifact_id)) (fromkeys found.val.artifact_ids)
  return placements.flatten

/-- `inspect_project`; the checks it gathers are programs of their own. -/
def inspectProject (project_id : Text) : Watch ProjectDistribution := do
  let _ ← projectPlacements project_id
  ask .gathered
  distribution project_id

/-! ### Reading the answer back -/

/-- What `stat -c '%F|%s'` and `wc -l` find of a path that exists. -/
structure Found where
  /-- The words of `%F`. -/
  words : List Text
  size : Nat
  /-- The files on the top level, of a directory. -/
  count : Option Nat
  words_ne : words ≠ []
  unbroken : ∀ w ∈ words, w ≠ [] ∧ ∀ c ∈ w, isSpace c = false

/-- `%F` -/
def Found.type (found : Found) : Text := [' '].intercalate found.words

/-- `%F|%s` -/
def Found.stat (found : Found) : Text := found.type ++ '|' :: Nat.toDigits 10 found.size

/-- The line behind it: the count, or what `echo` prints. -/
def Found.second : Option Nat → Text
  | some n => " COUNT ".toList ++ Nat.toDigits 10 n ++ ['\n']
  | none => ['\n']

/-- What the inspection command prints of the path. -/
def Found.stdout (found : Found) : Text :=
  "EXISTS ".toList ++ found.stat ++ '\n' :: Found.second found.count

/-- The parsers give what was printed, of the output as `inspect` strips it. -/
structure ReadBack (cfg : Config) (found : Found) : Prop where
  file_type : parseType (strip found.stdout) = some found.type
  size_b : matchedInt cfg (sizeMatch cfg (strip found.stdout)) = pure (some (found.size : Int))
  file_count : matchedInt cfg (countMatch cfg (strip found.stdout)) = pure (found.count.map Nat.cast)

/-- The second word of the first line. -/
def Found.firstWord (found : Found) : Text :=
  match found.words with
  | [w] => w ++ '|' :: Nat.toDigits 10 found.size
  | w :: _ => w
  | [] => []

lemma toDigits_unspaced (n : Nat) : ∀ c ∈ Nat.toDigits 10 n, isSpace c = false := by
  intro c hc
  have hd := Nat.isDigit_of_mem_toDigits (by decide) (by decide) hc
  rw [Char.isDigit, Bool.and_eq_true, decide_eq_true_iff, decide_eq_true_iff] at hd
  have h₁ : 48 ≤ c.toNat := hd.1
  have h₂ : c.toNat ≤ 57 := hd.2
  simp only [isSpace, Bool.or_eq_false_iff, Bool.and_eq_false_iff, decide_eq_false_iff_not]
  omega

lemma Found.exists_cons (found : Found) : ∃ w ws, found.words = w :: ws ∧ w ≠ [] ∧ ∀ c ∈ w, isSpace c = false := by
  cases hw : found.words with
  | nil => exact absurd hw found.words_ne
  | cons w ws =>
    obtain ⟨hne, hsp⟩ := found.unbroken w (hw ▸ List.mem_cons_self)
    exact ⟨w, ws, rfl, hne, hsp⟩

/-- The printed type and size, as words: the parser's answer is the first of them. -/
lemma Found.split_stat (found : Found) : ∃ others, PyLines.split found.stat = found.firstWord :: others := by
  obtain ⟨w, ws, hw, hne, hsp⟩ := found.exists_cons
  cases ws with
  | nil =>
    have hone : found.stat = w ++ '|' :: Nat.toDigits 10 found.size := by
      rw [Found.stat, Found.type, hw, List.intercalate_singleton]
    have hfirst : found.firstWord = w ++ '|' :: Nat.toDigits 10 found.size := by rw [Found.firstWord, hw]
    refine ⟨[], ?_⟩
    rw [hone, hfirst]
    refine PyLines.split_word ?_ fun h => hne (List.append_eq_nil_iff.1 h).1
    intro c hc
    rcases List.mem_append.1 hc with hc | hc
    · exact hsp c hc
    · rcases List.mem_cons.1 hc with rfl | hc
      · rfl
      · exact toDigits_unspaced _ c hc
  | cons w' ws =>
    have hmore : found.stat = w ++ ' ' :: ([' '].intercalate (w' :: ws) ++ '|' :: Nat.toDigits 10 found.size) := by
      rw [Found.stat, Found.type, hw, List.intercalate_cons_cons]
      simp
    have hfirst : found.firstWord = w := by rw [Found.firstWord, hw]
    rw [hmore, hfirst, PyLines.split_append _ _ rfl, PyLines.split_word hsp hne]
    exact ⟨_, rfl⟩

lemma Found.ne_break (found : Found) : ∀ c ∈ found.stat, PyLines.charBreaks.isBreak c = false := by
  have hspace : ∀ c, isSpace c = false → PyLines.charBreaks.isBreak c = false := by
    intro c hc
    simp only [isSpace, PyLines.charBreaks, Bool.or_eq_false_iff, Bool.and_eq_false_iff,
      decide_eq_false_iff_not] at hc ⊢
    omega
  intro c hc
  rcases List.mem_append.1 hc with hc | hc
  · rw [Found.type, List.intercalate, List.mem_flatten] at hc
    obtain ⟨t, ht, hct⟩ := hc
    have hwords : ∀ t ∈ found.words.intersperse [' '], t = [' '] ∨ t ∈ found.words := by
      generalize found.words = ws
      induction ws with
      | nil => exact fun t ht => .inr ht
      | cons w ws ih =>
        cases ws with
        | nil => exact fun t ht => .inr ht
        | cons w' ws =>
          intro t ht
          rw [List.intersperse_cons_cons, List.mem_cons, List.mem_cons] at ht
          rcases ht with rfl | rfl | ht
          · exact .inr List.mem_cons_self
          · exact .inl rfl
          · exact (ih t ht).imp_right (List.mem_cons_of_mem _)
    rcases hwords t ht with rfl | hw
    · rw [List.mem_singleton] at hct
      subst hct
      rfl
    · exact hspace c ((found.unbroken t hw).2 c hct)
  · rcases List.mem_cons.1 hc with rfl | hc
    · rfl
    · exact hspace c (toDigits_unspaced _ c hc)

/-- What is left of the second line. -/
def Found.counted : Option Nat → Text
  | some n => '\n' :: (" COUNT ".toList ++ Nat.toDigits 10 n)
  | none => []

/-- The stripped output: the line with the type and the size, and for a directory the count behind it. -/
def Found.stripped (found : Found) : Text := "EXISTS ".toList ++ found.stat ++ Found.counted found.count

lemma last_of_digits (front : Text) (n : Nat) (h : front ++ Nat.toDigits 10 n ≠ []) :
    isSpace ((front ++ Nat.toDigits 10 n).getLast h) = false := by
  rw [List.getLast_append_of_ne_nil _ Nat.toDigits_ne_nil]
  exact toDigits_unspaced n _ (List.getLast_mem _)

lemma Found.strip_stdout (found : Found) : strip found.stdout = found.stripped := by
  have hparts : ∃ front n e, found.stripped = 'E' :: front ++ Nat.toDigits 10 n ∧
      found.stdout = found.stripped ++ e ∧ ∀ c ∈ e, isSpace c = true := by
    unfold Found.stdout Found.stripped
    cases found.count with
    | some n =>
      refine ⟨"XISTS ".toList ++ found.stat ++ '\n' :: " COUNT ".toList, n, ['\n'], ?_, ?_, ?_⟩
      · show 'E' :: "XISTS ".toList ++ found.stat ++ '\n' :: (" COUNT ".toList ++ Nat.toDigits 10 n) = _
        simp only [List.cons_append, List.append_assoc]
      · show _ ++ '\n' :: (" COUNT ".toList ++ Nat.toDigits 10 n ++ ['\n']) = _ ++ '\n' :: (" COUNT ".toList ++ _) ++ _
        rw [List.append_assoc _ ('\n' :: _) ['\n'], List.cons_append]
      · intro c hm
        rw [List.mem_singleton.1 hm]
        rfl
    | none =>
      refine ⟨"XISTS ".toList ++ found.type ++ ['|'], found.size, ['\n', '\n'], ?_, ?_, ?_⟩
      · show 'E' :: "XISTS ".toList ++ (found.type ++ '|' :: Nat.toDigits 10 found.size) ++ [] = _
        simp only [List.cons_append, List.append_assoc, List.append_nil, List.nil_append]
      · show _ ++ ['\n', '\n'] = _ ++ [] ++ ['\n', '\n']
        rw [List.append_nil]
      · intro c hm
        rcases List.mem_pair.1 hm with rfl | rfl <;> rfl
  obtain ⟨front, n, e, hstripped, hout, he⟩ := hparts
  have hne : 'E' :: front ++ Nat.toDigits 10 n ≠ [] := List.append_ne_nil_of_left_ne_nil (List.cons_ne_nil _ _) _
  rw [hout, hstripped]
  exact strip_append hne rfl (last_of_digits _ n hne) he

lemma Found.unbroken_line (found : Found) :
    ∀ c ∈ "EXISTS ".toList ++ found.stat, PyLines.charBreaks.isBreak c = false := by
  intro c hc
  rcases List.mem_append.1 hc with hc | hc
  · have hall : ("EXISTS ".toList.all fun c => !PyLines.charBreaks.isBreak c) = true := rfl
    simpa using List.all_eq_true.1 hall c hc
  · exact found.ne_break c hc

/-- The first line of it. -/
lemma Found.exists_lines (found : Found) :
    ∃ others, PyLines.charBreaks.lines found.stripped = ("EXISTS ".toList ++ found.stat) :: others := by
  have hplain := found.unbroken_line
  unfold Found.stripped
  cases found.count with
  | some n => exact ⟨_, PyLines.Breaks.lines_cons hplain (" COUNT ".toList ++ Nat.toDigits 10 n) rfl⟩
  | none =>
    have hne : "EXISTS ".toList ≠ [] := by decide
    refine ⟨[], ?_⟩
    show PyLines.charBreaks.lines ("EXISTS ".toList ++ found.stat ++ []) = _
    rw [List.append_nil]
    exact PyLines.Breaks.lines_plain hplain (List.append_ne_nil_of_left_ne_nil hne _)

/-- The type that is read is the first word of the line, with the size where the type has one word. -/
lemma Found.parseType_stdout (found : Found) : parseType (strip found.stdout) = some found.firstWord := by
  obtain ⟨others, hlines⟩ := found.exists_lines
  obtain ⟨words, hwords⟩ := found.split_stat
  have hsplit : PyLines.split ("EXISTS ".toList ++ found.stat) = "EXISTS".toList :: found.firstWord :: words := by
    rw [← hwords]
    exact PyLines.split_append "EXISTS".toList found.stat (c := ' ') rfl
  rw [found.strip_stdout, parseType, hlines, List.find?_cons_of_pos, Option.bind_some, hsplit]
  · rfl
  · rw [hsplit, decide_eq_true_iff]
    exact Nat.le_add_left 2 _

lemma Found.firstWord_ne (found : Found) : found.firstWord ≠ found.type := by
  obtain ⟨w, ws, hw, -, -⟩ := found.exists_cons
  cases ws with
  | nil =>
    rw [Found.firstWord, Found.type, hw, List.intercalate_singleton]
    intro h
    exact absurd (List.append_right_eq_self.1 h) (List.cons_ne_nil _ _)
  | cons w' ws =>
    rw [Found.firstWord, Found.type, hw, List.intercalate_cons_cons]
    intro h
    rw [List.append_assoc] at h
    exact absurd (List.append_right_eq_self.1 h.symm) (List.cons_ne_nil _ _)

/-- The bar stands before the size, so no size is read. -/
lemma Found.sizeMatch_stdout {cfg : Config} (found : Found) (hbar : cfg.isDigit '|' = false) :
    sizeMatch cfg (strip found.stdout) = none := by
  obtain ⟨others, hlines⟩ := found.exists_lines
  -- what the line without its digits ends with is the bar, or one of the printed digits
  have hdrop : (("EXISTS ".toList ++ found.stat).rdropWhile cfg.isDigit).getLast?.any isSpace = false := by
    have hne : ('|' :: Nat.toDigits 10 found.size).rdropWhile cfg.isDigit ≠ [] := by
      intro h
      have hall := List.rdropWhile_eq_nil_iff.1 h '|' List.mem_cons_self
      rw [hbar] at hall
      cases hall
    rw [Found.stat, ← List.append_assoc, rdropWhile_append _ hne, List.getLast?_append_of_ne_nil _ hne,
      Option.any_eq_false]
    intro c hc
    have hm := (List.rdropWhile_prefix cfg.isDigit _).mem (List.mem_of_getLast? hc)
    rcases List.mem_cons.1 hm with rfl | hm
    · rfl
    · exact toDigits_unspaced _ c hm
  rw [found.strip_stdout, sizeMatch, hlines, List.headD_cons]
  rw [hdrop, Bool.and_false]
  exact if_neg Bool.false_ne_true

/-- No line is of digits alone, so no count is read. -/
lemma Found.countMatch_stdout {cfg : Config} (found : Found) (hE : cfg.isDigit 'E' = false)
    (hC : cfg.isDigit 'C' = false) : countMatch cfg (strip found.stdout) = none := by
  have hfirst : ∀ c ∈ "EXISTS ".toList ++ found.stat, (c == '\n') = false := by
    intro c hc
    rw [beq_eq_false_iff_ne]
    rintro rfl
    exact absurd (found.unbroken_line _ hc) (by decide)
  have hE' : 'E' ∈ "EXISTS ".toList ++ found.stat := List.mem_append_left _ (by decide)
  have hmem : ∀ line ∈ found.stripped.splitOn '\n', 'E' ∈ line ∨ 'C' ∈ line := by
    unfold Found.stripped
    cases found.count with
    | none =>
      show ∀ line ∈ ("EXISTS ".toList ++ found.stat ++ []).splitOnP (· == '\n'), _
      rw [List.append_nil, List.splitOnP_eq_singleton hfirst, List.forall_mem_singleton]
      exact .inl hE'
    | some n =>
      have hsecond : ∀ c ∈ " COUNT ".toList ++ Nat.toDigits 10 n, (c == '\n') = false := by
        intro c hc
        rw [beq_eq_false_iff_ne]
        rintro rfl
        rcases List.mem_append.1 hc with hc | hc
        · exact absurd hc (by decide)
        · exact absurd (toDigits_unspaced n _ hc) (by decide)
      show ∀ line ∈ (("EXISTS ".toList ++ found.stat) ++ '\n' :: (" COUNT ".toList ++ Nat.toDigits 10 n)).splitOnP
        (· == '\n'), _
      rw [List.splitOnP_append_cons (p := (· == '\n')) _ _ (beq_self_eq_true '\n'), List.splitOnP_eq_singleton hfirst,
        List.splitOnP_eq_singleton hsecond]
      intro line hline
      rcases List.mem_pair.1 hline with rfl | rfl
      · exact .inl hE'
      · exact .inr (List.mem_append_left _ (by decide))
  rw [found.strip_stdout, countMatch, List.filter_eq_nil_iff.2]
  · rfl
  · intro line hline hall
    rw [Bool.and_eq_true, List.all_eq_true] at hall
    rcases hmem line hline with h | h
    · exact Bool.false_ne_true (hE.symm.trans (hall.2 _ h))
    · exact Bool.false_ne_true (hC.symm.trans (hall.2 _ h))

/-- What `inspect` records of a path that exists: it is verified, with the first word of its type and neither its
size nor its count. -/
lemma observed_found {cfg : Config} (placement : Placement) (found : Found) (exit_code : Option Int)
    (hdigit : ∀ c ∈ ['|', 'E', 'C'], cfg.isDigit c = false) :
    observed cfg placement ⟨exit_code, found.stdout⟩ =
      recorded placement { placement_id := [], state := .verified, file_type := some found.firstWord } := by
  have hsize := found.sizeMatch_stdout (hdigit '|' (by decide))
  have hcount := found.countMatch_stdout (hdigit 'E' (by decide)) (hdigit 'C' (by decide))
  have hmissing : startsWith "MISSING".toList (strip found.stdout) = false := by
    rw [found.strip_stdout]
    rfl
  have hexists : startsWith "EXISTS".toList (strip found.stdout) = true := by
    rw [found.strip_stdout]
    rfl
  simp only [observed, hmissing, hexists, hsize, hcount, found.parseType_stdout]
  rfl

/-- What was printed is never read back, for the type is not. -/
theorem never_read_back (cfg : Config) (found : Found) : ¬ReadBack cfg found := by
  intro h
  have hread := h.file_type
  rw [found.parseType_stdout] at hread
  exact found.firstWord_ne (Option.some.inj hread)

/-- A directory of three files. -/
def threeFiles : Found where
  words := ["directory".toList]
  size := 4096
  count := some 3
  words_ne := List.cons_ne_nil _ _
  unbroken := by
    rw [List.forall_mem_singleton]
    have hall : ("directory".toList.all fun c => !isSpace c) = true := rfl
    exact ⟨by decide, fun c hc => by simpa using List.all_eq_true.1 hall c hc⟩

/-- ASCII digits. -/
def asciiChecks : Config where
  category _ := 'L'
  isDigit := Char.isDigit
  toInt _ := none
  str _ := []
  server_exists _ := true

theorem directory_not_read_back : ¬∀ cfg found, ReadBack cfg found := by
  intro h
  have hread := (h asciiChecks threeFiles).file_type
  exact absurd hread (by decide +kernel)

end SshGpuConsole.Workspace
