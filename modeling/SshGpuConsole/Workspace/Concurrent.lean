import SshGpuConsole.Lib.Interleave
import SshGpuConsole.Workspace.Integrity

/-!
# Concurrent service calls

The routes of the workspace are plain functions that run in a thread pool: service calls whose repository steps
interleave. Every call writes at most once and only reads behind it, so that calls are serializable as long as no
write disturbs a call under way (`calls_serializable`); two patches of one record are not (`patches_not_serial`).
-/

namespace SshGpuConsole.Workspace
open Shell PyText
open Effect (Prog Task Pool Calm outcome)

/-! ### What a call writes -/

/-- The program reads, writes at most once, and reads behind it. -/
def Writes {α : Type} (p : Service α) : Prop := p.WritesOnce IsRead

section Writes
variable {α β : Type}

lemma writes_of_reads {p : Service α} (h : Reads p) : Writes p := Prog.WritesOnce.of_only h

lemma writes_reading (q : Query) {f : q.Ans → Service β} (hf : ∀ a, Writes (f a)) : Writes ((read q).bind f) :=
  Prog.WritesOnce.bind (reads_read q) hf

lemma writes_validated [Model α] {fields : Option α} {f : Validated α → Service β} (hf : ∀ v, Writes (f v)) :
    Writes ((validated fields).bind f) := Prog.WritesOnce.bind (reads_validated fields) hf

lemma writes_write (m : Mutation) : Writes (write m) :=
  .inr fun r => match r with
    | .ok _ => trivial
    | .error _ => trivial

lemma writes_writing (m : Mutation) {f : m.Ans → Service β} (hf : ∀ a, Reads (f a)) : Writes ((write m).bind f) :=
  Prog.WritesOnce.perform_bind hf

lemma writes_replying {p : Service α} (h : Writes p) (reply : α → Reply) : Writes (replying p reply) :=
  Prog.WritesOnce.bind_reads h fun _ => trivial

lemma writes_updateProject (draw : Draw) (id : Text) (request : ProjectPatch) :
    Writes (updateProject draw id request) := by
  refine writes_reading _ fun current => Prog.WritesOnce.ite trivial ?_
  exact writes_validated fun r => writes_writing (.replaceProject r) reads_withLaunchConfigIds

lemma writes_updateArtifact (draw : Draw) (id : Text) (request : ArtifactPatch) :
    Writes (updateArtifact draw id request) := by
  refine writes_reading _ fun current => Prog.WritesOnce.ite trivial ?_
  exact writes_validated fun r => writes_write (.replaceArtifact r)

lemma writes_createPlacement (draw : Draw) (request : PlacementCreate) : Writes (createPlacement draw request) := by
  refine Prog.WritesOnce.ite trivial (writes_reading _ fun _ => writes_reading _ fun existing => ?_)
  exact Prog.WritesOnce.ite trivial (writes_validated fun r => writes_write (.insertPlacement r))

lemma writes_createLaunchConfig (draw : Draw) (request : LaunchConfigCreate) :
    Writes (createLaunchConfig draw request) := by
  refine writes_reading _ fun current => Prog.WritesOnce.bind (reads_rejectUnknownArtifacts _) fun _ => ?_
  exact writes_validated fun r => writes_write (.insertLaunchConfig r)

lemma writes_updateLaunchConfig (draw : Draw) (id : Text) (request : LaunchConfigPatch) :
    Writes (updateLaunchConfig draw id request) := by
  refine writes_reading _ fun current => writes_validated fun r => ?_
  exact Prog.WritesOnce.bind (reads_rejectUnknownArtifacts _) fun _ => writes_write (.replaceLaunchConfig r)

lemma writes_setServerRoots (draw : Draw) (id : Text) (update : ServerRootsUpdate) :
    Writes (setServerRoots draw id update) :=
  Prog.WritesOnce.ite trivial (writes_validated fun r => writes_write (.setServerRoots id r))

lemma writes_call (category : Category) (draw : Draw) (call : Call) : Writes (call.program category draw) := by
  cases call with
  | createProject request =>
    refine writes_replying (writes_validated fun r => ?_) _
    exact writes_writing (.insertProject r) reads_withLaunchConfigIds
  | updateProject id request => exact writes_replying (writes_updateProject draw id request) _
  | deleteProject id => exact writes_replying (writes_write (.removeProject id)) _
  | projects => exact writes_replying (writes_of_reads (Prog.Only.bind (reads_read _) reads_withAll)) _
  | project id => exact writes_replying (writes_of_reads (Prog.Only.bind (reads_read _) reads_withLaunchConfigIds)) _
  | createArtifact request =>
    exact writes_replying (writes_validated fun r => writes_write (.insertArtifact r)) _
  | updateArtifact id request => exact writes_replying (writes_updateArtifact draw id request) _
  | deleteArtifact id => exact writes_replying (writes_write (.removeArtifact id)) _
  | artifacts kind => exact writes_replying (writes_of_reads (reads_artifacts kind)) _
  | artifact id => exact writes_replying (writes_of_reads (reads_read _)) _
  | placementsOf id => exact writes_replying (writes_of_reads (reads_read _)) _
  | createPlacement request => exact writes_replying (writes_createPlacement draw request) _
  | updatePlacement id request =>
    refine writes_replying (writes_reading _ fun current => ?_) _
    exact writes_validated fun r => writes_write (.replacePlacement r)
  | deletePlacement id => exact writes_replying (writes_write (.removePlacement id)) _
  | placements => exact writes_replying (writes_of_reads (reads_read _)) _
  | placement id => exact writes_replying (writes_of_reads (reads_read _)) _
  | createLaunchConfig request => exact writes_replying (writes_createLaunchConfig draw request) _
  | updateLaunchConfig id request => exact writes_replying (writes_updateLaunchConfig draw id request) _
  | deleteLaunchConfig id => exact writes_replying (writes_write (.removeLaunchConfig id)) _
  | launchConfigs => exact writes_replying (writes_of_reads (reads_read _)) _
  | launchConfig id => exact writes_replying (writes_of_reads (reads_read _)) _
  | serverRoots id => exact writes_replying (writes_of_reads (reads_serverRoots draw id)) _
  | setServerRoots id update => exact writes_replying (writes_setServerRoots draw id update) _
  | suggestTargetPath server_id artifact_id =>
    exact writes_replying (writes_of_reads (reads_suggestTargetPath category draw server_id artifact_id)) _

end Writes

/-! ### Interleaved calls -/

/-- A call in the thread pool. -/
def Issued.task (category : Category) (i : Issued) : Task RepoOp RepoOp.Ans Failure Reply Bool :=
  ⟨i.call.program category i.draw, i.saves⟩

lemma state_of_isRead (o : RepoOp) (ho : IsRead o) (c : Bool) (s : Repo) : (repository.act o c s).2 = s := by
  cases o with
  | read q => rfl
  | write m => exact ho.elim

section Interleaving
variable {ι : Type} [DecidableEq ι]

/-- The calls, none of which has made a step. -/
def issuedPool (category : Category) (s : Repo) (calls : ι → Issued) :
    Pool RepoOp RepoOp.Ans Failure Reply Repo Bool ι := Pool.start s fun i => (calls i).task category

/-- Interleaved calls give what some serial order of them gives, as long as no step that changes the repository
disturbs a call under way. -/
theorem calls_serializable [Fintype ι] (category : Category) (s : Repo) (calls : ι → Issued) (schedule : List ι)
    (hcalm : Calm repository IsRead (fun i => (calls i).task category) (issuedPool category s calls) schedule)
    (hdone : ∀ i, (outcome (((issuedPool category s calls).after repository schedule).rest i).program).isSome) :
    ((issuedPool category s calls).after repository schedule).IsSerial repository
      (fun i => (calls i).task category) s := by
  have honce : ∀ i, ((calls i).task category).program.WritesOnce IsRead := fun i =>
    writes_call category (calls i).draw (calls i).call
  exact Effect.serializable state_of_isRead honce hcalm hdone

end Interleaving

/-! ### Two patches of one project -/

/-- A repository with a project. -/
def oneProject : Repo := settled [⟨.createProject { name := "train".toList }, drawing "p1", saved⟩]

/-- One patch of its name and one of its description. -/
def patches : Fin 2 → Issued
  | 0 => ⟨.updateProject "p1".toList { name := some (some "eval".toList) }, drawing "", saved⟩
  | 1 => ⟨.updateProject "p1".toList { description := some (some "nightly".toList) }, drawing "", saved⟩

/-- The pool after some of its calls. -/
def patched (schedule : List (Fin 2)) : Pool RepoOp RepoOp.Ans Failure Reply Repo Bool (Fin 2) :=
  (issuedPool letters oneProject patches).after repository schedule

lemma undisturbed_done {P : Pool RepoOp RepoOp.Ans Failure Reply Repo Bool (Fin 2)} {j : Fin 2}
    (h : (outcome (P.rest j).program).isSome) (first : Task RepoOp RepoOp.Ans Failure Reply Bool) (s : Repo) :
    Effect.Undisturbed repository IsRead first P j s := by
  obtain ⟨r, hr⟩ := Option.isSome_iff_exists.1 h
  have hnow := Effect.finished (M := repository) (R := IsRead) hr P.state
  have hthen := Effect.finished (M := repository) (R := IsRead) hr s
  exact .inr ⟨hnow.1, hthen.2.trans hnow.2.symm⟩

/-- The second patch behind the first: it finds the name the first one left. -/
theorem patches_serial : (patched [0, 0, 0, 1, 1, 1]).IsSerial repository (fun i => (patches i).task letters) oneProject := by
  refine calls_serializable letters oneProject patches [0, 0, 0, 1, 1, 1] ?_ (by decide +kernel)
  refine ⟨fun h => absurd rfl h, fun _ j hj => ?_, fun h => absurd ?_ h, fun h => absurd ?_ h, fun _ j hj => ?_,
    fun h => absurd ?_ h, trivial⟩
  · obtain rfl : j = 1 := by revert j; decide
    exact .inl ⟨rfl, .refl _⟩
  · decide +kernel
  · decide +kernel
  · obtain rfl : j = 0 := by revert j; decide
    exact undisturbed_done (by decide +kernel) _ _
  · decide +kernel

/-- Both read the project before either replaces it: the name of the first patch is lost. -/
theorem patches_not_serial :
    (∀ i, (outcome (((issuedPool letters oneProject patches).after repository [0, 1, 0, 1, 0, 1]).rest i).program).isSome) ∧
      ¬((issuedPool letters oneProject patches).after repository [0, 1, 0, 1, 0, 1]).IsSerial repository
        (fun i => (patches i).task letters) oneProject := by
  refine ⟨by decide +kernel, ?_⟩
  rintro ⟨order, hnodup, hall, hstate, -⟩
  have horder : order = [0, 1] ∨ order = [1, 0] := by
    have hperm : order.Perm [0, 1] :=
      (List.perm_ext_iff_of_nodup hnodup (by decide)).2 fun i => ⟨fun _ => (by decide : ∀ i : Fin 2, i ∈ [0, 1]) i, fun _ => hall i⟩
    exact List.perm_pair.1 hperm
  rcases horder with rfl | rfl
  · revert hstate
    decide +kernel
  · revert hstate
    decide +kernel

end SshGpuConsole.Workspace
