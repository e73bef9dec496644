import Brain.Documentation.Cycles
import Brain.Scheduler.Causality

namespace Brain
open Calls

/-! ### What leaves a documentation cycle -/

/-- The sites of a turn of `sync_space`. -/
def Site.isPage : Site → Bool
  | .pageProjectFind | .fetchDocument => true
  | site => site.isSide

def SchedulerSite.isPage : SchedulerSite → Bool
  | .service site => site.isPage
  | _ => false

/-- Whatever `p` does, its exceptions are not those of a page. -/
def SparesPages {σ κ : Type} (isPage : κ → Bool) {α : Type} (p : Calls.Prog κ PyException σ α) : Prop :=
  ∀ o n s e n' s', p o n s = ⟨.error e, n', s'⟩ → isPage e.site = false

namespace SparesPages
variable {σ τ κ κ' α β : Type} {isPage : κ → Bool}

theorem pure (a : α) : SparesPages isPage (Pure.pure a : Calls.Prog κ PyException σ α) := by
  intro o n s e n' s' raised
  cases raised

theorem now : SparesPages isPage (Calls.now : Calls.Prog κ PyException σ Nat) := by
  intro o n s e n' s' raised
  cases raised

theorem call {site : κ} (other : isPage site = false) (op : σ → α × σ) :
    SparesPages isPage (Calls.call site op : Calls.Prog κ PyException σ α) := by
  intro o n s e n' s' raised
  unfold Calls.call at raised
  split at raised
  · cases raised
  · cases raised
    exact other

theorem bind {p : Calls.Prog κ PyException σ β} {f : β → Calls.Prog κ PyException σ α} (first : SparesPages isPage p)
    (next : ∀ b, SparesPages isPage (f b)) : SparesPages isPage (p >>= f) := by
  intro o n s e n' s' raised
  generalize ended : p o n s = run at raised
  obtain ⟨_ | b, m, t⟩ := run
  · rw [bind_error ended] at raised
    cases raised
    exact first o n s _ _ _ ended
  · rw [bind_ok ended] at raised
    exact next b o m t _ _ _ raised

end SparesPages

namespace XWikiDocumentationSyncService
variable (self : XWikiDocumentationSyncService)

theorem syncSpace_spares (port : DocumentationPort) (project : Project) (space : String) :
    SparesPages Site.isPage (self.syncSpace port project space) := by
  refine SparesPages.bind ?_ fun cycle => ?_
  · refine SparesPages.bind (SparesPages.bind (SparesPages.call rfl _) fun _ => SparesPages.pure _) fun since => ?_
    refine SparesPages.bind (fun o n s => SparesPages.call rfl _ o n s) fun refs => ?_
    intro o n s e n' s' raised
    obtain ⟨_, _, _, returned, _⟩ := self.syncPages_returns port o refs (SpaceCycle.start project.id space since refs) n s
    rw [returned] at raised
    cases raised
  · dsimp only
    split
    · refine SparesPages.bind (SparesPages.bind (SparesPages.call rfl _) fun _ => ?_) fun _ => SparesPages.pure _
      exact SparesPages.bind SparesPages.now fun _ => SparesPages.call rfl _
    · exact SparesPages.pure _

theorem syncProjectSpaces_spares (port : DocumentationPort) (project : Project) :
    SparesPages Site.isPage (self.syncProjectSpaces port project) := by
  unfold syncProjectSpaces
  induction mappedSpaces project with
  | nil => exact SparesPages.pure []
  | cons space spaces ih =>
    refine SparesPages.bind (self.syncSpace_spares port project space) fun _ => ?_
    exact SparesPages.bind ih fun _ => SparesPages.pure _

end XWikiDocumentationSyncService

theorem inWorld_spares {α : Type} {p : Prog α} (spares : SparesPages Site.isPage p) :
    SparesPages SchedulerSite.isPage (inWorld p) := by
  intro o n s e n' s' raised
  unfold inWorld Prog.on at raised
  split at raised
  · cases raised
  · rename_i ended
    cases raised
    exact spares _ _ _ _ _ _ ended

/-! ### The turns of a pass -/

/-- A turn of the job: it looks at its own moments only, and no page of a
documentation cycle makes it raise. -/
def TurnOf (job : ReconciliationJob) (turn : ReconciliationTurn) {β : Type} (step : SchedulerProg β) : Prop :=
  turn.job = job ∧ Causal step ∧ (job = .documentation → SparesPages SchedulerSite.isPage step)

theorem TurnOf.of_other {job : ReconciliationJob} {project : Option ProjectId} {β : Type} {step : SchedulerProg β}
    (causal : Causal step) (other : job ≠ .documentation) : TurnOf job ⟨job, project⟩ step :=
  ⟨rfl, causal, fun isDocumentation => absurd isDocumentation other⟩

theorem inWorld_causal {α : Type} {p : Prog α} (causal : Causal p) : Causal (inWorld p) := causal.on _ _

theorem listProjects_turns (job : ReconciliationJob) : (listProjects job).Every (TurnOf job) := by
  refine Script.every_act ⟨rfl, Causal.query _ _, fun _ => ?_⟩
  exact SparesPages.call rfl _

theorem enqueue_causal (site : SchedulerSite) (payload : ScheduledPayload) : Causal (enqueue site payload) := by
  refine Causal.bind (inWorld_causal ?_) fun _ => Causal.command _ _
  exact Causal.bind newUuid_causal fun _ => Causal.bind newUuid_causal fun _ => Causal.pure _

namespace ReconciliationService
variable (self : ReconciliationService)
variable (report : ReconciliationReport)

theorem checkRepository_causal (repository : Repository) : Causal (self.checkRepository report repository) := by
  unfold checkRepository
  dsimp only
  split
  · exact Causal.pure _
  · refine Causal.bind (Causal.query _ _) fun latest => ?_
    split
    · exact Causal.pure _
    · split
      · exact Causal.pure _
      · refine Causal.bind ?_ fun _ => Causal.pure _
        unfold enqueueSync
        split
        · exact enqueue_causal _ _
        · exact Causal.pure ()

theorem reconcileRepositories_turns : (self.reconcileRepositories report).Every (TurnOf .repositories) := by
  refine Script.every_bind (listProjects_turns _) fun projects => Script.every_bind ?_ fun repositories => ?_
  · refine Script.every_gather (fun project => Script.every_act ?_) projects
    exact TurnOf.of_other (Causal.query _ _) (by decide)
  · refine Script.every_fold (fun report repository => Script.every_act ?_) report repositories
    exact TurnOf.of_other (self.checkRepository_causal report repository) (by decide)

theorem pullProject_causal (pull : WorkManagementPullSyncService) (report : ReconciliationReport) (project : Project) :
    Causal (self.pullProject pull report project) := by
  unfold pullProject
  dsimp only
  split
  · exact Causal.bind (enqueue_causal _ _) fun _ => Causal.bind (Causal.pure _) fun _ => Causal.pure _
  · refine Causal.bind (inWorld_causal (pull.syncProject_causal project)) fun _ => ?_
    exact Causal.bind (Causal.pure _) fun _ => Causal.pure _

theorem reconcileWorkManagement_turns : (self.reconcileWorkManagement report).Every (TurnOf .workManagement) := by
  unfold reconcileWorkManagement
  split
  · exact Script.every_pure _
  · split
    · exact Script.every_pure _
    · refine Script.every_bind (listProjects_turns _) fun projects => Script.every_fold (fun report project => ?_) report projects
      split
      · exact Script.every_act (TurnOf.of_other (self.pullProject_causal _ report project) (by decide))
      · exact Script.every_pure _

theorem syncPorts_causal (sync : XWikiDocumentationSyncService) (project : Project) (ports : List DocumentationPort)
    (report : ReconciliationReport) :
    Causal (syncPorts sync project ports report) ∧ SparesPages SchedulerSite.isPage (syncPorts sync project ports report) := by
  induction ports generalizing report with
  | nil => exact ⟨Causal.pure _, SparesPages.pure _⟩
  | cons port ports ih =>
    refine ⟨?_, ?_⟩
    · exact Causal.bind (inWorld_causal (sync.syncProjectSpaces_causal port project)) fun _ => (ih _).1
    · exact SparesPages.bind (inWorld_spares (sync.syncProjectSpaces_spares port project)) fun _ => (ih _).2

theorem documentProject_turn (sync : XWikiDocumentationSyncService) (report : ReconciliationReport) (project : Project) :
    TurnOf .documentation ⟨.documentation, some project.id⟩ (self.documentProject sync report project) := by
  refine ⟨rfl, ?_, fun _ => ?_⟩
  · refine Causal.bind (syncPorts_causal _ _ _ _).1 fun report => ?_
    dsimp only
    split
    · exact Causal.bind (Causal.command _ _) fun _ => Causal.pure _
    · exact Causal.pure _
  · refine SparesPages.bind (syncPorts_causal _ _ _ _).2 fun report => ?_
    dsimp only
    split
    · exact SparesPages.bind (SparesPages.call rfl _) fun _ => SparesPages.pure _
    · exact SparesPages.pure _

theorem reconcileDocumentation_turns : (self.reconcileDocumentation report).Every (TurnOf .documentation) := by
  unfold reconcileDocumentation
  split
  · exact Script.every_pure _
  · split
    · exact Script.every_pure _
    · refine Script.every_bind (listProjects_turns _) fun projects => Script.every_fold (fun report project => ?_) report projects
      split
      · exact Script.every_act (self.documentProject_turn _ report project)
      · exact Script.every_pure _

theorem checkProjectionFreshness_turns :
    (self.checkProjectionFreshness report).Every (TurnOf .projectionFreshness) := by
  refine Script.every_bind (listProjects_turns _) fun projects => Script.every_fold (fun report project => ?_) report projects
  refine Script.every_act (TurnOf.of_other (Causal.bind (Causal.query _ _) fun components => ?_) (by decide))
  split <;> exact Causal.pure _

theorem createObservation_causal (args : CreateObservation) : Causal (self.createObservation args) := by
  have constructs : Causal (self.constructObservation args) := by
    refine Causal.bind (Causal.internal _) fun _ => Causal.bind (Causal.command _ _) fun _ => ?_
    split
    · exact Causal.command _ _
    · exact Causal.pure ()
  unfold createObservation
  split
  · exact constructs
  · refine Causal.bind (Causal.query _ _) fun existing => ?_
    split
    · exact Causal.pure ()
    · exact constructs

theorem blockExecutions_causal (workItemId : WorkItemId) (now : Time) (executions : List StartedExecution)
    (report : ReconciliationReport) : Causal (self.blockExecutions workItemId now executions report) := by
  induction executions generalizing report with
  | nil => exact Causal.pure report
  | cons execution executions ih =>
    unfold blockExecutions
    split
    · refine Causal.bind (Causal.command _ _) fun _ => Causal.bind (Causal.query _ _) fun workItem => ?_
      split
      · exact ih _
      · exact Causal.bind (self.createObservation_causal _) fun _ => ih _
    · exact ih report

theorem detectStuckExecutions_turns : (self.detectStuckExecutions report).Every (TurnOf .stuckExecutions) := by
  refine Script.every_bind (Script.every_act (TurnOf.of_other Causal.now (by decide))) fun now => ?_
  refine Script.every_bind (Script.every_bind (listProjects_turns _) fun projects => ?_) fun ids => ?_
  · refine Script.every_gather (fun project => Script.every_act ?_) projects
    exact TurnOf.of_other (Causal.query _ _) (by decide)
  · refine Script.every_fold (fun report listed => Script.every_act (TurnOf.of_other ?_ (by decide))) report ids
    exact Causal.bind (Causal.query _ _) fun _ => self.blockExecutions_causal _ _ _ _

theorem retryReference_causal (retried : List HumanActivityReference) (reference : HumanActivityReference) :
    Causal (self.retryReference retried reference) := by
  unfold retryReference
  split
  · exact Causal.pure _
  · refine Causal.bind (Causal.query _ _) fun observation => ?_
    split
    · exact Causal.pure _
    · refine Causal.bind (Causal.bind (Causal.query _ _) fun _ => ?_) fun _ => Causal.pure _
      exact Causal.bind (Causal.ask _ _) fun _ => Causal.bind (Causal.command _ _) fun _ => Causal.pure _

theorem retryFailedProjections_turns : (self.retryFailedProjections report).Every (TurnOf .failedProjections) := by
  refine Script.every_bind (Script.every_act (TurnOf.of_other (Causal.query _ _) (by decide))) fun failed => ?_
  refine Script.every_bind (Script.every_fold (fun retried reference => Script.every_act ?_) [] failed) fun _ => ?_
  · exact TurnOf.of_other (self.retryReference_causal retried reference) (by decide)
  · exact Script.every_pure _

theorem reconcile_turns : self.reconcile.Every fun turn _ step => TurnOf turn.job turn step := by
  have weaken : ∀ {job : ReconciliationJob} (turn : ReconciliationTurn) {β : Type} (step : SchedulerProg β),
      TurnOf job turn step → TurnOf turn.job turn step := by
    rintro job turn β step ⟨rfl, causal, spares⟩
    exact ⟨rfl, causal, spares⟩
  refine Script.every_bind ((self.reconcileRepositories_turns _).mono weaken) fun _ => ?_
  refine Script.every_bind ((self.reconcileWorkManagement_turns _).mono weaken) fun _ => ?_
  refine Script.every_bind ((self.reconcileDocumentation_turns _).mono weaken) fun _ => ?_
  refine Script.every_bind ((self.checkProjectionFreshness_turns _).mono weaken) fun _ => ?_
  refine Script.every_bind ((self.detectStuckExecutions_turns _).mono weaken) fun _ => ?_
  exact (self.retryFailedProjections_turns _).mono weaken

theorem reconcile_ranked : self.reconcile.Ranked (fun turn => turn.job.rank) 0 := by
  have ofJob : ∀ {α : Type} {script : SchedulerScript α} {job : ReconciliationJob}, script.Every (TurnOf job) →
      script.Every fun turn _ _ => turn.job.rank = job.rank := by
    intro α script job every
    exact every.mono fun turn _ _ isTurn => congrArg ReconciliationJob.rank isTurn.1
  refine Script.ranked_bind (ofJob (self.reconcileRepositories_turns _)) fun _ => ?_
  refine Script.Ranked.mono (Script.ranked_bind (ofJob (self.reconcileWorkManagement_turns _)) fun _ => ?_) (Nat.zero_le _)
  refine Script.Ranked.mono (Script.ranked_bind (ofJob (self.reconcileDocumentation_turns _)) fun _ => ?_) (by decide)
  refine Script.Ranked.mono (Script.ranked_bind (ofJob (self.checkProjectionFreshness_turns _)) fun _ => ?_) (by decide)
  refine Script.Ranked.mono (Script.ranked_bind (ofJob (self.detectStuckExecutions_turns _)) fun _ => ?_) (by decide)
  exact Script.Ranked.mono (ofJob (self.retryFailedProjections_turns _)).ranked (by decide)

/-- Where a number of passes leads, each starting where the one before ended. -/
def passes (o : SchedulerOutside) : Nat → Nat → ReconciliationStores → Nat × ReconciliationStores
  | 0, n, s => (n, s)
  | iterations + 1, n, s => passes o iterations (self.reconcile.run o n s).time (self.reconcile.run o n s).store

theorem runLoop_passes (iterations : Nat) (o : SchedulerOutside) (n : Nat) (s : ReconciliationStores) :
    self.runLoop iterations o n s = ⟨.ok iterations, (self.passes o iterations n s).1, (self.passes o iterations n s).2⟩ := by
  induction iterations generalizing n s with
  | zero => rfl
  | succ iterations ih =>
    have attempted : attempt self.reconcile.run o n s =
      ⟨.ok (self.reconcile.run o n s).result, (self.reconcile.run o n s).time, (self.reconcile.run o n s).store⟩ := rfl
    unfold runLoop
    rw [bind_ok attempted, bind_ok (ih _ _)]
    rfl

/-- Two projects with a stale repository each; the second has a stuck execution. -/
def twoProjects : ReconciliationStores where
  world := World.putWorkItem { id := .v4 5, projectId := .v4 2, title := "Task" }
    (World.putProject { id := .v4 2, name := "b" } (World.putProject { id := .v4 1, name := "a" } {}))
  repositories := [{ id := .v4 3, projectId := .v4 1, name := "a", cloneUrl := "a.git", currentRevision := some "0" },
    { id := .v4 4, projectId := .v4 2, name := "b", cloneUrl := "b.git", currentRevision := some "0" }]
  snapshots := [{ repositoryId := .v4 3, revision := "1" }, { repositoryId := .v4 4, revision := "1" }]
  executions := Keyed.empty.upsert
    { id := .v4 6, workflowId := .v4 7, workItemId := .v4 5, executorId := .v4 8, status := .running, startedAt := 0 }

def queueing : ReconciliationService where
  queue := true
  publishActivity _ target observation :=
    { id := .v4 9, observationId := observation.id, provider := target.provider, target }

/-- The queue fails once, when the first project's command is enqueued. -/
def queueFails : SchedulerOutside where
  outcome n site :=
    if n = 4 ∧ site = .enqueueSyncRepository then .raises false ⟨"ConnectionError", "queue"⟩ else .returns
  clock _ := 7200

end ReconciliationService

end Brain
