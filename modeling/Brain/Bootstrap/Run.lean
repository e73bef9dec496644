import Brain.Bootstrap.Stages

namespace Brain
open Calls OpenProjectIngestionService

namespace OpenProjectProjectBootstrapService
variable {service : OpenProjectProjectBootstrapService} {stored : Bool} {projectId : ProjectId}
  {batch : List OpenProjectWorkItemSnapshot} {o : Outside} {w t u : World} {externalProjectId : String}
  {m : Mirror} {c : String → Option Remark} {snapshots : Keyed OpenProjectWorkItemSnapshot.externalId}
  {state : ProviderBootstrapState}

/-! ### Fetching -/

theorem importing_trans {m m' m'' : Mirror} (first : Mirror.Importing stored projectId batch m m')
    (second : Mirror.Importing stored projectId batch m' m'') : Mirror.Importing stored projectId batch m m'' := by
  cases stored with
  | true => exact Relation.ReflTransGen.trans first second
  | false =>
    obtain ⟨reach, items⟩ := second
    rw [Mirror.knownOf_congr first.2] at reach
    exact ⟨Relation.ReflTransGen.trans first.1 reach, items.trans first.2⟩

theorem underway_moves (underway : Underway service stored projectId batch w t) (sound : Sound u) (persists : Persists t u)
    (le : t.nextUuid ≤ u.nextUuid) (projects : u.projects = t.projects) (comments : u.comments = t.comments)
    (importing : Mirror.Importing stored projectId batch t.mirror u.mirror) (pending : Pending u projectId) :
    Underway service stored projectId batch w u ∧ u.commentary = t.commentary := by
  obtain ⟨commentary, owned⟩ := commentary_persists underway.sound sound persists underway.owned comments
  refine ⟨⟨⟨sound, underway.persists.trans persists, owned, Nat.le_trans underway.nextUuid le, ?_,
    importing_trans underway.mirror importing, ?_⟩, Or.inl fun _ => pending⟩, commentary⟩
  · rw [projects, underway.project]
  · rw [commentary]
    exact underway.comments

theorem fetches_underway (underway : Underway service stored projectId batch w t) (pending : Pending t projectId)
    (fetches : Fetches stored projectId batch t u) :
    Underway service stored projectId batch w u ∧ u.commentary = t.commentary := by
  obtain ⟨⟨sound, persists, le⟩, ⟨projects, comments⟩, mirror, later⟩ := fetches underway.sound underway.project
  refine underway_moves underway sound persists le projects comments ?_ (later pending)
  cases stored with
  | true => exact mirror
  | false =>
    have same : u.mirror = t.mirror := mirror
    rw [same]
    exact Mirror.importing_refl false

def firstPassOf (stored : Bool) (projectId : ProjectId) (batch : List OpenProjectWorkItemSnapshot) (m : Mirror) : Mirror :=
  if stored then m.ingestAll projectId batch else m

theorem fetchAllWorkPackages_stands (result : BootstrapResult) (keyed : state.key = (projectId, "openproject"))
    (incomplete : state.isCompleted = false) (isBatch : service.batch externalProjectId state = batch)
    (stands : Stands service stored projectId batch m c snapshots w t) (pending : Pending t projectId) :
    Meets o (service.fetchAllWorkPackages externalProjectId state result projectId) t (byResult
      (fun r u => r.2 = batch ∧
        Stands service stored projectId batch (firstPassOf stored projectId batch m) c (savedAll batch snapshots) w u)
      (fun e u => o.Raises e ∧ Underway service stored projectId batch w u)) := by
  have ingest : ∀ s ∈ batch, ∀ v u, service.ingestion.Ingests o (bootstrapOptions projectId) s v u →
      Fetches stored projectId batch v u := by
    intro s member v u ingests sound
    obtain ⟨result, ingested⟩ := ingests.ingested sound
    exact ingested_fetches member (fun _ => ingested) sound
  have breaks : ∀ s ∈ batch, ∀ v u, service.ingestion.BreaksOff o (bootstrapOptions projectId) s v u →
      Fetches stored projectId batch v u := by
    intro s member v u broke sound
    obtain ⟨e, ingested⟩ := broke.ingested sound
    exact ingested_fetches member (fun _ => ingested) sound
  have checkpoints : ∀ v u, Checkpoints state v u → Fetches stored projectId batch v u :=
    fun _ _ => checkpoints_fetches keyed incomplete
  unfold fetchAllWorkPackages
  refine Meets.seq _ (service.fetchLoop_fetches result stands.sound (Nat.lt_succ_self _)) ?_ ?_
  · rintro r u ⟨_, result', rfl, walk⟩
    rw [isBatch] at walk ⊢
    obtain ⟨underway, commentary⟩ := fetches_underway stands.toUnderway pending (walk.within ingest checkpoints)
    obtain ⟨_, _, saved, passed⟩ := walked_leaves rfl walk stands.sound
    refine Meets.pure ⟨rfl, ⟨underway, ?_, commentary.trans stands.isCommentary, ?_⟩⟩
    · rw [firstPassOf, ← stands.isMirror]
      cases stored with
      | true => exact passed stands.project
      | false =>
        obtain ⟨_, _, same, _⟩ := walk.within ingest checkpoints stands.sound stands.project
        exact same
    · rw [saved, stands.isSnapshots]
  · rintro e u ⟨raises, stops⟩
    rw [isBatch] at stops
    exact ⟨raises, (fetches_underway stands.toUnderway pending (stops.within ingest breaks checkpoints)).1⟩

/-! ### The second pass -/

theorem reworks_underway (underway : Underway service stored projectId batch w t) (pending : Pending t projectId)
    (reworks : Reworks t u) (resolves : Mirror.Resolves projectId batch t.mirror u.mirror) :
    Underway service stored projectId batch w u ∧ u.commentary = t.commentary := by
  obtain ⟨sound, persists⟩ := reworks.sound underway.sound
  have outer := congrArg World.bootstrapStates reworks.outer
  have states : u.bootstrapStates = t.bootstrapStates := outer
  refine underway_moves underway sound persists reworks.nextUuid reworks.projects reworks.comments ?_ ?_
  · cases stored with
    | true => exact resolves.reach
    | false => exact resolves
  · intro state found
    rw [World.bootstrapState, states] at found
    exact pending state found

theorem resolveRelationships_stands
    (stands : Stands service stored projectId batch (firstPassOf stored projectId batch w.mirror) c snapshots w t)
    (pending : Pending t projectId) :
    Meets o (resolveRelationships batch) t (byResult
      (fun _ u => Stands service stored projectId batch (w.mirror.imported stored projectId batch) c snapshots w u)
      (fun e u => o.Raises e ∧ Underway service stored projectId batch w u)) := by
  refine (resolveRelationships_refines projectId batch stands.sound).mono ?_
  intro r u reached
  cases r with
  | ok _ =>
    obtain ⟨reworks, mirror⟩ := reached
    have mirror : u.mirror = t.mirror.resolveAll batch := mirror
    have resolves := Mirror.resolves_resolveAll projectId batch t.mirror
    rw [← mirror] at resolves
    obtain ⟨underway, commentary⟩ := reworks_underway stands.toUnderway pending reworks resolves
    refine ⟨underway, ?_, commentary.trans stands.isCommentary, reworks.snapshots.trans stands.isSnapshots⟩
    rw [mirror, stands.isMirror]
    cases stored <;> rfl
  | error e =>
    obtain ⟨reworks, raises, _, mirror⟩ := reached
    exact ⟨raises, (reworks_underway stands.toUnderway pending reworks mirror).1⟩

theorem stands_of_stays {α : Type} {work : Prog α} (stands : Stands service stored projectId batch m c snapshots w t)
    (stays : Within Eq (fun _ => True) work) : Meets o work t (byResult
      (fun _ u => Stands service stored projectId batch m c snapshots w u)
      (fun e u => o.Raises e ∧ Underway service stored projectId batch w u)) := by
  refine (stays o t).mono ?_
  intro r u reached
  cases r with
  | ok _ =>
    cases reached
    exact stands
  | error e =>
    obtain ⟨rfl, _, raises⟩ := reached
    exact ⟨raises, stands.toUnderway⟩

theorem countRelations_stays (projectId : ProjectId) : Within Eq (fun _ => True) (countRelations projectId) := by
  refine Within.bind (Within.query trivial) fun workItems => Within.tally fun workItem _ => ?_
  exact Within.bind (Within.query trivial) fun _ => Within.pure _

/-! ### The comments -/

theorem ingestComments_stands
    (stands : Stands service stored projectId batch (w.mirror.imported stored projectId batch) w.commentary snapshots w t)
    (pending : Pending t projectId) :
    Meets o (service.ingestComments batch) t (byResult
      (fun _ u => Stands service stored projectId batch (w.mirror.imported stored projectId batch)
        (annotate (service.remarks (w.mirror.imported stored projectId batch) batch) w.commentary) snapshots w u)
      (fun e u => o.Raises e ∧ Underway service stored projectId batch w u)) := by
  have annotates : ∀ u done, done <+: service.remarks (w.mirror.imported stored projectId batch) batch →
      Annotates t u done → Stands service stored projectId batch (w.mirror.imported stored projectId batch)
        (annotate done w.commentary) snapshots w u := by
    intro u done front annotates
    have rest := annotates.rest
    have mirror : u.mirror = w.mirror.imported stored projectId batch := annotates.mirror.trans stands.isMirror
    have commentary : u.commentary = annotate done w.commentary := by rw [annotates.commentary, stands.isCommentary]
    refine ⟨⟨⟨annotates.sound, stands.persists.trans annotates.persists, annotates.owned,
      Nat.le_trans stands.nextUuid annotates.nextUuid, ?_, ?_, done, front, commentary⟩, Or.inl fun _ => ?_⟩, mirror,
      commentary, ?_⟩
    · rw [rest]
      exact stands.project
    · rw [annotates.mirror]
      exact stands.mirror
    · intro state found
      rw [rest] at found
      exact pending state found
    · rw [rest]
      exact stands.isSnapshots
  refine (service.ingestComments_annotates batch stands.sound stands.owned).mono ?_
  intro r u reached
  rw [stands.isMirror] at reached
  cases r with
  | ok _ => exact annotates u _ (List.prefix_refl _) reached
  | error e =>
    obtain ⟨raises, done, front, partly⟩ := reached
    exact ⟨raises, (annotates u done front partly).toUnderway⟩

/-! ### The baseline -/

theorem establishBaseline_administers (externalProjectId : String) (snapshots : List OpenProjectWorkItemSnapshot) :
    Within (fun w t => ∃ watermarks, t = { w with watermarks }) (fun _ => True)
      (establishBaseline externalProjectId snapshots) := by
  have preorder : IsPreorder World (fun w t : World => ∃ watermarks, t = { w with watermarks }) := by
    refine { refl := fun w => ⟨w.watermarks, rfl⟩, trans := ?_ }
    rintro u v w ⟨_, rfl⟩ ⟨watermarks, rfl⟩
    exact ⟨watermarks, rfl⟩
  refine Within.bind (Within.call ?_ trivial) fun watermark => ?_
  · exact fun w => ⟨_, getOrCreateWatermark_rest _ _ w⟩
  refine Within.bind Within.now fun lastSyncedAt => Within.bind Within.now fun completedAt => ?_
  exact Within.command (fun w => ⟨_, rfl⟩) trivial

theorem establishBaseline_stands (externalProjectId : String) (fetched : List OpenProjectWorkItemSnapshot)
    (stands : Stands service stored projectId batch m c snapshots w t) (finished : Finished service stored projectId batch w t) :
    Meets o (establishBaseline externalProjectId fetched) t (byResult
      (fun _ u => Stands service stored projectId batch m c snapshots w u)
      (fun e u => o.Raises e ∧ Underway service stored projectId batch w u)) := by
  have later : ∀ u, (∃ watermarks, u = { t with watermarks }) → Stands service stored projectId batch m c snapshots w u := by
    rintro u ⟨watermarks, rfl⟩
    exact stands_administers stands ⟨rfl, Nat.le_refl _⟩ rfl (Or.inr finished)
  refine (establishBaseline_administers externalProjectId fetched o t).mono ?_
  intro r u reached
  cases r with
  | ok _ => exact later u reached
  | error e => exact ⟨reached.2.2, (later u reached.1).toUnderway⟩

/-! ### The whole run -/

/-- A run that started in `w` imported the batch and saved this state last. -/
structure Completes (service : OpenProjectProjectBootstrapService) (stored : Bool) (projectId : ProjectId)
    (batch : List OpenProjectWorkItemSnapshot) (page : Nat) (w t : World) : Prop
    extends Progress service stored projectId batch w t where
  finished : Finished service stored projectId batch w t
  snapshots : t.snapshots = savedAll batch w.snapshots
  state : ∃ state, t.bootstrapState projectId = some state ∧ state.isCompleted = true ∧ state.lastPage = page

theorem importProject_completes {discovered : ProviderBootstrapState} (result : BootstrapResult)
    (keyed : discovered.key = (projectId, "openproject")) (isBatch : service.batch externalProjectId discovered = batch)
    (stands : Stands service stored projectId batch w.mirror w.commentary w.snapshots w t) :
    Meets o (service.importProject discovered result projectId externalProjectId) t (byResult
      (fun r u => r.status = .ready ∧ Completes service stored projectId batch discovered.lastPage w u)
      (Interrupted service o stored projectId batch discovered.lastPage w)) := by
  have pending : ∀ {state : ProviderBootstrapState} {v u : World}, u = World.saveBootstrapState state v →
      state.key = (projectId, "openproject") → state.isCompleted = false → Pending u projectId := by
    rintro state v u rfl keyed incomplete
    exact pending_save keyed incomplete v
  unfold importProject
  refine Meets.seq _ (stage_stands stands keyed (Or.inl rfl) fun u saved here =>
    fetchAllWorkPackages_stands result keyed rfl isBatch here (pending saved keyed rfl)) ?_ (fun _ _ stopped => stopped)
  rintro ⟨result, fetched⟩ u ⟨isFetched, stands⟩
  obtain rfl : batch = fetched := isFetched.symm
  refine Meets.seq _ (stage_stands (Q := fun _ v => Stands service stored projectId batch
    (w.mirror.imported stored projectId batch) w.commentary (savedAll batch w.snapshots) w v)
    stands keyed (Or.inl rfl) fun v saved here => ?_) ?_ (fun _ _ stopped => stopped)
  · exact Meets.seq _ (resolveRelationships_stands here (pending saved keyed rfl))
      (fun _ _ resolved => stands_of_stays resolved (countRelations_stays projectId)) (fun _ _ stopped => stopped)
  intro relationsIngested v stands
  refine Meets.seq _ (stage_stands stands keyed (Or.inl rfl) fun x saved here =>
    ingestComments_stands here (pending saved keyed rfl)) ?_ (fun _ _ stopped => stopped)
  intro commentsIngested x stands
  refine Meets.seq _ (stage_stands stands keyed (Or.inl rfl) fun y saved here =>
    stands_of_stays here (Within.pure ())) ?_ (fun _ _ stopped => stopped)
  intro _ y stands
  have finished : ∀ {t : World}, Stands service stored projectId batch (w.mirror.imported stored projectId batch)
      (annotate (service.remarks (w.mirror.imported stored projectId batch) batch) w.commentary)
      (savedAll batch w.snapshots) w t → Finished service stored projectId batch w t :=
    fun stands => ⟨stands.isMirror, stands.isCommentary⟩
  refine Meets.seq _ (stage_stands stands keyed (Or.inl rfl) fun z saved here =>
    establishBaseline_stands externalProjectId _ here (finished here)) ?_ (fun _ _ stopped => stopped)
  intro _ z stands
  refine Meets.bind (Meets.now fun completedAt => ?_)
  dsimp only [byResult]
  refine Meets.seq _ (stage_stands (Q := fun _ v => Completes service stored projectId batch discovered.lastPage w v)
    stands keyed (Or.inr (finished stands)) fun v saved here => ?_) ?_ (fun _ _ stopped => stopped)
  · refine Meets.pure ⟨here.toProgress, finished here, here.isSnapshots, ?_⟩
    rw [saved]
    exact ⟨_, bootstrapState_save (by exact keyed) z, rfl, rfl⟩
  · exact fun _ _ completes => Meets.pure ⟨rfl, completes⟩

def due (service : OpenProjectProjectBootstrapService) (externalProjectId : String) (page : Nat) :
    List OpenProjectWorkItemSnapshot :=
  if Lists service externalProjectId then
    Paging.read parseRaw service.pageSize
      ((service.provider.transport.projectWorkPackages externalProjectId).drop (max page 1 - 1))
  else []

theorem finished_nothing (mirror : t.mirror = w.mirror) (commentary : t.commentary = w.commentary) :
    Finished service stored projectId [] w t := by
  have same : w.mirror.imported stored projectId [] = w.mirror := by cases stored <;> rfl
  refine ⟨mirror.trans same.symm, ?_⟩
  rw [commentary]
  exact (annotate_nil _).symm

theorem stands_start (sound : Sound w) (owned : Owned w) : Stands service (w.projects.get projectId).isSome projectId batch
    w.mirror w.commentary w.snapshots w w :=
  ⟨⟨progress_start sound owned, Or.inl id⟩, rfl, rfl, rfl⟩

/-- What a run that returns leaves: it imported everything it was due to, and
starts at the same page again. -/
structure Leaves (service : OpenProjectProjectBootstrapService) (stored : Bool) (projectId : ProjectId)
    (externalProjectId : String) (page : Nat) (w t : World) : Prop
    extends Progress service stored projectId (service.due externalProjectId page) w t where
  finished : Finished service stored projectId (service.due externalProjectId page) w t
  restart : t.lastPage projectId = page
  snapshots : t.snapshots = savedAll (service.due externalProjectId page) w.snapshots

theorem run_leaves (keyed : state.key = (projectId, "openproject")) (below : projectId.Below w.nextUuid)
    (stands : Stands service stored projectId (service.due externalProjectId state.lastPage) w.mirror w.commentary
      w.snapshots w t) :
    Meets o (service.run state projectId externalProjectId) t (byResult
      (fun _ u => Leaves service stored projectId externalProjectId state.lastPage w u)
      (Interrupted service o stored projectId (service.due externalProjectId state.lastPage) state.lastPage w)) := by
  unfold run
  refine Meets.seq _ (stage_stands stands keyed (Or.inl rfl) fun u _ here =>
    discover_stands _ keyed below here) ?_ (fun _ _ stopped => stopped)
  rintro discovered u ⟨stands, failed, found⟩
  cases discovered with
  | error result =>
    obtain ⟨unlisted, recorded⟩ := failed result rfl
    have nothing : service.due externalProjectId state.lastPage = [] := by
      rw [due, unlisted]
      rfl
    refine Meets.pure ⟨stands.toProgress, ?_, ?_, ?_⟩
    · rw [nothing]
      exact finished_nothing stands.isMirror stands.isCommentary
    · rw [World.lastPage, recorded]
      rfl
    · rw [nothing]
      exact stands.isSnapshots
  | ok result =>
    have isBatch : service.batch externalProjectId state = service.due externalProjectId state.lastPage := by
      rw [due, found result rfl]
      rfl
    dsimp only
    refine (importProject_completes result (by exact keyed) (by exact isBatch) stands).mono ?_
    intro r v reached
    cases r with
    | error e => exact reached
    | ok r =>
      obtain ⟨_, completes⟩ := reached
      obtain ⟨last, recorded, _, page⟩ := completes.state
      refine ⟨completes.toProgress, completes.finished, ?_, completes.snapshots⟩
      rw [World.lastPage, recorded]
      exact page

theorem loadState_loads (service : OpenProjectProjectBootstrapService) (batch : List OpenProjectWorkItemSnapshot)
    (sound : Sound w) (owned : Owned w) : Meets o (loadState projectId) w (byResult
    (fun state t => state.key = (projectId, "openproject") ∧ state.lastPage = w.lastPage projectId ∧
      Stands service (w.projects.get projectId).isSome projectId batch w.mirror w.commentary w.snapshots w t ∧
      (state.isCompleted = false → Pending w projectId) ∧ (state.isCompleted = true → ¬ Pending w projectId ∧ t = w))
    (fun e t => (Pending w projectId ∨ t = w) ∧
      Interrupted service o (w.projects.get projectId).isSome projectId batch (w.lastPage projectId) w e t)) := by
  have stands : Stands service (w.projects.get projectId).isSome projectId batch w.mirror w.commentary w.snapshots w w :=
    stands_start sound owned
  refine Meets.bind (Meets.query ?_ fun _ _ raises => ⟨Or.inr rfl, raises, stands.toUnderway, Or.inr rfl⟩)
  dsimp only [byResult]
  have read : w.bootstrapState projectId = w.bootstrapStates.get (projectId, "openproject") := rfl
  cases found : w.bootstrapStates.get (projectId, "openproject") with
  | some state =>
    rw [found] at read
    refine Meets.pure ⟨(Keyed.get_eq_some.mp found).2, by rw [World.lastPage, read]; rfl, stands, ?_, ?_⟩
    · intro incomplete other same
      rw [read] at same
      cases same
      exact incomplete
    · intro completed
      refine ⟨fun pending => ?_, rfl⟩
      rw [pending state read] at completed
      cases completed
  | none =>
    rw [found] at read
    have pending : Pending w projectId := by
      intro other same
      rw [read] at same
      cases same
    have none : w.lastPage projectId = 0 := by rw [World.lastPage, read]; rfl
    have saved := @stands_save _ _ _ _ _ _ _ _ _ { projectId, provider := "openproject" } stands rfl (Or.inl rfl)
    have page : (World.saveBootstrapState { projectId, provider := "openproject" } w).lastPage projectId = 0 := by
      rw [World.lastPage, bootstrapState_save rfl]
      rfl
    refine Meets.bind (Meets.command ?_ ?_ ?_)
    · refine Meets.pure ⟨rfl, none.symm, saved, fun _ => pending, ?_⟩
      intro completed
      cases completed
    · exact fun _ raises => ⟨Or.inl pending, raises, stands.toUnderway, Or.inr rfl⟩
    · exact fun _ raises => ⟨Or.inl pending, raises, saved.toUnderway, Or.inr (page.trans none.symm)⟩

theorem bootstrap_leaves (force : Bool) (sound : Sound w) (owned : Owned w) (below : projectId.Below w.nextUuid) :
    Meets o (service.bootstrap projectId externalProjectId force) w (byResult
      (fun _ t => (force = false ∧ ¬ Pending w projectId) ∧ t = w ∨ (force = true ∨ Pending w projectId) ∧
        Leaves service (w.projects.get projectId).isSome projectId externalProjectId (w.lastPage projectId) w t)
      (fun e t => ((force = true ∨ Pending w projectId) ∨ t = w) ∧ Interrupted service o (w.projects.get projectId).isSome projectId
        (service.due externalProjectId (w.lastPage projectId)) (w.lastPage projectId) w e t)) := by
  refine Meets.seq _ (loadState_loads service (service.due externalProjectId (w.lastPage projectId)) sound owned) ?_ ?_
  · rintro state t ⟨keyed, page, stands, pending, completed⟩
    cases early : (!force && state.isCompleted) with
    | true =>
      rw [Bool.and_eq_true, Bool.not_eq_true'] at early
      obtain ⟨finished, same⟩ := completed early.2
      rw [if_pos rfl]
      exact Meets.pure (Or.inl ⟨⟨early.1, finished⟩, same⟩)
    | false =>
      have goes : force = true ∨ Pending w projectId := by
        cases force with
        | true => exact Or.inl rfl
        | false => exact Or.inr (pending (by simpa using early))
      rw [if_neg Bool.false_ne_true]
      rw [← page] at stands ⊢
      refine (run_leaves keyed below stands).mono ?_
      intro r u reached
      cases r with
      | ok _ => exact Or.inr ⟨goes, reached⟩
      | error e => exact ⟨Or.inl goes, reached⟩
  · rintro e t ⟨stopped, interrupted⟩
    exact ⟨stopped.imp_left Or.inr, interrupted⟩

end OpenProjectProjectBootstrapService

end Brain
