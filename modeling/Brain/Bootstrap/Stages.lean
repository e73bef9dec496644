import Brain.Bootstrap.Comments
import Brain.Bootstrap.Loops
import Brain.Ingestion.Convergence

namespace Brain
open Calls OpenProjectIngestionService

/-- Only projects, watermarks, conflicts and the progress of bootstraps were written. -/
structure Administers (w t : World) : Prop where
  rest : t = { w with projects := t.projects, graph := t.graph, bootstrapStates := t.bootstrapStates
                      watermarks := t.watermarks, conflicts := t.conflicts, nextUuid := t.nextUuid }
  nextUuid : w.nextUuid ≤ t.nextUuid

instance : IsPreorder World Administers where
  refl w := ⟨rfl, Nat.le_refl _⟩
  trans u v w first second := by
    refine ⟨?_, Nat.le_trans first.nextUuid second.nextUuid⟩
    have atEnd := second.rest
    rw [first.rest] at atEnd
    exact atEnd

namespace Administers
variable {w t : World} (administers : Administers w t)
include administers

theorem sound (sound : Sound w) : Sound t ∧ Persists w t := by
  have rest := administers.rest
  have le := administers.nextUuid
  have drawn : Tends w { w with nextUuid := t.nextUuid } := (Drawn.beside ⟨t.nextUuid, le, rfl⟩).tends
  have later := drawn.sound sound
  rw [rest]
  exact ⟨⟨later.workItems, later.attachments, later.comments, later.parents, later.ends, later.triples,
    later.relationIds, later.mappings⟩, fun _ => id, fun _ => id, fun _ => id, fun _ => id⟩

theorem workItems : t.workItems = w.workItems := by rw [administers.rest]
theorem comments : t.comments = w.comments := by rw [administers.rest]
theorem snapshots : t.snapshots = w.snapshots := by rw [administers.rest]

theorem mirror : t.mirror = w.mirror := mirror_congr administers.workItems (by rw [administers.rest])

end Administers

theorem ProjectsOnly.administers {w t : World} (projects : ProjectsOnly w t) : Administers w t := by
  refine ⟨?_, projects.nextUuid⟩
  have rest := projects.rest
  rw [rest]

theorem saveBootstrapState_administers (state : ProviderBootstrapState) (w : World) :
    Administers w (World.saveBootstrapState state w) := ⟨rfl, Nat.le_refl _⟩

/-! ### The state of a bootstrap -/

def World.bootstrapState (w : World) (projectId : ProjectId) : Option ProviderBootstrapState :=
  w.bootstrapStates.get (projectId, "openproject")

/-- The page the next run of the bootstrap starts from. -/
def World.lastPage (w : World) (projectId : ProjectId) : Nat :=
  ((w.bootstrapState projectId).map ProviderBootstrapState.lastPage).getD 0

/-- The bootstrap is not recorded as completed. -/
def Pending (w : World) (projectId : ProjectId) : Prop :=
  ∀ state, w.bootstrapState projectId = some state → state.isCompleted = false

theorem bootstrapState_save {projectId : ProjectId} {state : ProviderBootstrapState}
    (keyed : state.key = (projectId, "openproject")) (w : World) :
    (World.saveBootstrapState state w).bootstrapState projectId = some state := by
  unfold World.bootstrapState World.saveBootstrapState
  rw [← keyed]
  exact Keyed.get_upsert_self _ _

theorem pending_save {projectId : ProjectId} {state : ProviderBootstrapState}
    (keyed : state.key = (projectId, "openproject")) (incomplete : state.isCompleted = false) (w : World) :
    Pending (World.saveBootstrapState state w) projectId := by
  intro found stored
  rw [bootstrapState_save keyed] at stored
  cases stored
  exact incomplete

namespace OpenProjectProjectBootstrapService
variable (service : OpenProjectProjectBootstrapService)

/-! ### How far an import is -/

/-- A part of an import of a batch was done on the way from `w` to `t`. -/
structure Progress (stored : Bool) (projectId : ProjectId) (batch : List OpenProjectWorkItemSnapshot)
    (w t : World) : Prop where
  sound : Sound t
  persists : Persists w t
  owned : Owned t
  nextUuid : w.nextUuid ≤ t.nextUuid
  project : (t.projects.get projectId).isSome = stored
  mirror : Mirror.Importing stored projectId batch w.mirror t.mirror
  comments : ∃ done, done <+: service.remarks (w.mirror.imported stored projectId batch) batch ∧
    t.commentary = annotate done w.commentary

structure Finished (stored : Bool) (projectId : ProjectId) (batch : List OpenProjectWorkItemSnapshot)
    (w t : World) : Prop where
  mirror : t.mirror = w.mirror.imported stored projectId batch
  commentary : t.commentary = annotate (service.remarks (w.mirror.imported stored projectId batch) batch) w.commentary

/-- A run that started in `w` is under way. It records itself as completed only
when everything is done. -/
structure Underway (stored : Bool) (projectId : ProjectId) (batch : List OpenProjectWorkItemSnapshot)
    (w t : World) : Prop extends Progress service stored projectId batch w t where
  pending : (Pending w projectId → Pending t projectId) ∨ Finished service stored projectId batch w t

/-- How a run that started in `w` at page `page` raises. -/
structure Interrupted (o : Outside) (stored : Bool) (projectId : ProjectId) (batch : List OpenProjectWorkItemSnapshot)
    (page : Nat) (w : World) (e : Raised) (t : World) : Prop where
  raises : o.Raises e
  progress : Underway service stored projectId batch w t
  page : e.site = .bootstrapStateFailed ∧ e.tookEffect = false ∨ t.lastPage projectId = page

variable {service} {stored : Bool} {projectId : ProjectId} {batch : List OpenProjectWorkItemSnapshot}
  {o : Outside} {w t u : World}

theorem progress_start (sound : Sound w) (owned : Owned w) :
    Progress service (w.projects.get projectId).isSome projectId batch w w :=
  ⟨sound, Persists.refl w, owned, Nat.le_refl _, rfl, Mirror.importing_refl _, [], List.nil_prefix,
    (annotate_nil _).symm⟩

theorem progress_administers (progress : Progress service stored projectId batch w t) (administers : Administers t u)
    (project : (u.projects.get projectId).isSome = (t.projects.get projectId).isSome) :
    Progress service stored projectId batch w u ∧ u.mirror = t.mirror ∧ u.commentary = t.commentary := by
  obtain ⟨sound, persists⟩ := administers.sound progress.sound
  obtain ⟨commentary, owned⟩ := commentary_persists progress.sound sound persists progress.owned administers.comments
  refine ⟨⟨sound, progress.persists.trans persists, owned, Nat.le_trans progress.nextUuid administers.nextUuid,
    project.trans progress.project, ?_, ?_⟩, administers.mirror, commentary⟩
  · rw [administers.mirror]
    exact progress.mirror
  · rw [commentary]
    exact progress.comments

theorem finished_congr (finished : Finished service stored projectId batch w t) (mirror : u.mirror = t.mirror)
    (commentary : u.commentary = t.commentary) : Finished service stored projectId batch w u :=
  ⟨mirror.trans finished.mirror, commentary.trans finished.commentary⟩

theorem underway_save {state : ProviderBootstrapState} (underway : Underway service stored projectId batch w t)
    (keyed : state.key = (projectId, "openproject"))
    (incomplete : state.isCompleted = false ∨ Finished service stored projectId batch w t) :
    Underway service stored projectId batch w (World.saveBootstrapState state t) := by
  obtain ⟨progress, mirror, commentary⟩ :=
    progress_administers underway.toProgress (saveBootstrapState_administers state t) rfl
  refine ⟨progress, ?_⟩
  rcases incomplete with incomplete | finished
  · exact Or.inl fun _ => pending_save keyed incomplete t
  · exact Or.inr (finished_congr finished mirror commentary)

theorem stage_interrupts {α : Type} {state : ProviderBootstrapState} {work : Prog α} {Q : α → World → Prop}
    (underway : Underway service stored projectId batch w t) (keyed : state.key = (projectId, "openproject"))
    (incomplete : state.isCompleted = false ∨ Finished service stored projectId batch w t)
    (worked : Underway service stored projectId batch w (World.saveBootstrapState state t) →
      Meets o work (World.saveBootstrapState state t) (byResult Q
        (fun e u => o.Raises e ∧ Underway service stored projectId batch w u))) :
    Meets o (stage state work) t (byResult Q (Interrupted service o stored projectId batch state.lastPage w)) := by
  have entered := underway_save underway keyed incomplete
  have handled : ∀ (e : Raised) (u : World) (message : String), o.Raises e →
      Underway service stored projectId batch w u →
      Meets o (command .bootstrapStateFailed (World.saveBootstrapState (state.failedWith message))) u
        (byResult (fun _ v => Interrupted service o stored projectId batch state.lastPage w e v)
          (fun e' v => Interrupted service o stored projectId batch state.lastPage w e' v)) := by
    intro e u message raises underway
    have failed : (state.failedWith message).isCompleted = false := rfl
    have recorded := @underway_save _ _ _ _ _ _ (state.failedWith message) underway keyed (Or.inl failed)
    have page : (World.saveBootstrapState (state.failedWith message) u).lastPage projectId = state.lastPage := by
      rw [World.lastPage, @bootstrapState_save _ (state.failedWith message) keyed]
      rfl
    refine Meets.command ⟨raises, recorded, Or.inr page⟩ ?_ ?_
    · exact fun _ raises => ⟨raises, underway, Or.inl ⟨rfl, rfl⟩⟩
    · exact fun _ raises => ⟨raises, recorded, Or.inr page⟩
  unfold stage
  refine Meets.onRaise (Meets.bind (Meets.command ?_ ?_ ?_))
  · refine (worked entered).mono ?_
    intro r u reached
    cases r with
    | ok a => exact reached
    | error e => exact handled e u _ reached.1 reached.2
  · exact fun _ raises => handled _ t _ raises underway
  · exact fun _ raises => handled _ _ _ raises entered

end OpenProjectProjectBootstrapService

end Brain

namespace Brain
open Calls OpenProjectIngestionService

/-! ### Projects -/

/-- No project is lost, and none is stored under an id drawn before. -/
def KeepsProjects (w t : World) : Prop :=
  ∀ id : ProjectId, id.Below w.nextUuid → (t.projects.get id).isSome = (w.projects.get id).isSome

variable {w : World}

theorem findProjectForUpsert_finds {o : Outside} (externalId : String) (projectId : Option ProjectId) :
    Meets o (findProjectForUpsert externalId projectId) w (byResult
      (fun found t => t = w ∧ ∀ project, found = some project → project ∈ w.projects.items)
      (fun _ t => t = w)) := by
  have search : Meets o (query .upsertProjectFind (·.findProject "openproject" externalId (some "project")) :
      Prog (Option Project)) w (byResult
        (fun found t => t = w ∧ ∀ project, found = some project → project ∈ w.projects.items)
        (fun _ t => t = w)) :=
    Meets.query ⟨rfl, fun _ found => List.mem_of_find?_eq_some found⟩ fun _ _ _ => rfl
  cases projectId with
  | some id =>
    refine Meets.bind (Meets.query ?_ fun _ _ _ => rfl)
    dsimp only [byResult]
    cases found : w.projects.get id with
    | some project =>
      refine Meets.pure ⟨rfl, fun stored same => ?_⟩
      rw [← Option.some.inj same]
      exact (Keyed.get_eq_some.mp found).1
    | none => exact search
  | none => exact Meets.bind (Meets.pure search)

theorem upsertProjectNode_keeps {S : Site → Prop} (all : ∀ site, S site) (project : Project) :
    Within (fun w t => t.projects = w.projects) S (upsertProjectNode project) := by
  have same : IsPreorder World (fun w t : World => t.projects = w.projects) :=
    { refl := fun _ => rfl, trans := fun _ _ _ first second => second.trans first }
  refine Within.bind (Within.command (fun _ => rfl) (all _)) fun _ => ?_
  split
  · exact Within.command (fun _ => rfl) (all _)
  · exact Within.pure ()

theorem keepsProjects_create {project : Project} (new : project.id = .v4 w.nextUuid) :
    KeepsProjects w (World.putProject project { w with nextUuid := w.nextUuid + 1 }) := by
  intro id below
  have other : id ≠ project.id := by
    rw [new]
    exact below.ne_fresh
  exact congrArg Option.isSome (Keyed.get_upsert_ne w.projects other)

theorem keepsProjects_update {project updated : Project} (listed : project ∈ w.projects.items)
    (same : updated.id = project.id) : KeepsProjects w (World.putProject updated w) := by
  intro id _
  simp only [World.putProject, Keyed.get_upsert]
  split
  · rename_i own
    have stored : w.projects.get id = some project := Keyed.get_eq_some.mpr ⟨listed, (own.trans same).symm⟩
    rw [stored]
    rfl
  · rfl

theorem keepsProjects_congr {u t : World} (keeps : KeepsProjects w t) (same : u.projects = t.projects) :
    KeepsProjects w u := by
  unfold KeepsProjects
  rw [same]
  exact keeps

theorem upsertProject_keeps {o : Outside} (externalId name description : String) (parentExternalId : Option String)
    (projectId : Option ProjectId) :
    Meets o (upsertProject externalId name description parentExternalId projectId) w (fun _ t => KeepsProjects w t) := by
  have refl : KeepsProjects w w := fun _ _ => rfl
  have node : ∀ (project result : Project) (t : World), KeepsProjects w t →
      Meets o (do
        upsertProjectNode project
        pure result) t (fun _ u => KeepsProjects w u) := by
    intro project result t keeps
    refine Meets.seq _ (upsertProjectNode_keeps (S := fun _ => True) (fun _ => trivial) project o t) ?_ ?_
    · exact fun _ _ same => Meets.pure (keepsProjects_congr keeps same)
    · exact fun _ _ stopped => keepsProjects_congr keeps stopped.1
  have parent : Meets o (findParentProject parentExternalId) w (fun _ t => t = w) := by
    unfold findParentProject
    split
    · refine Meets.bind (Meets.query ?_ fun _ _ _ => rfl)
      dsimp only [byResult]
      exact Meets.pure rfl
    · exact Meets.pure rfl
  refine Meets.seq _ (findProjectForUpsert_finds externalId projectId) ?_ ?_
  · rintro existing t ⟨stayed, listed⟩
    rw [stayed]
    refine Meets.seq _ parent ?_ ?_
    · intro parentId u stayed
      rw [stayed]
      cases existing with
      | none =>
        refine Meets.seq _ (newUuid_id o w) ?_ (fun _ _ stopped => stopped.elim)
        rintro id v ⟨rfl, rfl⟩
        have drawn : KeepsProjects w { w with nextUuid := w.nextUuid + 1 } := fun _ _ => rfl
        refine Meets.bind (Meets.command (node _ _ _ (keepsProjects_create rfl)) ?_ ?_)
        · exact fun _ _ => drawn
        · exact fun _ _ => keepsProjects_create rfl
      | some project =>
        have updated : KeepsProjects w (World.putProject
            (updatedProject project (openProjectRef externalId "project") name description parentId) w) :=
          keepsProjects_update (listed project rfl) rfl
        dsimp only
        split
        · refine Meets.bind (Meets.command (node _ _ _ updated) ?_ ?_)
          · exact fun _ _ => refl
          · exact fun _ _ => updated
        · exact node _ _ w refl
    · intro _ _ stayed
      rw [stayed]
      exact refl
  · intro _ _ stayed
    rw [show _ = w from stayed]
    exact refl

structure Discovers (w t : World) : Prop where
  administers : Administers w t
  keeps : KeepsProjects w t
  states : t.bootstrapStates = w.bootstrapStates

instance : IsPreorder World Discovers where
  refl w := ⟨refl_of Administers w, fun _ _ => rfl, rfl⟩
  trans u v w first second := by
    refine ⟨trans_of Administers first.administers second.administers, fun id below => ?_,
      second.states.trans first.states⟩
    exact (second.keeps id (below.mono first.administers.nextUuid)).trans (first.keeps id below)

theorem ProjectsOnly.discovers {t : World} (projects : ProjectsOnly w t) (keeps : KeepsProjects w t) : Discovers w t := by
  refine ⟨projects.administers, keeps, ?_⟩
  rw [projects.rest]

namespace OpenProjectProjectBootstrapService

theorem ingestProject_discovers (targetExternalId : String) (targetProjectId : ProjectId) (project : ProviderProject) :
    Within Discovers ProjectSite (ingestProject targetExternalId targetProjectId project) := by
  refine Within.bind ?_ fun _ => Within.pure ()
  intro o w
  refine (Meets.and (upsertProject_projects _ _ _ _ _ o w) (upsertProject_keeps _ _ _ _ _)).mono ?_
  rintro r t ⟨stays, keeps⟩
  cases r with
  | ok _ => exact ProjectsOnly.discovers stays keeps
  | error _ => exact ⟨ProjectsOnly.discovers stays.1 keeps, stays.2⟩

variable {service : OpenProjectProjectBootstrapService} {stored : Bool} {projectId : ProjectId}
  {batch : List OpenProjectWorkItemSnapshot} {o : Outside} {w t u : World} {externalProjectId : String}

/-! ### Where a run stands between two stages -/

/-- A run that started in `w` is under way, with this mirror, these comments and
these snapshots. -/
structure Stands (service : OpenProjectProjectBootstrapService) (stored : Bool) (projectId : ProjectId)
    (batch : List OpenProjectWorkItemSnapshot) (m : Mirror) (c : String → Option Remark)
    (snapshots : Keyed OpenProjectWorkItemSnapshot.externalId) (w t : World) : Prop
    extends Underway service stored projectId batch w t where
  isMirror : t.mirror = m
  isCommentary : t.commentary = c
  isSnapshots : t.snapshots = snapshots

variable {m : Mirror} {c : String → Option Remark} {snapshots : Keyed OpenProjectWorkItemSnapshot.externalId}

theorem stands_administers (stands : Stands service stored projectId batch m c snapshots w t)
    (administers : Administers t u) (project : (u.projects.get projectId).isSome = (t.projects.get projectId).isSome)
    (pending : (Pending w projectId → Pending u projectId) ∨ Finished service stored projectId batch w t) :
    Stands service stored projectId batch m c snapshots w u := by
  obtain ⟨progress, mirror, commentary⟩ := progress_administers stands.toProgress administers project
  refine ⟨⟨progress, ?_⟩, mirror.trans stands.isMirror, commentary.trans stands.isCommentary,
    administers.snapshots.trans stands.isSnapshots⟩
  exact pending.imp_right fun finished => finished_congr finished mirror commentary

variable {state : ProviderBootstrapState}

theorem stands_save (stands : Stands service stored projectId batch m c snapshots w t)
    (keyed : state.key = (projectId, "openproject"))
    (incomplete : state.isCompleted = false ∨ Finished service stored projectId batch w t) :
    Stands service stored projectId batch m c snapshots w (World.saveBootstrapState state t) := by
  refine stands_administers stands (saveBootstrapState_administers state t) rfl ?_
  exact incomplete.imp_left fun incomplete _ => pending_save keyed incomplete t

theorem stage_stands {α : Type} {work : Prog α} {Q : α → World → Prop}
    (stands : Stands service stored projectId batch m c snapshots w t) (keyed : state.key = (projectId, "openproject"))
    (incomplete : state.isCompleted = false ∨ Finished service stored projectId batch w t)
    (worked : ∀ u, u = World.saveBootstrapState state t → Stands service stored projectId batch m c snapshots w u →
      Meets o work u (byResult Q (fun e v => o.Raises e ∧ Underway service stored projectId batch w v))) :
    Meets o (stage state work) t (byResult Q (Interrupted service o stored projectId batch state.lastPage w)) :=
  stage_interrupts stands.toUnderway keyed incomplete fun _ => worked _ rfl (stands_save stands keyed incomplete)

/-! ### The stages -/

def Lists (service : OpenProjectProjectBootstrapService) (externalProjectId : String) : Bool :=
  service.provider.listProjects.any fun p => p.externalId = externalProjectId

theorem discover_stands (result : BootstrapResult) (keyed : state.key = (projectId, "openproject"))
    (below : projectId.Below w.nextUuid) (stands : Stands service stored projectId batch m c snapshots w t) :
    Meets o (service.discover state result projectId externalProjectId) t (byResult
      (fun r u => Stands service stored projectId batch m c snapshots w u ∧
        (∀ failed, r = .error failed → Lists service externalProjectId = false ∧
          u.bootstrapState projectId = some (state.failedWith
            ("provider project " ++ externalProjectId ++ " does not exist or is not visible"))) ∧
        (∀ found, r = .ok found → Lists service externalProjectId = true))
      (fun e u => o.Raises e ∧ Underway service stored projectId batch w u)) := by
  refine Meets.bind (Meets.query ?_ fun _ _ raises => ⟨raises, stands.toUnderway⟩)
  dsimp only [byResult]
  split
  · rename_i unlisted
    have unlisted : Lists service externalProjectId = false := by simpa [Lists] using unlisted
    have saved := @stands_save _ _ _ _ _ _ _ _ _ (state.failedWith
      ("provider project " ++ externalProjectId ++ " does not exist or is not visible")) stands keyed (Or.inl rfl)
    refine Meets.bind (Meets.bind (Meets.command ?_ ?_ ?_))
    · refine Meets.pure (Meets.pure ⟨saved, ?_, by simp⟩)
      exact fun _ _ => ⟨unlisted, @bootstrapState_save _ (state.failedWith _) keyed t⟩
    · exact fun _ raises => ⟨raises, stands.toUnderway⟩
    · exact fun _ raises => ⟨raises, saved.toUnderway⟩
  · rename_i listed
    have listed : Lists service externalProjectId = true := by simpa [Lists] using listed
    have discovered : ∀ u, Discovers t u → Stands service stored projectId batch m c snapshots w u := by
      intro u discovers
      refine stands_administers stands discovers.administers
        (discovers.keeps projectId (below.mono stands.nextUuid)) ?_
      refine stands.pending.imp_left fun pending before state found => ?_
      rw [World.bootstrapState, discovers.states] at found
      exact pending before state found
    have walked : Within Discovers ProjectSite
        (forEach (ingestProject externalProjectId projectId) service.provider.listProjects) :=
      Within.forEach fun project _ => ingestProject_discovers externalProjectId projectId project
    refine Meets.bind (Meets.bind ((walked o t).mono ?_))
    intro r u stays
    cases r with
    | ok _ => exact Meets.pure (Meets.pure ⟨discovered u stays, by simp, fun _ _ => listed⟩)
    | error e => exact ⟨stays.2.2, (discovered u stays.1).toUnderway⟩

def Fetches (stored : Bool) (projectId : ProjectId) (batch : List OpenProjectWorkItemSnapshot) (w t : World) : Prop :=
  Sound w → (w.projects.get projectId).isSome = stored →
    (Sound t ∧ Persists w t ∧ w.nextUuid ≤ t.nextUuid) ∧ (t.projects = w.projects ∧ t.comments = w.comments) ∧
      (if stored then Mirror.Reach projectId batch w.mirror t.mirror else t.mirror = w.mirror) ∧
      (Pending w projectId → Pending t projectId)

instance : IsPreorder World (Fetches stored projectId batch) where
  refl w := by
    intro sound _
    refine ⟨⟨sound, Persists.refl w, Nat.le_refl _⟩, ⟨rfl, rfl⟩, ?_, id⟩
    split
    · exact .refl
    · rfl
  trans u v w first second := by
    intro sound project
    obtain ⟨⟨atV, persists, le⟩, ⟨projects, comments⟩, mirror, pending⟩ := first sound project
    obtain ⟨⟨atW, persists', le'⟩, ⟨projects', comments'⟩, mirror', pending'⟩ := second atV (by rw [projects, project])
    refine ⟨⟨atW, persists.trans persists', Nat.le_trans le le'⟩, ⟨projects'.trans projects, comments'.trans comments⟩,
      ?_, fun before => pending' (pending before)⟩
    cases stored with
    | true => exact Relation.ReflTransGen.trans mirror mirror'
    | false => exact mirror'.trans mirror

theorem ingested_fetches {r : Except Raised OpenProjectIngestionResult} {s : OpenProjectWorkItemSnapshot}
    (member : s ∈ batch)
    (ingested : Sound w → service.ingestion.Ingested w (bootstrapOptions projectId) s r t) :
    Fetches stored projectId batch w t := by
  intro sound project
  have ingested := ingested sound
  obtain ⟨comments, states, le⟩ := ingested.frame
  obtain ⟨atT, persists⟩ := ingested.sound sound
  refine ⟨⟨atT, persists, le⟩, ⟨ingested.projects, comments⟩, ?_, ?_⟩
  · cases stored with
    | true =>
      refine (ingested.reach projectId ?_).mono (by simpa using member)
      intro p resolved
      have into : (w.projects.get projectId).map (fun _ => projectId) = some p := resolved
      obtain ⟨_, _, same⟩ := Option.map_eq_some_iff.mp into
      exact same.symm
    | false =>
      have missing : w.projects.get projectId = none := by simpa using project
      exact ingested.unresolved (by simp [World.resolvedProject, bootstrapOptions, missing])
  · intro pending state found
    rw [World.bootstrapState, states] at found
    exact pending state found

theorem checkpoints_fetches (keyed : state.key = (projectId, "openproject"))
    (incomplete : state.isCompleted = false) (checkpoints : Checkpoints state w t) : Fetches stored projectId batch w t := by
  intro sound _
  obtain ⟨offset, rfl⟩ := checkpoints
  obtain ⟨later, persists⟩ := (saveBootstrapState_administers { state with lastPage := offset } w).sound sound
  refine ⟨⟨later, persists, Nat.le_refl _⟩, ⟨rfl, rfl⟩, ?_,
    fun _ => @pending_save _ { state with lastPage := offset } keyed incomplete w⟩
  have same := (saveBootstrapState_administers { state with lastPage := offset } w).mirror
  split
  · rw [same]
  · exact same

def savedAll (batch : List OpenProjectWorkItemSnapshot) (snapshots : Keyed OpenProjectWorkItemSnapshot.externalId) :
    Keyed OpenProjectWorkItemSnapshot.externalId :=
  batch.foldl (fun snapshots s => snapshots.upsert s) snapshots

theorem walked_leaves {options : IngestOptions} {l : List OpenProjectWorkItemSnapshot}
    (into : options.projectId = some projectId)
    (walk : InTurn (service.ingestion.Ingests o options) (Checkpoints state) w l t) (sound : Sound w) :
    Sound t ∧ t.projects = w.projects ∧ t.snapshots = savedAll l w.snapshots ∧
      ((w.projects.get projectId).isSome = true → t.mirror = w.mirror.ingestAll projectId l) := by
  induction walk with
  | start => exact ⟨sound, rfl, rfl, fun _ => rfl⟩
  | idle _ moves ih =>
    obtain ⟨offset, rfl⟩ := moves
    obtain ⟨atT, projects, snapshots, mirror⟩ := ih
    have administers := saveBootstrapState_administers { state with lastPage := offset }
    exact ⟨((administers _).sound atT).1, projects, snapshots,
      fun project => (administers _).mirror.trans (mirror project)⟩
  | @step l s t u _ moves ih =>
    obtain ⟨atT, projects, snapshots, mirror⟩ := ih
    obtain ⟨result, ingested⟩ := moves.ingested atT
    refine ⟨(ingested.sound atT).1, ingested.projects.trans projects, ?_, ?_⟩
    · rw [ingested.saves, snapshots, savedAll, savedAll, List.foldl_append]
      rfl
    · intro project
      have resolved : t.resolvedProject s options.projectId = some projectId := by
        obtain ⟨found, stored⟩ := Option.isSome_iff_exists.mp project
        simp [World.resolvedProject, into, projects, stored]
      rw [ingested.mirror _ resolved, mirror project, Mirror.ingestAll, Mirror.ingestAll, List.foldl_append]
      rfl

end OpenProjectProjectBootstrapService

end Brain
