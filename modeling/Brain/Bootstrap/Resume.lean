import Brain.Bootstrap.Run

namespace Brain
open Calls OpenProjectIngestionService

namespace OpenProjectProjectBootstrapService
variable {service : OpenProjectProjectBootstrapService} {stored : Bool} {projectId : ProjectId}
  {batch : List OpenProjectWorkItemSnapshot} {o : Outside} {w t u v : World} {externalProjectId : String}

/-! ### An interrupted bootstrap -/

/-- The store that a run of `bootstrap` leaves. -/
def bootstrapped (service : OpenProjectProjectBootstrapService) (projectId : ProjectId) (externalProjectId : String)
    (force : Bool) (o : Outside) (n : Nat) (w : World) : World :=
  (service.bootstrap projectId externalProjectId force o n w).store

theorem bootstrapped_leaves (force : Bool) (sound : Sound w) (owned : Owned w) (below : projectId.Below w.nextUuid)
    (clean : o.Clean) (n : Nat) :
    ((force = false ∧ ¬ Pending w projectId) ∧ bootstrapped service projectId externalProjectId force o n w = w ∨
      (force = true ∨ Pending w projectId) ∧ Leaves service (w.projects.get projectId).isSome projectId externalProjectId
        (w.lastPage projectId) w (bootstrapped service projectId externalProjectId force o n w)) := by
  have returns := Meets.returns (@bootstrap_leaves service projectId o w externalProjectId force sound owned below) clean
    (fun e t stopped => stopped.2.raises)
  exact returns.store (fun _ _ left => left) n

theorem finished_resumed (progress : Progress service stored projectId batch w t)
    (resumed : Finished service stored projectId batch t u) (whole : Finished service stored projectId batch w v) :
    u.mirror = v.mirror ∧ u.commentary = v.commentary := by
  have same : t.mirror.imported stored projectId batch = w.mirror.imported stored projectId batch :=
    Mirror.imported_of_importing progress.mirror
  refine ⟨?_, ?_⟩
  · rw [resumed.mirror, whole.mirror, same]
  · obtain ⟨done, front, commentary⟩ := progress.comments
    rw [resumed.commentary, whole.commentary, same, commentary]
    exact annotate_absorb front w.commentary

theorem due_restart {page page' : Nat} (same : max page' 1 = max page 1) :
    service.due externalProjectId page' = service.due externalProjectId page := by
  unfold due
  rw [same]

/-- The handler's save of the failed state, if it is what raised, took effect. -/
def Recorded (e : Raised) : Prop := e.site = .bootstrapStateFailed → e.tookEffect = true

instance (e : Raised) : Decidable (Recorded e) := inferInstanceAs (Decidable (_ → _))

theorem recorded_restarts {page : Nat} {e : Raised} (recorded : Recorded e)
    (interrupted : Interrupted service o stored projectId batch page w e t) : t.lastPage projectId = page := by
  rcases interrupted.page with ⟨site, lost⟩ | restarts
  · rw [recorded site] at lost
    cases lost
  · exact restarts

/-- An interrupted bootstrap ends like one that was not interrupted, when its failure
was recorded or it starts at the same page again. -/
theorem resumed_bootstrap_ends_same (service : OpenProjectProjectBootstrapService) (projectId : ProjectId)
    (externalProjectId : String) (force : Bool) {o o' o'' : Outside} {w : World} (sound : Sound w) (owned : Owned w)
    (below : projectId.Below w.nextUuid) (clean' : o'.Clean) (clean'' : o''.Clean) (n n' n'' : Nat) {e : Raised}
    (interrupted : (service.bootstrap projectId externalProjectId force o n w).result = .error e)
    (restarts : Recorded e ∨ max ((service.bootstrapped projectId externalProjectId force o n w).lastPage projectId) 1 =
      max (w.lastPage projectId) 1) :
    (service.bootstrapped projectId externalProjectId force o' n'
        (service.bootstrapped projectId externalProjectId force o n w)).mirror =
      (service.bootstrapped projectId externalProjectId force o'' n'' w).mirror ∧
    (service.bootstrapped projectId externalProjectId force o' n'
        (service.bootstrapped projectId externalProjectId force o n w)).commentary =
      (service.bootstrapped projectId externalProjectId force o'' n'' w).commentary := by
  have stopped := @bootstrap_leaves service projectId o w externalProjectId force sound owned below n
  rw [interrupted] at stopped
  obtain ⟨goes, stopped⟩ := stopped
  have restarts : max ((service.bootstrapped projectId externalProjectId force o n w).lastPage projectId) 1 =
      max (w.lastPage projectId) 1 := by
    rcases restarts with recorded | same
    · exact congrArg (max · 1) (recorded_restarts recorded stopped)
    · exact same
  have underway := stopped.progress
  have whole := @bootstrapped_leaves service projectId o'' w externalProjectId force sound owned below clean'' n''
  have resumed := @bootstrapped_leaves service projectId o' _ externalProjectId force underway.sound underway.owned
    (below.mono underway.nextUuid) clean' n'
  rw [underway.project] at resumed
  unfold bootstrapped at restarts resumed whole ⊢
  generalize (service.bootstrap projectId externalProjectId force o n w).store = t at *
  generalize (service.bootstrap projectId externalProjectId force o' n' t).store = u at *
  generalize (service.bootstrap projectId externalProjectId force o'' n'' w).store = v at *
  have batch := @due_restart service externalProjectId _ _ restarts
  rcases whole with ⟨⟨unforced, completed⟩, rfl⟩ | ⟨goes', whole⟩
  · -- the uninterrupted bootstrap has nothing to do, so the interrupted one did nothing
    have idle : ¬ (force = true ∨ Pending v projectId) := by simp [unforced, completed]
    obtain rfl : t = v := goes.resolve_left idle
    rcases resumed with ⟨_, same⟩ | ⟨goes', _⟩
    · rw [same]
      exact ⟨rfl, rfl⟩
    · exact absurd goes' idle
  · rcases resumed with ⟨⟨unforced, completed⟩, rfl⟩ | ⟨_, resumed⟩
    · rcases underway.pending with pending | finished
      · rcases goes' with forced | before
        · rw [unforced] at forced
          cases forced
        · exact absurd (pending before) completed
      · exact ⟨finished.mirror.trans whole.finished.mirror.symm, finished.commentary.trans whole.finished.commentary.symm⟩
    · have again := resumed.finished
      rw [batch] at again
      exact finished_resumed underway.toProgress again whole.finished

/-- The provider lists a child before its parent. -/
def childFirst : OpenProjectAdapter :=
  let parent : PyValue := .dict [("parent", .dict [("href", .str "/api/v3/work_packages/2")])]
  ⟨{ projects := [[("id", .str "10"), ("name", .str "Project")]]
     projectWorkPackages := fun _ => [.dict [("id", .str "1"), ("_links", parent)], .dict [("id", .str "2")]] }⟩

/-- Every call fails from some moment on. -/
def downFrom (moment : Nat) : Outside where
  outcome n _ := if n < moment then .returns else .raises false ⟨"ConnectionError", "down"⟩
  clock _ := 0

theorem resumed_bootstrap_ends_same_resolving :
    let service : OpenProjectProjectBootstrapService := { provider := childFirst, pageSize := 1 }
    let resumed := service.bootstrapped (.v5 "project") "10" false Outside.clean 0
      (service.bootstrapped (.v5 "project") "10" false (downFrom 40) 0 World.oneProject)
    let whole := service.bootstrapped (.v5 "project") "10" false Outside.clean 0 World.oneProject
    resumed.mirror = whole.mirror ∧ resumed.commentary = whole.commentary := by
  intro service resumed whole
  have owned : Owned World.oneProject := fun _ member => absurd member List.not_mem_nil
  have raises : (service.bootstrap (.v5 "project") "10" false (downFrom 40) 0 World.oneProject).result.toOption = none := by
    decide +kernel
  cases interrupted : (service.bootstrap (.v5 "project") "10" false (downFrom 40) 0 World.oneProject).result with
  | ok _ =>
    rw [interrupted] at raises
    cases raises
  | error e =>
    exact service.resumed_bootstrap_ends_same (.v5 "project") "10" false (Sound.start _ 0) owned trivial
      Outside.clean_clean Outside.clean_clean 0 0 0 interrupted (Or.inr (by decide +kernel))

/-- The connection breaks behind the second page, also for the handler. The resumed
bootstrap starts there, and never resolves the parent of the first work package. -/
theorem parent_left_unresolved :
    let service : OpenProjectProjectBootstrapService := { provider := childFirst, pageSize := 1 }
    let resumed := service.bootstrapped (.v5 "project") "10" false Outside.clean 0
      (service.bootstrapped (.v5 "project") "10" false (downFrom 36) 0 World.oneProject)
    let whole := service.bootstrapped (.v5 "project") "10" false Outside.clean 0 World.oneProject
    (service.bootstrap (.v5 "project") "10" false (downFrom 36) 0 World.oneProject).result.toOption.isNone = true ∧
      resumed.mirror.parent "1" = none ∧ whole.mirror.parent "1" = some "2" := by
  decide +kernel

/-! ### A bootstrap that runs again -/

theorem savedAll_get (l : List OpenProjectWorkItemSnapshot) (k : Keyed OpenProjectWorkItemSnapshot.externalId) (x : String) :
    (savedAll l k).get x = ((Mirror.snapshotsOf x l).getLast?).or (k.get x) := by
  induction l generalizing k with
  | nil => rfl
  | cons s l ih =>
    have step : (savedAll (s :: l) k).get x = ((Mirror.snapshotsOf x l).getLast?).or ((k.upsert s).get x) := ih (k.upsert s)
    rw [step, Keyed.get_upsert]
    by_cases own : x = s.externalId
    · have first : Mirror.snapshotsOf x (s :: l) = s :: Mirror.snapshotsOf x l := by simp [Mirror.snapshotsOf, own]
      rw [first, if_pos own, List.getLast?_cons]
      cases (Mirror.snapshotsOf x l).getLast? <;> rfl
    · have other : Mirror.snapshotsOf x (s :: l) = Mirror.snapshotsOf x l := by simp [Mirror.snapshotsOf, Ne.symm own]
      rw [other, if_neg own]

def listedFrom (service : OpenProjectProjectBootstrapService) (externalProjectId : String) (page : Nat) :
    List OpenProjectWorkItemSnapshot :=
  ((service.provider.transport.projectWorkPackages externalProjectId).drop (max page 1 - 1)).filterMap parseRaw

theorem due_listed {page : Nat} (lists : Lists service externalProjectId = true)
    (tidy : Paging.Tidy parseRaw service.pageSize
      ((service.provider.transport.projectWorkPackages externalProjectId).drop (max page 1 - 1))) :
    service.due externalProjectId page = service.listedFrom externalProjectId page := by
  have perm := (Paging.read_complete_iff service.positive).mpr tidy
  rw [due, if_pos lists, listedFrom]
  exact List.IsPrefix.eq_of_length Paging.read_prefix perm.length_eq

theorem bootstrapped_keeps (force : Bool) (sound : Sound w) (owned : Owned w) (below : projectId.Below w.nextUuid) (n : Nat) :
    (Sound (bootstrapped service projectId externalProjectId force o n w) ∧
      Owned (bootstrapped service projectId externalProjectId force o n w) ∧
      w.nextUuid ≤ (bootstrapped service projectId externalProjectId force o n w).nextUuid) ∧
      ((∀ e, (service.bootstrap projectId externalProjectId force o n w).result = .error e → Recorded e) →
        (bootstrapped service projectId externalProjectId force o n w).lastPage projectId = w.lastPage projectId) := by
  have ended := @bootstrap_leaves service projectId o w externalProjectId force sound owned below n
  unfold bootstrapped
  cases result : (service.bootstrap projectId externalProjectId force o n w).result with
  | ok r =>
    rw [result] at ended
    rcases ended with ⟨_, same⟩ | ⟨_, leaves⟩
    · rw [same]
      exact ⟨⟨sound, owned, Nat.le_refl _⟩, fun _ => rfl⟩
    · exact ⟨⟨leaves.sound, leaves.owned, leaves.nextUuid⟩, fun _ => leaves.restart⟩
  | error e =>
    rw [result] at ended
    obtain ⟨_, interrupted⟩ := ended
    refine ⟨⟨interrupted.progress.sound, interrupted.progress.owned, interrupted.progress.nextUuid⟩, fun recorded => ?_⟩
    exact recorded_restarts (recorded e rfl) interrupted

/-- The provider of `childFirst` after work package 1 was renamed. -/
def renamedChild : OpenProjectAdapter :=
  ⟨{ childFirst.transport with
    projectWorkPackages := fun _ => [.dict [("id", .str "1"), ("subject", .str "Renamed")], .dict [("id", .str "2")]] }⟩

end OpenProjectProjectBootstrapService

end Brain
