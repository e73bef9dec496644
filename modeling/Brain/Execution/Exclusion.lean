import Brain.Application.CommandHandlers

namespace Brain

inductive LockMove (execution : ExecutionId) (stage stage' : ExecuteStage) (locks locks' : WorkspaceLockStore) : Prop
  | stays (same : stage'.holds = stage.holds) (unchanged : locks' = locks)
  | takes (r : RepositoryId) (branch : String) (idle : stage.holds = none) (free : locks.heldBy r = none)
      (holds : stage'.holds = some r) (taken : locks' = locks.upsert ⟨r, execution, branch⟩)
  | gives (r : RepositoryId) (held : stage.holds = some r) (idle : stage'.holds = none)
      (given : locks' = (locks.release r execution).2)

namespace ExecuteWorkItem
variable {command : ExecuteWorkItem} {now : Time} {answer : ExecuteAnswer} {stage stage' : ExecuteStage}
  {s s' : ExecutionShared}

theorem tryAcquire_locks {repository : Repository} {request : WorkspaceRequest}
    (moved : command.resume now .done (.tryAcquire repository request) s = some (stage', s')) :
    LockMove command.execution (.tryAcquire repository request) stage' s.locks s'.locks := by
  unfold resume at moved
  cases held : s.locks.heldBy repository.id with
  | none =>
    simp only [WorkspaceLockStore.tryAcquire_free held] at moved
    cases moved
    exact .takes repository.id _ rfl held rfl rfl
  | some lock =>
    simp only [WorkspaceLockStore.tryAcquire_held held] at moved
    cases moved
    exact .stays rfl rfl

theorem release_locks {repository : Repository} {request : WorkspaceRequest}
    {ended : Except PyException ExecutorResult}
    (moved : command.resume now .done (.release repository request ended) s = some (stage', s')) :
    LockMove command.execution (.release repository request ended) stage' s.locks s'.locks := by
  unfold resume at moved
  cases ended with
  | ok result =>
    cases moved
    exact .gives repository.id rfl rfl rfl
  | error exception =>
    cases moved
    exact .gives repository.id rfl rfl rfl

theorem afterExecute_holds (lock : Option Repository) (request : WorkspaceRequest)
    (ended : Except PyException ExecutorResult) :
    (afterExecute lock request ended).holds = lock.map Repository.id := by
  cases lock with
  | some repository => rfl
  | none => cases ended <;> rfl

theorem afterCreate_holds (repository : Option Repository) (request : WorkspaceRequest) :
    (afterCreate repository request).holds = none := by
  cases repository <;> rfl

theorem resume_locks (moved : command.resume now answer stage s = some (stage', s')) :
    LockMove command.execution stage stage' s.locks s'.locks := by
  cases stage with
  | tryAcquire repository request =>
    cases answer with
    | done => exact tryAcquire_locks moved
    | _ => cases moved
  | release repository request ended =>
    cases answer with
    | done => exact release_locks moved
    | _ => cases moved
  | executing lock request =>
    cases answer with
    | result result => cases moved; exact .stays (afterExecute_holds ..) rfl
    | raises exception => cases moved; exact .stays (afterExecute_holds ..) rfl
    | _ => cases moved
  | createExecution repository request =>
    cases answer with
    | done => cases moved; exact .stays (afterCreate_holds ..) rfl
    | raises exception => cases moved; exact .stays rfl rfl
    | _ => cases moved
  | getWorkItem | blockedWorkItem =>
    cases answer with
    | workItem found => cases found <;> cases moved <;> exact .stays rfl rfl
    | raises exception => cases moved; exact .stays rfl rfl
    | _ => cases moved
  | listRepositories workItem project =>
    cases answer with
    | repositories found =>
      simp only [resume] at moved
      split at moved <;> cases moved <;> exact .stays rfl rfl
    | raises exception => cases moved; exact .stays rfl rfl
    | _ => cases moved
  | getExecution result | blockedGet =>
    cases answer with
    | done =>
      simp only [resume] at moved
      split at moved <;> cases moved <;> exact .stays rfl rfl
    | raises exception => cases moved; exact .stays rfl rfl
    | _ => cases moved
  | _ => cases answer <;> cases moved <;> exact .stays rfl rfl

end ExecuteWorkItem

namespace ExecuteTasks
variable {ι : Type} {commands : ι → ExecuteWorkItem} {tasks tasks' : ExecuteTasks ι}

/-- The locks in the store are those of the commands that hold one, under their
execution ids. -/
structure Owned (commands : ι → ExecuteWorkItem) (tasks : ExecuteTasks ι) : Prop where
  ofHolder : ∀ i r, (tasks.state i).holds = some r →
    ∃ lock, tasks.shared.locks.heldBy r = some lock ∧ lock.ownerExecutionId = (commands i).execution
  holder : ∀ r lock, tasks.shared.locks.heldBy r = some lock →
    ∃ i, lock.ownerExecutionId = (commands i).execution ∧ (tasks.state i).holds = some r

theorem owned_start (executions : Keyed Execution.id) : Owned commands (start executions) where
  ofHolder := by
    intro i r holds
    cases holds
  holder := by
    intro r lock held
    cases held

theorem Owned.unique (distinct : Function.Injective fun i => (commands i).execution) (owned : Owned commands tasks)
    {i j : ι} {r : RepositoryId} (left : (tasks.state i).holds = some r) (right : (tasks.state j).holds = some r) :
    i = j := by
  obtain ⟨lock, held, owner⟩ := owned.ofHolder i r left
  obtain ⟨lock', held', owner'⟩ := owned.ofHolder j r right
  have same : lock = lock' := Option.some.inj (held.symm.trans held')
  subst same
  exact distinct (owner.symm.trans owner')

variable [DecidableEq ι]

section Moves
variable {i : ι} {next : ExecuteStage} {shared : ExecutionShared}

theorem Owned.stays (owned : Owned commands tasks) (same : next.holds = (tasks.state i).holds)
    (unchanged : shared.locks = tasks.shared.locks) :
    Owned commands (tasks.move i next shared) := by
  have holds : ∀ j, ((tasks.move i next shared).state j).holds = (tasks.state j).holds := by
    intro j
    by_cases moved : j = i
    · rw [moved, Tasks.state_move_self, same]
    · rw [Tasks.state_move_other moved]
  refine ⟨?_, ?_⟩
  · intro j r held
    rw [holds] at held
    rw [Tasks.shared_move, unchanged]
    exact owned.ofHolder j r held
  · intro r lock held
    rw [Tasks.shared_move, unchanged] at held
    obtain ⟨j, owner, holder⟩ := owned.holder r lock held
    exact ⟨j, owner, by rw [holds]; exact holder⟩

theorem Owned.takes (owned : Owned commands tasks) {r : RepositoryId} {branch : String}
    (idle : (tasks.state i).holds = none) (free : tasks.shared.locks.heldBy r = none) (holds : next.holds = some r)
    (taken : shared.locks = tasks.shared.locks.upsert ⟨r, (commands i).execution, branch⟩) :
    Owned commands (tasks.move i next shared) := by
  have look : ∀ q, shared.locks.heldBy q =
      if q = r then some ⟨r, (commands i).execution, branch⟩ else tasks.shared.locks.heldBy q := by
    intro q
    rw [taken]
    exact Keyed.get_upsert ..
  refine ⟨?_, ?_⟩
  · intro j q held
    by_cases moved : j = i
    · rw [moved, Tasks.state_move_self, holds] at held
      cases held
      exact ⟨⟨r, (commands i).execution, branch⟩, (look r).trans (if_pos rfl), by rw [moved]⟩
    · rw [Tasks.state_move_other moved] at held
      obtain ⟨lock, locked, owner⟩ := owned.ofHolder j q held
      have other : q ≠ r := by
        rintro rfl
        rw [free] at locked
        cases locked
      exact ⟨lock, (look q).trans ((if_neg other).trans locked), owner⟩
  · intro q lock held
    rw [Tasks.shared_move, look] at held
    by_cases same : q = r
    · rw [if_pos same] at held
      cases held
      exact ⟨i, rfl, by rw [Tasks.state_move_self, holds, same]⟩
    · rw [if_neg same] at held
      obtain ⟨j, owner, holder⟩ := owned.holder q lock held
      have other : j ≠ i := by
        rintro rfl
        rw [idle] at holder
        cases holder
      exact ⟨j, owner, by rw [Tasks.state_move_other other]; exact holder⟩

theorem Owned.gives (distinct : Function.Injective fun i => (commands i).execution) (owned : Owned commands tasks)
    {r : RepositoryId} (holding : (tasks.state i).holds = some r) (idle : next.holds = none)
    (given : shared.locks = (tasks.shared.locks.release r (commands i).execution).2) :
    Owned commands (tasks.move i next shared) := by
  obtain ⟨own, locked, owner⟩ := owned.ofHolder i r holding
  have look : ∀ q, shared.locks.heldBy q = if q = r then none else tasks.shared.locks.heldBy q := by
    intro q
    rw [given, WorkspaceLockStore.release_owner locked owner]
    exact Keyed.get_delete ..
  refine ⟨?_, ?_⟩
  · intro j q held
    by_cases moved : j = i
    · rw [moved, Tasks.state_move_self, idle] at held
      cases held
    · rw [Tasks.state_move_other moved] at held
      obtain ⟨lock, locked', owner'⟩ := owned.ofHolder j q held
      have other : q ≠ r := by
        rintro rfl
        exact moved (owned.unique distinct held holding)
      exact ⟨lock, (look q).trans ((if_neg other).trans locked'), owner'⟩
  · intro q lock held
    rw [Tasks.shared_move, look] at held
    by_cases same : q = r
    · rw [if_pos same] at held
      cases held
    · rw [if_neg same] at held
      obtain ⟨j, owner', holder⟩ := owned.holder q lock held
      have other : j ≠ i := by
        rintro rfl
        exact same (Option.some.inj (holder.symm.trans holding))
      exact ⟨j, owner', by rw [Tasks.state_move_other other]; exact holder⟩

end Moves

theorem owned_step (distinct : Function.Injective fun i => (commands i).execution)
    (tasks : ExecuteTasks ι) (turn : ι × Time × ExecuteAnswer) (tasks' : ExecuteTasks ι) (owned : Owned commands tasks)
    (taken : step commands tasks turn = some tasks') : Owned commands tasks' := by
  obtain ⟨i, now, answer⟩ := turn
  obtain ⟨next, shared, moved, rfl⟩ := Tasks.turn_eq_some.mp taken
  cases ExecuteWorkItem.resume_locks moved with
  | stays same unchanged => exact owned.stays same unchanged
  | takes r branch idle free holds taken => exact owned.takes idle free holds taken
  | gives r held idle given => exact owned.gives distinct held idle given

theorem owned_of_run (distinct : Function.Injective fun i => (commands i).execution) {executions : Keyed Execution.id}
    {turns : List (ι × Time × ExecuteAnswer)} (run : Runs.after (step commands) turns (start executions) = some tasks) :
    Owned commands tasks :=
  Runs.after_of_kept (owned_step distinct) (owned_start executions) run

omit [DecidableEq ι] in
theorem holds_of_executesOn {stage : ExecuteStage} {r : RepositoryId} (executes : stage.executesOn = some r) :
    stage.holds = some r := by
  cases stage with
  | executing lock request => exact executes
  | _ => cases executes

omit [DecidableEq ι] in
theorem holds_of_isFinished {stage : ExecuteStage} (finished : stage.isFinished = true) : stage.holds = none := by
  cases stage with
  | finished ended => rfl
  | _ => cases finished

structure Exclusive (commands : ι → ExecuteWorkItem) (tasks : ExecuteTasks ι) : Prop where
  /-- No two executors work on one repository. -/
  oneExecutor : ∀ i j r, (tasks.state i).executesOn = some r → (tasks.state j).executesOn = some r → i = j
  /-- A lock is held under the id of a command from its acquire to its release, not otherwise. -/
  heldWhile : ∀ i r, (tasks.state i).holds = some r ↔
    ∃ lock, tasks.shared.locks.heldBy r = some lock ∧ lock.ownerExecutionId = (commands i).execution
  owned : ∀ r lock, tasks.shared.locks.heldBy r = some lock → ∃ i, lock.ownerExecutionId = (commands i).execution
  foreignRelease : ∀ r e, (∀ lock, tasks.shared.locks.heldBy r = some lock → lock.ownerExecutionId ≠ e) →
    tasks.shared.locks.release r e = (false, tasks.shared.locks)
  noneLeft : (∀ i, (tasks.state i).isFinished = true) → ∀ r, tasks.shared.locks.heldBy r = none

/-- Every state that any interleaving of the commands reaches. -/
theorem changes_exclude_each_other (distinct : Function.Injective fun i => (commands i).execution)
    (executions : Keyed Execution.id) (turns : List (ι × Time × ExecuteAnswer))
    (run : Runs.after (step commands) turns (start executions) = some tasks) : Exclusive commands tasks := by
  have owned := owned_of_run distinct run
  refine ⟨?_, ?_, ?_, ?_, ?_⟩
  · intro i j r left right
    exact owned.unique distinct (holds_of_executesOn left) (holds_of_executesOn right)
  · intro i r
    refine ⟨owned.ofHolder i r, ?_⟩
    rintro ⟨lock, held, owner⟩
    obtain ⟨j, owner', holder⟩ := owned.holder r lock held
    have same : i = j := distinct (owner.symm.trans owner')
    rw [same]
    exact holder
  · intro r lock held
    obtain ⟨i, owner, _⟩ := owned.holder r lock held
    exact ⟨i, owner⟩
  · intro r e other
    exact WorkspaceLockStore.release_other other
  · intro finished r
    cases held : tasks.shared.locks.heldBy r with
    | none => rfl
    | some lock =>
      obtain ⟨i, _, holder⟩ := owned.holder r lock held
      rw [holds_of_isFinished (finished i)] at holder
      cases holder

def twoCommands (second : Bool) : ExecuteWorkItem :=
  { workItemId := .v4 1, newExecutionId := if second then .v4 3 else .v4 2, newWorkflowId := .v4 4
    newActorId := .v4 5 }

def toTheLock (i : Bool) : List (Bool × Time × ExecuteAnswer) :=
  [(i, 0, .workItem (some { id := .v4 1, projectId := .v4 0, title := "t" })), (i, 0, .project none),
    (i, 0, .repositories [{ id := .v4 6, projectId := .v4 0, name := "r", cloneUrl := "u" }]), (i, 0, .done),
    (i, 0, .done)]

theorem changes_exclude_each_other_two : ∃ tasks : ExecuteTasks Bool,
    Runs.after (step twoCommands) (toTheLock false ++ [(false, 0, .done)] ++ toTheLock true) (start Keyed.empty) =
        some tasks ∧ (tasks.state false).executesOn = some (.v4 6) ∧ tasks.state true = .blockedGet ∧
      Exclusive twoCommands tasks := by
  have distinct : Function.Injective fun i => (twoCommands i).execution := by
    intro i j
    cases i <;> cases j <;> simp [twoCommands, ExecuteWorkItem.execution]
  have run : ∃ tasks : ExecuteTasks Bool,
      Runs.after (step twoCommands) (toTheLock false ++ [(false, 0, .done)] ++ toTheLock true) (start Keyed.empty) =
        some tasks ∧ (tasks.state false).executesOn = some (.v4 6) ∧ tasks.state true = .blockedGet :=
    ⟨_, rfl, rfl, rfl⟩
  obtain ⟨tasks, run, first, second⟩ := run
  exact ⟨tasks, run, first, second, changes_exclude_each_other distinct Keyed.empty _ run⟩

end ExecuteTasks

end Brain
