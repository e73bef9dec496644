import Brain.Application.WorkspaceManager

namespace Brain.WorkspaceManager

/-- The clone of a repository once the fetch of a call has brought what it brings. -/
def refreshed (host : GitHost) (call : WorkspaceCall) (revisions : List String) (head : Option String) : GitClone :=
  { host.clones call.repository.id with
    revisions := (host.clones call.repository.id).revisions ++ revisions
    head := head.or (host.clones call.repository.id).head }

/-- The base revision that a call asks for, or the one its clone is at, is there
when its fetch has returned. -/
def BaseExists (host : GitHost) (call : WorkspaceCall) : Prop :=
  ∃ revisions head revision, call.fetched = .brings revisions head ∧
    (given call.baseRevision).or (refreshed host call revisions head).head = some revision ∧
    revision ∈ (refreshed host call revisions head).revisions

/-- The branches and worktrees that are there. -/
def SameTrees (host after : GitHost) : Prop :=
  (∀ id, (after.clones id).branches = (host.clones id).branches) ∧ after.worktrees = host.worktrees

def OwnWorktree (host after : GitHost) (workspace : Workspace) : Prop :=
  workspace.branchName ∉ (host.clones workspace.repository.id).branches ∧
    workspace.branchName ∈ (after.clones workspace.repository.id).branches ∧
    after.worktrees = host.worktrees ++ [⟨workspace.path, workspace.repository.id, workspace.branchName⟩]

/-- A call on a base revision that is there yields a worktree on its own branch,
and a call that raises leaves the branches and worktrees. -/
structure CreatesWorkspace (manager : WorkspaceManager) (host : GitHost) (call : WorkspaceCall) : Prop where
  succeeds : BaseExists host call → ∃ workspace, (manager.createWorkspace call host).1 = .ok workspace
  isolated : ∀ workspace, (manager.createWorkspace call host).1 = .ok workspace →
    OwnWorktree host (manager.createWorkspace call host).2 workspace
  clean : ∀ error, (manager.createWorkspace call host).1 = .error error →
    SameTrees host (manager.createWorkspace call host).2

/-! ### The commands of a call -/

variable {host : GitHost} {call : WorkspaceCall}

theorem clones_setClone (host : GitHost) (repositoryId id : RepositoryId) (clone : GitClone) :
    (host.setClone repositoryId clone).clones id = if id = repositoryId then clone else host.clones id := rfl

variable {after : GitHost}

theorem bind_of_ok {α β : Type} {p : GitProg α} {next : α → GitProg β} {a : α} (runs : p host = (.ok a, after)) :
    (p >>= next) host = next a after := by
  simp only [bind, ExceptT.bind, ExceptT.mk, StateT.bind, runs]
  rfl

theorem bind_of_error {α β : Type} {p : GitProg α} (next : α → GitProg β) {error : GitError}
    (fails : p host = (.error error, after)) : (p >>= next) host = (.error error, after) := by
  simp only [bind, ExceptT.bind, ExceptT.mk, StateT.bind, fails]
  rfl

theorem command_of_ok {run : GitHost → Except GitError GitHost} (runs : run host = .ok after) :
    GitProg.command run host = (.ok (), after) := by
  rw [GitProg.command, runs]

theorem command_of_error {run : GitHost → Except GitError GitHost} {error : GitError} (fails : run host = .error error) :
    GitProg.command run host = (.error error, host) := by
  rw [GitProg.command, fails]

theorem createWorktree_fails {repositoryId : RepositoryId} {branchName revision path : String}
    (taken : branchName ∈ (host.clones repositoryId).branches) :
    LocalGitAdapter.createWorktree repositoryId branchName revision path host =
      (.error ⟨["worktree", "add", "-b", branchName, path, revision]⟩, host) :=
  bind_of_error _ (command_of_error (if_pos (Or.inl taken)))

theorem createBranch_fails {repositoryId : RepositoryId} {branchName revision : String}
    (refused : branchName ∈ (host.clones repositoryId).branches ∨ revision ∉ (host.clones repositoryId).revisions) :
    LocalGitAdapter.createBranch repositoryId branchName revision host = (.error ⟨["branch", branchName, revision]⟩, host) :=
  command_of_error (if_pos refused)

theorem createBranch_cases (host : GitHost) (repositoryId : RepositoryId) (branchName revision : String) :
    (∃ error, LocalGitAdapter.createBranch repositoryId branchName revision host = (.error error, host)) ∨
      ∃ after, LocalGitAdapter.createBranch repositoryId branchName revision host = (.ok (), after) ∧
        branchName ∈ (after.clones repositoryId).branches ∧ revision ∈ (host.clones repositoryId).revisions := by
  by_cases refused : branchName ∈ (host.clones repositoryId).branches ∨ revision ∉ (host.clones repositoryId).revisions
  · exact Or.inl ⟨_, createBranch_fails refused⟩
  · rw [not_or, not_not] at refused
    refine Or.inr ⟨_, command_of_ok (if_neg (by simp [refused])), ?_, refused.2⟩
    simp [GitHost.setClone]

theorem sameTrees_refreshed (host : GitHost) (call : WorkspaceCall) (revisions : List String) (head : Option String) :
    SameTrees host (host.setClone call.repository.id (refreshed host call revisions head)) := by
  refine ⟨fun id => ?_, rfl⟩
  rw [clones_setClone]
  split
  · rename_i same
    rw [same]
    rfl
  · rfl

theorem revisionFor_run (call : WorkspaceCall) (host : GitHost) :
    revisionFor call host = match (given call.baseRevision).or (host.clones call.repository.id).head with
      | some revision => (.ok revision, host)
      | none => (.error ⟨["rev-parse", "HEAD"]⟩, host) := by
  unfold revisionFor
  cases given call.baseRevision with
  | some revision => rfl
  | none => cases isHead : (host.clones call.repository.id).head <;> simp [LocalGitAdapter.getCurrentRevision, isHead]

/-- With source control every call raises. Where the base revision is not there it
leaves the branches and worktrees. -/
theorem createWorkspace_raises (root : String) (call : WorkspaceCall) (host : GitHost) :
    ∃ error after, createWorkspace { workspaceRoot := root } call host = (.error error, after) ∧
      (¬ BaseExists host call → SameTrees host after) := by
  unfold createWorkspace
  simp only [if_true]
  cases fetched : call.fetched with
  | fails args =>
    exact ⟨⟨args⟩, host, bind_of_error _ (command_of_error rfl), fun _ => ⟨fun _ => rfl, rfl⟩⟩
  | brings revisions head =>
    have same := sameTrees_refreshed host call revisions head
    have runs : LocalGitAdapter.cloneOrFetch call.repository.id (.brings revisions head) host =
        (.ok (), host.setClone call.repository.id (refreshed host call revisions head)) := rfl
    rw [bind_of_ok runs]
    have own : (host.setClone call.repository.id (refreshed host call revisions head)).clones call.repository.id =
        refreshed host call revisions head := by simp [GitHost.setClone]
    cases based : (given call.baseRevision).or (refreshed host call revisions head).head with
    | none =>
      have fails := revisionFor_run call (host.setClone call.repository.id (refreshed host call revisions head))
      rw [own, based] at fails
      exact ⟨_, _, bind_of_error _ fails, fun _ => same⟩
    | some revision =>
      have found := revisionFor_run call (host.setClone call.repository.id (refreshed host call revisions head))
      rw [own, based] at found
      rw [bind_of_ok found]
      rcases createBranch_cases (host.setClone call.repository.id (refreshed host call revisions head)) call.repository.id
          (branchName call) revision with ⟨error, fails⟩ | ⟨after, creates, taken, isThere⟩
      · exact ⟨error, _, bind_of_error _ fails, fun _ => same⟩
      · rw [bind_of_ok creates]
        rw [own] at isThere
        exact ⟨_, after, bind_of_error _ (createWorktree_fails taken), fun absent =>
          absurd ⟨revisions, head, revision, fetched, based, isThere⟩ absent⟩

theorem createsWorkspace_iff (root : String) (host : GitHost) (call : WorkspaceCall) :
    CreatesWorkspace { workspaceRoot := root } host call ↔ ¬ BaseExists host call := by
  obtain ⟨error, after, raises, clean⟩ := createWorkspace_raises root call host
  constructor
  · intro creates isThere
    obtain ⟨workspace, succeeds⟩ := creates.succeeds isThere
    rw [raises] at succeeds
    cases succeeds
  · intro absent
    refine ⟨fun isThere => absurd isThere absent, fun workspace succeeds => ?_, fun _ _ => ?_⟩
    · rw [raises] at succeeds
      cases succeeds
    · rw [raises]
      exact clean absent

def afterCall (manager : WorkspaceManager) (host : GitHost) (call : WorkspaceCall) : Option GitHost :=
  some (manager.createWorkspace call host).2

/-- On a real repository a sequence of calls creates its workspaces exactly when
none of the calls has a base revision that is there: the branch is made twice. -/
theorem workspaces_created_iff (root : String) (host : GitHost) (calls : List WorkspaceCall) :
    Runs.Along (afterCall { workspaceRoot := root }) (CreatesWorkspace { workspaceRoot := root }) calls host ↔
      Runs.Along (afterCall { workspaceRoot := root }) (fun host call => ¬ BaseExists host call) calls host := by
  have same : CreatesWorkspace { workspaceRoot := root } = fun host call => ¬ BaseExists host call := by
    funext host call
    exact propext (createsWorkspace_iff root host call)
  rw [same]

def freshClone : GitHost where
  clones _ := { branches := ["main"], revisions := ["abc"], head := some "abc" }

def loginCall : WorkspaceCall where
  repository := { id := .v4 0, projectId := .v4 1, name := "login", cloneUrl := "" }
  workspaceId := "0123456789abcdef"

/-- The call raises and leaves its branch behind. -/
theorem branch_left_behind :
    ¬ CreatesWorkspace {} freshClone loginCall ∧
      ((WorkspaceManager.createWorkspace {} loginCall freshClone).2.clones (.v4 0)).branches = ["main", "brain/task/01234567"] := by
  refine ⟨fun creates => ?_, by decide⟩
  obtain ⟨workspace, succeeds⟩ := creates.succeeds ⟨[], none, "abc", rfl, rfl, by decide⟩
  obtain ⟨error, after, raises, _⟩ := createWorkspace_raises "/tmp/brain-workspaces" loginCall freshClone
  rw [show ({} : WorkspaceManager) = { workspaceRoot := "/tmp/brain-workspaces" } from rfl, raises] at succeeds
  cases succeeds

end Brain.WorkspaceManager
