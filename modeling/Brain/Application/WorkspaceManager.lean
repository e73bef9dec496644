import Brain.Application.CommandHandlers
import Mathlib.Control.Monad.Basic

namespace Brain

/-- A `git` command that failed. Its exit code and output are git's own. -/
structure GitError where
  args : List String
  deriving DecidableEq

/-- A clone: its local branches, the revisions that name a commit, and what
`HEAD` is at. -/
structure GitClone where
  branches : List String := []
  revisions : List String := []
  head : Option String := none

structure Worktree where
  path : String
  repositoryId : RepositoryId
  branch : String
  deriving DecidableEq

/-- The clones under the workspace root, the worktrees on the disk, and the paths
the adapter remembers. -/
structure GitHost where
  clones : RepositoryId → GitClone
  worktrees : List Worktree := []
  worktreePaths : List ((RepositoryId × String) × String) := []

/-- What fetching or cloning ends with. -/
inductive Fetched
  | fails (args : List String)
  | brings (revisions : List String) (head : Option String)

namespace GitHost

def setClone (host : GitHost) (repositoryId : RepositoryId) (clone : GitClone) : GitHost :=
  { host with clones := fun id => if id = repositoryId then clone else host.clones id }

/-- `git branch branch revision`. -/
def branch (host : GitHost) (repositoryId : RepositoryId) (branch revision : String) : Except GitError GitHost :=
  let clone := host.clones repositoryId
  if branch ∈ clone.branches ∨ revision ∉ clone.revisions then .error ⟨["branch", branch, revision]⟩
  else .ok (host.setClone repositoryId { clone with branches := clone.branches ++ [branch] })

/-- `git worktree add -b branch path revision`. -/
def worktreeAdd (host : GitHost) (repositoryId : RepositoryId) (branch path revision : String) : Except GitError GitHost :=
  let clone := host.clones repositoryId
  if branch ∈ clone.branches ∨ revision ∉ clone.revisions ∨ path ∈ host.worktrees.map (·.path) then
    .error ⟨["worktree", "add", "-b", branch, path, revision]⟩
  else
    .ok { host.setClone repositoryId { clone with branches := clone.branches ++ [branch] } with
      worktrees := host.worktrees ++ [⟨path, repositoryId, branch⟩] }

end GitHost

/-- A program that runs git commands. What ran before one that fails stays done. -/
abbrev GitProg (α : Type) := ExceptT GitError (StateM GitHost) α

def GitProg.command (run : GitHost → Except GitError GitHost) : GitProg Unit := fun host =>
  match run host with
  | .ok after => (.ok (), after)
  | .error error => (.error error, host)

namespace LocalGitAdapter

/-- `fetch` and `pull` where there is a clone, else `clone`. -/
def cloneOrFetch (repositoryId : RepositoryId) (fetched : Fetched) : GitProg Unit :=
  .command fun host =>
    match fetched with
    | .fails args => .error ⟨args⟩
    | .brings revisions head =>
      let clone := host.clones repositoryId
      .ok (host.setClone repositoryId { clone with revisions := clone.revisions ++ revisions, head := head.or clone.head })

def getCurrentRevision (repositoryId : RepositoryId) : GitProg String := fun host =>
  match (host.clones repositoryId).head with
  | some revision => (.ok revision, host)
  | none => (.error ⟨["rev-parse", "HEAD"]⟩, host)

def createBranch (repositoryId : RepositoryId) (branchName baseRevision : String) : GitProg Unit :=
  .command fun host => host.branch repositoryId branchName baseRevision

def createWorktree (repositoryId : RepositoryId) (branchName baseRevision path : String) : GitProg Unit := do
  GitProg.command fun host => host.worktreeAdd repositoryId branchName path baseRevision
  modify fun host => { host with worktreePaths := host.worktreePaths ++ [((repositoryId, branchName), path)] }

end LocalGitAdapter

/-- A call of `create_workspace`, with the hexadecimal digits of the id it draws
and what its fetch ends with. -/
structure WorkspaceCall where
  repository : Repository
  baseRevision : Option String := none
  taskLabel : String := "task"
  workspaceId : String
  fetched : Fetched := .brings [] none

structure WorkspaceManager where
  /-- Whether there is a `SourceControlPort`. -/
  sourceControl : Bool := true
  workspaceRoot : String := "/tmp/brain-workspaces"

namespace WorkspaceManager

def branchName (call : WorkspaceCall) : String :=
  "brain/" ++ call.taskLabel ++ "/" ++ String.ofList (call.workspaceId.toList.take 8)

def worktreePath (manager : WorkspaceManager) (call : WorkspaceCall) : String := manager.workspaceRoot ++ "/" ++ call.workspaceId

/-- `base_revision or await self._source_control.get_current_revision(repository)`. -/
def revisionFor (call : WorkspaceCall) : GitProg String :=
  match given call.baseRevision with
  | some revision => pure revision
  | none => LocalGitAdapter.getCurrentRevision call.repository.id

def createWorkspace (manager : WorkspaceManager) (call : WorkspaceCall) : GitProg Workspace := do
  if manager.sourceControl then
    LocalGitAdapter.cloneOrFetch call.repository.id call.fetched
    let revision ← revisionFor call
    LocalGitAdapter.createBranch call.repository.id (branchName call) revision
    LocalGitAdapter.createWorktree call.repository.id (branchName call) revision (manager.worktreePath call)
    pure { repository := call.repository, branchName := branchName call, path := manager.worktreePath call, baseRevision := revision }
  else
    pure
      { repository := call.repository, branchName := branchName call, path := ""
        baseRevision := (given call.baseRevision).getD "HEAD" }

end WorkspaceManager

end Brain
