import Brain.Events.Encoding
import Brain.Lib.Keyed

namespace Brain

/-- A `SYNC_REPOSITORY` command. Its handler reads the repository id only. -/
structure SyncRepositoryCommand where
  commandId : Uuid
  repositoryId : RepositoryId
  externalRef : PyValue

/-- The container as far as a merge reaches it: the bus, on which
`PullRequestMergedHandler` is subscribed, the command queue and the repositories. -/
structure MergeWorld where
  repositories : Keyed Repository.id := Keyed.empty
  published : List DictEnvelope := []
  queue : List SyncRepositoryCommand := []
  nextUuid : Nat := 0

def MergeWorld.drawUuid (w : MergeWorld) : Uuid × MergeWorld := (.v4 w.nextUuid, { w with nextUuid := w.nextUuid + 1 })

namespace PullRequestService

/-- The repository id of the command is drawn, not looked up. -/
def enqueueReingestion (ref : PyValue) (w : MergeWorld) : MergeWorld :=
  let (repositoryId, w) := w.drawUuid
  let (commandId, w) := w.drawUuid
  { w with queue := w.queue ++ [{ commandId, repositoryId, externalRef := ref }] }

/-- `apply_merge_consequences`. No handler here listens to the event it publishes. -/
def applyMergeConsequences (ref : PyValue) (correlationId : Option Uuid) (w : MergeWorld) : MergeWorld :=
  let (drawn, w) := w.drawUuid
  let (eventId, w) := w.drawUuid
  let revisionChanged : DictEnvelope :=
    { eventId, eventType := .repositoryRevisionChanged, correlationId := correlationId.getD drawn
      source := "pull_request_service", payload := [("external_ref", ref)] }
  enqueueReingestion ref { w with published := w.published ++ [revisionChanged] }

end PullRequestService

/-- `PullRequestMergedHandler.handle`: an event that does not decode is ignored. -/
def pullRequestMergedHandler (pydantic : Pydantic) (now : PyValue) (event : DictEnvelope) (w : MergeWorld) : MergeWorld :=
  match eventToModel pydantic now event with
  | none => w
  | some model =>
    match model.eventType, model.fields.lookup "external_ref" with
    | .pullRequestMerged, some ref => PullRequestService.applyMergeConsequences ref (some event.correlationId) w
    | _, _ => w

def publishFact (pydantic : Pydantic) (now : PyValue) (event : DictEnvelope) (w : MergeWorld) : MergeWorld :=
  let w := { w with published := w.published ++ [event] }
  match event.eventType with
  | .pullRequestMerged => pullRequestMergedHandler pydantic now event w
  | _ => w

def PullRequestService.handleMerge (pydantic : Pydantic) (now : PyValue) (ref : ExternalReference) (w : MergeWorld) :
    MergeWorld :=
  let (eventId, w) := w.drawUuid
  let (correlationId, w) := w.drawUuid
  publishFact pydantic now ((Publication.handleMerge ref).envelope pydantic
    { eventId, eventType := .pullRequestMerged, correlationId, source := "pull_request_service" }) w

/-- The `gitlab_webhook` route on a merged merge request. -/
def gitlabWebhook (pydantic : Pydantic) (now : PyValue) (ref : ExternalReference) (correlationId : Uuid)
    (w : MergeWorld) : MergeWorld :=
  let (eventId, w) := w.drawUuid
  publishFact pydantic now ((Publication.gitlabWebhook ref).envelope pydantic
    { eventId, eventType := .pullRequestMerged, correlationId, source := "openproject.webhook" }) w

/-- The status `_sync_repository` answers. -/
def syncRepository (command : SyncRepositoryCommand) (w : MergeWorld) : String :=
  match w.repositories.get command.repositoryId with
  | none => "not_found"
  | some _ => "synced"

/-- One revision-changed event and one sync command were added, and the command
finds a repository when the reference belongs to a stored one. -/
structure Reingested (belongs : Repository → ExternalReference → Prop) (ref : ExternalReference)
    (before after : MergeWorld) : Prop where
  event : ∃ events, after.published = before.published ++ events ∧
    (events.countP fun event => event.eventType = .repositoryRevisionChanged) = 1
  command : ∃ command, after.queue = before.queue ++ [command] ∧
    ((∃ repository ∈ before.repositories.items, belongs repository ref) → syncRepository command after ≠ "not_found")

variable {pydantic : Pydantic} {now : PyValue}

theorem pullRequestMergedHandler_undecoded {event : DictEnvelope} (undecoded : eventToModel pydantic now event = none)
    (w : MergeWorld) : pullRequestMergedHandler pydantic now event w = w := by
  unfold pullRequestMergedHandler
  rw [undecoded]

theorem handleMerge_ignored (ref : ExternalReference) (w : MergeWorld) :
    (PullRequestService.handleMerge pydantic now ref w).queue = w.queue ∧
      ∃ event, (PullRequestService.handleMerge pydantic now ref w).published = w.published ++ [event] ∧
        event.eventType = .pullRequestMerged := by
  have ignored : ∀ carrier (u : MergeWorld),
      publishFact pydantic now ((Publication.handleMerge ref).envelope pydantic carrier) u =
        { u with published := u.published ++ [(Publication.handleMerge ref).envelope pydantic carrier] } := by
    intro carrier u
    have undecoded : eventToModel pydantic now ((Publication.handleMerge ref).envelope pydantic carrier) = none :=
      handleMerge_undecoded ref carrier
    exact pullRequestMergedHandler_undecoded undecoded _
  unfold PullRequestService.handleMerge
  simp only [ignored]
  exact ⟨rfl, _, rfl, rfl⟩

theorem not_reingested_of_queue {belongs : Repository → ExternalReference → Prop} {ref : ExternalReference}
    {before after : MergeWorld} (queue : after.queue = before.queue) : ¬ Reingested belongs ref before after := by
  intro reingested
  obtain ⟨command, enqueued, _⟩ := reingested.command
  rw [queue] at enqueued
  have lengths := congrArg List.length enqueued
  simp at lengths

/-- No merge passed to `handle_merge` is re-ingested. -/
theorem merge_never_reingested (pydantic : Pydantic) (now : PyValue) (belongs : Repository → ExternalReference → Prop)
    (ref : ExternalReference) (w : MergeWorld) :
    ¬ Reingested belongs ref w (PullRequestService.handleMerge pydantic now ref w) :=
  not_reingested_of_queue (handleMerge_ignored ref w).1

/-- A merge request of the GitLab project 12, whose repository is stored. -/
def mergedRequest : ExternalReference :=
  { provider := "gitlab", externalId := "7", externalType := some "merge_request", space := some "12" }

def oneRepository : MergeWorld where
  repositories := Keyed.empty.upsert
    { id := .v4 0, projectId := .v4 1, name := "r", cloneUrl := "u"
      externalRefs := [{ provider := "gitlab", externalId := "12" }] }
  nextUuid := 2

def inProject (repository : Repository) (ref : ExternalReference) : Prop :=
  ∃ own ∈ repository.externalRefs, own.provider = ref.provider ∧ ref.space = some own.externalId

theorem merge_of_stored_repository_ignored :
    (∃ repository ∈ oneRepository.repositories.items, inProject repository mergedRequest) ∧
      (PullRequestService.handleMerge Pydantic.ofIds .none mergedRequest oneRepository).queue = [] ∧
      ¬ Reingested inProject mergedRequest oneRepository
        (PullRequestService.handleMerge Pydantic.ofIds .none mergedRequest oneRepository) := by
  refine ⟨⟨_, Keyed.mem_upsert_self _ _, _, List.mem_singleton_self _, rfl, rfl⟩, ?_, ?_⟩
  · exact (handleMerge_ignored mergedRequest oneRepository).1
  · exact not_reingested_of_queue (handleMerge_ignored mergedRequest oneRepository).1

end Brain
