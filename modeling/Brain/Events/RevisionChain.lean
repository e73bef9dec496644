import Brain.Application.Events
import Brain.Application.Revisions
import Brain.Events.Encoding
import Brain.Lib.Writers

namespace Brain

inductive AggregateKind
  | project | repository | workItem | requirement | document | execution
  deriving DecidableEq

/-- The copy of an aggregate that an event carries. -/
inductive Aggregate
  | project (project : Project)
  | repository (repository : Repository)
  | workItem (workItem : WorkItem)
  | requirement (requirement : Requirement)
  | document (document : Document)
  | execution (execution : Execution)

def Aggregate.key : Aggregate → AggregateKind × Uuid
  | .project copy => (.project, copy.id)
  | .repository copy => (.repository, copy.id)
  | .workItem copy => (.workItem, copy.id)
  | .requirement copy => (.requirement, copy.id)
  | .document copy => (.document, copy.id)
  | .execution copy => (.execution, copy.id)

def EventModel.aggregate : EventModel → Option Aggregate
  | .projectCreated project => some (.project project)
  | .repositoryRegistered repository => some (.repository repository)
  | .documentChanged document => some (.document document)
  | .workItemCreated workItem | .workItemChanged workItem => some (.workItem workItem)
  | .requirementChanged requirement => some (.requirement requirement)
  | .executionRequested execution | .executionStarted execution | .executionCompleted execution =>
    some (.execution execution)
  | .repositoryRevisionChanged .. | .other _ => none

namespace CanonicalState

def put (aggregate : Aggregate) (s : CanonicalState) : CanonicalState :=
  match aggregate with
  | .project project => { s with projects := s.projects.upsert project }
  | .repository repository => { s with repositories := s.repositories.upsert repository }
  | .workItem workItem => { s with workItems := s.workItems.upsert workItem }
  | .requirement requirement => { s with requirements := s.requirements.upsert requirement }
  | .document document => { s with documents := s.documents.upsert document }
  | .execution execution => { s with executions := s.executions.upsert execution }

def get (s : CanonicalState) : AggregateKind × Uuid → Option Aggregate
  | (.project, id) => (s.projects.get id).map .project
  | (.repository, id) => (s.repositories.get id).map .repository
  | (.workItem, id) => (s.workItems.get id).map .workItem
  | (.requirement, id) => (s.requirements.get id).map .requirement
  | (.document, id) => (s.documents.get id).map .document
  | (.execution, id) => (s.executions.get id).map .execution

theorem map_get_upsert {α : Type} {id : α → Uuid} (t : Keyed id) (a : α) (wrap : α → Aggregate) (k : Uuid) :
    ((t.upsert a).get k).map wrap = if k = id a then some (wrap a) else (t.get k).map wrap := by
  rw [Keyed.get_upsert]
  split <;> rfl

theorem laws : LastWriter.Laws get put Aggregate.key where
  get_put s aggregate key := by
    obtain ⟨kind, id⟩ := key
    cases aggregate <;> cases kind <;> simp [get, put, Aggregate.key, map_get_upsert]
  put_eq_self s aggregate := by
    cases s
    cases aggregate <;> simp [get, put, Aggregate.key, Keyed.upsert_eq_self, Keyed.get_eq_some]

end CanonicalState

namespace CanonicalStateProjection
variable (self : CanonicalStateProjection)

def aggregateOf (event : DictEnvelope) : Option Aggregate :=
  (eventModel self.pydantic self.objects self.now event).bind EventModel.aggregate

def after (events : List DictEnvelope) (s : CanonicalState) : CanonicalState :=
  events.foldl (fun s event => self.handle event s) s

theorem handle_eq (event : DictEnvelope) (s : CanonicalState) :
    self.handle event s =
      match self.aggregateOf event with
      | some aggregate => s.put aggregate
      | none => s := by
  unfold handle aggregateOf
  cases eventModel self.pydantic self.objects self.now event with
  | none => rfl
  | some model => cases model <;> rfl

theorem after_eq (events : List DictEnvelope) (s : CanonicalState) :
    self.after events s = (events.filterMap self.aggregateOf).foldl (fun s aggregate => s.put aggregate) s := by
  unfold after
  induction events generalizing s with
  | nil => rfl
  | cons event events ih =>
    rw [List.foldl_cons, handle_eq, ih]
    cases stores : self.aggregateOf event with
    | none => rw [List.filterMap_cons_none stores]
    | some aggregate => rw [List.filterMap_cons_some stores, List.foldl_cons]

/-- Handling an event of a history again leaves the state as it is exactly when
the last later event about the same aggregate, if there is one, carries an equal
copy of it. -/
theorem redelivery_harmless_iff (early late : List DictEnvelope) (event : DictEnvelope) (s : CanonicalState) :
    self.handle event (self.after (early ++ event :: late) s) = self.after (early ++ event :: late) s ↔
      ∀ aggregate newer, self.aggregateOf event = some aggregate →
        LastWriter.last Aggregate.key (late.filterMap self.aggregateOf) aggregate.key = some newer →
          newer = aggregate := by
  rw [handle_eq, after_eq]
  cases stores : self.aggregateOf event with
  | none => simp
  | some aggregate =>
    rw [List.filterMap_append, List.filterMap_cons_some stores]
    rw [CanonicalState.laws.rewrite_iff]
    constructor
    · rintro unchanged _ newer same
      cases same
      exact unchanged newer
    · exact fun unchanged newer => unchanged aggregate newer rfl

/-- The id a text stands for that `Uuid.text` wrote for a hashed one. -/
def readUuid (value : PyValue) : Uuid := .v5 (String.ofList (value.text.toList.drop "uuid5-".length))

def namedObjects : Objects where
  uuid := readUuid
  project
    | .dict fields => { id := readUuid (pyGet fields "id"), name := (pyGet fields "name").text }
    | value => { id := readUuid value, name := "" }
  repository
    | .dict fields =>
      { id := readUuid (pyGet fields "id"), projectId := readUuid (pyGet fields "project_id")
        name := (pyGet fields "name").text, cloneUrl := (pyGet fields "clone_url").text }
    | value => { id := readUuid value, projectId := readUuid value, name := "", cloneUrl := "" }
  document
    | .dict fields =>
      { id := readUuid (pyGet fields "id"), projectId := readUuid (pyGet fields "project_id")
        title := (pyGet fields "title").text, source := { provider := "", uri := "" } }
    | value => { id := readUuid value, projectId := readUuid value, title := "", source := { provider := "", uri := "" } }
  workItem
    | .dict fields =>
      { id := readUuid (pyGet fields "id"), projectId := readUuid (pyGet fields "project_id")
        title := (pyGet fields "title").text }
    | value => { id := readUuid value, projectId := readUuid value, title := "" }
  requirement
    | .dict fields =>
      { id := readUuid (pyGet fields "id"), projectId := readUuid (pyGet fields "project_id")
        title := (pyGet fields "title").text }
    | value => { id := readUuid value, projectId := readUuid value, title := "" }
  execution
    | .dict fields =>
      { id := readUuid (pyGet fields "id"), workflowId := readUuid (pyGet fields "workflow_id")
        workItemId := readUuid (pyGet fields "work_item_id"), executorId := readUuid (pyGet fields "executor_id") }
    | value =>
      { id := readUuid value, workflowId := readUuid value, workItemId := readUuid value, executorId := readUuid value }

def namedProjection : CanonicalStateProjection := ⟨Pydantic.ofIds, namedObjects, .none⟩

/-- A `WorkItemChanged` event without an idempotency key. -/
def renamed (eventId : Nat) (title : String) : DictEnvelope :=
  { eventId := .v4 eventId, eventType := .workItemChanged, correlationId := .v4 0, source := "openproject"
    payload := [("work_item", .dict [("id", .str "uuid5-item"), ("project_id", .str "uuid5-project"),
      ("title", .str title)])] }

/-- A work item changed twice: the first change delivered again undoes the second. -/
theorem redelivery_undoes :
    namedProjection.handle (renamed 1 "Draft") (namedProjection.after [renamed 1 "Draft", renamed 2 "Final"] {}) ≠
      namedProjection.after [renamed 1 "Draft", renamed 2 "Final"] {} := by
  intro same
  have titles := congrArg (fun s => s.workItems.items.map WorkItem.title) same
  revert titles
  decide

end CanonicalStateProjection

end Brain

namespace Brain
open Calls

structure Change where
  oldRevision : Option String
  newRevision : String
  deriving DecidableEq

def RepositoryChangeSet.change (changeSet : RepositoryChangeSet) : Change :=
  ⟨changeSet.oldRevision, changeSet.newRevision⟩

/-- The change set of a delivery that ended so was saved. -/
def saved : Except RevisionRaised Unit → Bool
  | .ok _ => true
  | .error e =>
    match e.site with
    | .saveChangeSet => e.tookEffect
    | .repositoryUpdate => true
    | _ => false

def updated : Except RevisionRaised Unit → Bool
  | .ok _ => true
  | .error e =>
    match e.site with
    | .repositoryUpdate => e.tookEffect
    | _ => false

/-- An event handed to the handler, with the failures it meets. -/
structure Delivery where
  event : DictEnvelope
  outside : RevisionOutside
  start : Nat

namespace IncrementalRevisionHandler
variable (self : IncrementalRevisionHandler) (repositoryId : RepositoryId)

def changeOf (event : DictEnvelope) : Option Change :=
  match eventModel self.pydantic self.objects self.now event with
  | some (.repositoryRevisionChanged about oldRevision newRevision) =>
    if about = repositoryId then some ⟨oldRevision, newRevision⟩ else none
  | _ => none

def deliver (delivery : Delivery) (w : RevisionWorld) : Run RevisionSite PyException RevisionWorld Unit :=
  self.handle delivery.event delivery.outside delivery.start w

def after (history : List Delivery) (w : RevisionWorld) : RevisionWorld :=
  history.foldl (fun w delivery => (self.deliver delivery w).store) w

def effective (effect : Except RevisionRaised Unit → Bool) : List Delivery → RevisionWorld → List Change
  | [], _ => []
  | delivery :: history, w =>
    let run := self.deliver delivery w
    (if effect run.result then (self.changeOf repositoryId delivery.event).toList else []) ++
      effective effect history run.store

variable {self} {o : RevisionOutside} {event : DictEnvelope} {current : Repository} {w t : RevisionWorld}

def revised (current : Repository) (change : Option Change) (tookEffect : Bool) : Repository :=
  match change with
  | some change => if tookEffect then { current with currentRevision := some change.newRevision } else current
  | none => current

/-- What handling an event does to a repository that is stored as `current`. -/
structure Handled (handler : IncrementalRevisionHandler) (current : Repository) (change : Option Change)
    (result : Except RevisionRaised Unit) (w t : RevisionWorld) (sets : List RepositoryChangeSet) : Prop where
  listed : t.listChangeSets current.id = w.listChangeSets current.id ++ sets
  changes : sets.map RepositoryChangeSet.change = if saved result then change.toList else []
  files : ∀ changeSet ∈ sets, changeSet.files =
    classifyChangedFiles (handler.listChangedFiles current (changeSet.oldRevision.getD "") changeSet.newRevision)
  stored : t.repositories.get current.id = some (revised current change (updated result))

theorem handled_of_same {result : Except RevisionRaised Unit} {change : Option Change}
    (listed : t.listChangeSets current.id = w.listChangeSets current.id)
    (stored : t.repositories.get current.id = some current)
    (early : change = none ∨ saved result = false ∧ updated result = false) :
    Handled self current change result w t [] := by
  refine ⟨listed.trans (List.append_nil _).symm, ?_, by simp, ?_⟩
  · rcases early with rfl | ⟨unsaved, _⟩
    · simp
    · simp [unsaved]
  · rcases early with rfl | ⟨_, unchanged⟩
    · exact stored
    · rw [unchanged]
      cases change <;> exact stored

theorem handle_of_change {repositoryId : RepositoryId} {oldRevision : Option String} {newRevision : String}
    (model : eventModel self.pydantic self.objects self.now event =
      some (.repositoryRevisionChanged repositoryId oldRevision newRevision))
    (stored : w.repositories.get repositoryId = some current) :
    Meets o (self.handle event) w (fun result t =>
      ∃ sets, Handled self current (some ⟨oldRevision, newRevision⟩) result w t sets) := by
  have isId : current.id = repositoryId := (Keyed.get_eq_some.mp stored).2
  subst isId
  have unchanged : ∀ {e : RevisionRaised}, saved (.error e) = false → updated (.error e) = false →
      ∃ sets, Handled self current (some ⟨oldRevision, newRevision⟩) (.error e) w w sets :=
    fun unsaved still => ⟨[], handled_of_same rfl stored (Or.inr ⟨unsaved, still⟩)⟩
  unfold handle
  rw [model]
  dsimp only
  refine Meets.bind (Meets.query ?_ ?_)
  rotate_left
  · exact fun _ _ _ => unchanged rfl rfl
  rw [stored]
  dsimp only [byResult]
  refine Meets.bind (Meets.query ?_ ?_)
  rotate_left
  · exact fun _ _ _ => unchanged rfl rfl
  dsimp only [byResult]
  have drawn : Returns o RevisionWorld.drawUuid w (fun _ t => t = { w with nextUuid := w.nextUuid + 1 }) :=
    Meets.internal rfl
  refine Meets.seq _ drawn ?_ (fun _ _ stopped => stopped.elim)
  rintro id t rfl
  have clock : Returns o Calls.now { w with nextUuid := w.nextUuid + 1 } (fun _ t => t = { w with nextUuid := w.nextUuid + 1 }) :=
    Meets.now fun _ => rfl
  refine Meets.seq _ clock ?_ (fun _ _ stopped => stopped.elim)
  rintro detectedAt t rfl
  let changeSet : RepositoryChangeSet :=
    { id, repositoryId := current.id, oldRevision, newRevision, detectedAt
      files := classifyChangedFiles (self.listChangedFiles current (oldRevision.getD "") newRevision) }
  have listed : (w.changeSets ++ [changeSet]).filter (·.repositoryId = current.id) =
      w.listChangeSets current.id ++ [changeSet] := by
    rw [List.filter_append]
    simp [RevisionWorld.listChangeSets, changeSet]
  have files : ∀ cs ∈ [changeSet], cs.files =
      classifyChangedFiles (self.listChangedFiles current (cs.oldRevision.getD "") cs.newRevision) := by
    simp [changeSet]
  refine Meets.bind (Meets.command ?_ ?_ ?_)
  · dsimp only [byResult]
    refine Meets.command ?_ ?_ ?_
    · exact ⟨[changeSet], listed, rfl, files, Keyed.get_upsert_self _ _⟩
    · exact fun _ _ => ⟨[changeSet], listed, rfl, files, stored⟩
    · exact fun _ _ => ⟨[changeSet], listed, rfl, files, Keyed.get_upsert_self _ _⟩
  · exact fun _ _ => ⟨[], handled_of_same rfl stored (Or.inr ⟨rfl, rfl⟩)⟩
  · exact fun _ _ => ⟨[changeSet], listed, rfl, files, stored⟩

def Untouched (repositoryId : RepositoryId) (w t : RevisionWorld) : Prop :=
  t.listChangeSets repositoryId = w.listChangeSets repositoryId ∧
    t.repositories.get repositoryId = w.repositories.get repositoryId

instance (repositoryId : RepositoryId) : IsPreorder RevisionWorld (Untouched repositoryId) where
  refl _ := ⟨rfl, rfl⟩
  trans _ _ _ first second := ⟨second.1.trans first.1, second.2.trans first.2⟩

theorem handle_untouched {repositoryId : RepositoryId} (other : self.changeOf repositoryId event = none) :
    Within (Untouched repositoryId) (fun _ => True) (self.handle event) := by
  unfold handle
  cases model : eventModel self.pydantic self.objects self.now event with
  | none => exact Within.pure ()
  | some model' =>
    cases model' with
    | repositoryRevisionChanged about oldRevision newRevision =>
      have differ : about ≠ repositoryId := by
        intro same
        simp [changeOf, model, same] at other
      intro o w
      dsimp only
      refine Meets.bind (Meets.query ?_ ?_)
      rotate_left
      · exact fun _ _ raises => ⟨refl_of (Untouched repositoryId) w, trivial, raises⟩
      cases found : w.repositories.get about with
      | none => exact Meets.pure (refl_of (Untouched repositoryId) w)
      | some repository =>
        have isId : repository.id = about := (Keyed.get_eq_some.mp found).2
        refine Within.bind (R := Untouched repositoryId) (S := fun _ => True) (Within.query trivial) (fun changed => ?_) o w
        refine Within.bind (Within.internal fun _ => ⟨rfl, rfl⟩) fun id => Within.bind Within.now fun detectedAt => ?_
        refine Within.bind (Within.command (fun w => ⟨?_, rfl⟩) trivial) fun _ => Within.command (fun w => ⟨rfl, ?_⟩) trivial
        · simp [RevisionWorld.saveChangeSet, RevisionWorld.listChangeSets, differ]
        · refine Keyed.get_upsert_ne _ ?_
          rw [isId]
          exact Ne.symm differ
    | _ => exact Within.pure ()

theorem handle_of_none (stored : w.repositories.get current.id = some current)
    (other : self.changeOf current.id event = none) :
    Meets o (self.handle event) w (fun result t => Handled self current none result w t []) := by
  refine (handle_untouched other o w).mono ?_
  intro result t stays
  obtain ⟨listed, same⟩ := stays.store
  exact handled_of_same listed (same.trans stored) (Or.inl rfl)

theorem handle_handled (stored : w.repositories.get current.id = some current) :
    Meets o (self.handle event) w (fun result t =>
      ∃ sets, Handled self current (self.changeOf current.id event) result w t sets) := by
  cases change : self.changeOf current.id event with
  | none => exact (handle_of_none stored change).mono fun _ _ handled => ⟨[], handled⟩
  | some change' =>
    unfold changeOf at change
    split at change
    · rename_i about oldRevision newRevision model
      split at change
      · rename_i same
        cases change
        exact handle_of_change model (same ▸ stored)
      · cases change
    · cases change

def revisionAfter (start : Option String) (changes : List Change) : Option String :=
  (changes.getLast?.map fun change => some change.newRevision).getD start

theorem revisionAfter_append (start : Option String) (early late : List Change) :
    revisionAfter start (early ++ late) = revisionAfter (revisionAfter start early) late := by
  unfold revisionAfter
  rw [List.getLast?_append]
  cases late.getLast? <;> simp

variable {repository : Repository} {history : List Delivery}

theorem after_effects {revision : Option String}
    (stored : w.repositories.get repository.id = some { repository with currentRevision := revision }) :
    (self.after history w).repositories.get repository.id = some { repository with
      currentRevision := revisionAfter revision (self.effective repository.id updated history w) } ∧
    ∃ sets, (self.after history w).listChangeSets repository.id = w.listChangeSets repository.id ++ sets ∧
      sets.map RepositoryChangeSet.change = self.effective repository.id saved history w ∧
      ∀ changeSet ∈ sets, ∃ revision, changeSet.files = classifyChangedFiles (self.listChangedFiles
        { repository with currentRevision := revision } (changeSet.oldRevision.getD "") changeSet.newRevision) := by
  induction history generalizing w revision with
  | nil => exact ⟨stored, [], (List.append_nil _).symm, rfl, by simp⟩
  | cons delivery history ih =>
    have current : w.repositories.get { repository with currentRevision := revision }.id =
      some { repository with currentRevision := revision } := stored
    obtain ⟨sets, handled⟩ := (handle_handled current : Meets delivery.outside (self.handle delivery.event) w _) delivery.start
    have now : (self.deliver delivery w).store.repositories.get repository.id = some { repository with
        currentRevision := revisionAfter revision (if updated (self.deliver delivery w).result then
          (self.changeOf repository.id delivery.event).toList else []) } := by
      rw [deliver, handled.stored]
      cases self.changeOf repository.id delivery.event with
      | none => simp [revised, revisionAfter]
      | some change =>
        cases updated (self.handle delivery.event delivery.outside delivery.start w).result with
        | true => simp [revised, revisionAfter]
        | false => simp [revised, revisionAfter]
    obtain ⟨later, sets', listed, changes, files⟩ := ih now
    have whole : self.after (delivery :: history) w = self.after history (self.deliver delivery w).store := rfl
    refine ⟨?_, sets ++ sets', ?_, ?_, ?_⟩
    · rw [whole, later, effective, revisionAfter_append]
    · rw [whole, listed, deliver, handled.listed, List.append_assoc]
    · rw [List.map_append, handled.changes, changes, effective]
      rfl
    · intro changeSet member
      rcases List.mem_append.mp member with old | new
      · exact ⟨revision, handled.files changeSet old⟩
      · exact files changeSet new

end IncrementalRevisionHandler

def Linked (start : Option String) : List Change → Prop
  | [] => True
  | change :: changes => change.oldRevision = start ∧ Linked (some change.newRevision) changes

namespace IncrementalRevisionHandler
variable {self : IncrementalRevisionHandler} {repository : Repository}

/-- What `git diff --name-only` does: the answer depends on the two revisions
only, and a path that differs between two revisions differs between one of them
and any third. -/
structure Diffs (handler : IncrementalRevisionHandler) (repository : Repository) : Prop where
  steady : ∀ revision old new, handler.listChangedFiles { repository with currentRevision := revision } old new =
    handler.listChangedFiles repository old new
  through : ∀ a b c, ∀ path ∈ handler.listChangedFiles repository a c,
    path ∈ handler.listChangedFiles repository a b ∨ path ∈ handler.listChangedFiles repository b c

theorem Diffs.along (diffs : self.Diffs repository) {start : Option String} {changes : List Change} {last : Change}
    (linked : Linked start changes) (isLast : changes.getLast? = some last) {path : String}
    (differs : path ∈ self.listChangedFiles repository (start.getD "") last.newRevision) :
    ∃ change ∈ changes, path ∈ self.listChangedFiles repository (change.oldRevision.getD "") change.newRevision := by
  induction changes generalizing start with
  | nil => cases isLast
  | cons change changes ih =>
    obtain ⟨begins, rest⟩ := linked
    cases more : changes.getLast? with
    | none =>
      rw [List.getLast?_eq_none_iff.mp more] at isLast
      cases isLast
      exact ⟨change, List.mem_cons_self .., by rw [begins]; exact differs⟩
    | some last' =>
      have same : last' = last := by
        rw [List.getLast?_cons, more, Option.getD_some] at isLast
        exact Option.some.inj isLast
      subst same
      rcases diffs.through _ change.newRevision _ path differs with early | late
      · exact ⟨change, List.mem_cons_self .., by rw [begins]; exact early⟩
      · obtain ⟨other, member, found⟩ := ih rest more late
        exact ⟨other, List.mem_cons_of_mem _ member, found⟩

def oneFileHandler : IncrementalRevisionHandler where
  listChangedFiles _ old new := if old = new then [] else ["README.md"]
  pydantic := Pydantic.ofIds
  objects := CanonicalStateProjection.namedObjects
  now := .none

def oneFileRepository : Repository :=
  { id := .v5 "repository", projectId := .v5 "project", name := "docs", cloneUrl := "https://git.example/docs.git"
    currentRevision := some "r0" }

def oneFileWorld : RevisionWorld := { repositories := Keyed.empty.upsert oneFileRepository }

theorem oneFile_diffs : oneFileHandler.Diffs oneFileRepository where
  steady _ _ _ := rfl
  through a b c path differs := by
    by_cases same : a = c
    · simp [oneFileHandler, same] at differs
    · by_cases first : a = b
      · exact Or.inr (by simpa [oneFileHandler, ← first] using differs)
      · exact Or.inl (by simpa [oneFileHandler, same, first] using differs)

def revisionDelivery (eventId : Nat) (old new : String) : Delivery where
  event :=
    { eventId := .v4 eventId, eventType := .repositoryRevisionChanged, correlationId := .v4 0, source := "gitlab"
      payload := [("repository_id", .str "uuid5-repository"), ("old_revision", .str old), ("new_revision", .str new)] }
  outside := Outside.clean
  start := 0

end IncrementalRevisionHandler

end Brain
