import Brain.Domain.Observations
import Brain.Events.Encoding
import Brain.Lib.Runs
import Brain.Adapters.Ports

namespace Brain

/-- The arguments of `ObservationService.create`. -/
structure CreateObservation where
  projectId : ProjectId
  observationType : ObservationType
  title : String
  body : String := ""
  workItemId : Option WorkItemId := none
  executionId : Option ExecutionId := none
  dedupKey : Option String := none

inductive ObservationCall
  | create (args : CreateObservation)
  | acknowledge (observationId : ObservationId)
  | resolve (observationId : ObservationId)

/-- Where a call stands: what it awaits. A returned observation is the object
that the repository shares, given by its id. -/
inductive ObservationStage
  | started
  | findByDedupKey
  | get
  | save (eventType : EventType) (observation : Observation)
  | publish (publication : Publication) (observation : ObservationId)
  | returned (observation : Option ObservationId)
  | raised (exception : PyException)

/-- How an await ends, and when. Only the handlers of the event bus raise. -/
inductive ObservationAnswer
  | done (now : Time)
  | raises (exception : PyException)

/-- The in-memory repository and what went to the event bus. -/
structure Journal where
  observations : Keyed Observation.id := Keyed.empty
  published : List Publication := []
  nextUuid : Nat := 0

def Journal.findByDedupKey (s : Journal) (key : String) : Option Observation :=
  s.observations.items.find? (·.dedupKey = some key)

def CreateObservation.observation (args : CreateObservation) (id : ObservationId) : Observation where
  id := id
  projectId := args.projectId
  workItemId := args.workItemId
  executionId := args.executionId
  observationType := args.observationType
  severity := ObservationPolicy.severity args.observationType
  visibility := ObservationPolicy.classify args.observationType
  title := args.title
  body := args.body
  requiresHumanAttention := ObservationPolicy.requiresHumanAttention args.observationType
  dedupKey := args.dedupKey

/-- `eventBus` says whether the service was given one. -/
structure ObservationService where
  eventBus : Bool

namespace ObservationService

/-- The envelope that `_emit` builds, for the three event types it is called with. -/
def emitted (eventType : EventType) (observation : Observation) : Publication :=
  if eventType = .observationCreated then
    .observationCreated observation.id observation.projectId observation.observationType.value observation.title
      observation.body
  else if eventType = .observationAcknowledged then .observationAcknowledged observation.id observation.projectId
  else .observationResolved observation.id observation.projectId

/-- The assignments of `acknowledge` to the object. -/
def acknowledge (now : Time) (observation : Observation) : Observation :=
  { observation with status := .acknowledged, acknowledgedAt := some now }

def resolve (now : Time) (observation : Observation) : Observation :=
  { observation with status := .resolved, resolvedAt := some now }

/-- `create` from the lookup on: the new object goes to the repository. -/
def construct (args : CreateObservation) (s : Journal) : ObservationStage × Journal :=
  (.save .observationCreated (args.observation (.v4 s.nextUuid)), { s with nextUuid := s.nextUuid + 1 })

/-- `acknowledge` and `resolve` from the lookup on. The object they assign to is
the one in the repository, so the assignment shows before the save. -/
def assign (eventType : EventType) (change : Observation → Observation) (observationId : ObservationId) (s : Journal) :
    ObservationStage × Journal :=
  match s.observations.get observationId with
  | none => (.returned none, s)
  | some observation =>
    (.save eventType (change observation), { s with observations := s.observations.upsert (change observation) })

variable (self : ObservationService)

/-- `_emit`: without an event bus the call returns at once. -/
def emit (eventType : EventType) (observation : Observation) : ObservationStage :=
  if self.eventBus then .publish (emitted eventType observation) observation.id else .returned (some observation.id)

/-- The save of a new object stores it; that of an acknowledged or resolved one
puts the stored object where it is. -/
def save (eventType : EventType) (observation : Observation) (s : Journal) : Journal :=
  if eventType = .observationCreated then { s with observations := s.observations.upsert observation } else s

def resume (call : ObservationCall) (answer : ObservationAnswer) (stage : ObservationStage) (s : Journal) :
    Option (ObservationStage × Journal) :=
  match stage, answer with
  | .started, .done _ =>
    match call with
    | .create args =>
      match args.dedupKey with
      | some _ => some (.findByDedupKey, s)
      | none => some (construct args s)
    | .acknowledge _ | .resolve _ => some (.get, s)
  | .findByDedupKey, .done _ =>
    match call with
    | .create args =>
      match args.dedupKey.bind s.findByDedupKey with
      | some existing => some (.returned (some existing.id), s)
      | none => some (construct args s)
    | .acknowledge _ | .resolve _ => none
  | .get, .done now =>
    match call with
    | .create _ => none
    | .acknowledge observationId => some (assign .observationAcknowledged (acknowledge now) observationId s)
    | .resolve observationId => some (assign .observationResolved (resolve now) observationId s)
  | .save eventType observation, .done _ => some (self.emit eventType observation, save eventType observation s)
  | .publish publication observation, .done _ =>
    some (.returned (some observation), { s with published := s.published ++ [publication] })
  | .publish publication _, .raises exception =>
    some (.raised exception, { s with published := s.published ++ [publication] })
  | _, _ => none

end ObservationService

/-- Any number of calls in flight. -/
abbrev ObservationTasks (ι : Type) := Tasks ι ObservationStage Journal

namespace ObservationTasks
variable {ι : Type}

def start : ObservationTasks ι := { state := fun _ => .started, shared := {} }

def step [DecidableEq ι] (service : ObservationService) (calls : ι → ObservationCall) :
    ObservationTasks ι → ι × ObservationAnswer → Option (ObservationTasks ι) :=
  Tasks.turn fun i answer stage s => service.resume (calls i) answer stage s

end ObservationTasks

end Brain
