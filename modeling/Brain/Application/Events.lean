import Brain.Adapters.Ports
import Brain.Lib.Runs

namespace Brain

inductive ProcessOutcome
  | processed | skippedAlreadyProcessed
  deriving DecidableEq

/-- The handlers subscribed to each event type, in order, none of them twice. -/
structure Subscriptions (H : Type) where
  handlers : EventType → List H
  nodup : ∀ eventType, (handlers eventType).Nodup

/-- Where a call of `IncomingEventProcessor.process` stands: what it awaits. -/
inductive ProcessStage (H : Type)
  | isProcessed
  | publish
  | handle (handler : H) (rest : List H)
  | append
  | markProcessed
  | finished (outcome : ProcessOutcome)
  | raised (handler : H) (rest : List H) (exception : PyException)

/-- How an await ends. Only a handler raises: the stores are in memory. -/
inductive ProcessAnswer
  | done
  | raises (exception : PyException)

/-- The stores of the processor. `completed` records which handlers completed,
and for which event; no code reads it. -/
structure EventStores (H : Type) where
  processed : List String := []
  published : List DictEnvelope := []
  eventLog : List DictEnvelope := []
  completed : List (DictEnvelope × H) := []

namespace IncomingEventProcessor
variable {H : Type} (bus : Subscriptions H) (envelope : DictEnvelope)

/-- Events without a key are always dispatched. -/
def start : ProcessStage H :=
  match envelope.idempotencyKey with
  | some _ => .isProcessed
  | none => .publish

/-- The loop of `InMemoryEventBus.publish` over its copy of the handlers. -/
def awaitHandlers : List H → ProcessStage H
  | [] => .append
  | handler :: rest => .handle handler rest

def resume (answer : ProcessAnswer) (stage : ProcessStage H) (s : EventStores H) :
    Option (ProcessStage H × EventStores H) :=
  match stage, answer with
  | .isProcessed, .done =>
    match envelope.idempotencyKey with
    | some key => some (if key ∈ s.processed then .finished .skippedAlreadyProcessed else .publish, s)
    | none => some (.publish, s)
  | .publish, .done =>
    some (awaitHandlers (bus.handlers envelope.eventType), { s with published := s.published ++ [envelope] })
  | .handle handler rest, .done =>
    some (awaitHandlers rest, { s with completed := s.completed ++ [(envelope, handler)] })
  | .handle handler rest, .raises exception => some (.raised handler rest exception, s)
  | .append, .done =>
    let s := { s with eventLog := s.eventLog ++ [envelope] }
    match envelope.idempotencyKey with
    | some _ => some (.markProcessed, s)
    | none => some (.finished .processed, s)
  | .markProcessed, .done =>
    match envelope.idempotencyKey with
    | some key => some (.finished .processed, { s with processed := s.processed ++ [key] })
    | none => none
  | _, _ => none

end IncomingEventProcessor

/-- Any number of `process` calls in flight. -/
abbrev ProcessTasks (ι H : Type) := Tasks ι (ProcessStage H) (EventStores H)

namespace ProcessTasks
variable {ι H : Type} (envelopes : ι → DictEnvelope)

def start : ProcessTasks ι H := { state := fun i => IncomingEventProcessor.start (envelopes i), shared := {} }

def step [DecidableEq ι] (bus : Subscriptions H) : ProcessTasks ι H → ι × ProcessAnswer → Option (ProcessTasks ι H) :=
  Tasks.turn fun i answer stage s => IncomingEventProcessor.resume bus (envelopes i) answer stage s

end ProcessTasks

namespace EventStores
variable {H : Type} (s : EventStores H) (key : String)

/-- The handlers that completed for events with the key, in order. -/
def completions : List H := (s.completed.filter fun c => c.1.idempotencyKey = some key).map Prod.snd

def logged : List DictEnvelope := s.eventLog.filter fun e => e.idempotencyKey = some key

end EventStores

/-- The six repositories of canonical state. -/
structure CanonicalState where
  projects : Keyed Project.id := Keyed.empty
  repositories : Keyed Repository.id := Keyed.empty
  workItems : Keyed WorkItem.id := Keyed.empty
  requirements : Keyed Requirement.id := Keyed.empty
  documents : Keyed Document.id := Keyed.empty
  executions : Keyed Execution.id := Keyed.empty

/-- `CanonicalStateProjection`; the objects and the clock are those of pydantic. -/
structure CanonicalStateProjection where
  pydantic : Pydantic
  objects : Objects
  now : PyValue

namespace CanonicalStateProjection
variable (self : CanonicalStateProjection)

def handle (event : DictEnvelope) (s : CanonicalState) : CanonicalState :=
  match eventModel self.pydantic self.objects self.now event with
  | some (.projectCreated project) => { s with projects := s.projects.upsert project }
  | some (.repositoryRegistered repository) => { s with repositories := s.repositories.upsert repository }
  | some (.workItemCreated workItem) | some (.workItemChanged workItem) =>
    { s with workItems := s.workItems.upsert workItem }
  | some (.requirementChanged requirement) => { s with requirements := s.requirements.upsert requirement }
  | some (.documentChanged document) => { s with documents := s.documents.upsert document }
  | some (.executionRequested execution) | some (.executionStarted execution)
  | some (.executionCompleted execution) => { s with executions := s.executions.upsert execution }
  | _ => s

end CanonicalStateProjection

end Brain
