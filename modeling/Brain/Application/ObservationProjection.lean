import Brain.Domain.Observations
import Brain.Lib.Runs
import Brain.Adapters.Ports

namespace Brain

inductive ProjectionStatus
  | pending | published | failed | skipped
  deriving DecidableEq

structure HumanActivityReference where
  id : Uuid
  observationId : ObservationId
  provider : String
  target : ExternalReference
  externalActivityId : Option String := none
  status : ProjectionStatus := .pending
  publishedAt : Option Time := none
  error : Option String := none
  deriving DecidableEq

/-- The key of `InMemoryActivityProjectionRepository._refs`. -/
def HumanActivityReference.pair (reference : HumanActivityReference) : ObservationId × String :=
  (reference.observationId, reference.provider)

/-! ### The ports -/

def formatObservation (observation : Observation) : String :=
  "\n".intercalate
    (["Brain observation — " ++ observation.observationType.value.map fun c => if c = '_' then ' ' else c, "",
        observation.title] ++
      if observation.body = "" then [] else ["", observation.body])

/-- `publish_observation` of the adapter for a provider. `post` is its transport,
`id` and `now` what the reference takes from outside. -/
def publishToActivity (provider : String) (post : String → String → Except PyException RawDict) (id : Uuid) (now : Time)
    (target : ExternalReference) (observation : Observation) : HumanActivityReference :=
  if target.provider ≠ provider then
    { id, observationId := observation.id, provider, target, status := .failed
      error := some ("target provider mismatch: " ++ target.provider) }
  else
    match post target.externalId (formatObservation observation) with
    | .ok result =>
      let externalActivityId := (((pyGet result "id").or (pyGet result "commentId")).or (.str "")).text
      { id, observationId := observation.id, provider, target
        externalActivityId := if externalActivityId = "" then none else some externalActivityId
        status := .published, publishedAt := some now }
    | .error exception =>
      { id, observationId := observation.id, provider, target, status := .failed
        error := some (exception.typeName ++ ": " ++ exception.message) }

def OpenProjectActivityAdapter.publishObservation := publishToActivity "openproject"

def JiraActivityAdapter.publishObservation := publishToActivity "jira"

/-! ### The service -/

/-- An iteration of the loop of `retry_failed`, with what is left of the list. -/
structure RetryLoop where
  rest : List HumanActivityReference
  retried : List HumanActivityReference

/-- A publication under way: `loop` is there when `retry_failed` forces it. -/
structure Publishing where
  observation : Observation
  target : ExternalReference
  loop : Option RetryLoop

def Publishing.pair (job : Publishing) : ObservationId × String := (job.observation.id, job.target.provider)

inductive ProjectionCall
  | project (observation : Observation) (target : ExternalReference)
  | retryFailed (limit : Int)

inductive ProjectionStage
  | started
  | get (job : Publishing)
  | publish (job : Publishing)
  | save (job : Publishing) (reference : HumanActivityReference)
  | listFailed
  | getObservation (reference : HumanActivityReference) (loop : RetryLoop)
  | returned (reference : HumanActivityReference)
  | retried (references : List HumanActivityReference)
  | raised (exception : PyException)

/-- How an await ends: only the port has answers of its own. -/
inductive ProjectionAnswer
  | done
  | returns (reference : HumanActivityReference)
  | raises (exception : PyException)

/-- The in-memory repositories. `answers` records what the port returned; no code
reads it. -/
structure ProjectionStores where
  observations : Keyed Observation.id
  refs : Keyed HumanActivityReference.pair := Keyed.empty
  answers : List HumanActivityReference := []

/-- The slice `failed[-limit:]`. -/
def lastOf {α : Type} (limit : Int) (entries : List α) : List α :=
  if 0 < limit then entries.drop (entries.length - limit.toNat) else entries.drop (-limit).toNat

def ProjectionStores.listFailed (s : ProjectionStores) (limit : Int) : List HumanActivityReference :=
  lastOf limit (s.refs.items.filter (·.status = .failed))

namespace ObservationProjectionService

/-- The loop of `retry_failed` up to its next await. -/
def nextReference (retried : List HumanActivityReference) : List HumanActivityReference → ProjectionStage
  | [] => .retried retried
  | reference :: rest =>
    if reference.status ≠ .failed then nextReference retried rest else .getObservation reference ⟨rest, retried⟩

/-- Where the reference of `project` goes: to its caller, or back into the loop. -/
def afterProject (reference : HumanActivityReference) : Option RetryLoop → ProjectionStage
  | none => .returned reference
  | some loop =>
    nextReference (if reference.status = .published then loop.retried ++ [reference] else loop.retried) loop.rest

def resume (call : ProjectionCall) (answer : ProjectionAnswer) (stage : ProjectionStage) (s : ProjectionStores) :
    Option (ProjectionStage × ProjectionStores) :=
  match stage, answer with
  | .started, .done =>
    match call with
    | .project observation target => some (.get ⟨observation, target, none⟩, s)
    | .retryFailed _ => some (.listFailed, s)
  | .listFailed, .done =>
    match call with
    | .project .. => none
    | .retryFailed limit => some (nextReference [] (s.listFailed limit), s)
  | .getObservation reference loop, .done =>
    match s.observations.get reference.observationId with
    | none => some (nextReference loop.retried loop.rest, s)
    | some observation => some (.get ⟨observation, reference.target, some loop⟩, s)
  | .get job, .done =>
    match s.refs.get job.pair with
    | some existing =>
      if existing.status = .published ∧ job.loop = none then some (.returned existing, s) else some (.publish job, s)
    | none => some (.publish job, s)
  | .publish job, .returns reference => some (.save job reference, { s with answers := s.answers ++ [reference] })
  | .publish _, .raises exception => some (.raised exception, s)
  | .save job reference, .done => some (afterProject reference job.loop, { s with refs := s.refs.upsert reference })
  | _, _ => none

end ObservationProjectionService

/-- Any number of calls in flight. -/
abbrev ProjectionTasks (ι : Type) := Tasks ι ProjectionStage ProjectionStores

namespace ProjectionTasks
variable {ι : Type}

def start (observations : Keyed Observation.id) : ProjectionTasks ι :=
  { state := fun _ => .started, shared := { observations } }

def step [DecidableEq ι] (calls : ι → ProjectionCall) :
    ProjectionTasks ι → ι × ProjectionAnswer → Option (ProjectionTasks ι) :=
  Tasks.turn fun i answer stage s => ObservationProjectionService.resume (calls i) answer stage s

end ProjectionTasks

end Brain
