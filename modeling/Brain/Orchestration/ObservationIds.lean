import Brain.Orchestration.EngineeringWorkflow

namespace Brain

/-- What `observation_ids` may hold: an id, or a list of its own kind. -/
inductive ObservationEntry (α : Type)
  | id (id : ObservationId)
  | list (ids : α)
  deriving DecidableEq

/-- The reducer of the key `observation_ids`. -/
def appendIds {α : Type} [DecidableEq α] (accumulator : List (ObservationEntry α)) (new : ObservationEntry α) :
    List (ObservationEntry α) :=
  if new ∈ accumulator then accumulator else accumulator ++ [new]

/-- A run with what it depends on: the ids the observation service returns for a
key, and the list a node reads from its state, which may be the accumulator itself
or a copy of it. `initialIds` is the empty list, or what the reducer made of it. -/
structure EngineeringRun (α : Type) where
  container : EngineeringContainer
  observation : Nat → String → ObservationId
  view : List (ObservationEntry α) → α
  initial : EngineeringState
  initialIds : List (ObservationEntry α) := []

namespace EngineeringRun
variable {α : Type} (run : EngineeringRun α)

/-- The key of the observation that `create_observation` makes, if it makes one. -/
def observationKey (state : EngineeringState) : Option String :=
  match state.implementationStatus, state.projectId with
  | some status, some _ =>
    if status = "implemented" ∨ status = "implemented_unverified" then some ("impl-status:" ++ state.workItemId.text) else none
  | _, _ => none

def created (state : EngineeringState) (w : EngineeringWorld) : EngineeringNode → Option ObservationId
  | .createObservation => (observationKey state).map (run.observation w.events.length)
  | _ => none

/-- The value of the key in the state a node returns: all nodes but one hand the
whole state on. -/
def returned (seen : α) (state : EngineeringState) (w : EngineeringWorld) (node : EngineeringNode) : ObservationEntry α :=
  match run.created state w node with
  | some id => .id id
  | none => .list seen

def createdBy (state : EngineeringState) : List EngineeringNode → EngineeringWorld → List ObservationId
  | [], _ => []
  | node :: nodes, w =>
    (run.created state w node).toList ++ createdBy state nodes (run.container.runNode node state w).2

def reduced [DecidableEq α] (seen : α) (state : EngineeringState) :
    List EngineeringNode → EngineeringWorld → List (ObservationEntry α) → List (ObservationEntry α)
  | [], _, ids => ids
  | node :: nodes, w, ids =>
    reduced seen state nodes (run.container.runNode node state w).2 (appendIds ids (run.returned seen state w node))

/-- The run after `n` supersteps. -/
def config (n : Nat) : EngineeringConfig := run.container.graph.after n (engineeringStart run.initial)

/-- The value of `observation_ids` after `n` supersteps. -/
def observationIds [DecidableEq α] : Nat → List (ObservationEntry α)
  | 0 => run.initialIds
  | n + 1 => run.reduced (run.view (observationIds n)) (run.config n).state (run.config n).active (run.config n).world
    (observationIds n)

/-- The ids that `create_observation` created in the superstep after `n` others. -/
def createdIn (n : Nat) : List ObservationId := run.createdBy (run.config n).state (run.config n).active (run.config n).world

def createdBefore (n : Nat) : List ObservationId := (List.range n).flatMap run.createdIn

/-- The list holds the ids created so far, each once, and nothing else. -/
structure AccumulatesOnce [DecidableEq α] : Prop where
  flat : ∀ n, ∃ ids : List ObservationId, run.observationIds n = ids.map .id ∧ ids.Nodup ∧
    ∀ id, id ∈ ids ↔ id ∈ run.createdBefore n
  unchanged : ∀ n, run.createdIn n = [] → run.observationIds (n + 1) = run.observationIds n

section Accumulated
variable [DecidableEq α]

variable {ids : List (ObservationEntry α)}

theorem mem_appendIds {new entry : ObservationEntry α} : entry ∈ appendIds ids new ↔ entry ∈ ids ∨ entry = new := by
  unfold appendIds
  split
  · rename_i already
    exact ⟨Or.inl, fun either => either.elim (fun old => old) fun same => same ▸ already⟩
  · rw [List.mem_append, List.mem_singleton]

theorem list_mem_reduced {seen : α} {state : EngineeringState} {nodes : List EngineeringNode} {w : EngineeringWorld}
    {ids' : α} (kept : .list ids' ∈ ids) :
    .list ids' ∈ run.reduced seen state nodes w ids := by
  induction nodes generalizing w ids with
  | nil => exact kept
  | cons node nodes ih => exact ih (mem_appendIds.mpr (Or.inl kept))

theorem list_mem_observationIds (n : Nat) : .list (run.view run.initialIds) ∈ run.observationIds (n + 1) := by
  induction n with
  | zero => exact mem_appendIds.mpr (Or.inr rfl)
  | succ n ih => exact run.list_mem_reduced ih

/-- No run accumulates the ids alone: `load_work_item` hands the list on, and the
reducer takes it for an element. -/
theorem not_accumulatesOnce : ¬ run.AccumulatesOnce := by
  intro accumulates
  obtain ⟨ids, flat, -, -⟩ := accumulates.flat 1
  have inside := run.list_mem_observationIds 0
  rw [flat, List.mem_map] at inside
  obtain ⟨id, -, same⟩ := inside
  cases same

end Accumulated

/-- A run whose work item is not found, with the accumulator handed on as it is. -/
theorem list_after_loadWorkItem : ¬ ∀ run : EngineeringRun Unit, run.AccumulatesOnce := by
  intro accumulates
  obtain ⟨ids, flat, -, -⟩ := (accumulates {
    container := {
      workItem := fun _ _ => none, project := fun _ _ => none, repositories := fun _ _ => []
      executor := fun _ => { executionId := .v4 0, status := .completed }, verdict := fun _ => .pass }
    observation := fun n _ => .v4 n
    view := fun _ => ()
    initial := { workflowId := .v4 0, projectId := some (.v4 1), workItemId := .v4 2 } }).flat 1
  have held : [ObservationEntry.list ()] = ids.map .id := flat
  cases ids with
  | nil => cases held
  | cons id ids => cases held

end EngineeringRun

end Brain
