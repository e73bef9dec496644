import Brain.Adapters.Ports
import Mathlib.Algebra.Order.Ring.Unbundled.Rat
import Mathlib.Data.Rat.Init

namespace Brain

inductive CommandType
  | analyzeProject | syncRepository | ingestRepository | ingestDocument | extractRequirements
  | analyzeWorkItem | planWorkItem | buildContext | runWorkItem | executeWorkItem | verifyExecution
  | createPullRequest | reconcileProject | bootstrapProject | syncWorkManagement
  deriving DecidableEq

def CommandType.value : CommandType → String
  | .analyzeProject => "analyze_project"
  | .syncRepository => "sync_repository"
  | .ingestRepository => "ingest_repository"
  | .ingestDocument => "ingest_document"
  | .extractRequirements => "extract_requirements"
  | .analyzeWorkItem => "analyze_work_item"
  | .planWorkItem => "plan_work_item"
  | .buildContext => "build_context"
  | .runWorkItem => "run_work_item"
  | .executeWorkItem => "execute_work_item"
  | .verifyExecution => "verify_execution"
  | .createPullRequest => "create_pull_request"
  | .reconcileProject => "reconcile_project"
  | .bootstrapProject => "bootstrap_project"
  | .syncWorkManagement => "sync_work_management"

structure CommandEnvelope where
  commandId : Uuid
  commandType : CommandType
  correlationId : Uuid
  deriving DecidableEq

inductive CommandFailureCategory
  | transientProvider | modelFailure | executionFailure | verificationFailure | invalidInput | internal
  deriving DecidableEq

structure CommandFailure where
  commandId : Uuid
  commandType : String
  attempt : Nat := 1
  category : CommandFailureCategory := .internal
  message : String := ""
  correlationId : Option Uuid := none
  retryEligible : Bool := true
  deriving DecidableEq

end Brain

namespace Brain

/-- The calls that take a command out of the queue or settle it. -/
inductive QueueCall
  | consumed (command : CommandEnvelope)
  | acknowledged (commandId : Uuid)
  | deadLettered (command : CommandEnvelope) (reason : String)
  deriving DecidableEq

/-- `InMemoryCommandQueue`. `calls` records what was called; the queue itself
never reads it. -/
structure InMemoryCommandQueue where
  pending : List CommandEnvelope := []
  inflight : Keyed CommandEnvelope.commandId := Keyed.empty
  dead : List (CommandEnvelope × String) := []
  calls : List QueueCall := []

namespace InMemoryCommandQueue

def enqueue (commands : List CommandEnvelope) (queue : InMemoryCommandQueue) : InMemoryCommandQueue :=
  { queue with pending := queue.pending ++ commands }

def consume (queue : InMemoryCommandQueue) : Option CommandEnvelope × InMemoryCommandQueue :=
  match queue.pending with
  | [] => (none, queue)
  | command :: pending =>
    (some command, { queue with
      pending
      inflight := queue.inflight.upsert command
      calls := queue.calls ++ [.consumed command] })

def acknowledge (commandId : Uuid) (queue : InMemoryCommandQueue) : InMemoryCommandQueue :=
  { queue with
    inflight := queue.inflight.delete commandId
    calls := queue.calls ++ [.acknowledged commandId] }

def deadLetter (command : CommandEnvelope) (reason : String) (queue : InMemoryCommandQueue) : InMemoryCommandQueue :=
  { queue with
    inflight := queue.inflight.delete command.commandId
    dead := queue.dead ++ [(command, reason)]
    calls := queue.calls ++ [.deadLettered command reason] }

def requeue (command : CommandEnvelope) (queue : InMemoryCommandQueue) : InMemoryCommandQueue :=
  enqueue [command] { queue with inflight := queue.inflight.delete command.commandId }

/-- `consume` under `asyncio.wait_for`, which gives up at once when no time is left. -/
def consumeWithin (timeout : ℚ) (queue : InMemoryCommandQueue) : Option CommandEnvelope × InMemoryCommandQueue :=
  if timeout ≤ 0 then (none, queue) else queue.consume

end InMemoryCommandQueue

/-- The keys of a command queue in Redis: the pending list, the hash of commands
in flight by `command_id.hex`, and the list of dead letters. -/
structure Redis (V : Type) where
  pending : List V := []
  inflight : Keyed (Prod.fst : Uuid × V → Uuid) := Keyed.empty
  dead : List (V × String) := []

/-- `model_dump_json` and `model_validate_json`, over the texts `V`. -/
structure CommandCodec (V : Type) where
  dump : CommandEnvelope → V
  load : V → Except PyException CommandEnvelope
  load_dump : ∀ command, load (dump command) = .ok command

/-- A codec whose texts are the envelopes. -/
def CommandCodec.plain : CommandCodec CommandEnvelope := ⟨id, .ok, fun _ => rfl⟩

namespace Redis
variable {V : Type}

def rpush (value : V) (redis : Redis V) : Redis V := { redis with pending := redis.pending ++ [value] }

def rpushDead (value : V) (reason : String) (redis : Redis V) : Redis V :=
  { redis with dead := redis.dead ++ [(value, reason)] }

def blpop (redis : Redis V) : Option (V × Redis V) :=
  match redis.pending with
  | [] => none
  | value :: pending => some (value, { redis with pending })

def hset (id : Uuid) (value : V) (redis : Redis V) : Redis V :=
  { redis with inflight := redis.inflight.upsert (id, value) }

def hdel (id : Uuid) (redis : Redis V) : Redis V := { redis with inflight := redis.inflight.delete id }

def llen (redis : Redis V) : Nat := redis.pending.length

end Redis

/-- `int(timeout_seconds)`, which cuts the fraction off. -/
def wholeSeconds (timeout : ℚ) : Int := timeout.num.tdiv timeout.den

/-! `RedisCommandQueue`, one call after the other. -/

namespace RedisCommandQueue
variable {V : Type} (codec : CommandCodec V)

def enqueue (command : CommandEnvelope) (redis : Redis V) : Redis V := redis.rpush (codec.dump command)

/-- `none` when the call never returns: `BLPOP` with timeout 0 on an empty list. -/
def consume (timeout : ℚ) (redis : Redis V) : Option (Except PyException (Option CommandEnvelope) × Redis V) :=
  if wholeSeconds timeout < 0 then
    some (.error { typeName := "ResponseError", message := "timeout is negative" }, redis)
  else match redis.blpop with
  | none => if wholeSeconds timeout = 0 then none else some (.ok none, redis)
  | some (value, popped) =>
    match codec.load value with
    | .error exception => some (.error exception, popped)
    | .ok command => some (.ok (some command), popped.hset command.commandId value)

def acknowledge (commandId : Uuid) (redis : Redis V) : Redis V := redis.hdel commandId

def requeue (command : CommandEnvelope) (redis : Redis V) : Redis V :=
  enqueue codec command (redis.hdel command.commandId)

def deadLetter (command : CommandEnvelope) (reason : String) (redis : Redis V) : Redis V :=
  (redis.hdel command.commandId).rpushDead (codec.dump command) reason

def pendingCount (redis : Redis V) : Nat := redis.llen

end RedisCommandQueue

theorem wholeSeconds_nonneg {timeout : ℚ} (positive : 0 < timeout) : 0 ≤ wholeSeconds timeout := by
  have num : 0 < timeout.num := Rat.num_pos.mpr positive
  exact Int.tdiv_nonneg num.le (Int.natCast_nonneg _)

theorem wholeSeconds_pos {timeout : ℚ} (second : 1 ≤ timeout) : 0 < wholeSeconds timeout := by
  have num : (timeout.den : Int) ≤ timeout.num := by
    rw [Rat.le_iff] at second
    simpa using second
  have den := timeout.den_pos
  unfold wholeSeconds
  rw [Int.tdiv_eq_ediv_of_nonneg (by omega)]
  exact (Int.le_ediv_iff_mul_le (by omega)).mpr (by omega)

end Brain
