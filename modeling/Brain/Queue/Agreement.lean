import Brain.Adapters.CommandQueue
import Brain.Lib.Runs
import Mathlib.Data.List.Dedup

namespace Brain

/-- The `CommandQueue` port, and what can be seen of a queue from outside. -/
structure QueuePort (Q : Type) where
  enqueue : CommandEnvelope → Q → Q
  consume : ℚ → Q → Option (Except PyException (Option CommandEnvelope) × Q)
  acknowledge : Uuid → Q → Q
  requeue : CommandEnvelope → Q → Q
  deadLetter : CommandEnvelope → String → Q → Q
  pendingCount : Q → Nat
  pendingIds : Q → List Uuid
  inFlight : Q → Uuid → Bool
  deadIds : Q → List Uuid

def InMemoryCommandQueue.port : QueuePort InMemoryCommandQueue where
  enqueue command := enqueue [command]
  consume timeout queue :=
    let (command, queue) := queue.consumeWithin timeout
    some (.ok command, queue)
  acknowledge := acknowledge
  requeue := requeue
  deadLetter := deadLetter
  pendingCount queue := queue.pending.length
  pendingIds queue := queue.pending.map CommandEnvelope.commandId
  inFlight queue id := (queue.inflight.get id).isSome
  deadIds queue := queue.dead.map fun letter => letter.1.commandId

def CommandCodec.idOf {V : Type} (codec : CommandCodec V) (value : V) : Option Uuid :=
  match codec.load value with
  | .ok command => some command.commandId
  | .error _ => none

@[simp] theorem CommandCodec.idOf_dump {V : Type} (codec : CommandCodec V) (command : CommandEnvelope) :
    codec.idOf (codec.dump command) = some command.commandId := by
  simp [idOf, codec.load_dump]

def RedisCommandQueue.port {V : Type} (codec : CommandCodec V) : QueuePort (Redis V) where
  enqueue := enqueue codec
  consume := consume codec
  acknowledge := acknowledge
  requeue := requeue codec
  deadLetter := deadLetter codec
  pendingCount := pendingCount
  pendingIds redis := redis.pending.filterMap codec.idOf
  inFlight redis id := (redis.inflight.get id).isSome
  deadIds redis := redis.dead.filterMap fun letter => codec.idOf letter.1

inductive QueueOp
  | enqueue (command : CommandEnvelope)
  | consume (timeout : ℚ)
  | acknowledge (commandId : Uuid)
  | requeue (command : CommandEnvelope)
  | deadLetter (command : CommandEnvelope) (reason : String)
  | pendingCount

inductive QueueResponse
  | done
  | consumed (command : Option CommandEnvelope)
  | raised (exception : PyException)
  | count (pending : Nat)

/-- A queue and what its calls returned so far. -/
structure Exchange (Q : Type) where
  queue : Q
  responses : List QueueResponse := []

namespace QueuePort
variable {Q : Type} (port : QueuePort Q)

def respond : Except PyException (Option CommandEnvelope) → QueueResponse
  | .ok command => .consumed command
  | .error exception => .raised exception

/-- One call of a sequential program. `none` when it never returns. -/
def perform (op : QueueOp) (queue : Q) : Option (QueueResponse × Q) :=
  match op with
  | .enqueue command => some (.done, port.enqueue command queue)
  | .consume timeout => (port.consume timeout queue).map fun answer => (respond answer.1, answer.2)
  | .acknowledge id => some (.done, port.acknowledge id queue)
  | .requeue command => some (.done, port.requeue command queue)
  | .deadLetter command reason => some (.done, port.deadLetter command reason queue)
  | .pendingCount => some (.count (port.pendingCount queue), queue)

def step (e : Exchange Q) (op : QueueOp) : Option (Exchange Q) :=
  (port.perform op e.queue).map fun answer => { queue := answer.2, responses := e.responses ++ [answer.1] }

/-- The timeout leaves a whole second to wait, unless there is nothing to wait for. -/
def Timed (e : Exchange Q) : QueueOp → Prop
  | .consume timeout => 0 < timeout ∧ (1 ≤ timeout ∨ port.pendingIds e.queue ≠ [])
  | _ => True

def InFlightOnly (e : Exchange Q) : QueueOp → Prop
  | .acknowledge id => port.inFlight e.queue id = true
  | .requeue command | .deadLetter command _ => port.inFlight e.queue command.commandId = true
  | _ => True

end QueuePort

def enqueuedIds (program : List QueueOp) : List Uuid :=
  program.filterMap fun
    | .enqueue command => some command.commandId
    | _ => none

/-- The ids of its enqueue and requeue calls, in order. -/
def queuedIds (program : List QueueOp) : List Uuid :=
  program.filterMap fun
    | .enqueue command | .requeue command => some command.commandId
    | _ => none

def acknowledgedIds (program : List QueueOp) : List Uuid :=
  program.filterMap fun
    | .acknowledge id => some id
    | _ => none

/-- Whether a command is pending, in flight, dead, acknowledged. -/
def QueuePort.places {Q : Type} (port : QueuePort Q) (program : List QueueOp) (queue : Q) (id : Uuid) : List Bool :=
  [(port.pendingIds queue).contains id, port.inFlight queue id, (port.deadIds queue).contains id,
    (acknowledgedIds program).contains id]

structure QueuePort.Settled {Q : Type} (port : QueuePort Q) (program : List QueueOp) (queue : Q) : Prop where
  /-- The next command is the pending one whose last enqueue or requeue is the oldest. -/
  fifo : ∀ timeout command queue', port.consume timeout queue = some (.ok (some command), queue') →
    (queuedIds program).dedup.find? (fun id => (port.pendingIds queue).contains id) = some command.commandId
  onePlace : ∀ id ∈ enqueuedIds program, (port.places program queue id).count true = 1

variable {V : Type}

structure SameQueue (codec : CommandCodec V) (queue : InMemoryCommandQueue) (redis : Redis V) : Prop where
  pending : redis.pending = queue.pending.map codec.dump
  inflight : ∀ id, (redis.inflight.get id).map Prod.snd = (queue.inflight.get id).map codec.dump
  dead : redis.dead = queue.dead.map fun letter => (codec.dump letter.1, letter.2)

namespace SameQueue
variable {codec : CommandCodec V} {queue : InMemoryCommandQueue} {redis : Redis V}

theorem empty : SameQueue codec {} {} := ⟨rfl, fun _ => rfl, rfl⟩

theorem delete (same : SameQueue codec queue redis) (id k : Uuid) :
    ((redis.inflight.delete id).get k).map Prod.snd = ((queue.inflight.delete id).get k).map codec.dump := by
  rw [Keyed.get_delete, Keyed.get_delete]
  by_cases deleted : k = id
  · rw [if_pos deleted, if_pos deleted]
    rfl
  · rw [if_neg deleted, if_neg deleted]
    exact same.inflight k

theorem enqueue (same : SameQueue codec queue redis) (command : CommandEnvelope) :
    SameQueue codec (queue.enqueue [command]) (RedisCommandQueue.enqueue codec command redis) where
  pending := by simp [InMemoryCommandQueue.enqueue, RedisCommandQueue.enqueue, Redis.rpush, same.pending]
  inflight := same.inflight
  dead := same.dead

theorem acknowledge (same : SameQueue codec queue redis) (id : Uuid) :
    SameQueue codec (queue.acknowledge id) (RedisCommandQueue.acknowledge id redis) where
  pending := same.pending
  inflight := same.delete id
  dead := same.dead

theorem requeue (same : SameQueue codec queue redis) (command : CommandEnvelope) :
    SameQueue codec (queue.requeue command) (RedisCommandQueue.requeue codec command redis) where
  pending := by
    simp [InMemoryCommandQueue.requeue, InMemoryCommandQueue.enqueue, RedisCommandQueue.requeue,
      RedisCommandQueue.enqueue, Redis.rpush, Redis.hdel, same.pending]
  inflight := same.delete command.commandId
  dead := same.dead

theorem deadLetter (same : SameQueue codec queue redis) (command : CommandEnvelope) (reason : String) :
    SameQueue codec (queue.deadLetter command reason) (RedisCommandQueue.deadLetter codec command reason redis) where
  pending := same.pending
  inflight := same.delete command.commandId
  dead := by
    simp [InMemoryCommandQueue.deadLetter, RedisCommandQueue.deadLetter, Redis.rpushDead, Redis.hdel, same.dead]

theorem pendingIds (same : SameQueue codec queue redis) :
    (RedisCommandQueue.port codec).pendingIds redis = InMemoryCommandQueue.port.pendingIds queue := by
  simp [RedisCommandQueue.port, InMemoryCommandQueue.port, same.pending]

theorem inFlight (same : SameQueue codec queue redis) (id : Uuid) :
    (RedisCommandQueue.port codec).inFlight redis id = InMemoryCommandQueue.port.inFlight queue id := by
  have found := congrArg Option.isSome (same.inflight id)
  simpa [RedisCommandQueue.port, InMemoryCommandQueue.port] using found

theorem deadIds (same : SameQueue codec queue redis) :
    (RedisCommandQueue.port codec).deadIds redis = InMemoryCommandQueue.port.deadIds queue := by
  simp [RedisCommandQueue.port, InMemoryCommandQueue.port, same.dead]

theorem pendingCount (same : SameQueue codec queue redis) :
    (RedisCommandQueue.port codec).pendingCount redis = InMemoryCommandQueue.port.pendingCount queue := by
  simp [RedisCommandQueue.port, RedisCommandQueue.pendingCount, Redis.llen, InMemoryCommandQueue.port, same.pending]

theorem consume (same : SameQueue codec queue redis) {timeout : ℚ} (positive : 0 < timeout)
    (waits : 1 ≤ timeout ∨ queue.pending ≠ []) :
    ∃ redis', RedisCommandQueue.consume codec timeout redis =
        some (.ok (queue.consumeWithin timeout).1, redis') ∧
      SameQueue codec (queue.consumeWithin timeout).2 redis' := by
  have whole : ¬ wholeSeconds timeout < 0 := Int.not_lt.mpr (wholeSeconds_nonneg positive)
  have inTime : ¬ timeout ≤ 0 := Rat.not_le.mpr positive
  unfold InMemoryCommandQueue.consumeWithin RedisCommandQueue.consume
  rw [if_neg whole, if_neg inTime]
  cases pending : queue.pending with
  | nil =>
    have second : 1 ≤ timeout := waits.resolve_right fun nonempty => nonempty pending
    have notZero : wholeSeconds timeout ≠ 0 := Int.ne_of_gt (wholeSeconds_pos second)
    have redisPending : redis.pending = [] := by rw [same.pending, pending]; rfl
    refine ⟨redis, ?_, ?_⟩
    · simp only [Redis.blpop, redisPending, if_neg notZero, InMemoryCommandQueue.consume, pending]
    · simpa only [InMemoryCommandQueue.consume, pending] using same
  | cons command rest =>
    have redisPending : redis.pending = codec.dump command :: rest.map codec.dump := by rw [same.pending, pending]; rfl
    simp only [Redis.blpop, redisPending, codec.load_dump, InMemoryCommandQueue.consume, pending]
    refine ⟨_, rfl, ⟨rfl, ?_, same.dead⟩⟩
    intro id
    simp only [Redis.hset, Keyed.get_upsert]
    by_cases hit : id = command.commandId
    · rw [if_pos hit, if_pos hit]
      rfl
    · rw [if_neg hit, if_neg hit]
      exact same.inflight id

end SameQueue

structure SameExchange (codec : CommandCodec V) (memory : Exchange InMemoryCommandQueue) (redis : Exchange (Redis V)) :
    Prop where
  queue : SameQueue codec memory.queue redis.queue
  responses : redis.responses = memory.responses

theorem SameExchange.step {codec : CommandCodec V} {memory memory' : Exchange InMemoryCommandQueue}
    {redis : Exchange (Redis V)} {op : QueueOp} (same : SameExchange codec memory redis)
    (timed : InMemoryCommandQueue.port.Timed memory op) (taken : InMemoryCommandQueue.port.step memory op = some memory') :
    ∃ redis', (RedisCommandQueue.port codec).step redis op = some redis' ∧ SameExchange codec memory' redis' := by
  cases op with
  | consume timeout =>
    have nonempty : 1 ≤ timeout ∨ memory.queue.pending ≠ [] := by
      refine timed.2.imp id ?_
      intro ids none
      exact ids (by simp [InMemoryCommandQueue.port, none])
    obtain ⟨redis', consumed, kept⟩ := same.queue.consume timed.1 nonempty
    have moved : memory' =
        { queue := (memory.queue.consumeWithin timeout).2
          responses := memory.responses ++ [.consumed (memory.queue.consumeWithin timeout).1] } :=
      (Option.some.inj taken).symm
    rw [moved]
    refine ⟨{ queue := redis', responses := redis.responses ++ _ }, ?_, ⟨kept, congrArg (· ++ _) same.responses⟩⟩
    simp only [QueuePort.step, QueuePort.perform, RedisCommandQueue.port, consumed, Option.map_some, QueuePort.respond]
  | enqueue command =>
    cases taken
    exact ⟨_, rfl, ⟨same.queue.enqueue command, congrArg (· ++ _) same.responses⟩⟩
  | acknowledge id =>
    cases taken
    exact ⟨_, rfl, ⟨same.queue.acknowledge id, congrArg (· ++ _) same.responses⟩⟩
  | requeue command =>
    cases taken
    exact ⟨_, rfl, ⟨same.queue.requeue command, congrArg (· ++ _) same.responses⟩⟩
  | deadLetter command reason =>
    cases taken
    exact ⟨_, rfl, ⟨same.queue.deadLetter command reason, congrArg (· ++ _) same.responses⟩⟩
  | pendingCount =>
    cases taken
    refine ⟨_, rfl, ⟨same.queue, ?_⟩⟩
    rw [same.responses, same.queue.pendingCount]

end Brain
