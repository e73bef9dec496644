import Brain.Queue.Agreement

namespace Brain
variable {V : Type}

/-- Where a worker stands in a call on the queue: outside of one, or between the
two Redis commands of one. -/
inductive CallStage (V : Type)
  | idle
  | popped (command : CommandEnvelope) (value : V)
  | requeueing (command : CommandEnvelope)
  | deadLettering (command : CommandEnvelope) (reason : String)

structure QueueWorker (V : Type) where
  stage : CallStage V := .idle
  crashed : Bool := false

/-- What a worker does next: the first Redis command of a call, the second one
of the call it is in, or crash. -/
inductive WorkerTurn
  | enqueue (command : CommandEnvelope)
  | consume
  | acknowledge (commandId : Uuid)
  | requeue (command : CommandEnvelope)
  | deadLetter (command : CommandEnvelope) (reason : String)
  | next
  | crash

/-- Redis, and the ids that were pushed to the pending list and acknowledged. -/
structure SharedQueue (V : Type) where
  redis : Redis V := {}
  enqueued : List Uuid := []
  acknowledged : List Uuid := []

/-- A worker runs to its next Redis command, or crashes before it. -/
def QueueWorker.resume (codec : CommandCodec V) (turn : WorkerTurn) (worker : QueueWorker V) (s : SharedQueue V) :
    Option (QueueWorker V × SharedQueue V) :=
  if worker.crashed then none
  else match worker.stage, turn with
  | _, .crash => some ({ worker with crashed := true }, s)
  | .idle, .enqueue command =>
    some ({}, { s with
      redis := s.redis.rpush (codec.dump command), enqueued := s.enqueued ++ [command.commandId] })
  | .idle, .consume =>
    match s.redis.blpop with
    | none => some ({}, s)
    | some (value, redis) =>
      match codec.load value with
      | .ok command => some ({ stage := .popped command value }, { s with redis })
      | .error _ => some ({}, { s with redis })
  | .popped command value, .next => some ({}, { s with redis := s.redis.hset command.commandId value })
  | .idle, .acknowledge id =>
    some ({}, { s with redis := s.redis.hdel id, acknowledged := s.acknowledged ++ [id] })
  | .idle, .requeue command =>
    some ({ stage := .requeueing command }, { s with redis := s.redis.hdel command.commandId })
  | .requeueing command, .next =>
    some ({}, { s with
      redis := s.redis.rpush (codec.dump command), enqueued := s.enqueued ++ [command.commandId] })
  | .idle, .deadLetter command reason =>
    some ({ stage := .deadLettering command reason }, { s with redis := s.redis.hdel command.commandId })
  | .deadLettering command reason, .next =>
    some ({}, { s with redis := s.redis.rpushDead (codec.dump command) reason })
  | _, _ => none

abbrev QueueWorkers (ι V : Type) := Tasks ι (QueueWorker V) (SharedQueue V)

namespace QueueWorkers
variable {ι : Type} (codec : CommandCodec V)

def start : QueueWorkers ι V := { state := fun _ => {}, shared := {} }

def step [DecidableEq ι] : QueueWorkers ι V → ι × WorkerTurn → Option (QueueWorkers ι V) :=
  Tasks.turn fun _ turn worker s => worker.resume codec turn s

end QueueWorkers

namespace SharedQueue
variable (codec : CommandCodec V) (s : SharedQueue V) (id : Uuid)

/-- Enqueued and never acknowledged. -/
def Owed : Prop := id ∈ s.enqueued ∧ id ∉ s.acknowledged

def Present : Prop :=
  id ∈ s.redis.pending.filterMap codec.idOf ∨ (s.redis.inflight.get id).isSome = true ∨
    id ∈ s.redis.dead.filterMap fun letter => codec.idOf letter.1

instance : Decidable (s.Owed id) := inferInstanceAs (Decidable (_ ∧ _))

instance : Decidable (s.Present codec id) := inferInstanceAs (Decidable (_ ∨ _ ∨ _))

def Conserved : Prop := ∀ id, s.Owed id → s.Present codec id

/-- The first Redis command of a call does not take the last copy of a command
that is still owed. -/
def Spares : WorkerTurn → Prop
  | .consume => ∀ value rest, s.redis.pending = value :: rest → ∀ id, codec.idOf value = some id → s.Owed id →
      id ∈ rest.filterMap codec.idOf ∨ (s.redis.inflight.get id).isSome = true ∨
        id ∈ s.redis.dead.filterMap fun letter => codec.idOf letter.1
  | .requeue command | .deadLetter command _ => s.Owed command.commandId →
      command.commandId ∈ s.redis.pending.filterMap codec.idOf ∨
        command.commandId ∈ s.redis.dead.filterMap fun letter => codec.idOf letter.1
  | _ => True

end SharedQueue

inductive QueueWorker.Moves (codec : CommandCodec V) (s : SharedQueue V) :
    WorkerTurn → QueueWorker V → QueueWorker V → SharedQueue V → Prop
  | crashes (stage : CallStage V) : Moves codec s .crash { stage } { stage, crashed := true } s
  | enqueues (command : CommandEnvelope) : Moves codec s (.enqueue command) {} {}
      { s with redis := s.redis.rpush (codec.dump command), enqueued := s.enqueued ++ [command.commandId] }
  | waits (empty : s.redis.pending = []) : Moves codec s .consume {} {} s
  | pops {value : V} {rest : List V} {command : CommandEnvelope} (first : s.redis.pending = value :: rest)
      (loaded : codec.load value = .ok command) : Moves codec s .consume {} { stage := .popped command value }
      { s with redis := { s.redis with pending := rest } }
  | rejects {value : V} {rest : List V} {exception : PyException} (first : s.redis.pending = value :: rest)
      (failed : codec.load value = .error exception) : Moves codec s .consume {} {}
      { s with redis := { s.redis with pending := rest } }
  | notes (command : CommandEnvelope) (value : V) : Moves codec s .next { stage := .popped command value } {}
      { s with redis := s.redis.hset command.commandId value }
  | acknowledges (id : Uuid) : Moves codec s (.acknowledge id) {} {}
      { s with redis := s.redis.hdel id, acknowledged := s.acknowledged ++ [id] }
  | takesBack (command : CommandEnvelope) : Moves codec s (.requeue command) {} { stage := .requeueing command }
      { s with redis := s.redis.hdel command.commandId }
  | pushesBack (command : CommandEnvelope) : Moves codec s .next { stage := .requeueing command } {}
      { s with redis := s.redis.rpush (codec.dump command), enqueued := s.enqueued ++ [command.commandId] }
  | givesUp (command : CommandEnvelope) (reason : String) :
      Moves codec s (.deadLetter command reason) {} { stage := .deadLettering command reason }
      { s with redis := s.redis.hdel command.commandId }
  | buries (command : CommandEnvelope) (reason : String) :
      Moves codec s .next { stage := .deadLettering command reason } {}
      { s with redis := s.redis.rpushDead (codec.dump command) reason }

theorem QueueWorker.resume_moves {codec : CommandCodec V} {turn : WorkerTurn} {worker worker' : QueueWorker V}
    {s s' : SharedQueue V} (taken : worker.resume codec turn s = some (worker', s')) :
    Moves codec s turn worker worker' s' := by
  obtain ⟨stage, crashed⟩ := worker
  cases crashed with
  | true => cases taken
  | false =>
    cases turn with
    | crash => cases stage <;> cases taken <;> exact .crashes _
    | next =>
      cases stage with
      | idle => cases taken
      | popped command value => cases taken; exact .notes command value
      | requeueing command => cases taken; exact .pushesBack command
      | deadLettering command reason => cases taken; exact .buries command reason
    | consume =>
      cases stage with
      | idle =>
        simp only [QueueWorker.resume, Bool.false_eq_true, if_false, Redis.blpop] at taken
        cases pending : s.redis.pending with
        | nil =>
          simp only [pending] at taken
          cases taken
          exact .waits pending
        | cons value rest =>
          cases loaded : codec.load value with
          | ok command =>
            simp only [pending, loaded] at taken
            cases taken
            exact .pops pending loaded
          | error exception =>
            simp only [pending, loaded] at taken
            cases taken
            exact .rejects pending loaded
      | _ => cases taken
    | enqueue command => cases stage <;> cases taken; exact .enqueues command
    | acknowledge id => cases stage <;> cases taken; exact .acknowledges id
    | requeue command => cases stage <;> cases taken; exact .takesBack command
    | deadLetter command reason => cases stage <;> cases taken; exact .givesUp command reason

namespace SharedQueue
variable {codec : CommandCodec V} {s : SharedQueue V} {id k : Uuid}

theorem present_rpush {command : CommandEnvelope} {enqueued : List Uuid} :
    Present codec { s with redis := s.redis.rpush (codec.dump command), enqueued } id ↔
      s.Present codec id ∨ id = command.commandId := by
  unfold Present Redis.rpush
  simp only [List.filterMap_append, List.mem_append, List.filterMap_cons, CommandCodec.idOf_dump, List.filterMap_nil,
    List.mem_singleton]
  tauto

theorem present_hset {value : V} : Present codec { s with redis := s.redis.hset k value } id ↔
    s.Present codec id ∨ id = k := by
  unfold Present Redis.hset
  simp only [Keyed.get_upsert]
  by_cases same : id = k
  · simp [same]
  · simp [same]

theorem present_hdel {acknowledged : List Uuid} : Present codec { s with redis := s.redis.hdel k, acknowledged } id ↔
    id ∈ s.redis.pending.filterMap codec.idOf ∨ (id ≠ k ∧ (s.redis.inflight.get id).isSome = true) ∨
      id ∈ s.redis.dead.filterMap fun letter => codec.idOf letter.1 := by
  unfold Present Redis.hdel
  rw [Keyed.get_delete]
  by_cases same : id = k
  · simp [same]
  · simp [same]

theorem present_rpushDead {command : CommandEnvelope} {reason : String} :
    Present codec { s with redis := s.redis.rpushDead (codec.dump command) reason } id ↔
      s.Present codec id ∨ id = command.commandId := by
  unfold Present Redis.rpushDead
  simp only [List.filterMap_append, List.mem_append, List.filterMap_cons, CommandCodec.idOf_dump, List.filterMap_nil,
    List.mem_singleton]
  tauto

theorem present_pop {value : V} {rest : List V} (first : s.redis.pending = value :: rest) :
    s.Present codec id ↔ codec.idOf value = some id ∨
      Present codec { s with redis := { s.redis with pending := rest } } id := by
  unfold Present
  rw [first, List.filterMap_cons]
  cases codec.idOf value with
  | none => simp
  | some head => simp only [List.mem_cons, Option.some.injEq, or_assoc, @eq_comm _ id head]

theorem conserved_hdel (conserved : s.Conserved codec) :
    Conserved codec { s with redis := s.redis.hdel k } ↔ (s.Owed k →
      k ∈ s.redis.pending.filterMap codec.idOf ∨ k ∈ s.redis.dead.filterMap fun letter => codec.idOf letter.1) := by
  constructor
  · intro kept owed
    rcases present_hdel.mp (kept k owed) with pending | flying | dead
    · exact Or.inl pending
    · exact absurd rfl flying.1
    · exact Or.inr dead
  · intro spared id owed
    rw [present_hdel]
    by_cases same : id = k
    · subst same
      rcases spared owed with pending | dead
      · exact Or.inl pending
      · exact Or.inr (Or.inr dead)
    · exact (conserved id owed).imp_right (Or.imp_left fun flying => ⟨same, flying⟩)

theorem conserved_pop {value : V} {rest : List V} (first : s.redis.pending = value :: rest)
    (conserved : s.Conserved codec) : Conserved codec { s with redis := { s.redis with pending := rest } } ↔
      s.Spares codec .consume := by
  constructor
  · intro kept value' rest' first' id loaded owed
    obtain ⟨rfl, rfl⟩ := List.cons_eq_cons.mp (first.symm.trans first')
    exact kept id owed
  · intro spared id owed
    rcases (present_pop first).mp (conserved id owed) with popped | left
    · exact spared value rest first id popped owed
    · exact left

theorem conserved_rpush (conserved : s.Conserved codec) (command : CommandEnvelope) : Conserved codec
    { s with redis := s.redis.rpush (codec.dump command), enqueued := s.enqueued ++ [command.commandId] } := by
  intro id owed
  rw [present_rpush]
  by_cases same : id = command.commandId
  · exact Or.inr same
  · have before : id ∈ s.enqueued := by simpa [same] using owed.1
    exact Or.inl (conserved id ⟨before, owed.2⟩)

theorem conserved_acknowledge (conserved : s.Conserved codec) (k : Uuid) : Conserved codec
    { s with redis := s.redis.hdel k, acknowledged := s.acknowledged ++ [k] } := by
  intro id owed
  obtain ⟨enqueued, open_⟩ := owed
  have other : id ≠ k ∧ id ∉ s.acknowledged := by simpa [and_comm] using open_
  rw [present_hdel]
  exact (conserved id ⟨enqueued, other.2⟩).imp_right (Or.imp_left fun flying => ⟨other.1, flying⟩)

theorem conserved_iff_spares {turn : WorkerTurn} {worker worker' : QueueWorker V} {s' : SharedQueue V}
    (moves : worker.Moves codec s turn worker' s') (conserved : s.Conserved codec) :
    s'.Conserved codec ↔ s.Spares codec turn := by
  cases moves with
  | crashes stage => exact ⟨fun _ => trivial, fun _ => conserved⟩
  | enqueues command => exact ⟨fun _ => trivial, fun _ => conserved_rpush conserved command⟩
  | waits empty =>
    refine ⟨fun _ value rest first => ?_, fun _ => conserved⟩
    rw [empty] at first
    cases first
  | pops first loaded => exact conserved_pop first conserved
  | rejects first failed => exact conserved_pop first conserved
  | notes command value =>
    exact ⟨fun _ => trivial, fun _ id owed => present_hset.mpr (Or.inl (conserved id owed))⟩
  | acknowledges id => exact ⟨fun _ => trivial, fun _ => conserved_acknowledge conserved id⟩
  | takesBack command => exact conserved_hdel conserved
  | pushesBack command => exact ⟨fun _ => trivial, fun _ => conserved_rpush conserved command⟩
  | givesUp command reason => exact conserved_hdel conserved
  | buries command reason =>
    exact ⟨fun _ => trivial, fun _ id owed => present_rpushDead.mpr (Or.inl (conserved id owed))⟩

end SharedQueue

namespace QueueWorkers
variable {ι : Type} {codec : CommandCodec V} {workers workers' : QueueWorkers ι V}

theorem start_conserved : (start : QueueWorkers ι V).shared.Conserved codec := by
  intro id owed
  cases owed.1

variable [DecidableEq ι]

theorem step_moves {i : ι} {turn : WorkerTurn} (taken : step codec workers (i, turn) = some workers') :
    ∃ worker', (workers.state i).Moves codec workers.shared turn worker' workers'.shared ∧
      workers' = workers.move i worker' workers'.shared := by
  obtain ⟨worker', s', moved, rfl⟩ := Tasks.turn_eq_some.mp taken
  exact ⟨worker', QueueWorker.resume_moves moved, rfl⟩

/-- Exactly the runs that never take the last copy of an owed command off the
lists keep every owed command on one of them, in every state. -/
theorem conserved_throughout_iff (codec : CommandCodec V) (turns : List (ι × WorkerTurn)) :
    Runs.Throughout (step codec) (fun workers => workers.shared.Conserved codec) turns start ↔
      Runs.Along (step codec) (fun workers turn => workers.shared.Spares codec turn.2) turns start := by
  refine Runs.throughout_iff_along (I := fun _ => True) (fun _ _ _ _ _ => trivial) ?_ trivial start_conserved
  rintro workers ⟨i, turn⟩ workers' _ conserved taken
  obtain ⟨worker', moves, _⟩ := step_moves taken
  exact SharedQueue.conserved_iff_spares moves conserved

/-- A worker that consumes the only command and crashes before it is noted. -/
theorem popped_command_is_lost :
    ∃ workers : QueueWorkers Unit CommandEnvelope,
      Runs.after (step CommandCodec.plain) [((), .enqueue ⟨.v4 1, .analyzeProject, .v4 0⟩), ((), .consume), ((), .crash)]
        start = some workers ∧ workers.shared.Owed (.v4 1) ∧ ¬ workers.shared.Present CommandCodec.plain (.v4 1) := by
  exact ⟨_, rfl, by decide, by decide⟩

end QueueWorkers

end Brain
