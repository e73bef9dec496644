import Brain.Queue.Agreement

namespace Brain

theorem sublist_dedup_snoc {α : Type} [DecidableEq α] {pending calls : List α} {x : α}
    (inOrder : pending.Sublist calls.dedup) (fresh : x ∉ pending) :
    (pending ++ [x]).Sublist (calls ++ [x]).dedup := by
  induction calls generalizing pending with
  | nil =>
    have none : pending = [] := List.sublist_nil.mp inOrder
    simp [none]
  | cons call calls ih =>
    by_cases later : call ∈ calls
    · rw [List.dedup_cons_of_mem later] at inOrder
      rw [List.cons_append, List.dedup_cons_of_mem (List.mem_append_left _ later)]
      exact ih inOrder fresh
    rw [List.dedup_cons_of_notMem later] at inOrder
    by_cases same : call = x
    · subst same
      rw [List.cons_append, List.dedup_cons_of_mem (by simp)]
      refine ih ?_ fresh
      cases inOrder with
      | cons _ rest => exact rest
      | cons_cons _ rest => exact absurd (List.mem_cons_self ..) fresh
    rw [List.cons_append, List.dedup_cons_of_notMem (by simp [later, same])]
    cases inOrder with
    | cons _ rest => exact (ih rest fresh).cons _
    | cons_cons _ rest => exact (ih rest (fun member => fresh (List.mem_cons_of_mem _ member))).cons_cons _

theorem find_first_of_sublist {α : Type} [DecidableEq α] {first : α} {rest calls : List α} (nodup : calls.Nodup)
    (inOrder : (first :: rest).Sublist calls) :
    calls.find? (fun id => (first :: rest).contains id) = some first := by
  induction calls with
  | nil => cases inOrder
  | cons call calls ih =>
    obtain ⟨new, nodup⟩ := List.nodup_cons.mp nodup
    cases inOrder with
    | cons _ inRest =>
      have other : call ∉ first :: rest := fun member => new (inRest.subset member)
      rw [List.find?_cons_of_neg (by simpa using other)]
      exact ih nodup inRest
    | cons_cons _ inRest => rw [List.find?_cons_of_pos (by simp)]

/-- Where a command can be. -/
inductive Place
  | pending | inFlight | dead | acknowledged
  deriving DecidableEq

section Moves
variable {place : Uuid → Option Place} {moved id : Uuid} {target other : Place}

theorem place_gains : decide (Function.update place moved (some target) id = some target) =
    (decide (place id = some target) || decide (id = moved)) := by
  by_cases same : id = moved
  · simp [same]
  · simp [same]

theorem place_loses (different : target ≠ other) :
    decide (Function.update place moved (some target) id = some other) =
      (decide (place id = some other) && !decide (id = moved)) := by
  by_cases same : id = moved
  · simp [same, different]
  · simp [same]

theorem place_stays (elsewhere : place moved ≠ some other) (different : target ≠ other) :
    decide (Function.update place moved (some target) id = some other) = decide (place id = some other) := by
  rw [place_loses different]
  by_cases same : id = moved
  · simp [same, elsewhere]
  · simp [same]

end Moves

namespace InMemoryCommandQueue
variable {place : Uuid → Option Place} {done : List QueueOp} {queue : InMemoryCommandQueue}
  {command : CommandEnvelope} {id : Uuid}

/-- Every command enqueued by the calls `done` is at one place, the pending ones
in the order of their last calls. -/
structure Located (place : Uuid → Option Place) (done : List QueueOp) (queue : InMemoryCommandQueue) : Prop where
  inOrder : (port.pendingIds queue).Sublist (queuedIds done).dedup
  pending : ∀ id, (port.pendingIds queue).contains id = decide (place id = some .pending)
  inFlight : ∀ id, port.inFlight queue id = decide (place id = some .inFlight)
  dead : ∀ id, (port.deadIds queue).contains id = decide (place id = some .dead)
  acknowledged : ∀ id, (acknowledgedIds done).contains id = decide (place id = some .acknowledged)
  enqueued : ∀ id, id ∈ enqueuedIds done ↔ place id ≠ none

theorem located_empty : Located (fun _ => none) [] {} where
  inOrder := List.Sublist.refl _
  pending _ := rfl
  inFlight _ := rfl
  dead _ := rfl
  acknowledged _ := rfl
  enqueued id := by simp [enqueuedIds]

theorem contains_snoc {ids : List Uuid} {new id : Uuid} :
    (ids ++ [new]).contains id = (ids.contains id || decide (id = new)) := by
  simp

theorem inFlight_delete {gone id : Uuid} :
    ((queue.inflight.delete gone).get id).isSome = (port.inFlight queue id && !decide (id = gone)) := by
  rw [Keyed.get_delete]
  by_cases same : id = gone
  · simp [same]
  · simp [same, port]

theorem enqueued_move (enqueued : ∀ id, id ∈ enqueuedIds done ↔ place id ≠ none) {moved : Uuid} {target : Place}
    (known : place moved ≠ none) (id : Uuid) :
    id ∈ enqueuedIds done ↔ Function.update place moved (some target) id ≠ none := by
  rw [enqueued]
  by_cases same : id = moved
  · simp [same, known]
  · simp [Function.update_of_ne same]

theorem Located.enqueue (located : Located place done queue) (new : command.commandId ∉ enqueuedIds done) :
    Located (Function.update place command.commandId (some .pending)) (done ++ [.enqueue command])
      (queue.enqueue [command]) := by
  have nowhere : place command.commandId = none := by
    rw [located.enqueued] at new
    exact not_not.mp new
  have pendingIds : port.pendingIds (queue.enqueue [command]) = port.pendingIds queue ++ [command.commandId] := by
    simp [port, InMemoryCommandQueue.enqueue]
  have notPending : command.commandId ∉ port.pendingIds queue := by
    have absent := located.pending command.commandId
    simpa [nowhere] using absent
  refine ⟨?_, ?_, ?_, ?_, ?_, ?_⟩
  · rw [pendingIds]
    simpa [queuedIds] using sublist_dedup_snoc located.inOrder notPending
  · intro id
    rw [pendingIds, contains_snoc, located.pending, place_gains]
  · intro id
    rw [place_stays (by simp [nowhere]) (by decide)]
    exact located.inFlight id
  · intro id
    rw [place_stays (by simp [nowhere]) (by decide)]
    exact located.dead id
  · intro id
    rw [place_stays (by simp [nowhere]) (by decide), ← located.acknowledged]
    simp [acknowledgedIds]
  · intro id
    have grown : enqueuedIds (done ++ [.enqueue command]) = enqueuedIds done ++ [command.commandId] := by
      simp [enqueuedIds]
    rw [grown, List.mem_append, located.enqueued, List.mem_singleton]
    by_cases same : id = command.commandId
    · simp [same]
    · simp [same]

theorem Located.consume (located : Located place done queue) (timeout : ℚ) :
    ∃ place', Located place' (done ++ [.consume timeout]) (queue.consumeWithin timeout).2 := by
  have queued : queuedIds (done ++ [.consume timeout]) = queuedIds done := by simp [queuedIds]
  have enqueued : enqueuedIds (done ++ [.consume timeout]) = enqueuedIds done := by simp [enqueuedIds]
  have acknowledged : acknowledgedIds (done ++ [.consume timeout]) = acknowledgedIds done := by simp [acknowledgedIds]
  have unchanged : Located place (done ++ [.consume timeout]) queue :=
    ⟨by rw [queued]; exact located.inOrder, located.pending, located.inFlight, located.dead,
      by rw [acknowledged]; exact located.acknowledged, by rw [enqueued]; exact located.enqueued⟩
  unfold consumeWithin
  by_cases late : timeout ≤ 0
  · rw [if_pos late]
    exact ⟨place, unchanged⟩
  rw [if_neg late]
  cases pending : queue.pending with
  | nil =>
    refine ⟨place, ?_⟩
    simpa only [InMemoryCommandQueue.consume, pending] using unchanged
  | cons command rest =>
    have ids : port.pendingIds queue = command.commandId :: rest.map CommandEnvelope.commandId := by
      simp [port, pending]
    have nodup := located.inOrder.nodup (List.nodup_dedup _)
    rw [ids, List.nodup_cons] at nodup
    have isPending : place command.commandId = some .pending := by
      have first := located.pending command.commandId
      simpa [ids] using first.symm
    simp only [InMemoryCommandQueue.consume, pending]
    refine ⟨Function.update place command.commandId (some .inFlight), ?_, ?_, ?_, ?_, ?_, ?_⟩
    · rw [queued]
      refine List.Sublist.trans ?_ (ids ▸ located.inOrder)
      exact List.sublist_cons_self ..
    · intro id
      rw [place_loses (by decide), ← located.pending, ids]
      by_cases same : id = command.commandId
      · simpa [same, port] using nodup.1
      · simp [same, port]
    · intro id
      rw [place_gains, ← located.inFlight]
      by_cases same : id = command.commandId
      · simp [same, port]
      · simp [same, port, Keyed.get_upsert]
    · intro id
      rw [place_stays (by simp [isPending]) (by decide)]
      exact located.dead id
    · intro id
      rw [place_stays (by simp [isPending]) (by decide), acknowledged]
      exact located.acknowledged id
    · rw [enqueued]
      exact enqueued_move located.enqueued (by simp [isPending])

theorem Located.flying (located : Located place done queue) (flies : port.inFlight queue id = true) :
    place id = some .inFlight := by
  rw [located.inFlight] at flies
  exact of_decide_eq_true flies

theorem Located.acknowledge (located : Located place done queue) (flies : port.inFlight queue id = true) :
    Located (Function.update place id (some .acknowledged)) (done ++ [.acknowledge id]) (queue.acknowledge id) := by
  have isFlying := located.flying flies
  refine ⟨?_, ?_, ?_, ?_, ?_, ?_⟩
  · simpa [queuedIds, port, InMemoryCommandQueue.acknowledge] using located.inOrder
  · intro k
    rw [place_stays (by simp [isFlying]) (by decide)]
    exact located.pending k
  · intro k
    rw [place_loses (by decide), ← located.inFlight]
    exact inFlight_delete
  · intro k
    rw [place_stays (by simp [isFlying]) (by decide)]
    exact located.dead k
  · intro k
    have grown : acknowledgedIds (done ++ [.acknowledge id]) = acknowledgedIds done ++ [id] := by simp [acknowledgedIds]
    rw [grown, contains_snoc, located.acknowledged, place_gains]
  · have same : enqueuedIds (done ++ [.acknowledge id]) = enqueuedIds done := by simp [enqueuedIds]
    rw [same]
    exact enqueued_move located.enqueued (by simp [isFlying])

theorem Located.requeue (located : Located place done queue)
    (flies : port.inFlight queue command.commandId = true) :
    Located (Function.update place command.commandId (some .pending)) (done ++ [.requeue command])
      (queue.requeue command) := by
  have isFlying := located.flying flies
  have pendingIds : port.pendingIds (queue.requeue command) = port.pendingIds queue ++ [command.commandId] := by
    simp [port, InMemoryCommandQueue.requeue, InMemoryCommandQueue.enqueue]
  have notPending : command.commandId ∉ port.pendingIds queue := by
    have absent := located.pending command.commandId
    simpa [isFlying] using absent
  refine ⟨?_, ?_, ?_, ?_, ?_, ?_⟩
  · rw [pendingIds]
    simpa [queuedIds] using sublist_dedup_snoc located.inOrder notPending
  · intro k
    rw [pendingIds, contains_snoc, located.pending, place_gains]
  · intro k
    rw [place_loses (by decide), ← located.inFlight]
    exact inFlight_delete
  · intro k
    rw [place_stays (by simp [isFlying]) (by decide)]
    exact located.dead k
  · intro k
    rw [place_stays (by simp [isFlying]) (by decide), ← located.acknowledged]
    simp [acknowledgedIds]
  · have same : enqueuedIds (done ++ [.requeue command]) = enqueuedIds done := by simp [enqueuedIds]
    rw [same]
    exact enqueued_move located.enqueued (by simp [isFlying])

theorem Located.deadLetter (located : Located place done queue) (reason : String)
    (flies : port.inFlight queue command.commandId = true) :
    Located (Function.update place command.commandId (some .dead)) (done ++ [.deadLetter command reason])
      (queue.deadLetter command reason) := by
  have isFlying := located.flying flies
  have deadIds : port.deadIds (queue.deadLetter command reason) = port.deadIds queue ++ [command.commandId] := by
    simp [port, InMemoryCommandQueue.deadLetter]
  refine ⟨?_, ?_, ?_, ?_, ?_, ?_⟩
  · simpa [queuedIds, port, InMemoryCommandQueue.deadLetter] using located.inOrder
  · intro k
    rw [place_stays (by simp [isFlying]) (by decide)]
    exact located.pending k
  · intro k
    rw [place_loses (by decide), ← located.inFlight]
    exact inFlight_delete
  · intro k
    rw [deadIds, contains_snoc, located.dead, place_gains]
  · intro k
    rw [place_stays (by simp [isFlying]) (by decide), ← located.acknowledged]
    simp [acknowledgedIds]
  · have same : enqueuedIds (done ++ [.deadLetter command reason]) = enqueuedIds done := by simp [enqueuedIds]
    rw [same]
    exact enqueued_move located.enqueued (by simp [isFlying])

theorem Located.step {e e' : Exchange InMemoryCommandQueue} {op : QueueOp} (located : Located place done e.queue)
    (rules : port.InFlightOnly e op) (new : (enqueuedIds (done ++ [op])).Nodup) (taken : port.step e op = some e') :
    ∃ place', Located place' (done ++ [op]) e'.queue := by
  cases op with
  | enqueue command =>
    cases taken
    have grown : enqueuedIds (done ++ [.enqueue command]) = enqueuedIds done ++ [command.commandId] := by
      simp [enqueuedIds]
    rw [grown, List.nodup_append] at new
    refine ⟨_, located.enqueue fun member => ?_⟩
    exact new.2.2 _ member _ (List.mem_singleton_self _) rfl
  | consume timeout =>
    cases taken
    exact located.consume timeout
  | acknowledge id =>
    cases taken
    exact ⟨_, located.acknowledge rules⟩
  | requeue command =>
    cases taken
    exact ⟨_, located.requeue rules⟩
  | deadLetter command reason =>
    cases taken
    exact ⟨_, located.deadLetter reason rules⟩
  | pendingCount =>
    cases taken
    refine ⟨place, ?_, located.pending, located.inFlight, located.dead, ?_, ?_⟩
    · simpa [queuedIds] using located.inOrder
    · simpa [acknowledgedIds] using located.acknowledged
    · simpa [enqueuedIds] using located.enqueued

theorem Located.run {e e' : Exchange InMemoryCommandQueue} {rest : List QueueOp} (located : Located place done e.queue)
    (rules : Runs.Along port.step port.InFlightOnly rest e) (distinct : (enqueuedIds (done ++ rest)).Nodup)
    (run : Runs.after port.step rest e = some e') : ∃ place', Located place' (done ++ rest) e'.queue := by
  induction rest generalizing done place e with
  | nil =>
    cases run
    exact ⟨place, by simpa using located⟩
  | cons op rest ih =>
    obtain ⟨middle, taken, onward⟩ := Runs.after_cons.mp run
    have split : done ++ op :: rest = (done ++ [op]) ++ rest := by simp
    have new : (enqueuedIds (done ++ [op])).Nodup := by
      rw [split] at distinct
      unfold enqueuedIds at distinct ⊢
      rw [List.filterMap_append] at distinct
      exact (List.nodup_append.mp distinct).1
    obtain ⟨next, moved⟩ := located.step (rules middle taken).1 new taken
    rw [split] at distinct ⊢
    exact ih moved (rules middle taken).2 distinct onward

theorem Located.count_places (located : Located place done queue) (known : id ∈ enqueuedIds done) :
    (port.places done queue id).count true = 1 := by
  unfold QueuePort.places
  rw [located.pending, located.inFlight, located.dead, located.acknowledged]
  have somewhere := (located.enqueued id).mp known
  cases at_ : place id with
  | none => exact absurd at_ somewhere
  | some here => cases here <;> rfl

theorem consumed_first {timeout : ℚ} {queue' : InMemoryCommandQueue}
    (consumed : port.consume timeout queue = some (.ok (some command), queue')) :
    ∃ rest, port.pendingIds queue = command.commandId :: rest := by
  simp only [port, consumeWithin] at consumed
  by_cases late : timeout ≤ 0
  · rw [if_pos late] at consumed
    cases consumed
  rw [if_neg late] at consumed
  cases pending : queue.pending with
  | nil =>
    simp only [InMemoryCommandQueue.consume, pending] at consumed
    cases consumed
  | cons first rest =>
    simp only [InMemoryCommandQueue.consume, pending] at consumed
    cases consumed
    exact ⟨rest.map CommandEnvelope.commandId, by simp [port, pending]⟩

end InMemoryCommandQueue

theorem RedisCommandQueue.consumed_first {V : Type} {codec : CommandCodec V} {redis redis' : Redis V} {timeout : ℚ}
    {command : CommandEnvelope} (consumed : (port codec).consume timeout redis = some (.ok (some command), redis')) :
    ∃ rest, (port codec).pendingIds redis = command.commandId :: rest := by
  simp only [port, consume] at consumed
  by_cases negative : wholeSeconds timeout < 0
  · rw [if_pos negative] at consumed
    cases consumed
  rw [if_neg negative] at consumed
  cases pending : redis.pending with
  | nil =>
    simp only [Redis.blpop, pending] at consumed
    split at consumed <;> cases consumed
  | cons first rest =>
    simp only [Redis.blpop, pending] at consumed
    cases loaded : codec.load first with
    | error exception =>
      simp only [loaded] at consumed
      cases consumed
    | ok found =>
      simp only [loaded] at consumed
      cases consumed
      exact ⟨rest.filterMap codec.idOf, by simp [port, pending, CommandCodec.idOf, loaded]⟩

theorem QueuePort.settled {Q : Type} {port : QueuePort Q} {program : List QueueOp} {queue : Q}
    (first : ∀ timeout command queue', port.consume timeout queue = some (.ok (some command), queue') →
      ∃ rest, port.pendingIds queue = command.commandId :: rest)
    (inOrder : (port.pendingIds queue).Sublist (queuedIds program).dedup)
    (onePlace : ∀ id ∈ enqueuedIds program, (port.places program queue id).count true = 1) :
    port.Settled program queue where
  fifo := by
    intro timeout command queue' consumed
    obtain ⟨rest, ids⟩ := first timeout command queue' consumed
    rw [ids] at inOrder ⊢
    exact find_first_of_sublist (List.nodup_dedup _) inOrder
  onePlace := onePlace

/-- Both queues return the same to every program that leaves them time to wait,
and both keep the order of the calls and every command at one place when only
commands in flight are settled or requeued. -/
theorem queues_agree {V : Type} (codec : CommandCodec V) (program : List QueueOp)
    (timed : Runs.Along InMemoryCommandQueue.port.step InMemoryCommandQueue.port.Timed program { queue := {} }) :
    ∃ memory redis, Runs.after InMemoryCommandQueue.port.step program { queue := {} } = some memory ∧
      Runs.after (RedisCommandQueue.port codec).step program { queue := {} } = some redis ∧
      redis.responses = memory.responses ∧
      (RedisCommandQueue.port codec).pendingCount redis.queue = InMemoryCommandQueue.port.pendingCount memory.queue ∧
      ((enqueuedIds program).Nodup →
        Runs.Along InMemoryCommandQueue.port.step InMemoryCommandQueue.port.InFlightOnly program { queue := {} } →
        InMemoryCommandQueue.port.Settled program memory.queue ∧
          (RedisCommandQueue.port codec).Settled program redis.queue) := by
  have total : ∀ (e : Exchange InMemoryCommandQueue) op, ∃ e', InMemoryCommandQueue.port.step e op = some e' := by
    intro e op
    cases op <;> exact ⟨_, rfl⟩
  obtain ⟨memory, run⟩ := Runs.after_total total program { queue := {} }
  have start : SameExchange codec { queue := {} } { queue := {} } := ⟨SameQueue.empty, rfl⟩
  have sim : ∀ memory (redis : Exchange (Redis V)) op memory', SameExchange codec memory redis →
      InMemoryCommandQueue.port.Timed memory op → InMemoryCommandQueue.port.step memory op = some memory' →
      ∃ redis', (RedisCommandQueue.port codec).step redis op = some redis' ∧ SameExchange codec memory' redis' :=
    fun _ _ _ _ same timed taken => same.step timed taken
  obtain ⟨redis, run', same⟩ := timed.simulates sim start run
  refine ⟨memory, redis, run, run', same.responses, same.queue.pendingCount, ?_⟩
  intro distinct rules
  have distinct' : (enqueuedIds ([] ++ program)).Nodup := distinct
  obtain ⟨place, located⟩ := InMemoryCommandQueue.located_empty.run rules distinct' run
  rw [List.nil_append] at located
  have onePlace : ∀ id ∈ enqueuedIds program, (InMemoryCommandQueue.port.places program memory.queue id).count true = 1 :=
    fun id known => located.count_places known
  refine ⟨QueuePort.settled (fun _ _ _ => InMemoryCommandQueue.consumed_first) located.inOrder onePlace, ?_⟩
  refine QueuePort.settled (fun _ _ _ => RedisCommandQueue.consumed_first) ?_ ?_
  · rw [same.queue.pendingIds]
    exact located.inOrder
  · intro id known
    unfold QueuePort.places
    rw [same.queue.pendingIds, same.queue.inFlight, same.queue.deadIds]
    exact onePlace id known

def sampleCommand (n : Nat) : CommandEnvelope :=
  { commandId := .v4 n, commandType := .analyzeProject, correlationId := .v4 0 }

/-- A program in which one command is requeued, and one acknowledged. -/
def sampleProgram : List QueueOp :=
  [.enqueue (sampleCommand 1), .enqueue (sampleCommand 2), .consume 1, .requeue (sampleCommand 1), .consume 1,
    .acknowledge (.v4 2), .pendingCount]

theorem queues_agree_sample :
    ∃ memory redis, Runs.after InMemoryCommandQueue.port.step sampleProgram { queue := {} } = some memory ∧
      Runs.after (RedisCommandQueue.port CommandCodec.plain).step sampleProgram { queue := {} } = some redis ∧
      redis.responses = memory.responses ∧ InMemoryCommandQueue.port.Settled sampleProgram memory.queue ∧
      (RedisCommandQueue.port CommandCodec.plain).Settled sampleProgram redis.queue := by
  have timed : Runs.Along InMemoryCommandQueue.port.step InMemoryCommandQueue.port.Timed sampleProgram { queue := {} } := by
    have second : (0 : ℚ) < 1 ∧ (1 : ℚ) ≤ 1 := by decide
    exact .cons rfl trivial (.cons rfl trivial (.cons rfl ⟨second.1, .inl second.2⟩ (.cons rfl trivial
      (.cons rfl ⟨second.1, .inl second.2⟩ (.cons rfl trivial (.cons rfl trivial trivial))))))
  have rules : Runs.Along InMemoryCommandQueue.port.step InMemoryCommandQueue.port.InFlightOnly sampleProgram
      { queue := {} } := by
    exact .cons rfl trivial (.cons rfl trivial (.cons rfl trivial (.cons rfl rfl (.cons rfl trivial
      (.cons rfl rfl (.cons rfl trivial trivial))))))
  obtain ⟨memory, redis, run, run', responses, _, settled⟩ := queues_agree CommandCodec.plain sampleProgram timed
  exact ⟨memory, redis, run, run', responses, settled (by decide) rules⟩

def acknowledgedWhilePending : List QueueOp := [.enqueue (sampleCommand 1), .acknowledge (.v4 1)]

def requeuedWhilePending : List QueueOp :=
  [.enqueue (sampleCommand 1), .enqueue (sampleCommand 2), .requeue (sampleCommand 1)]

/-- Nothing stops a program from acknowledging a command that is still pending,
which then is at two places, or from requeueing it, which lets its older copy
come out before commands with older calls. -/
theorem pending_commands_unsettled :
    (∃ memory redis,
      Runs.after InMemoryCommandQueue.port.step acknowledgedWhilePending { queue := {} } = some memory ∧
      Runs.after (RedisCommandQueue.port CommandCodec.plain).step acknowledgedWhilePending { queue := {} } =
        some redis ∧
      ¬ InMemoryCommandQueue.port.Settled acknowledgedWhilePending memory.queue ∧
      ¬ (RedisCommandQueue.port CommandCodec.plain).Settled acknowledgedWhilePending redis.queue) ∧
    (∃ memory, Runs.after InMemoryCommandQueue.port.step requeuedWhilePending { queue := {} } = some memory ∧
      ¬ InMemoryCommandQueue.port.Settled requeuedWhilePending memory.queue) ∧
    (enqueuedIds acknowledgedWhilePending).Nodup ∧ (enqueuedIds requeuedWhilePending).Nodup := by
  refine ⟨⟨_, _, rfl, rfl, ?_, ?_⟩, ⟨_, rfl, ?_⟩, by decide, by decide⟩
  · intro settled
    have two := settled.onePlace (.v4 1) (by decide)
    exact absurd two (by decide)
  · intro settled
    have two := settled.onePlace (.v4 1) (by decide)
    exact absurd two (by decide)
  · intro settled
    have oldest := settled.fifo 1 (sampleCommand 1) _ rfl
    exact absurd oldest (by decide)

end Brain
