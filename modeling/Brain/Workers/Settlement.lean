import Brain.Adapters.CommandQueue
import Brain.Lib.Session

namespace Brain

inductive Write (ω : Type)
  | handler (write : ω)
  | failure (record : CommandFailure)
  deriving DecidableEq

/-- What the handler does in one attempt, and how saving its failure record ends. -/
structure Attempt (ω : Type) where
  writes : List ω := []
  raises : Option PyException := none
  save : Calls.Outcome PyException := .returns

/-- What happens around one turn of the loop that the loop does not decide:
whether `stop` was called, which commands arrive, what the handler does in each
attempt, and how the commit ends. -/
structure Turn (ω : Type) where
  stop : Bool := false
  arrivals : List CommandEnvelope := []
  attempts : Nat → Attempt ω := fun _ => {}
  commit : Calls.Outcome PyException := .returns

structure WorkerState (ω : Type) where
  queue : InMemoryCommandQueue := {}
  session : Option (Session (Write ω)) := some {}

variable {ω : Type}

def WorkerState.write (writes : List (Write ω)) (s : WorkerState ω) : WorkerState ω :=
  { s with session := s.session.map (·.write writes) }

def classifyFailure (exception : PyException) : CommandFailureCategory × Bool :=
  let message := lower (exception.typeName ++ ": " ++ exception.message)
  if textContains message "invalid" || textContains message "validation" then (.invalidInput, false)
  else if textContains message "verification" then (.verificationFailure, true)
  else if textContains message "execution" then (.executionFailure, true)
  else (.internal, true)

/-- The record `process_command` saves. -/
def commandFailure (command : CommandEnvelope) (attempt : Nat) (exception : PyException) : CommandFailure :=
  let (category, retryEligible) := classifyFailure exception
  { commandId := command.commandId, commandType := command.commandType.value, attempt, category
    message := exception.typeName ++ ": " ++ exception.message
    correlationId := some command.correlationId, retryEligible }

structure WorkerLoop where
  /-- The command types with a registered handler. -/
  registered : List CommandType
  maxAttempts : Nat := 3

namespace WorkerLoop
variable (self : WorkerLoop)

/-- `CommandDispatcher.dispatch`: the writes it buffers, and what it raises. -/
def dispatch (command : CommandEnvelope) (attempt : Attempt ω) : List ω × Option PyException :=
  if command.commandType ∈ self.registered then (attempt.writes, attempt.raises)
  else ([], some ⟨"CommandHandlerNotFound", "no handler for command " ++ command.commandType.value⟩)

def processCommand (command : CommandEnvelope) (number : Nat) (attempt : Attempt ω) (s : WorkerState ω) :
    Except PyException Unit × WorkerState ω :=
  let (writes, raised) := self.dispatch command attempt
  let s := s.write (writes.map .handler)
  match raised with
  | none => (.ok (), s)
  | some e =>
    let record := commandFailure command number e
    match attempt.save with
    | .returns => (.error e, s.write [.failure record])
    | .raises tookEffect e' => (.error e', if tookEffect then s.write [.failure record] else s)

def retryLoop (turn : Turn ω) (command : CommandEnvelope) : Nat → Nat → WorkerState ω → Bool × WorkerState ω
  | 0, _, s => (false, s)
  | left + 1, attempt, s =>
    match self.processCommand command attempt (turn.attempts attempt) s with
    | (.ok _, s) => (true, s)
    | (.error _, s) =>
      if self.maxAttempts ≤ attempt then
        (false, { s with
          queue := s.queue.deadLetter command ("failed after " ++ toString attempt ++ " attempts") })
      else retryLoop turn command left (attempt + 1) s

def commitIfNeeded (commit : Calls.Outcome PyException) (s : WorkerState ω) : Except PyException Unit × WorkerState ω :=
  match s.session with
  | none => (.ok (), s)
  | some session =>
    match commit with
    | .returns => (.ok (), { s with session := some session.commit })
    | .raises tookEffect e =>
      (.error e, { s with session := some (if tookEffect then session.commit else session).rollback })

/-- What `run` does with a command it consumed. -/
def handle (turn : Turn ω) (command : CommandEnvelope) (s : WorkerState ω) : Except PyException Unit × WorkerState ω :=
  match self.retryLoop turn command self.maxAttempts 1 s with
  | (false, s) => (.ok (), s)
  | (true, s) =>
    match commitIfNeeded turn.commit s with
    | (.ok _, s) => (.ok (), { s with queue := s.queue.acknowledge command.commandId })
    | (.error e, s) => (.error e, s)

/-- How far `run` is after some turns. -/
inductive Progress
  | returned (processed : Nat)
  | raised (exception : PyException)
  | running (processed : Nat)

/-- The turns of `run` so far. -/
def run (maxCommands : Option Nat) : List (Turn ω) → Nat → WorkerState ω → Progress × WorkerState ω
  | [], processed, s => (.running processed, s)
  | turn :: turns, processed, s =>
    if turn.stop || maxCommands.any (· ≤ processed) then (.returned processed, s)
    else
      match (s.queue.enqueue turn.arrivals).consume with
      | (none, queue) =>
        if maxCommands.isSome then (.returned processed, { s with queue })
        else run maxCommands turns processed { s with queue }
      | (some command, queue) =>
        match self.handle turn command { s with queue } with
        | (.ok _, s) => run maxCommands turns (processed + 1) s
        | (.error e, s) => (.raised e, s)

end WorkerLoop

end Brain

namespace Brain
variable {ω : Type}

/-- Each command is settled before the next one is consumed. -/
inductive Settles : List CommandEnvelope → List QueueCall → Prop
  | nil : Settles [] []
  | acknowledged {command : CommandEnvelope} {commands : List CommandEnvelope} {calls : List QueueCall}
      (rest : Settles commands calls) :
      Settles (command :: commands) (.consumed command :: .acknowledged command.commandId :: calls)
  | deadLettered {command : CommandEnvelope} {commands : List CommandEnvelope} {calls : List QueueCall}
      (reason : String) (rest : Settles commands calls) :
      Settles (command :: commands) (.consumed command :: .deadLettered command reason :: calls)

namespace WorkerLoop
variable (self : WorkerLoop)

/-- The commands that `run` has to consume, each with its turn. Only the queue
content, the limit and calls of `stop` decide it. -/
def schedule (maxCommands : Option Nat) : List (Turn ω) → Nat → List CommandEnvelope →
    List (CommandEnvelope × Turn ω)
  | [], _, _ => []
  | turn :: turns, processed, pending =>
    if turn.stop || maxCommands.any (· ≤ processed) then []
    else
      match pending ++ turn.arrivals with
      | [] => if maxCommands.isSome then [] else schedule maxCommands turns processed []
      | command :: pending => (command, turn) :: schedule maxCommands turns (processed + 1) pending

def returns (turn : Turn ω) (command : CommandEnvelope) (attempt : Nat) : Bool :=
  (self.dispatch command (turn.attempts attempt)).2.isNone

/-- The handler returns in one of the attempts. -/
def succeeds (turn : Turn ω) (command : CommandEnvelope) : Bool :=
  (List.range' 1 self.maxAttempts).any (self.returns turn command)

/-! ### One command -/

variable {turn : Turn ω} {command : CommandEnvelope} {s : WorkerState ω}

def recorded (turn : Turn ω) (command : CommandEnvelope) (attempt : Nat) : List (Write ω) :=
  match (self.dispatch command (turn.attempts attempt)).2 with
  | none => []
  | some e =>
    match (turn.attempts attempt).save with
    | .returns => [.failure (commandFailure command attempt e)]
    | .raises tookEffect _ => if tookEffect then [.failure (commandFailure command attempt e)] else []

def written (turn : Turn ω) (command : CommandEnvelope) (attempt : Nat) : List (Write ω) :=
  (self.dispatch command (turn.attempts attempt)).1.map .handler ++ self.recorded turn command attempt

theorem write_nil : s.write [] = s := by
  cases s with | mk queue session => cases session <;> simp [WorkerState.write]

theorem write_write (ws ws' : List (Write ω)) : (s.write ws).write ws' = s.write (ws ++ ws') := by
  cases s with | mk queue session => cases session <;> simp [WorkerState.write, Session.write_write]

theorem processCommand_writes (attempt : Nat) :
    ∃ r, self.processCommand command attempt (turn.attempts attempt) s = (r, s.write (self.written turn command attempt)) ∧
      (self.returns turn command attempt = true ↔ r = .ok ()) := by
  unfold processCommand written recorded returns
  rcases self.dispatch command (turn.attempts attempt) with ⟨writes, raised⟩
  cases raised with
  | none => exact ⟨.ok (), by simp, by simp⟩
  | some e =>
    cases (turn.attempts attempt).save with
    | returns => exact ⟨.error e, by simp [write_write], by simp⟩
    | raises tookEffect e' =>
      refine ⟨.error e', ?_, by simp⟩
      cases tookEffect <;> simp [write_write]

def attemptsMade (turn : Turn ω) (command : CommandEnvelope) : Nat → Nat → List Nat
  | 0, _ => []
  | left + 1, attempt =>
    attempt :: if self.returns turn command attempt then [] else attemptsMade turn command left (attempt + 1)

theorem retryLoop_spec (left attempt : Nat) (all : attempt + left = self.maxAttempts + 1) :
    self.retryLoop turn command left attempt s =
      ((List.range' attempt left).any (self.returns turn command),
        { s.write ((self.attemptsMade turn command left attempt).flatMap (self.written turn command)) with
          queue := if (List.range' attempt left).any (self.returns turn command) || left = 0 then s.queue
            else s.queue.deadLetter command ("failed after " ++ toString self.maxAttempts ++ " attempts") }) := by
  induction left generalizing attempt s with
  | zero => simp [retryLoop, attemptsMade, write_nil]
  | succ left ih =>
    obtain ⟨r, processed, isOk⟩ := @processCommand_writes _ self turn command s attempt
    unfold retryLoop attemptsMade
    rw [processed, List.range'_succ, List.any_cons, List.flatMap_cons]
    cases r with
    | ok =>
      rw [isOk.mpr rfl]
      simp [WorkerState.write]
    | error e =>
      have failed : self.returns turn command attempt = false := by
        cases returned : self.returns turn command attempt with
        | false => rfl
        | true => cases isOk.mp returned
      rw [failed]
      dsimp only
      by_cases last : self.maxAttempts ≤ attempt
      · have none : left = 0 := by omega
        have number : attempt = self.maxAttempts := by omega
        subst none
        rw [if_pos last]
        simp [number, attemptsMade, WorkerState.write]
      · have more : decide (left = 0) = false := decide_eq_false (by omega)
        have most : decide (left + 1 = 0) = false := decide_eq_false (by omega)
        have rest := ih (s := s.write (self.written turn command attempt)) (attempt + 1) (by omega)
        rw [if_neg last, rest, write_write, more, most]
        rfl

def writtenFor (turn : Turn ω) (command : CommandEnvelope) : List (Write ω) :=
  (self.attemptsMade turn command self.maxAttempts 1).flatMap (self.written turn command)

theorem handle_spec : self.handle turn command s =
    if self.succeeds turn command = false then
      (.ok (), { s.write (self.writtenFor turn command) with
        queue := if self.maxAttempts = 0 then s.queue
          else s.queue.deadLetter command ("failed after " ++ toString self.maxAttempts ++ " attempts") })
    else
      match commitIfNeeded turn.commit (s.write (self.writtenFor turn command)) with
      | (.ok _, t) => (.ok (), { t with queue := s.queue.acknowledge command.commandId })
      | (.error e, t) => (.error e, t) := by
  have loop := @retryLoop_spec _ self turn command s self.maxAttempts 1 (by omega)
  unfold handle
  rw [loop]
  unfold succeeds writtenFor
  cases (List.range' 1 self.maxAttempts).any (self.returns turn command) with
  | false => simp
  | true =>
    simp only [Bool.true_or, if_true]
    have kept : { s.write ((self.attemptsMade turn command self.maxAttempts 1).flatMap (self.written turn command)) with
        queue := s.queue } =
        s.write ((self.attemptsMade turn command self.maxAttempts 1).flatMap (self.written turn command)) := rfl
    rw [kept]
    unfold commitIfNeeded
    cases s with | mk queue session =>
    cases session with
    | none => rfl
    | some session => cases turn.commit <;> rfl

/-- The command is tried, and a commit after it returns. -/
def Settleable (session : Bool) (turn : Turn ω) (command : CommandEnvelope) : Prop :=
  0 < self.maxAttempts ∧ (session = true → self.succeeds turn command = true → turn.commit = .returns)

theorem handle_settles (settleable : self.Settleable s.session.isSome turn command) :
    ∃ t, self.handle turn command s = (.ok (), t) ∧ t.session.isSome = s.session.isSome ∧
      (t.queue = s.queue.acknowledge command.commandId ∨ ∃ reason, t.queue = s.queue.deadLetter command reason) := by
  obtain ⟨tried, commits⟩ := settleable
  have attempts : self.maxAttempts ≠ 0 := by omega
  rw [handle_spec]
  cases succeeded : self.succeeds turn command with
  | false =>
    rw [if_pos rfl, if_neg attempts]
    refine ⟨_, rfl, ?_, Or.inr ⟨_, rfl⟩⟩
    simp [WorkerState.write]
  | true =>
    rw [if_neg (by simp)]
    cases s with | mk queue session =>
    cases session with
    | none => exact ⟨_, rfl, rfl, Or.inl rfl⟩
    | some session =>
      rw [commits rfl succeeded]
      exact ⟨_, rfl, rfl, Or.inl rfl⟩

theorem handle_raises (open' : s.session.isSome = true) (succeeded : self.succeeds turn command = true)
    (raises : turn.commit ≠ .returns) : ∃ e t, self.handle turn command s = (.error e, t) := by
  rw [handle_spec, succeeded, if_neg (by simp)]
  cases s with | mk queue session =>
  obtain ⟨session, rfl⟩ := Option.isSome_iff_exists.mp open'
  cases commit : turn.commit with
  | returns => exact absurd commit raises
  | raises tookEffect e => exact ⟨e, _, rfl⟩

theorem handle_untried (untried : self.maxAttempts = 0) :
    ∃ t, self.handle turn command s = (.ok (), t) ∧ t.queue = s.queue := by
  have failed : self.succeeds turn command = false := by simp [succeeds, untried]
  rw [handle_spec, failed, if_pos rfl, if_pos untried]
  exact ⟨_, rfl, rfl⟩

/-! ### Whole runs -/

variable {maxCommands : Option Nat} {turns : List (Turn ω)} {processed : Nat}

def taken (queue : InMemoryCommandQueue) (command : CommandEnvelope) (rest : List CommandEnvelope) :
    InMemoryCommandQueue :=
  { queue with
    pending := rest
    inflight := queue.inflight.upsert command
    calls := queue.calls ++ [.consumed command] }

theorem run_cases (turn : Turn ω) (turns : List (Turn ω)) (processed : Nat) (s : WorkerState ω) :
    (∃ pending, self.run maxCommands (turn :: turns) processed s =
        (.returned processed, { s with queue := { s.queue with pending } }) ∧
      schedule maxCommands (turn :: turns) processed s.queue.pending = []) ∨
    (self.run maxCommands (turn :: turns) processed s =
        self.run maxCommands turns processed { s with queue := { s.queue with pending := [] } } ∧
      schedule maxCommands (turn :: turns) processed s.queue.pending = schedule maxCommands turns processed []) ∨
    ∃ command rest,
      (∀ t, self.handle turn command { s with queue := taken s.queue command rest } = (.ok (), t) →
        self.run maxCommands (turn :: turns) processed s = self.run maxCommands turns (processed + 1) t) ∧
      (∀ e t, self.handle turn command { s with queue := taken s.queue command rest } = (.error e, t) →
        self.run maxCommands (turn :: turns) processed s = (.raised e, t)) ∧
      schedule maxCommands (turn :: turns) processed s.queue.pending =
        (command, turn) :: schedule maxCommands turns (processed + 1) rest := by
  rw [run, schedule]
  by_cases stops : (turn.stop || maxCommands.any (· ≤ processed)) = true
  · rw [if_pos stops, if_pos stops]
    exact Or.inl ⟨s.queue.pending, rfl, rfl⟩
  · rw [if_neg stops, if_neg stops]
    cases pending : s.queue.pending ++ turn.arrivals with
    | nil =>
      have consumed : (s.queue.enqueue turn.arrivals).consume = (none, { s.queue with pending := [] }) := by
        simp [InMemoryCommandQueue.enqueue, InMemoryCommandQueue.consume, pending]
      rw [consumed]
      dsimp only
      by_cases limited : maxCommands.isSome = true
      · rw [if_pos limited, if_pos limited]
        exact Or.inl ⟨[], rfl, rfl⟩
      · rw [if_neg limited, if_neg limited]
        exact Or.inr (Or.inl ⟨rfl, rfl⟩)
    | cons command rest =>
      have consumed : (s.queue.enqueue turn.arrivals).consume = (some command, taken s.queue command rest) := by
        simp [InMemoryCommandQueue.enqueue, InMemoryCommandQueue.consume, pending, taken]
      rw [consumed]
      dsimp only
      refine Or.inr (Or.inr ⟨command, rest, ?_, ?_, rfl⟩)
      · intro t handled
        rw [handled]
      · intro e t handled
        rw [handled]

theorem settled_inflight {queue later : InMemoryCommandQueue} {rest : List CommandEnvelope}
    (settled : later = (taken queue command rest).acknowledge command.commandId ∨
      ∃ reason, later = (taken queue command rest).deadLetter command reason) (id : Uuid) :
    later.inflight.get id = if id = command.commandId then none else queue.inflight.get id := by
  have inflight : later.inflight = (queue.inflight.upsert command).delete command.commandId := by
    rcases settled with rfl | ⟨reason, rfl⟩ <;> rfl
  rw [inflight, Keyed.get_delete]
  by_cases same : id = command.commandId
  · rw [if_pos same, if_pos same]
  · rw [if_neg same, if_neg same, Keyed.get_upsert_ne _ same]

structure SettlesAll (maxCommands : Option Nat) (turns : List (Turn ω)) (processed : Nat) (s : WorkerState ω) : Prop where
  settles : ∃ calls, (self.run maxCommands turns processed s).2.queue.calls = s.queue.calls ++ calls ∧
    Settles ((schedule maxCommands turns processed s.queue.pending).map Prod.fst) calls
  inflight : ∀ command turn, (command, turn) ∈ schedule maxCommands turns processed s.queue.pending →
    (self.run maxCommands turns processed s).2.queue.inflight.get command.commandId = none
  goesOn : ∀ e, (self.run maxCommands turns processed s).1 ≠ .raised e

theorem run_settles (settleable : ∀ command turn, (command, turn) ∈ schedule maxCommands turns processed s.queue.pending →
      self.Settleable s.session.isSome turn command) :
    self.SettlesAll maxCommands turns processed s ∧ ∀ id, s.queue.inflight.get id = none →
      (self.run maxCommands turns processed s).2.queue.inflight.get id = none := by
  induction turns generalizing processed s with
  | nil => exact ⟨⟨⟨[], by simp [run], .nil⟩, by simp [schedule], by simp [run]⟩, fun _ => id⟩
  | cons turn turns ih =>
    rcases @run_cases _ self maxCommands turn turns processed s with
      ⟨pending, ran, due⟩ | ⟨ran, due⟩ | ⟨command, rest, goes, _, due⟩
    · refine ⟨⟨?_, ?_, ?_⟩, ?_⟩
      · rw [ran, due]
        exact ⟨[], by simp, .nil⟩
      · simp [due]
      · simp [ran]
      · rw [ran]
        exact fun _ => id
    · rw [due] at settleable
      obtain ⟨⟨settles, inflight, goesOn⟩, kept⟩ :=
        ih (s := { s with queue := { s.queue with pending := [] } }) settleable
      refine ⟨⟨?_, ?_, ?_⟩, ?_⟩
      · rw [ran, due]
        exact settles
      · rw [ran, due]
        exact inflight
      · rw [ran]
        exact goesOn
      · rw [ran]
        exact kept
    · rw [due] at settleable
      have first := settleable command turn (List.mem_cons_self ..)
      obtain ⟨t, handled, session, settled⟩ :=
        self.handle_settles (s := { s with queue := taken s.queue command rest }) first
      have ran := goes t handled
      have queue : t.queue.pending = rest := by rcases settled with same | ⟨_, same⟩ <;> rw [same] <;> rfl
      obtain ⟨⟨⟨calls, appended, settles⟩, inflight, goesOn⟩, kept⟩ := @ih t (processed + 1) (by
        rw [queue, session]
        exact fun command turn member => settleable command turn (List.mem_cons_of_mem _ member))
      rw [queue] at settles inflight
      have own := settled_inflight settled
      refine ⟨⟨?_, ?_, ?_⟩, ?_⟩
      · rw [ran, due, List.map_cons]
        rcases settled with same | ⟨reason, same⟩
        · refine ⟨.consumed command :: .acknowledged command.commandId :: calls, ?_, .acknowledged settles⟩
          rw [appended, same]
          simp [InMemoryCommandQueue.acknowledge, taken]
        · refine ⟨.consumed command :: .deadLettered command reason :: calls, ?_, .deadLettered reason settles⟩
          rw [appended, same]
          simp [InMemoryCommandQueue.deadLetter, taken]
      · rw [ran, due]
        intro other turn' member
        rcases List.mem_cons.mp member with same | later
        · cases same
          exact kept _ (by rw [own, if_pos rfl])
        · exact inflight other turn' later
      · rw [ran]
        exact goesOn
      · rw [ran]
        intro id missing
        refine kept id ?_
        rw [own, missing, ite_self]

theorem commits_of_run (goesOn : ∀ e, (self.run maxCommands turns processed s).1 ≠ .raised e)
    (tried : 0 < self.maxAttempts) : ∀ command turn,
      (command, turn) ∈ schedule maxCommands turns processed s.queue.pending →
      self.Settleable s.session.isSome turn command := by
  induction turns generalizing processed s with
  | nil => simp [schedule]
  | cons turn turns ih =>
    rcases @run_cases _ self maxCommands turn turns processed s with
      ⟨pending, _, due⟩ | ⟨ran, due⟩ | ⟨command, rest, goes, raises, due⟩
    · simp [due]
    · rw [ran] at goesOn
      rw [due]
      exact ih (s := { s with queue := { s.queue with pending := [] } }) goesOn
    · have first : self.Settleable s.session.isSome turn command := by
        refine ⟨tried, fun session succeeded => ?_⟩
        by_contra fails
        obtain ⟨e, t, handled⟩ :=
          self.handle_raises (s := { s with queue := taken s.queue command rest }) session succeeded fails
        exact goesOn e (congrArg Prod.fst (raises e t handled))
      obtain ⟨t, handled, session, settled⟩ :=
        self.handle_settles (s := { s with queue := taken s.queue command rest }) first
      have queue : t.queue.pending = rest := by rcases settled with same | ⟨_, same⟩ <;> rw [same] <;> rfl
      rw [goes t handled] at goesOn
      have later := ih goesOn
      rw [queue, session] at later
      rw [due]
      intro other turn' member
      rcases List.mem_cons.mp member with same | member
      · cases same
        exact first
      · exact later other turn' member

theorem calls_of_untried (untried : self.maxAttempts = 0) :
    (self.run maxCommands turns processed s).2.queue.calls =
      s.queue.calls ++ (schedule maxCommands turns processed s.queue.pending).map fun x => .consumed x.1 := by
  induction turns generalizing processed s with
  | nil => simp [run, schedule]
  | cons turn turns ih =>
    rcases @run_cases _ self maxCommands turn turns processed s with
      ⟨pending, ran, due⟩ | ⟨ran, due⟩ | ⟨command, rest, goes, _, due⟩
    · simp [ran, due]
    · rw [ran, due]
      exact ih (s := { s with queue := { s.queue with pending := [] } })
    · obtain ⟨t, handled, queue⟩ :=
        @handle_untried _ self turn command { s with queue := taken s.queue command rest } untried
      rw [goes t handled, due, ih, queue]
      simp [taken]

/-- `run` settles every command it consumes exactly when each of them is tried
and the commit after a success returns. -/
theorem settlesAll_iff (maxCommands : Option Nat) (turns : List (Turn ω)) (s : WorkerState ω) :
    self.SettlesAll maxCommands turns 0 s ↔ ∀ command turn,
      (command, turn) ∈ schedule maxCommands turns 0 s.queue.pending →
        0 < self.maxAttempts ∧ (s.session.isSome = true → self.succeeds turn command = true → turn.commit = .returns) := by
  constructor
  · rintro ⟨⟨calls, appended, settles⟩, _, goesOn⟩ command turn member
    by_cases tried : 0 < self.maxAttempts
    · exact self.commits_of_run goesOn tried command turn member
    · rw [self.calls_of_untried (by omega), List.append_cancel_left_eq] at appended
      rw [← appended] at settles
      cases due : schedule maxCommands turns 0 s.queue.pending with
      | nil => simp [due] at member
      | cons first rest =>
        rw [due] at settles
        cases rest with
        | nil => cases settles
        | cons second rest => cases settles
  · intro settleable
    exact (self.run_settles settleable).1

/-- The handler returns, the commit raises: the run stops and the command stays in flight. -/
theorem failed_commit_leaves_inflight :
    let self : WorkerLoop := { registered := [.runWorkItem] }
    let command : CommandEnvelope := { commandId := .v5 "command", commandType := .runWorkItem, correlationId := .v5 "correlation" }
    let turn : Turn Unit := { arrivals := [command], commit := .raises false ⟨"OperationalError", "connection lost"⟩ }
    (self.run (some 1) [turn] 0 {}).2.queue.inflight.items = [command] ∧ ¬ self.SettlesAll (some 1) [turn] 0 {} := by
  intro self command turn
  refine ⟨by decide, ?_⟩
  rintro ⟨_, _, goesOn⟩
  exact goesOn _ rfl

/-! ### The loop of local development -/

/-- The loop of `run_command_loop` over the same dispatcher: it never tries again,
commits nothing and ends at an empty queue. -/
def runCommandLoop (maxCommands : Option Nat) : List (Turn ω) → Nat → InMemoryCommandQueue → Progress × InMemoryCommandQueue
  | [], processed, queue => (.running processed, queue)
  | turn :: turns, processed, queue =>
    if maxCommands.any (· ≤ processed) then (.returned processed, queue)
    else
      match (queue.enqueue turn.arrivals).consume with
      | (none, queue) => (.returned processed, queue)
      | (some command, queue) =>
        match (self.dispatch command (turn.attempts 1)).2 with
        | none => runCommandLoop maxCommands turns (processed + 1) (queue.acknowledge command.commandId)
        | some e => runCommandLoop maxCommands turns (processed + 1) (queue.deadLetter command e.message)

/-- The commands are taken in the order of their arrival, each is settled before the
next and counted, and only the limit or an empty queue stops the loop. -/
structure SettlesInOrder (maxCommands : Option Nat) (turns : List (Turn ω)) (processed : Nat) (queue : InMemoryCommandQueue)
    (ran : Progress × InMemoryCommandQueue) (commands : List CommandEnvelope) : Prop where
  arrived : ∃ heard ≤ turns.length, commands ++ ran.2.pending = queue.pending ++ (turns.take heard).flatMap Turn.arrivals
  settles : ∃ calls, ran.2.calls = queue.calls ++ calls ∧ Settles commands calls
  inflight : ∀ id, ran.2.inflight.get id = if id ∈ commands.map CommandEnvelope.commandId then none else queue.inflight.get id
  stops : ran.1 = .running (processed + commands.length) ∧ commands.length = turns.length ∨
    ran.1 = .returned (processed + commands.length) ∧
      (maxCommands.any (· ≤ processed + commands.length) = true ∨ ran.2.pending = [])

variable {queue settled : InMemoryCommandQueue} {ran : Progress × InMemoryCommandQueue}

theorem SettlesInOrder.next {commands rest : List CommandEnvelope} (arrived : queue.pending ++ turn.arrivals = command :: rest)
    (settles : settled = (taken queue command rest).acknowledge command.commandId ∨
      ∃ reason, settled = (taken queue command rest).deadLetter command reason)
    (onward : SettlesInOrder maxCommands turns (processed + 1) settled ran commands) :
    SettlesInOrder maxCommands (turn :: turns) processed queue ran (command :: commands) := by
  obtain ⟨⟨heard, within, pending⟩, ⟨calls, appended, inTurn⟩, inflight, stops⟩ := onward
  refine ⟨⟨heard + 1, Nat.succ_le_succ within, ?_⟩, ?_, fun id => ?_, ?_⟩
  · have left : settled.pending = rest := by rcases settles with rfl | ⟨_, rfl⟩ <;> rfl
    rw [List.take_succ_cons, List.flatMap_cons, ← List.append_assoc, arrived, List.cons_append, pending, left, List.cons_append]
  · rcases settles with rfl | ⟨reason, rfl⟩
    · exact ⟨_, by simp [appended, taken, InMemoryCommandQueue.acknowledge], .acknowledged inTurn⟩
    · exact ⟨_, by simp [appended, taken, InMemoryCommandQueue.deadLetter], .deadLettered reason inTurn⟩
  · rw [inflight, settled_inflight settles]
    by_cases same : id = command.commandId <;> simp [same]
  · have count : processed + (command :: commands).length = processed + 1 + commands.length := by
      rw [List.length_cons, Nat.add_assoc, Nat.add_comm 1]
    rw [count]
    exact stops.imp_left fun running => ⟨running.1, congrArg Nat.succ running.2⟩

/-- Whatever the handlers raise, no command is lost, handled twice or left in flight. -/
theorem runCommandLoop_settles (self : WorkerLoop) (maxCommands : Option Nat) (turns : List (Turn ω)) (processed : Nat)
    (queue : InMemoryCommandQueue) :
    ∃ commands, SettlesInOrder maxCommands turns processed queue
      (self.runCommandLoop maxCommands turns processed queue) commands := by
  induction turns generalizing processed queue with
  | nil => exact ⟨[], ⟨0, Nat.le_refl _, (List.append_nil _).symm⟩, ⟨[], (List.append_nil _).symm, .nil⟩, fun _ => rfl,
      Or.inl ⟨rfl, rfl⟩⟩
  | cons turn turns ih =>
    rw [runCommandLoop]
    split
    · rename_i full
      exact ⟨[], ⟨0, Nat.zero_le _, (List.append_nil _).symm⟩, ⟨[], (List.append_nil _).symm, .nil⟩, fun _ => rfl,
        Or.inr ⟨rfl, Or.inl full⟩⟩
    cases arrived : queue.pending ++ turn.arrivals with
    | nil =>
      simp only [InMemoryCommandQueue.enqueue, InMemoryCommandQueue.consume, arrived]
      exact ⟨[], ⟨1, by simp, by simp [arrived]⟩, ⟨[], by simp, .nil⟩, by simp, Or.inr ⟨rfl, Or.inr rfl⟩⟩
    | cons command rest =>
      have consumed : (queue.enqueue turn.arrivals).consume = (some command, taken queue command rest) := by
        simp [InMemoryCommandQueue.enqueue, InMemoryCommandQueue.consume, arrived, taken]
      rw [consumed]
      dsimp only
      cases (self.dispatch command (turn.attempts 1)).2 with
      | none =>
        obtain ⟨commands, onward⟩ := ih (processed + 1) ((taken queue command rest).acknowledge command.commandId)
        exact ⟨_, onward.next arrived (Or.inl rfl)⟩
      | some e =>
        obtain ⟨commands, onward⟩ := ih (processed + 1) ((taken queue command rest).deadLetter command e.message)
        exact ⟨_, onward.next arrived (Or.inr ⟨_, rfl⟩)⟩

end WorkerLoop
end Brain
