import Brain.Application.Events

namespace Brain

namespace ProcessStage
variable {H : Type}

/-- No handler of the delivery completed and none will: the call has not passed
its check, was skipped, or its first handler raised. -/
def Untouched (all : List H) : ProcessStage H → Prop
  | .isProcessed | .finished .skippedAlreadyProcessed => True
  | .raised handler rest _ => handler :: rest = all
  | _ => False

/-- The handlers of the delivery that did not complete. -/
def remaining (all : List H) : ProcessStage H → List H
  | .isProcessed | .publish | .finished .skippedAlreadyProcessed => all
  | .handle handler rest | .raised handler rest _ => handler :: rest
  | .append | .markProcessed | .finished .processed => []

def hasLogged : ProcessStage H → Bool
  | .markProcessed | .finished .processed => true
  | _ => false

end ProcessStage

open IncomingEventProcessor in
/-- The moves of a call whose envelope has the key `key`. -/
inductive Delivers {H : Type} (bus : Subscriptions H) (envelope : DictEnvelope) (key : String) (s : EventStores H) :
    ProcessStage H → ProcessStage H → EventStores H → Prop
  | skips (known : key ∈ s.processed) :
      Delivers bus envelope key s .isProcessed (.finished .skippedAlreadyProcessed) s
  | begins (unknown : key ∉ s.processed) : Delivers bus envelope key s .isProcessed .publish s
  | publishes : Delivers bus envelope key s .publish (awaitHandlers (bus.handlers envelope.eventType))
      { s with published := s.published ++ [envelope] }
  | completes (handler : H) (rest : List H) : Delivers bus envelope key s (.handle handler rest) (awaitHandlers rest)
      { s with completed := s.completed ++ [(envelope, handler)] }
  | fails (handler : H) (rest : List H) (exception : PyException) :
      Delivers bus envelope key s (.handle handler rest) (.raised handler rest exception) s
  | appends : Delivers bus envelope key s .append .markProcessed { s with eventLog := s.eventLog ++ [envelope] }
  | marks : Delivers bus envelope key s .markProcessed (.finished .processed)
      { s with processed := s.processed ++ [key] }

namespace IncomingEventProcessor
variable {H : Type} {bus : Subscriptions H} {envelope : DictEnvelope} {key : String} {answer : ProcessAnswer}
  {stage stage' : ProcessStage H} {s s' : EventStores H}

theorem resume_delivers (keyed : envelope.idempotencyKey = some key)
    (taken : resume bus envelope answer stage s = some (stage', s')) : Delivers bus envelope key s stage stage' s' := by
  cases answer with
  | done =>
    cases stage with
    | isProcessed =>
      simp only [resume, keyed] at taken
      by_cases known : key ∈ s.processed
      · rw [if_pos known] at taken
        cases taken
        exact .skips known
      · rw [if_neg known] at taken
        cases taken
        exact .begins known
    | publish => cases taken; exact .publishes
    | handle handler rest => cases taken; exact .completes handler rest
    | append =>
      simp only [resume, keyed] at taken
      cases taken
      exact .appends
    | markProcessed =>
      simp only [resume, keyed] at taken
      cases taken
      exact .marks
    | finished outcome => cases taken
    | raised handler rest exception => cases taken
  | raises exception =>
    cases stage with
    | handle handler rest => cases taken; exact .fails handler rest exception
    | _ => cases taken

theorem resume_frame (other : envelope.idempotencyKey ≠ some key)
    (taken : resume bus envelope answer stage s = some (stage', s')) :
    s'.completions key = s.completions key ∧ s'.logged key = s.logged key ∧
      (key ∈ s'.processed ↔ key ∈ s.processed) := by
  have same : s.completions key = s.completions key ∧ s.logged key = s.logged key ∧
      (key ∈ s.processed ↔ key ∈ s.processed) := ⟨rfl, rfl, Iff.rfl⟩
  cases answer with
  | done =>
    cases stage with
    | isProcessed =>
      simp only [resume] at taken
      split at taken <;> cases taken <;> exact same
    | publish => cases taken; exact same
    | handle handler rest =>
      cases taken
      refine ⟨?_, rfl, Iff.rfl⟩
      simp [EventStores.completions, other]
    | append =>
      simp only [resume] at taken
      have logged : (s.eventLog ++ [envelope]).filter (fun e => e.idempotencyKey = some key) = s.logged key := by
        simp [EventStores.logged, other]
      split at taken <;> cases taken <;> exact ⟨rfl, logged, Iff.rfl⟩
    | markProcessed =>
      simp only [resume] at taken
      cases keyed : envelope.idempotencyKey with
      | none =>
        simp only [keyed] at taken
        cases taken
      | some mine =>
        simp only [keyed] at taken
        cases taken
        have different : key ≠ mine := by
          rintro rfl
          exact other keyed
        exact ⟨rfl, rfl, by simp [different]⟩
    | finished outcome => cases taken
    | raised handler rest exception => cases taken
  | raises exception =>
    cases stage with
    | handle handler rest => cases taken; exact same
    | _ => cases taken

end IncomingEventProcessor

namespace EventStores
variable {H : Type} {s : EventStores H} {envelope : DictEnvelope} {key : String}

theorem completions_snoc (keyed : envelope.idempotencyKey = some key) (handler : H) :
    completions { s with completed := s.completed ++ [(envelope, handler)] } key = s.completions key ++ [handler] := by
  simp [completions, keyed]

theorem logged_snoc (keyed : envelope.idempotencyKey = some key) :
    logged { s with eventLog := s.eventLog ++ [envelope] } key = s.logged key ++ [envelope] := by
  simp [logged, keyed]

end EventStores

namespace ProcessTasks
variable {ι H : Type} {bus : Subscriptions H} {envelopes : ι → DictEnvelope} {tasks tasks' : ProcessTasks ι H}
  {key : String}

/-- The handlers subscribed to the event of call `i`. -/
def handlersOf (bus : Subscriptions H) (envelopes : ι → DictEnvelope) (i : ι) : List H :=
  bus.handlers (envelopes i).eventType

/-- Call `j` is the delivery of the key: what completed and what remains are its
handlers, and its log entry and its mark are the only ones. -/
structure Held (bus : Subscriptions H) (envelopes : ι → DictEnvelope) (key : String) (tasks : ProcessTasks ι H)
    (j : ι) : Prop where
  keyed : (envelopes j).idempotencyKey = some key
  touched : ¬ (tasks.state j).Untouched (handlersOf bus envelopes j)
  others : ∀ i, i ≠ j → (envelopes i).idempotencyKey = some key →
    (tasks.state i).Untouched (handlersOf bus envelopes i)
  handlers : tasks.shared.completions key ++ (tasks.state j).remaining (handlersOf bus envelopes j) =
    handlersOf bus envelopes j
  logged : tasks.shared.logged key = if (tasks.state j).hasLogged then [envelopes j] else []
  marked : key ∈ tasks.shared.processed ↔ tasks.state j = .finished .processed

/-- No delivery of the key has touched anything. -/
structure Fresh (bus : Subscriptions H) (envelopes : ι → DictEnvelope) (key : String) (tasks : ProcessTasks ι H) :
    Prop where
  untouched : ∀ i, (envelopes i).idempotencyKey = some key → (tasks.state i).Untouched (handlersOf bus envelopes i)
  handlers : tasks.shared.completions key = []
  logged : tasks.shared.logged key = []
  unmarked : key ∉ tasks.shared.processed

/-- A key is delivered by at most one call, and calls are skipped once it is marked. -/
structure OneDelivery (bus : Subscriptions H) (envelopes : ι → DictEnvelope) (key : String)
    (tasks : ProcessTasks ι H) : Prop where
  skipped : ∀ i, (envelopes i).idempotencyKey = some key →
    tasks.state i = .finished .skippedAlreadyProcessed → key ∈ tasks.shared.processed
  delivery : Fresh bus envelopes key tasks ∨ ∃ j, Held bus envelopes key tasks j

/-- A call passes its check only when no other call with its key is between its
check and its mark, and none failed after one of its handlers completed. -/
def Alone (bus : Subscriptions H) (envelopes : ι → DictEnvelope) (tasks : ProcessTasks ι H)
    (turn : ι × ProcessAnswer) : Prop :=
  tasks.state turn.1 = .isProcessed → ∀ key, (envelopes turn.1).idempotencyKey = some key →
    key ∉ tasks.shared.processed → ∀ j, (envelopes j).idempotencyKey = some key →
      (tasks.state j).Untouched (handlersOf bus envelopes j)

theorem start_fresh : Fresh bus envelopes key (start envelopes) where
  untouched := by
    intro i keyed
    simp [start, IncomingEventProcessor.start, keyed, ProcessStage.Untouched]
  handlers := rfl
  logged := rfl
  unmarked := List.not_mem_nil

theorem start_oneDelivery : OneDelivery bus envelopes key (start envelopes) where
  skipped := by
    intro i keyed skipped
    simp [start, IncomingEventProcessor.start, keyed] at skipped
  delivery := Or.inl start_fresh

variable [DecidableEq ι] {i : ι} {next : ProcessStage H} {shared : EventStores H}

theorem OneDelivery.frame (one : OneDelivery bus envelopes key tasks)
    (other : (envelopes i).idempotencyKey ≠ some key) (completions : shared.completions key = tasks.shared.completions key)
    (logged : shared.logged key = tasks.shared.logged key)
    (processed : key ∈ shared.processed ↔ key ∈ tasks.shared.processed) :
    OneDelivery bus envelopes key (tasks.move i next shared) := by
  have state : ∀ k, (envelopes k).idempotencyKey = some key → (tasks.move i next shared).state k = tasks.state k := by
    intro k keyed
    refine Tasks.state_move_other ?_
    rintro rfl
    exact other keyed
  refine ⟨?_, ?_⟩
  · intro k keyed skipped
    rw [state k keyed] at skipped
    exact processed.mpr (one.skipped k keyed skipped)
  · rcases one.delivery with fresh | ⟨j, held⟩
    · refine Or.inl ⟨?_, completions.trans fresh.handlers, logged.trans fresh.logged, fun marked => ?_⟩
      · intro k keyed
        rw [state k keyed]
        exact fresh.untouched k keyed
      · exact fresh.unmarked (processed.mp marked)
    · refine Or.inr ⟨j, held.keyed, ?_, ?_, ?_, ?_, ?_⟩
      · rw [state j held.keyed]
        exact held.touched
      · intro k different keyed
        rw [state k keyed]
        exact held.others k different keyed
      · rw [state j held.keyed, Tasks.shared_move, completions]
        exact held.handlers
      · rw [state j held.keyed, Tasks.shared_move, logged]
        exact held.logged
      · rw [state j held.keyed, Tasks.shared_move, processed]
        exact held.marked

theorem Held.goesOn (held : Held bus envelopes key tasks i)
    (touched : ¬ next.Untouched (handlersOf bus envelopes i))
    (handlers : shared.completions key ++ next.remaining (handlersOf bus envelopes i) = handlersOf bus envelopes i)
    (logged : shared.logged key = if next.hasLogged then [envelopes i] else [])
    (marked : key ∈ shared.processed ↔ next = .finished .processed) :
    Held bus envelopes key (tasks.move i next shared) i where
  keyed := held.keyed
  touched := by rwa [Tasks.state_move_self]
  others := by
    intro k different keyed
    rw [Tasks.state_move_other different]
    exact held.others k different keyed
  handlers := by rwa [Tasks.state_move_self]
  logged := by rwa [Tasks.state_move_self]
  marked := by rwa [Tasks.state_move_self]

theorem Held.otherTurn {j : ι} (held : Held bus envelopes key tasks j) (different : j ≠ i)
    (untouched : next.Untouched (handlersOf bus envelopes i)) :
    Held bus envelopes key (tasks.move i next tasks.shared) j where
  keyed := held.keyed
  touched := by
    rw [Tasks.state_move_other different]
    exact held.touched
  others := by
    intro k other keyed
    by_cases moved : k = i
    · rw [moved, Tasks.state_move_self]
      exact untouched
    · rw [Tasks.state_move_other moved]
      exact held.others k other keyed
  handlers := by
    rw [Tasks.state_move_other different]
    exact held.handlers
  logged := by
    rw [Tasks.state_move_other different]
    exact held.logged
  marked := by
    rw [Tasks.state_move_other different]
    exact held.marked

omit [DecidableEq ι] in
theorem OneDelivery.held (one : OneDelivery bus envelopes key tasks) (keyed : (envelopes i).idempotencyKey = some key)
    (touched : ¬ (tasks.state i).Untouched (handlersOf bus envelopes i)) : Held bus envelopes key tasks i := by
  rcases one.delivery with fresh | ⟨j, held⟩
  · exact absurd (fresh.untouched i keyed) touched
  · by_cases same : i = j
    · rw [same]
      exact held
    · exact absurd (held.others i same keyed) touched

theorem OneDelivery.skipped_move (one : OneDelivery bus envelopes key tasks)
    (mine : next = .finished .skippedAlreadyProcessed → key ∈ shared.processed)
    (grows : key ∈ tasks.shared.processed → key ∈ shared.processed) (k : ι)
    (keyed : (envelopes k).idempotencyKey = some key)
    (skipped : (tasks.move i next shared).state k = .finished .skippedAlreadyProcessed) :
    key ∈ (tasks.move i next shared).shared.processed := by
  by_cases moved : k = i
  · rw [moved, Tasks.state_move_self] at skipped
    exact mine skipped
  · rw [Tasks.state_move_other moved] at skipped
    exact grows (one.skipped k keyed skipped)

section Handlers
omit [DecidableEq ι]

theorem awaitHandlers_touched (all rest : List H) :
    ¬ (IncomingEventProcessor.awaitHandlers rest).Untouched all := by
  cases rest <;> exact id

theorem awaitHandlers_remaining (all rest : List H) :
    (IncomingEventProcessor.awaitHandlers rest).remaining all = rest := by
  cases rest <;> rfl

theorem awaitHandlers_hasLogged (rest : List H) : (IncomingEventProcessor.awaitHandlers rest).hasLogged = false := by
  cases rest <;> rfl

end Handlers

theorem Held.handles (held : Held bus envelopes key tasks i) (unlogged : (tasks.state i).hasLogged = false)
    (touched : ¬ next.Untouched (handlersOf bus envelopes i)) (unlogged' : next.hasLogged = false)
    (handlers : shared.completions key ++ next.remaining (handlersOf bus envelopes i) = handlersOf bus envelopes i)
    (logged : shared.logged key = tasks.shared.logged key) (processed : shared.processed = tasks.shared.processed) :
    Held bus envelopes key (tasks.move i next shared) i := by
  refine held.goesOn touched handlers ?_ ?_
  · rw [logged, held.logged, unlogged, unlogged']
  · rw [processed, held.marked]
    constructor
    · intro finished
      rw [finished] at unlogged
      cases unlogged
    · rintro rfl
      cases unlogged'

theorem OneDelivery.skips (one : OneDelivery bus envelopes key tasks) (waiting : tasks.state i = .isProcessed)
    (known : key ∈ tasks.shared.processed) :
    OneDelivery bus envelopes key (tasks.move i (.finished .skippedAlreadyProcessed) tasks.shared) := by
  refine ⟨one.skipped_move (fun _ => known) id, ?_⟩
  rcases one.delivery with fresh | ⟨j, held⟩
  · exact absurd known fresh.unmarked
  · have different : j ≠ i := by
      rintro rfl
      exact held.touched (by rw [waiting]; trivial)
    exact Or.inr ⟨j, held.otherTurn different trivial⟩

theorem OneDelivery.begins (one : OneDelivery bus envelopes key tasks)
    (keyed : (envelopes i).idempotencyKey = some key)
    (alone : ∀ j, (envelopes j).idempotencyKey = some key → (tasks.state j).Untouched (handlersOf bus envelopes j)) :
    OneDelivery bus envelopes key (tasks.move i .publish tasks.shared) := by
  refine ⟨one.skipped_move (fun skips => by cases skips) id, ?_⟩
  rcases one.delivery with fresh | ⟨j, held⟩
  · refine Or.inr ⟨i, keyed, ?_, ?_, ?_, ?_, ?_⟩
    · rw [Tasks.state_move_self]
      exact id
    · intro k different keyed
      rw [Tasks.state_move_other different]
      exact fresh.untouched k keyed
    · rw [Tasks.state_move_self, Tasks.shared_move, fresh.handlers]
      rfl
    · rw [Tasks.state_move_self, Tasks.shared_move, fresh.logged]
      rfl
    · rw [Tasks.state_move_self, Tasks.shared_move]
      exact ⟨fun marked => absurd marked fresh.unmarked, fun finished => by cases finished⟩
  · exact absurd (alone j held.keyed) held.touched

theorem Held.failsEarly (held : Held bus envelopes key tasks i) {handler : H} {rest : List H} {exception : PyException}
    (handling : tasks.state i = .handle handler rest) (early : handler :: rest = handlersOf bus envelopes i) :
    Fresh bus envelopes key (tasks.move i (.raised handler rest exception) tasks.shared) where
  untouched := by
    intro k keyed
    by_cases moved : k = i
    · rw [moved, Tasks.state_move_self]
      exact early
    · rw [Tasks.state_move_other moved]
      exact held.others k moved keyed
  handlers := by
    have split := held.handlers
    rw [handling, ProcessStage.remaining, early] at split
    exact List.append_left_eq_self.mp split
  logged := by
    have logged := held.logged
    rw [handling] at logged
    exact logged
  unmarked := by
    intro marked
    have finished := held.marked.mp marked
    rw [handling] at finished
    cases finished

theorem OneDelivery.awaits (one : OneDelivery bus envelopes key tasks) (held : Held bus envelopes key tasks i)
    {rest : List H} (unlogged : (tasks.state i).hasLogged = false)
    (handlers : shared.completions key ++ rest = handlersOf bus envelopes i)
    (logged : shared.logged key = tasks.shared.logged key) (processed : shared.processed = tasks.shared.processed) :
    OneDelivery bus envelopes key (tasks.move i (IncomingEventProcessor.awaitHandlers rest) shared) := by
  have touched := awaitHandlers_touched (handlersOf bus envelopes i) rest
  refine ⟨one.skipped_move ?_ ?_, Or.inr ⟨i, held.handles unlogged touched (awaitHandlers_hasLogged rest) ?_ logged processed⟩⟩
  · intro skips
    exact absurd (by rw [skips]; trivial) touched
  · rw [processed]
    exact id
  · rw [awaitHandlers_remaining]
    exact handlers

theorem OneDelivery.turn (one : OneDelivery bus envelopes key tasks)
    {answer : ProcessAnswer} (keyed : (envelopes i).idempotencyKey = some key)
    (alone : Alone bus envelopes tasks (i, answer))
    (delivers : Delivers bus (envelopes i) key tasks.shared (tasks.state i) next shared) :
    OneDelivery bus envelopes key (tasks.move i next shared) := by
  generalize here : tasks.state i = stage at delivers
  have held (touched : ¬ stage.Untouched (handlersOf bus envelopes i)) : Held bus envelopes key tasks i :=
    one.held keyed (by rwa [here])
  cases delivers with
  | skips known => exact one.skips here known
  | begins unknown => exact one.begins keyed (alone here key keyed unknown)
  | publishes =>
    have held := held id
    have split := held.handlers
    rw [here] at split
    exact one.awaits held (by rw [here]; rfl) split rfl rfl
  | completes handler rest =>
    have held := held id
    have split := held.handlers
    rw [here] at split
    refine one.awaits held (by rw [here]; rfl) ?_ rfl rfl
    rw [EventStores.completions_snoc keyed, List.append_assoc]
    exact split
  | fails handler rest exception =>
    have held := held id
    have split := held.handlers
    rw [here] at split
    refine ⟨one.skipped_move (fun skips => by cases skips) id, ?_⟩
    by_cases early : handler :: rest = handlersOf bus envelopes i
    · exact Or.inl (held.failsEarly here early)
    · exact Or.inr ⟨i, held.handles (by rw [here]; rfl) early rfl split rfl rfl⟩
  | appends =>
    have held := held id
    have split := held.handlers
    have logged := held.logged
    have marked := held.marked
    rw [here] at split logged marked
    refine ⟨one.skipped_move (fun skips => by cases skips) id, Or.inr ⟨i, held.goesOn id split ?_ ?_⟩⟩
    · rw [EventStores.logged_snoc keyed, logged]
      rfl
    · rw [marked]
      constructor
      · intro finished
        cases finished
      · intro finished
        cases finished
  | marks =>
    have held := held id
    have split := held.handlers
    have logged := held.logged
    rw [here] at split logged
    refine ⟨one.skipped_move (fun skips => by cases skips) (List.mem_append_left _), Or.inr ⟨i, held.goesOn id split logged ?_⟩⟩
    exact ⟨fun _ => rfl, fun _ => List.mem_append_right _ (List.mem_singleton_self key)⟩

theorem oneDelivery_step (key : String) (tasks : ProcessTasks ι H) (turn : ι × ProcessAnswer) (tasks' : ProcessTasks ι H)
    (one : OneDelivery bus envelopes key tasks) (alone : Alone bus envelopes tasks turn)
    (taken : step envelopes bus tasks turn = some tasks') : OneDelivery bus envelopes key tasks' := by
  obtain ⟨i, answer⟩ := turn
  obtain ⟨next, shared, moved, rfl⟩ := Tasks.turn_eq_some.mp taken
  by_cases keyed : (envelopes i).idempotencyKey = some key
  · exact one.turn keyed alone (IncomingEventProcessor.resume_delivers keyed moved)
  · obtain ⟨completions, logged, processed⟩ := IncomingEventProcessor.resume_frame keyed moved
    exact one.frame keyed completions logged processed

omit [DecidableEq ι] in
theorem OneDelivery.nodup (one : OneDelivery bus envelopes key tasks) : (tasks.shared.completions key).Nodup := by
  rcases one.delivery with fresh | ⟨j, held⟩
  · rw [fresh.handlers]
    exact List.nodup_nil
  · have nodup : (handlersOf bus envelopes j).Nodup := bus.nodup _
    rw [← held.handlers] at nodup
    exact (List.nodup_append.mp nodup).1

omit [DecidableEq ι] in
theorem OneDelivery.delivered (one : OneDelivery bus envelopes key tasks)
    (some_ : ∃ i, (envelopes i).idempotencyKey = some key)
    (returned : ∀ i, (envelopes i).idempotencyKey = some key → ∃ outcome, tasks.state i = .finished outcome) :
    ∃ j, (envelopes j).idempotencyKey = some key ∧ tasks.shared.completions key = handlersOf bus envelopes j ∧
      tasks.shared.logged key = [envelopes j] := by
  obtain ⟨i, keyed⟩ := some_
  rcases one.delivery with fresh | ⟨j, held⟩
  · obtain ⟨outcome, finished⟩ := returned i keyed
    cases outcome with
    | processed =>
      have untouched := fresh.untouched i keyed
      rw [finished] at untouched
      exact absurd untouched id
    | skippedAlreadyProcessed => exact absurd (one.skipped i keyed finished) fresh.unmarked
  · obtain ⟨outcome, finished⟩ := returned j held.keyed
    cases outcome with
    | processed =>
      have split := held.handlers
      have logged := held.logged
      rw [finished] at split logged
      exact ⟨j, held.keyed, (List.append_nil _).symm.trans split, logged⟩
    | skippedAlreadyProcessed =>
      have touched := held.touched
      rw [finished] at touched
      exact absurd trivial touched

structure ExactlyOnce (bus : Subscriptions H) (envelopes : ι → DictEnvelope) (key : String)
    (tasks : ProcessTasks ι H) : Prop where
  /-- Each handler completes at most once for the events with the key. -/
  atMostOnce : (tasks.shared.completions key).Nodup
  /-- When no handler raises, the handlers of its event complete exactly once, and it is logged once. -/
  once : (∃ i, (envelopes i).idempotencyKey = some key) →
    (∀ i, (envelopes i).idempotencyKey = some key → ∃ outcome, tasks.state i = .finished outcome) →
    ∃ j, (envelopes j).idempotencyKey = some key ∧ tasks.shared.completions key = handlersOf bus envelopes j ∧
      tasks.shared.logged key = [envelopes j]

/-- Runs in which no delivery of a key starts beside another one, or after one
that failed halfway, handle every key exactly once. -/
theorem exactly_once (bus : Subscriptions H) (envelopes : ι → DictEnvelope) (turns : List (ι × ProcessAnswer))
    (alone : Runs.Along (step envelopes bus) (Alone bus envelopes) turns (start envelopes)) :
    Runs.Throughout (step envelopes bus) (fun tasks => ∀ key, ExactlyOnce bus envelopes key tasks) turns
      (start envelopes) := by
  have kept := alone.throughout (I := fun tasks => ∀ key, OneDelivery bus envelopes key tasks)
    (fun tasks turn tasks' one alone taken key => oneDelivery_step key tasks turn tasks' (one key) alone taken)
    (fun _ => start_oneDelivery)
  refine kept.mono ?_
  intro tasks one key
  exact ⟨(one key).nodup, (one key).delivered⟩

def twoHandlers : Subscriptions Bool where
  handlers _ := [false, true]
  nodup _ := by decide

/-- Two deliveries of one event. -/
def redelivered (second : Bool) : DictEnvelope :=
  { eventId := .v4 (if second then 2 else 1), eventType := .projectChanged, correlationId := .v4 0, source := "s"
    idempotencyKey := some "k" }

def deliveredByCall (second : Bool) : List (Bool × ProcessAnswer) := List.replicate 6 (second, .done)

theorem exactly_once_redelivered :
    Runs.Throughout (step redelivered twoHandlers) (fun tasks => ∀ key, ExactlyOnce twoHandlers redelivered key tasks)
      (deliveredByCall false ++ [(true, .done)]) (start redelivered) := by
  refine exactly_once twoHandlers redelivered _ ?_
  refine .cons rfl ?_ (.cons rfl nofun (.cons rfl nofun (.cons rfl nofun (.cons rfl nofun (.cons rfl nofun
    (.cons rfl ?_ trivial))))))
  · intro _ key _ _ j _
    cases j <;> trivial
  · intro _ key keyed unknown
    cases keyed
    exact absurd (by decide) unknown

/-- Two deliveries that overlap run the handlers twice and log the event twice;
a redelivery after the second handler raised runs the first one again. -/
theorem handlers_complete_twice :
    (∃ tasks, Runs.after (step redelivered twoHandlers)
        ([(false, .done), (true, .done)] ++ List.replicate 5 (false, .done) ++ List.replicate 5 (true, .done))
        (start redelivered) = some tasks ∧
      tasks.shared.completions "k" = [false, true, false, true] ∧
      tasks.shared.logged "k" = [redelivered false, redelivered true] ∧
      ¬ ExactlyOnce twoHandlers redelivered "k" tasks) ∧
    ∃ tasks, Runs.after (step redelivered twoHandlers)
        ([(false, .done), (false, .done), (false, .done), (false, .raises ⟨"ValueError", ""⟩)] ++ deliveredByCall true)
        (start redelivered) = some tasks ∧
      tasks.shared.completions "k" = [false, false, true] ∧ ¬ ExactlyOnce twoHandlers redelivered "k" tasks := by
  refine ⟨⟨_, rfl, by decide, rfl, ?_⟩, _, rfl, by decide, ?_⟩
  · intro once
    exact absurd once.atMostOnce (by decide)
  · intro once
    exact absurd once.atMostOnce (by decide)

end ProcessTasks

end Brain
