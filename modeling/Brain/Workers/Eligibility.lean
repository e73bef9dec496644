import Brain.Lib.Attempts
import Brain.Workers.Durability

namespace Brain.WorkerLoop
variable {ω : Type} (self : WorkerLoop) {turn : Turn ω} {command : CommandEnvelope} {s : WorkerState ω}

/-- The calls of `process_command` that the retry loop makes. -/
def attempted (turn : Turn ω) (command : CommandEnvelope) : Nat → Nat → WorkerState ω → List Nat
  | 0, _, _ => []
  | left + 1, attempt, s =>
    attempt :: match self.processCommand command attempt (turn.attempts attempt) s with
      | (.ok _, _) => []
      | (.error _, s) => if self.maxAttempts ≤ attempt then [] else attempted turn command left (attempt + 1) s

theorem attempted_eq (left attempt : Nat) (all : attempt + left = self.maxAttempts + 1) :
    self.attempted turn command left attempt s = upTo (self.returns turn command) left attempt := by
  induction left generalizing attempt s with
  | zero => rfl
  | succ left ih =>
    obtain ⟨r, processed, isOk⟩ := @processCommand_writes _ self turn command s attempt
    rw [attempted, upTo, processed]
    cases r with
    | ok =>
      rw [isOk.mpr rfl]
      rfl
    | error e =>
      have failed : self.returns turn command attempt = false := by
        cases returned : self.returns turn command attempt with
        | false => rfl
        | true => cases isOk.mp returned
      rw [failed, if_neg Bool.false_ne_true]
      by_cases last : self.maxAttempts ≤ attempt
      · have none : left = 0 := by omega
        subst none
        simp [last, upTo]
      · simp [last, ih (attempt + 1) (by omega)]

/-! ### What the retries should be -/

/-- The attempt ended with an exception that `classify_failure` does not let retry. -/
def ineligible (turn : Turn ω) (command : CommandEnvelope) (attempt : Nat) : Bool :=
  (self.dispatch command (turn.attempts attempt)).2.any fun e => !(classifyFailure e).2

/-- The attempt after which the worker has to stop: the least that succeeds or may
not be retried, or else the last one. -/
def dueAttempts (turn : Turn ω) (command : CommandEnvelope) : Nat :=
  ((List.range' 1 self.maxAttempts).find? fun n => self.returns turn command n || self.ineligible turn command n).getD
    self.maxAttempts

/-- The record that a failed attempt calls for. -/
def failureOf (turn : Turn ω) (command : CommandEnvelope) (attempt : Nat) : List (Write ω) :=
  match (self.dispatch command (turn.attempts attempt)).2 with
  | none => []
  | some e => [.failure (commandFailure command attempt e)]

/-- The worker stops where it has to, the failed attempts are recorded, and the
command is dead-lettered when none succeeded. -/
structure HonoursEligibility (turn : Turn ω) (command : CommandEnvelope) (s : WorkerState ω) : Prop where
  attempts : self.attempted turn command self.maxAttempts 1 s = List.range' 1 (self.dueAttempts turn command)
  failures : (self.attempted turn command self.maxAttempts 1 s).flatMap (self.recorded turn command) =
    (List.range' 1 (self.dueAttempts turn command)).flatMap (self.failureOf turn command)
  deadLettered : (∃ reason, (self.handle turn command s).2.queue = s.queue.deadLetter command reason) ↔
    ∀ attempt ∈ self.attempted turn command self.maxAttempts 1 s, self.returns turn command attempt = false

/-- The failure record of the attempt is stored. -/
def Saves (turn : Turn ω) (attempt : Nat) : Prop :=
  ∀ e, (turn.attempts attempt).save ≠ .raises false e

theorem due_range : List.range' 1 (self.dueAttempts turn command) =
    upTo (fun n => self.returns turn command n || self.ineligible turn command n) self.maxAttempts 1 := by
  rw [upTo_eq_range, dueAttempts]
  cases (List.range' 1 self.maxAttempts).find? fun n => self.returns turn command n || self.ineligible turn command n <;> rfl

theorem recorded_eq_iff {attempt : Nat} (failed : self.returns turn command attempt = false) :
    self.recorded turn command attempt = self.failureOf turn command attempt ↔ Saves turn attempt := by
  unfold returns at failed
  unfold recorded failureOf Saves
  cases raised : (self.dispatch command (turn.attempts attempt)).2 with
  | none => simp [raised] at failed
  | some e =>
    cases save : (turn.attempts attempt).save with
    | returns => simp
    | raises tookEffect e' => cases tookEffect <;> simp

theorem recorded_sublist (attempt : Nat) :
    List.Sublist (self.recorded turn command attempt) (self.failureOf turn command attempt) := by
  unfold recorded failureOf
  cases (self.dispatch command (turn.attempts attempt)).2 with
  | none => exact List.Sublist.refl _
  | some e =>
    cases (turn.attempts attempt).save with
    | returns => exact List.Sublist.refl _
    | raises tookEffect e' => cases tookEffect <;> simp

theorem commitIfNeeded_queue (commit : Calls.Outcome PyException) : (commitIfNeeded commit s).2.queue = s.queue := by
  unfold commitIfNeeded
  cases s.session with
  | none => rfl
  | some session => cases commit <;> rfl

theorem deadLettered_iff : (∃ reason, (self.handle turn command s).2.queue = s.queue.deadLetter command reason) ↔
    0 < self.maxAttempts ∧ self.succeeds turn command = false := by
  have longer : ∀ reason, s.queue ≠ s.queue.deadLetter command reason := by
    intro reason same
    have calls := congrArg (List.length ∘ InMemoryCommandQueue.calls) same
    simp [InMemoryCommandQueue.deadLetter] at calls
  rw [handle_spec]
  cases succeeded : self.succeeds turn command with
  | false =>
    rw [if_pos rfl]
    by_cases none : self.maxAttempts = 0
    · simp [none, longer]
    · simp only [none, if_false, and_true]
      exact ⟨fun _ => by omega, fun _ => ⟨_, rfl⟩⟩
  | true =>
    rw [if_neg (by simp)]
    simp only [Bool.true_eq_false, and_false, iff_false, not_exists]
    intro reason same
    have kept := @commitIfNeeded_queue _ (s.write (self.writtenFor turn command)) turn.commit
    generalize commitIfNeeded turn.commit (s.write (self.writtenFor turn command)) = committed at same kept
    obtain ⟨_ | _, t⟩ := committed
    · exact longer reason (kept.symm.trans same)
    · have calls := congrArg InMemoryCommandQueue.calls same
      simp [InMemoryCommandQueue.acknowledge, InMemoryCommandQueue.deadLetter] at calls

theorem succeeds_eq_false : self.succeeds turn command = false ↔
    ∀ n ∈ upTo (self.returns turn command) self.maxAttempts 1, self.returns turn command n = false := by
  unfold succeeds
  rw [List.any_eq_false]
  constructor
  · intro none n made
    obtain ⟨low, high, _⟩ := mem_upTo.mp made
    simpa using none n (List.mem_range'_1.mpr ⟨low, high⟩)
  · intro none n inRange
    obtain ⟨low, high⟩ := List.mem_range'_1.mp inRange
    induction n using Nat.strong_induction_on with
    | _ n ih =>
      have before : ∀ m, 1 ≤ m → m < n → self.returns turn command m = false := fun m from' earlier => by
        simpa using ih m earlier (List.mem_range'_1.mpr ⟨from', by omega⟩) from' (by omega)
      simpa using none n (mem_upTo.mpr ⟨low, high, before⟩)

/-- The accounting is right exactly when there is an attempt, no failed attempt but the
last possible one was ineligible for a retry, and every failure was stored. -/
theorem honoursEligibility_iff (turn : Turn ω) (command : CommandEnvelope) (s : WorkerState ω) :
    self.HonoursEligibility turn command s ↔ 0 < self.maxAttempts ∧
      ∀ n, 1 ≤ n → n ≤ self.maxAttempts → (∀ m, 1 ≤ m → m < n → self.returns turn command m = false) →
        self.returns turn command n = false → (n < self.maxAttempts → self.ineligible turn command n = false) ∧ Saves turn n := by
  have made := @attempted_eq _ self turn command s self.maxAttempts 1 (by omega)
  have stops := @upTo_eq_upTo (self.returns turn command)
    (fun n => self.returns turn command n || self.ineligible turn command n) self.maxAttempts 1 (by simp +contextual)
  have stored : (upTo (self.returns turn command) self.maxAttempts 1).flatMap (self.recorded turn command) =
      (upTo (self.returns turn command) self.maxAttempts 1).flatMap (self.failureOf turn command) ↔
      ∀ n ∈ upTo (self.returns turn command) self.maxAttempts 1, self.recorded turn command n = self.failureOf turn command n := by
    rw [eq_comm, flatMap_eq_iff_of_sublist fun n _ => self.recorded_sublist n]
    exact forall₂_congr fun _ _ => eq_comm
  constructor
  · rintro ⟨attempts, failures, deadLettered⟩
    rw [made, due_range] at attempts failures
    rw [made, deadLettered_iff, succeeds_eq_false] at deadLettered
    rw [← attempts] at failures
    refine ⟨?_, fun n low high before failed => ?_⟩
    · by_contra none
      have zero : self.maxAttempts = 0 := by omega
      exact none (deadLettered.mpr (by simp [zero, upTo])).1
    · have member : n ∈ upTo (self.returns turn command) self.maxAttempts 1 := mem_upTo.mpr ⟨low, by omega, before⟩
      refine ⟨fun further => ?_, (self.recorded_eq_iff failed).mp (stored.mp failures n member)⟩
      by_contra retried
      have last := stops.mp attempts n member (by simpa [failed] using retried) failed
      omega
  · rintro ⟨some', honest⟩
    have each : ∀ n ∈ upTo (self.returns turn command) self.maxAttempts 1, self.returns turn command n = false →
        (n < self.maxAttempts → self.ineligible turn command n = false) ∧ Saves turn n := by
      intro n member
      obtain ⟨low, high, before⟩ := mem_upTo.mp member
      exact honest n low (by omega) before
    have attempts : upTo (self.returns turn command) self.maxAttempts 1 = List.range' 1 (self.dueAttempts turn command) := by
      rw [due_range]
      refine stops.mpr fun n member stopped failed => ?_
      by_contra early
      obtain ⟨_, high, _⟩ := mem_upTo.mp member
      have eligible := (each n member failed).1 (by omega)
      simp [failed, eligible] at stopped
    refine ⟨made.trans attempts, ?_, ?_⟩
    · rw [made, ← attempts]
      refine stored.mpr fun n member => ?_
      cases returned : self.returns turn command n with
      | false => exact (self.recorded_eq_iff returned).mpr (each n member returned).2
      | true =>
        unfold returns at returned
        simp only [recorded, failureOf, Option.isNone_iff_eq_none.mp returned]
    · rw [made, deadLettered_iff, succeeds_eq_false]
      exact and_iff_right some'

def invalidTitle : Turn Unit where
  attempts _ := { raises := some ⟨"ValueError", "invalid title"⟩ }

/-- The worker retries twice what it classifies as not eligible for a retry. -/
theorem invalid_retried :
    let self : WorkerLoop := { registered := [.runWorkItem] }
    let command : CommandEnvelope := { commandId := .v5 "command", commandType := .runWorkItem, correlationId := .v5 "correlation" }
    (classifyFailure ⟨"ValueError", "invalid title"⟩).2 = false ∧ self.dueAttempts invalidTitle command = 1 ∧
      self.attempted invalidTitle command self.maxAttempts 1 {} = [1, 2, 3] ∧ ¬ self.HonoursEligibility invalidTitle command {} := by
  intro self command
  have once : self.dueAttempts invalidTitle command = 1 := by decide
  have thrice : self.attempted invalidTitle command self.maxAttempts 1 {} = [1, 2, 3] := by decide
  refine ⟨by decide, once, thrice, ?_⟩
  rintro ⟨same, _, _⟩
  rw [once, thrice] at same
  cases same

end Brain.WorkerLoop
