import Brain.Workflow.Bounds

namespace Brain
open Calls

/-- A stage may be entered after the result `last`: a pull request needs a good
one, and a bad one leads to a retry, to a human or to the failure. -/
def Allowed (last : Option ExecutionResult) (stage : WorkflowStage) : Prop :=
  (stage = .createPr → last.any (·.status.isGood) = true) ∧
    (last.any (!·.status.isGood) = true → stage ∈ [WorkflowStage.verify, .retry, .execute, .human, .failed])

instance (last : Option ExecutionResult) (stage : WorkflowStage) : Decidable (Allowed last stage) :=
  inferInstanceAs (Decidable (_ ∧ _))

def lastResult : Option ExecutionResult → List WorkflowEvent → Option ExecutionResult
  | last, [] => last
  | _, .executed _ _ result :: rest => lastResult (some result) rest
  | last, .saved _ :: rest => lastResult last rest

/-- Every saved stage is allowed by the last result before it. -/
def Guarded : Option ExecutionResult → List WorkflowEvent → Prop
  | _, [] => True
  | _, .executed _ _ result :: rest => Guarded (some result) rest
  | last, .saved s :: rest => Allowed last s.stage ∧ Guarded last rest

def decideGuarded : (last : Option ExecutionResult) → (events : List WorkflowEvent) → Decidable (Guarded last events)
  | _, [] => inferInstanceAs (Decidable True)
  | _, .executed _ _ result :: rest => decideGuarded (some result) rest
  | last, .saved s :: rest =>
    have := decideGuarded last rest
    inferInstanceAs (Decidable (Allowed last s.stage ∧ Guarded last rest))

instance (last : Option ExecutionResult) (events : List WorkflowEvent) : Decidable (Guarded last events) :=
  decideGuarded last events

theorem lastResult_append (last : Option ExecutionResult) (before after : List WorkflowEvent) :
    lastResult last (before ++ after) = lastResult (lastResult last before) after := by
  induction before generalizing last with
  | nil => rfl
  | cons event rest ih => cases event <;> exact ih _

theorem guarded_append (last : Option ExecutionResult) (before after : List WorkflowEvent) :
    Guarded last (before ++ after) ↔ Guarded last before ∧ Guarded (lastResult last before) after := by
  induction before generalizing last with
  | nil => simp [Guarded, lastResult]
  | cons event rest ih =>
    cases event with
    | executed => exact ih _
    | saved s => simp only [List.cons_append, Guarded, lastResult, ih, and_assoc]

theorem allowed_good {last : Option ExecutionResult} {stage : WorkflowStage}
    (good : last.any (·.status.isGood) = true) : Allowed last stage := by
  refine ⟨fun _ => good, fun bad => ?_⟩
  obtain ⟨result, rfl⟩ : ∃ result, last = some result := Option.isSome_iff_exists.mp (by cases last <;> simp_all)
  simp_all

theorem allowed_listed {last : Option ExecutionResult} {stage : WorkflowStage}
    (listed : stage ∈ [WorkflowStage.verify, .retry, .execute, .human, .failed]) : Allowed last stage := by
  refine ⟨fun isPr => ?_, fun _ => listed⟩
  rw [isPr] at listed
  exact absurd listed (by decide)

/-- The executor is called at `execute` only. -/
def ranAt (s : WorkflowState) (result : ExecutionResult) (last : Option ExecutionResult) : Option ExecutionResult :=
  if s.stage = .execute then some result else last

theorem Ran.guarded {answers : Nat → ExecutionStatus} {s : WorkflowState} {w : WorkflowWorld} {result : ExecutionResult}
    {ran : List WorkflowEvent} (recorded : Ran answers s w result ran) (last : Option ExecutionResult) :
    Guarded last ran ∧ lastResult last ran = ranAt s result last := by
  unfold Ran at recorded
  unfold ranAt
  by_cases atExecute : s.stage = .execute
  · rw [if_pos atExecute] at recorded ⊢
    obtain ⟨_, request, rfl⟩ := recorded
    exact ⟨trivial, rfl⟩
  · rw [if_neg atExecute] at recorded ⊢
    rw [recorded]
    exact ⟨trivial, rfl⟩

theorem guarded_saves (s : WorkflowState) (closing : Bool) (last : Option ExecutionResult) :
    (Guarded last (.saved s :: (if closing then [.saved s.closed] else [])) ↔ Allowed last s.stage) ∧
      lastResult last (.saved s :: (if closing then [.saved s.closed] else [])) = last := by
  cases closing with
  | true => exact ⟨⟨fun guarded => guarded.1, fun allowed => ⟨allowed, allowed, trivial⟩⟩, rfl⟩
  | false => exact ⟨⟨fun guarded => guarded.1, fun allowed => ⟨allowed, trivial⟩⟩, rfl⟩

theorem Turned.guarded {answers : Nat → ExecutionStatus} {s s' : WorkflowState} {t u : WorkflowWorld} {last : Bool}
    (turned : Turned answers s t s' last u) : ∃ added, u.events = t.events ++ added ∧
    (s.atEnd ∧ last = true ∧ (∀ earlier, Guarded earlier added ↔ Allowed earlier s.stage) ∨
      ¬ s.atEnd ∧ ∃ result, (s.stage = .execute → result.status = answers t.visits.length) ∧
        (if last then (s.next result).isFinal else s' = s.next result ∧ ¬ s'.isFinal) ∧
        ∀ earlier, (Guarded earlier added ↔ Allowed (ranAt s result earlier) (s.next result).stage) ∧
          lastResult earlier added = ranAt s result earlier) := by
  obtain ⟨added, adds, ⟨atEnd, isLast, rfl⟩ | ⟨before, result, ran, recorded, rfl, went⟩⟩ := turned.events
  · refine ⟨_, adds, Or.inl ⟨atEnd, isLast, fun earlier => ?_⟩⟩
    exact ⟨fun guarded => guarded.1, fun allowed => ⟨allowed, trivial⟩⟩
  · refine ⟨_, adds, Or.inr ⟨before, result, fun stage => ?_, went, fun earlier => ?_⟩⟩
    · unfold Ran at recorded
      rw [if_pos stage] at recorded
      exact recorded.1
    · obtain ⟨guarded, result⟩ := recorded.guarded earlier
      rw [guarded_append, lastResult_append, result, (guarded_saves _ _ _).1, (guarded_saves _ _ _).2]
      exact ⟨⟨fun both => both.2, fun allowed => ⟨guarded, allowed⟩⟩, rfl⟩

namespace WorkflowState
variable {answers : Nat → ExecutionStatus} {s : WorkflowState} {result : ExecutionResult}
  {last : Option ExecutionResult} {calls : Nat}

/-- A bad answer to the call `calls` will be noticed after it. -/
def notices (answers : Nat → ExecutionStatus) (calls : Nat) (s : WorkflowState) : Prop :=
  hasError s = true ∨ s.maxRetries ≤ s.retryCount ∨ (answers calls).isGood = true

/-- Where a run can be that only enters allowed stages. -/
def Sound (answers : Nat → ExecutionStatus) (last : Option ExecutionResult) (calls : Nat) (s : WorkflowState) : Prop :=
  match s.stage with
  | .intake | .understand | .buildContext | .routeExecutor => last = none ∧ s.notices answers calls
  | .execute => s.notices answers calls
  | .verify => last.any (·.status.isGood) = true ∨ hasError s = true ∨ s.maxRetries ≤ s.retryCount
  | .retry => hasError s = true
  | .createPr | .updateBrain => last.any (·.status.isGood) = true
  | .human => True
  | .complete | .failed => False

theorem next_sound (before : ¬ s.atEnd) (sound : Sound answers last calls s)
    (answered : s.stage = .execute → result.status = answers calls) :
    Allowed (ranAt s result last) (s.next result).stage ∧ (¬ (s.next result).isFinal →
      Sound answers (ranAt s result last) (if s.stage = .execute then calls + 1 else calls) (s.next result)) := by
  unfold ranAt
  refine next_cases (P := fun t => Allowed (if s.stage = .execute then some result else last) t.stage ∧ (¬ t.isFinal →
    Sound answers (if s.stage = .execute then some result else last) (if s.stage = .execute then calls + 1 else calls) t))
    before ?_ ?_ ?_ ?_ ?_ ?_
  · intro stage _
    exact ⟨allowed_listed (by simp), fun _ => trivial⟩
  · intro stage more
    simp only [stage, reduceCtorEq, if_false]
    unfold Sound at sound
    rw [stage] at sound
    cases error : hasError s with
    | true => exact ⟨allowed_listed (by simp), fun _ => error⟩
    | false =>
      rcases sound with good | wrong | spent
      · exact ⟨allowed_good good, fun _ => good⟩
      · rw [error] at wrong
        cases wrong
      · exact absurd spent more
  · intro stage _
    unfold Sound at sound
    rw [stage] at sound
    exact ⟨allowed_listed (by simp), fun _ => Or.inl sound⟩
  · intro _ _
    exact ⟨allowed_listed (by simp), fun further => absurd (Or.inr rfl) further⟩
  · intro stage
    simp only [stage, if_true]
    refine ⟨allowed_listed (by simp), fun _ => ?_⟩
    unfold Sound at sound ⊢
    rw [stage] at sound
    dsimp only
    cases good : result.status.isGood with
    | true => exact Or.inl (by simp [good])
    | false =>
      refine Or.inr ?_
      rcases sound with error | spent | answer
      · exact Or.inl error
      · exact Or.inr spent
      · rw [← answered stage, good] at answer
        cases answer
  · intro stage edge
    unfold Sound at sound
    simp only [List.mem_cons, Prod.mk.injEq, List.not_mem_nil, or_false] at edge
    rcases edge with ⟨source, rfl⟩ | ⟨source, rfl⟩ | ⟨source, rfl⟩ | ⟨source, rfl⟩ | ⟨source, rfl⟩ | ⟨source, rfl⟩
    · rw [source] at sound ⊢
      exact ⟨by simp [Allowed, sound.1], fun _ => sound⟩
    · rw [source] at sound ⊢
      exact ⟨by simp [Allowed, sound.1], fun _ => sound⟩
    · rw [source] at sound ⊢
      exact ⟨by simp [Allowed, sound.1], fun _ => sound⟩
    · rw [source] at sound ⊢
      exact ⟨allowed_listed (by simp), fun _ => sound.2⟩
    · rw [source] at sound ⊢
      exact ⟨allowed_good sound, fun _ => sound⟩
    · rw [source] at sound ⊢
      exact ⟨allowed_good sound, fun further => absurd (Or.inl rfl) further⟩

/-- Where a run can be that will enter `createPr` after a bad result. -/
def Doomed (answers : Nat → ExecutionStatus) (last : Option ExecutionResult) (calls : Nat) (s : WorkflowState) : Prop :=
  s.status = .running ∧ hasError s = false ∧ s.retryCount < s.maxRetries ∧
    (s.isEarly = true ∧ (answers calls).isGood = false ∨ s.stage = .verify ∧ last.any (!·.status.isGood) = true)

theorem Doomed.before (doomed : Doomed answers last calls s) : ¬ s.atEnd := by
  obtain ⟨_, _, _, ⟨early, _⟩ | ⟨stage, _⟩⟩ := doomed
  · rintro (stage | stage | stage) <;> simp [isEarly, stage] at early
  · simp [atEnd, stage]

theorem next_doomed (doomed : Doomed answers last calls s)
    (answered : s.stage = .execute → result.status = answers calls) :
    ¬ Allowed (ranAt s result last) (s.next result).stage ∨ ¬ (s.next result).isFinal ∧
      Doomed answers (ranAt s result last) (if s.stage = .execute then calls + 1 else calls) (s.next result) := by
  have before := doomed.before
  obtain ⟨running, clear, more, place⟩ := doomed
  unfold ranAt
  refine next_cases (P := fun t => ¬ Allowed (if s.stage = .execute then some result else last) t.stage ∨ ¬ t.isFinal ∧
    Doomed answers (if s.stage = .execute then some result else last) (if s.stage = .execute then calls + 1 else calls) t)
    before ?_ ?_ ?_ ?_ ?_ ?_
  · intro _ spent
    omega
  · intro stage _
    refine Or.inl ?_
    rcases place with ⟨early, _⟩ | ⟨_, bad⟩
    · simp [isEarly, stage] at early
    · intro allowed
      have listed := allowed.2 (by simpa [stage] using bad)
      simp [clear] at listed
  · intro stage _
    simp [isEarly, stage] at place
  · intro stage _
    simp [isEarly, stage] at place
  · intro stage
    simp only [stage, if_true]
    refine Or.inr ⟨by simp, running, ?_, more, Or.inr ⟨rfl, ?_⟩⟩
    · rcases place with ⟨_, bad⟩ | ⟨other, _⟩
      · have status := answered stage
        simp [hasError, status, bad]
        simpa [hasError] using clear
      · rw [stage] at other
        cases other
    · rcases place with ⟨_, bad⟩ | ⟨other, _⟩
      · simp [answered stage, bad]
      · rw [stage] at other
        cases other
  · intro stage edge
    simp only [List.mem_cons, Prod.mk.injEq, List.not_mem_nil, or_false] at edge
    refine Or.inr ?_
    have bad : s.isEarly = true → (answers calls).isGood = false := by
      intro early
      rcases place with ⟨_, bad⟩ | ⟨other, _⟩
      · exact bad
      · simp [isEarly, other] at early
    rcases edge with ⟨source, rfl⟩ | ⟨source, rfl⟩ | ⟨source, rfl⟩ | ⟨source, rfl⟩ | ⟨source, rfl⟩ | ⟨source, rfl⟩
    · rw [source]
      exact ⟨by simp, running, clear, more, Or.inl ⟨by simp [isEarly], bad (by simp [isEarly, source])⟩⟩
    · rw [source]
      exact ⟨by simp, running, clear, more, Or.inl ⟨by simp [isEarly], bad (by simp [isEarly, source])⟩⟩
    · rw [source]
      exact ⟨by simp, running, clear, more, Or.inl ⟨by simp [isEarly], bad (by simp [isEarly, source])⟩⟩
    · rw [source]
      exact ⟨by simp, running, clear, more, Or.inl ⟨by simp [isEarly], bad (by simp [isEarly, source])⟩⟩
    · simp [isEarly, source] at place
    · simp [isEarly, source] at place

end WorkflowState

namespace WorkflowEngine
variable {answers : Nat → ExecutionStatus} {hasPullRequests : Bool} {o : WorkflowOutside} {s : WorkflowState}
  {w : WorkflowWorld}

/-- A bad execution cannot reach `createPr`: nothing runs at all, the state has
an error already, no retry is left, or the first answer is good. -/
def Guards (answers : Nat → ExecutionStatus) (s : WorkflowState) (w : WorkflowWorld) : Prop :=
  s.status ≠ .running ∨ s.notices answers w.visits.length

/-- The events since `w` have the property `P`, together with the calls and the state. -/
def Recorded (w : WorkflowWorld) (P : List WorkflowEvent → Nat → WorkflowState → Prop) (s : WorkflowState)
    (t : WorkflowWorld) : Prop := ∃ events, t.events = w.events ++ events ∧ P events t.visits.length s

theorem Recorded.start {P : List WorkflowEvent → Nat → WorkflowState → Prop} (holds : P [] w.visits.length s) :
    Recorded w P s w := ⟨[], by simp, holds⟩

theorem Recorded.newEvents {P : List WorkflowEvent → Nat → WorkflowState → Prop} {t : WorkflowWorld}
    (recorded : Recorded w P s t) : P (t.events.drop w.events.length) t.visits.length s := by
  obtain ⟨events, split, property⟩ := recorded
  rw [split, List.drop_left]
  exact property

theorem resume_guarded (found : w.checkpoints.get s.workflowId = some s) (clean : o.Clean)
    (available : (w.select true true).isSome = true) (early : s.isEarly = true)
    (guards : Guards answers s w) : Returns o ((main answers hasPullRequests).resume s.workflowId) w
      (fun _ t => Guarded none (t.events.drop w.events.length)) := by
  refine resume_returns found clean available
    (Recorded w fun events calls s => Guarded none events ∧
      (s.status = .running → s.Sound answers (lastResult none events) calls))
    (fun _ t => Guarded none (t.events.drop w.events.length)) ?_ ?_ ?_
  · refine Recorded.start ⟨trivial, fun running => ?_⟩
    have notices := guards.resolve_left fun ended => ended running
    unfold WorkflowState.Sound
    cases stage : s.stage <;> simp [WorkflowState.isEarly, stage] at early
    · exact ⟨rfl, notices⟩
    · exact ⟨rfl, notices⟩
    · exact ⟨rfl, notices⟩
    · exact ⟨rfl, notices⟩
    · exact notices
  · rintro s t ⟨events, split, guarded, sound⟩ running s' last u turned
    have sound := sound running
    obtain ⟨added, adds, ⟨atEnd, rfl, ended⟩ | ⟨before, result, answered, more, moves⟩⟩ := turned.guarded
    · have human : s.stage = .human := by
        unfold WorkflowState.Sound at sound
        rcases atEnd with stage | stage | stage
        · exact stage
        · rw [stage] at sound
          exact sound.elim
        · rw [stage] at sound
          exact sound.elim
      rw [if_pos rfl, adds, split, List.append_assoc, List.drop_left, guarded_append, ended]
      exact ⟨guarded, allowed_listed (by simp [human])⟩
    · obtain ⟨allowed, further⟩ := WorkflowState.next_sound before sound answered
      obtain ⟨addedGuarded, addedLast⟩ := moves (lastResult none events)
      have kept : Guarded none (events ++ added) := (guarded_append _ _ _).mpr ⟨guarded, addedGuarded.mpr allowed⟩
      cases last with
      | true =>
        rw [if_pos rfl, adds, split, List.append_assoc, List.drop_left]
        exact kept
      | false =>
        obtain ⟨rfl, notFinal⟩ := more
        refine ⟨events ++ added, by rw [adds, split, List.append_assoc], kept, fun _ => ?_⟩
        rw [lastResult_append, addedLast, turned.visits]
        exact further notFinal
  · intro s t recorded _
    exact recorded.newEvents.1

theorem resume_unguarded (found : w.checkpoints.get s.workflowId = some s) (clean : o.Clean)
    (available : (w.select true true).isSome = true) (early : s.isEarly = true)
    (unguarded : ¬ Guards answers s w) : Returns o ((main answers hasPullRequests).resume s.workflowId) w
      (fun _ t => ¬ Guarded none (t.events.drop w.events.length)) := by
  simp only [Guards, WorkflowState.notices, not_or, not_not, Bool.not_eq_true, Int.not_le] at unguarded
  obtain ⟨running, clear, more, bad⟩ := unguarded
  refine resume_returns found clean available
    (Recorded w fun events calls s => s.Doomed answers (lastResult none events) calls ∨ ¬ Guarded none events)
    (fun _ t => ¬ Guarded none (t.events.drop w.events.length)) ?_ ?_ ?_
  · exact Recorded.start (Or.inl ⟨running, clear, more, Or.inl ⟨early, bad⟩⟩)
  · rintro s t ⟨events, split, place⟩ _ s' last u turned
    obtain ⟨added, adds, did⟩ := turned.guarded
    have later : ¬ Guarded none (events ++ added) ∨ ∃ result, last = false ∧ s' = s.next result ∧
        s'.Doomed answers (lastResult none (events ++ added)) u.visits.length := by
      rcases place with doomed | already
      · rcases did with ⟨atEnd, _⟩ | ⟨before, result, answered, more, moves⟩
        · exact absurd atEnd doomed.before
        · obtain ⟨addedGuarded, addedLast⟩ := moves (lastResult none events)
          rcases WorkflowState.next_doomed doomed answered with broken | ⟨notFinal, doomed⟩
          · exact Or.inl fun guarded => broken (addedGuarded.mp ((guarded_append _ _ _).mp guarded).2)
          · cases last with
            | true => exact absurd more notFinal
            | false =>
              obtain ⟨rfl, _⟩ := more
              refine Or.inr ⟨result, rfl, rfl, ?_⟩
              rw [lastResult_append, addedLast, turned.visits]
              exact doomed
      · exact Or.inl fun guarded => already ((guarded_append _ _ _).mp guarded).1
    cases last with
    | true =>
      rcases later with broken | ⟨_, more, _⟩
      · rw [if_pos rfl, adds, split, List.append_assoc, List.drop_left]
        exact broken
      · cases more
    | false =>
      refine ⟨events ++ added, by rw [adds, split, List.append_assoc], ?_⟩
      rcases later with broken | ⟨_, _, _, doomed⟩
      · exact Or.inr broken
      · exact Or.inl doomed
  · intro s t recorded ended
    rcases recorded.newEvents with doomed | broken
    · exact absurd doomed.1 ended
    · exact broken

/-- From a stage up to `execute`, a run enters allowed stages only if and only if
a bad first answer will be noticed: only an error that was there before leads
from `verify` to `retry`. -/
theorem resume_guarded_iff (answers : Nat → ExecutionStatus) (hasPullRequests : Bool) (w : WorkflowWorld)
    (s : WorkflowState) (found : w.checkpoints.get s.workflowId = some s) (clean : o.Clean)
    (available : (w.select true true).isSome = true) (early : s.isEarly = true) :
    Returns o ((main answers hasPullRequests).resume s.workflowId) w
      (fun _ t => Guarded none (t.events.drop w.events.length) ↔ Guards answers s w) := by
  by_cases guards : Guards answers s w
  · refine (resume_guarded found clean available early guards).mono ?_
    intro r t reached
    cases r with
    | ok _ => exact iff_of_true reached guards
    | error _ => exact reached
  · refine (resume_unguarded found clean available early guards).mono ?_
    intro r t reached
    cases r with
    | ok _ => exact iff_of_false reached guards
    | error _ => exact reached

/-- A new workflow whose executor always fails. -/
theorem resume_guarded_iff_failing :
    Returns Outside.clean ((main (fun _ => .failed) false).resume newWorkflow.workflowId) (worldWith newWorkflow)
      (fun _ t => Guarded none (t.events.drop (worldWith newWorkflow).events.length) ↔
        Guards (fun _ => .failed) newWorkflow (worldWith newWorkflow)) := by
  have clean : (Outside.clean : WorkflowOutside).Clean := Outside.clean_clean
  generalize Outside.clean = o at clean ⊢
  exact resume_guarded_iff (fun _ => .failed) false (worldWith newWorkflow) newWorkflow
    (worldWith_checkpoint newWorkflow) clean (worldWith_available newWorkflow) rfl

/-- Its one failed execution is followed by a pull request. -/
theorem failed_execution_passes : ¬ Guarded none
    ((main (fun _ => .failed) false).resume newWorkflow.workflowId Outside.clean 0 (worldWith newWorkflow)).store.events := by
  decide +kernel

end WorkflowEngine

end Brain
