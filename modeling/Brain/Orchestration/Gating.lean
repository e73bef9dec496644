import Brain.Orchestration.EngineeringWorkflow

namespace Brain

/-- The status does not make `execute` return the stage "retry". -/
def ExecutorResult.notFailed (result : ExecutorResult) : Prop :=
  result.status.value ∉ ["failed", "blocked", "cancelled"]

def lastExecution (events : List EngineeringEvent) : Option ExecutorResult :=
  events.reverse.findSome? fun
    | .executed _ result => some result
    | _ => none

def lastVerification (events : List EngineeringEvent) : Option (List String × VerificationVerdict) :=
  events.reverse.findSome? fun
    | .verified _ _ changedFiles verdict => some (changedFiles, verdict)
    | _ => none

structure PullRequestGated (autoCreatePr : Bool) (c : EngineeringConfig) : Prop where
  createdOnce : c.world.events.countP EngineeringEvent.isCreate ≤ 1
  created : ∀ before event after, c.world.events = before ++ event :: after → event.isCreate = true →
    autoCreatePr = true ∧ .loadFailed ∉ before ∧ ∃ result, lastExecution before = some result ∧ result.notFailed ∧
      lastVerification before = some (result.modifiedFiles, .pass)
  publishedOnce : c.ran.count .publishObservation ≤ 1
  updatedOnce : c.ran.count .updateBrain ≤ 1

namespace EngineeringState

def remaining (state : EngineeringState) : Nat := if state.waitingForHuman then 0 else (3 - state.retryCount).toNat

/-- The number of verifications of a run in which none passes. -/
def verificationLimit (initial : EngineeringState) : Nat := 1 + initial.remaining

end EngineeringState

namespace EngineeringContainer
variable {container : EngineeringContainer} {state : EngineeringState} {w : EngineeringWorld}
variable (initial : EngineeringState) {node following : EngineeringNode}

/-! ### What a node does to the retries and the verifications -/

/-- Retries are left as they are, and nothing was verified or created. -/
structure Keeps (state : EngineeringState) (w : EngineeringWorld) (r : EngineeringState × EngineeringWorld) : Prop where
  retryCount : r.1.retryCount = state.retryCount
  waitingForHuman : r.1.waitingForHuman = state.waitingForHuman
  verifications : r.2.verifications = w.verifications
  creates : r.2.events.countP EngineeringEvent.isCreate = w.events.countP EngineeringEvent.isCreate

@[simp] theorem verifications_record (event : EngineeringEvent) :
    (w.record event).verifications = w.verifications + if event.isVerified then 1 else 0 := by
  simp [EngineeringWorld.verifications, EngineeringWorld.record, List.countP_append, List.countP_singleton]

@[simp] theorem creates_record (event : EngineeringEvent) :
    (w.record event).events.countP EngineeringEvent.isCreate =
      w.events.countP EngineeringEvent.isCreate + if event.isCreate then 1 else 0 := by
  simp [EngineeringWorld.record, List.countP_append, List.countP_singleton]

@[simp] theorem verifications_drawUuid : w.drawUuid.2.verifications = w.verifications := rfl

@[simp] theorem events_drawUuid : w.drawUuid.2.events = w.events := rfl

theorem loadWorkItem_keeps : Keeps state w (container.loadWorkItem state w) := by
  unfold loadWorkItem
  split
  · constructor <;> simp [EngineeringEvent.isVerified, EngineeringEvent.isCreate]
  · dsimp only
    split
    · constructor <;> simp [EngineeringEvent.isVerified, EngineeringEvent.isCreate]
    · constructor <;> simp [EngineeringEvent.isVerified, EngineeringEvent.isCreate]

theorem analyzeImplementation_keeps : Keeps state w (container.analyzeImplementation state w) := by
  unfold analyzeImplementation
  constructor <;> simp [EngineeringEvent.isVerified, EngineeringEvent.isCreate]

theorem createObservation_keeps : Keeps state w (createObservation state w) := by
  unfold createObservation
  dsimp only
  split
  · exact ⟨rfl, rfl, rfl, rfl⟩
  · constructor <;> simp [EngineeringEvent.isVerified, EngineeringEvent.isCreate]

theorem buildContext_keeps : Keeps state w (buildContext state w) := by
  unfold buildContext
  constructor <;> simp [EngineeringEvent.isVerified, EngineeringEvent.isCreate]

theorem execute_keeps : Keeps state w (container.execute state w) := by
  unfold execute
  dsimp only
  split
  · constructor <;> simp [EngineeringEvent.isVerified, EngineeringEvent.isCreate]
  · constructor <;> simp [EngineeringEvent.isVerified, EngineeringEvent.isCreate]

/-- The edges up to the first verification, each the only one of its node. -/
inductive Follows : EngineeringNode → EngineeringNode → Prop
  | understand : Follows .loadWorkItem .understand
  | analyze : Follows .understand .analyze
  | createObservation : Follows .analyze .createObservation
  | buildContext : Follows .createObservation .buildContext
  | execute : Follows .buildContext .execute
  | verify : Follows .execute .verify

variable (container state w) in
theorem follows_keeps (follows : Follows node following) :
    Keeps state w (container.runNode node state w) ∧ ∀ returned, next node returned = [following] := by
  cases follows with
  | understand => exact ⟨loadWorkItem_keeps, fun _ => rfl⟩
  | analyze => exact ⟨⟨rfl, rfl, rfl, rfl⟩, fun _ => rfl⟩
  | createObservation => exact ⟨analyzeImplementation_keeps, fun _ => rfl⟩
  | buildContext => exact ⟨createObservation_keeps, fun _ => rfl⟩
  | execute => exact ⟨buildContext_keeps, fun _ => rfl⟩
  | verify => exact ⟨execute_keeps, fun _ => rfl⟩

theorem Follows.goes_on (follows : Follows node following) :
    following = .verify ∨ ∃ further, Follows following further := by
  cases follows with
  | understand => exact Or.inr ⟨_, .analyze⟩
  | analyze => exact Or.inr ⟨_, .createObservation⟩
  | createObservation => exact Or.inr ⟨_, .buildContext⟩
  | buildContext => exact Or.inr ⟨_, .execute⟩
  | execute => exact Or.inr ⟨_, .verify⟩
  | verify => exact Or.inl rfl

theorem Follows.early (follows : Follows node following) : node ≠ .publishObservation ∧ node ≠ .updateBrain := by
  cases follows <;> decide

variable (state) in
theorem verify_fails (fails : container.verdict w.verifications ≠ .pass) :
    (container.verify state w).2.verifications = w.verifications + 1 ∧
      (container.verify state w).2.events.countP EngineeringEvent.isCreate =
        w.events.countP EngineeringEvent.isCreate ∧
      (3 ≤ state.retryCount ∧ next .verify (container.verify state w).1 = [.human] ∨
        state.retryCount < 3 ∧ next .verify (container.verify state w).1 = [.retry] ∧
          (container.verify state w).1.remaining = state.remaining) := by
  unfold verify
  dsimp only
  rw [if_neg fails]
  split
  · rename_i spent
    refine ⟨?_, ?_, Or.inl ⟨spent, rfl⟩⟩
    · simp [EngineeringEvent.isVerified]
    · simp [EngineeringEvent.isCreate]
  · rename_i left
    refine ⟨?_, ?_, Or.inr ⟨Int.not_le.mp left, rfl, rfl⟩⟩
    · simp [EngineeringEvent.isVerified]
    · simp [EngineeringEvent.isCreate]

theorem verify_passes (passes : container.verdict w.verifications = .pass) :
    next .verify (container.verify state w).1 = [.prReadiness] := by
  unfold verify
  dsimp only
  rw [if_pos passes]
  rfl

theorem next_retry (returned : EngineeringState) :
    next .retry returned = if returned.waitingForHuman = true then [.human] else [.execute] := by
  unfold next conditionalEdges
  dsimp only
  split <;> rfl

variable (state) in
theorem retry_leads :
    next .retry (retry state) = [.human] ∧ state.remaining = 0 ∨
      next .retry (retry state) = [.execute] ∧ state.remaining = 1 + (retry state).remaining := by
  rw [next_retry]
  unfold retry EngineeringState.remaining
  split
  · refine Or.inl ⟨rfl, ?_⟩
    split
    · rfl
    · omega
  · dsimp only
    by_cases waits : state.waitingForHuman = true
    · exact Or.inl ⟨if_pos waits, if_pos waits⟩
    · refine Or.inr ⟨if_neg waits, ?_⟩
      rw [if_neg waits, if_neg waits]
      omega

/-! ### Runs in which no verification has passed -/

/-- No pull request was asked for, and none of the last two nodes was run. -/
structure Quiet (c : EngineeringConfig) : Prop where
  creates : c.world.events.countP EngineeringEvent.isCreate = 0
  published : .publishObservation ∉ c.ran
  updated : .updateBrain ∉ c.ran

/-- On the way to a verification, the last of `limit` if none passes and retries go on. -/
structure Heading (limit : Nat) (c : EngineeringConfig) (node : EngineeringNode) : Prop where
  active : c.active = [node]
  budget : c.world.verifications + 1 + c.state.remaining = limit

structure Retrying (limit : Nat) (c : EngineeringConfig) : Prop where
  active : c.active = [.retry]
  budget : c.world.verifications + c.state.remaining = limit

theorem Quiet.next {c c' : EngineeringConfig} {node : EngineeringNode} (quiet : Quiet c) (ran : c'.ran = c.ran ++ [node])
    (creates : c'.world.events.countP EngineeringEvent.isCreate = c.world.events.countP EngineeringEvent.isCreate)
    (early : node ≠ .publishObservation ∧ node ≠ .updateBrain) : Quiet c' := by
  refine ⟨creates.trans quiet.creates, ?_, ?_⟩
  · rw [ran, List.mem_append, List.mem_singleton]
    exact fun member => member.elim quiet.published fun same => early.1 same.symm
  · rw [ran, List.mem_append, List.mem_singleton]
    exact fun member => member.elim quiet.updated fun same => early.2 same.symm

variable (container) {limit : Nat} {c : EngineeringConfig}

theorem heading_follows (heading : Heading limit c node) (follows : Follows node following) :
    Heading limit (container.graph.superstep c) following ∧ (Quiet c → Quiet (container.graph.superstep c)) ∧
      (container.graph.superstep c).world.verifications = c.world.verifications := by
  obtain ⟨active, state, world, ran⟩ := c
  obtain ⟨rfl, budget⟩ := heading
  obtain ⟨keeps, edge⟩ := follows_keeps container state world follows
  have remaining : (container.runNode node state world).1.remaining = state.remaining := by
    unfold EngineeringState.remaining
    rw [keeps.retryCount, keeps.waitingForHuman]
  have fires : container.graph.next node (container.graph.run node state world).1 = [following] := edge _
  rw [Supersteps.Graph.superstep_edge _ fires]
  refine ⟨⟨rfl, ?_⟩, fun quiet => ?_, keeps.verifications⟩
  · exact (congrArg₂ (· + 1 + ·) keeps.verifications remaining).trans budget
  · exact quiet.next rfl keeps.creates follows.early

theorem heading_fails (heading : Heading limit c .verify) (fails : container.verdict c.world.verifications ≠ .pass) :
    ((container.graph.superstep c).active = [.human] ∧ 3 ≤ c.state.retryCount ∨
        Retrying limit (container.graph.superstep c)) ∧
      (Quiet c → Quiet (container.graph.superstep c)) ∧
      (container.graph.superstep c).world.verifications = c.world.verifications + 1 := by
  obtain ⟨active, state, world, ran⟩ := c
  obtain ⟨rfl, budget⟩ := heading
  obtain ⟨verifications, creates, ⟨spent, edge⟩ | ⟨left, edge, remaining⟩⟩ := verify_fails state fails
  · have fires : container.graph.next .verify (container.graph.run .verify state world).1 = [.human] := edge
    rw [Supersteps.Graph.superstep_edge _ fires]
    exact ⟨Or.inl ⟨rfl, spent⟩, fun quiet => quiet.next rfl creates (by decide), verifications⟩
  · have fires : container.graph.next .verify (container.graph.run .verify state world).1 = [.retry] := edge
    rw [Supersteps.Graph.superstep_edge _ fires]
    refine ⟨Or.inr ⟨rfl, ?_⟩, fun quiet => quiet.next rfl creates (by decide), verifications⟩
    exact (congrArg₂ (· + ·) verifications remaining).trans budget

theorem retrying_leads (retrying : Retrying limit c) :
    ((container.graph.superstep c).active = [.human] ∧ c.state.remaining = 0 ∨
        Heading limit (container.graph.superstep c) .execute) ∧
      (Quiet c → Quiet (container.graph.superstep c)) ∧
      (container.graph.superstep c).world.verifications = c.world.verifications := by
  obtain ⟨active, state, world, ran⟩ := c
  obtain ⟨rfl, budget⟩ := retrying
  rcases retry_leads state with ⟨edge, spent⟩ | ⟨edge, remaining⟩
  · have fires : container.graph.next .retry (container.graph.run .retry state world).1 = [.human] := edge
    rw [Supersteps.Graph.superstep_edge _ fires]
    exact ⟨Or.inl ⟨rfl, spent⟩, fun quiet => quiet.next rfl rfl (by decide), rfl⟩
  · have fires : container.graph.next .retry (container.graph.run .retry state world).1 = [.execute] := edge
    rw [Supersteps.Graph.superstep_edge _ fires]
    refine ⟨Or.inr ⟨rfl, ?_⟩, fun quiet => quiet.next rfl rfl (by decide), rfl⟩
    have taken : world.verifications + (1 + (retry state).remaining) = limit := by
      rw [← remaining]
      exact budget
    exact (Nat.add_assoc ..).trans taken

/-- Where a run stands before any verification passed. -/
inductive Waits (limit : Nat) (c : EngineeringConfig) : Prop
  | chain (node following : EngineeringNode) (heading : Heading limit c node) (follows : Follows node following)
  | verify (heading : Heading limit c .verify)
  | retry (retrying : Retrying limit c)
  | human (active : c.active = [.human])
  | ended (active : c.active = [])

theorem Heading.waits {node : EngineeringNode} (heading : Heading limit c node)
    (early : node = .verify ∨ ∃ following, Follows node following) : Waits limit c := by
  rcases early with rfl | ⟨following, follows⟩
  · exact .verify heading
  · exact .chain node following heading follows

theorem waits_superstep (fails : ∀ i < limit, container.verdict i ≠ .pass) (before : Quiet c ∧ Waits limit c) :
    Quiet (container.graph.superstep c) ∧ Waits limit (container.graph.superstep c) := by
  obtain ⟨quiet, waits⟩ := before
  cases waits with
  | chain node following heading follows =>
    obtain ⟨next, keeps, _⟩ := heading_follows container heading follows
    exact ⟨keeps quiet, next.waits follows.goes_on⟩
  | verify heading =>
    have bound : c.world.verifications < limit := by
      have budget := heading.budget
      omega
    obtain ⟨⟨active, _⟩ | retrying, keeps, _⟩ := heading_fails container heading (fails _ bound)
    · exact ⟨keeps quiet, .human active⟩
    · exact ⟨keeps quiet, .retry retrying⟩
  | retry retrying =>
    obtain ⟨⟨active, _⟩ | heading, keeps, _⟩ := retrying_leads container retrying
    · exact ⟨keeps quiet, .human active⟩
    · exact ⟨keeps quiet, heading.waits (Or.inr ⟨_, .verify⟩)⟩
  | human active =>
    obtain ⟨nodes, state, world, ran⟩ := c
    cases active
    exact ⟨quiet.next rfl rfl (by decide), .ended rfl⟩
  | ended active =>
    obtain ⟨nodes, state, world, ran⟩ := c
    cases active
    rw [Supersteps.Graph.superstep_idle]
    exact ⟨quiet, .ended rfl⟩

theorem Quiet.gated (quiet : Quiet c) (autoCreatePr : Bool) : PullRequestGated autoCreatePr c where
  createdOnce := Nat.le_trans (Nat.le_of_eq quiet.creates) (Nat.zero_le 1)
  created before event after split isCreate := by
    have member : event ∈ c.world.events := by
      rw [split]
      exact List.mem_append_right _ (List.mem_cons_self ..)
    exact absurd isCreate (List.countP_eq_zero.mp quiet.creates event member)
  publishedOnce := Nat.le_trans (Nat.le_of_eq (List.count_eq_zero_of_not_mem quiet.published)) (Nat.zero_le 1)
  updatedOnce := Nat.le_trans (Nat.le_of_eq (List.count_eq_zero_of_not_mem quiet.updated)) (Nat.zero_le 1)

/-! ### The run up to a verification -/

theorem start_heading : Heading initial.verificationLimit (engineeringStart initial) .loadWorkItem := ⟨rfl, rfl⟩

theorem start_quiet : Quiet (engineeringStart initial) :=
  ⟨rfl, List.not_mem_nil, List.not_mem_nil⟩

theorem first_verification :
    Heading initial.verificationLimit (container.graph.after 6 (engineeringStart initial)) .verify ∧
      (container.graph.after 6 (engineeringStart initial)).world.verifications = 0 := by
  obtain ⟨understand, _, none₁⟩ := heading_follows container (start_heading initial) .understand
  obtain ⟨analyze, _, none₂⟩ := heading_follows container understand .analyze
  obtain ⟨createObservation, _, none₃⟩ := heading_follows container analyze .createObservation
  obtain ⟨buildContext, _, none₄⟩ := heading_follows container createObservation .buildContext
  obtain ⟨execute, _, none₅⟩ := heading_follows container buildContext .execute
  obtain ⟨verify, _, none₆⟩ := heading_follows container execute .verify
  exact ⟨verify, none₆.trans (none₅.trans (none₄.trans (none₃.trans (none₂.trans none₁))))⟩

theorem remaining_spent {state : EngineeringState} (spent : 3 ≤ state.retryCount) : state.remaining = 0 := by
  unfold EngineeringState.remaining
  split
  · rfl
  · omega

theorem next_verification (heading : Heading limit c .verify) (fails : container.verdict c.world.verifications ≠ .pass)
    (more : c.world.verifications + 1 < limit) :
    Heading limit (container.graph.after 3 c) .verify ∧
      (container.graph.after 3 c).world.verifications = c.world.verifications + 1 := by
  have budget := heading.budget
  obtain ⟨⟨_, spent⟩ | retrying, _, one⟩ := heading_fails container heading fails
  · rw [remaining_spent spent] at budget
    omega
  · have left := retrying.budget
    obtain ⟨⟨_, spent⟩ | execute, _, same⟩ := retrying_leads container retrying
    · omega
    · obtain ⟨verify, _, still⟩ := heading_follows container execute .verify
      exact ⟨verify, by rw [← one, ← same, ← still]; rfl⟩

theorem reaches_verification (j : Nat) (bound : j < initial.verificationLimit)
    (fails : ∀ i < j, container.verdict i ≠ .pass) :
    ∃ n, Heading initial.verificationLimit (container.graph.after n (engineeringStart initial)) .verify ∧
      (container.graph.after n (engineeringStart initial)).world.verifications = j := by
  induction j with
  | zero => exact ⟨6, first_verification container initial⟩
  | succ j ih =>
    obtain ⟨n, heading, count⟩ := ih (by omega) fun i before => fails i (by omega)
    have failed : container.verdict (container.graph.after n (engineeringStart initial)).world.verifications ≠ .pass := by
      rw [count]
      exact fails j (Nat.lt_succ_self j)
    obtain ⟨again, more⟩ := next_verification container heading failed (by omega)
    rw [count] at more
    rw [← Supersteps.Graph.after_add] at again more
    exact ⟨n + 3, again, more⟩

theorem pass_publishes_twice (heading : Heading limit c .verify)
    (passes : container.verdict c.world.verifications = .pass) :
    2 ≤ (container.graph.after 4 c).ran.count .publishObservation := by
  obtain ⟨active, state, world, ran⟩ := c
  obtain ⟨rfl, _⟩ := heading
  have fires : container.graph.next .verify (container.graph.run .verify state world).1 = [.prReadiness] :=
    verify_passes passes
  have ended : (container.graph.after 4 { active := [.verify], state, world, ran }).ran =
      ran ++ [.verify] ++ [.prReadiness] ++ [.createPr, .publishObservation] ++ [.publishObservation, .updateBrain] := by
    unfold Supersteps.Graph.after
    rw [Supersteps.Graph.superstep_edge _ fires]
    rfl
  rw [ended]
  simp only [List.count_append]
  have twice : List.count EngineeringNode.publishObservation [.createPr, .publishObservation] +
      List.count EngineeringNode.publishObservation [.publishObservation, .updateBrain] = 2 := by decide
  omega

/-- A run keeps its pull request gated, and runs its last two nodes at most once,
exactly when none of its verifications passes. -/
theorem gated_iff :
    (∀ n, PullRequestGated container.autoCreatePr (container.graph.after n (engineeringStart initial))) ↔
      ∀ i < initial.verificationLimit, container.verdict i ≠ .pass := by
  constructor
  · intro gated i
    -- By strong induction, the run comes to the first verification that would pass.
    induction i using Nat.strongRecOn with
    | ind i earlier =>
      intro bound passes
      obtain ⟨n, heading, count⟩ := reaches_verification container initial i bound
        fun j before => earlier j before (Nat.lt_trans before bound)
      have twice := pass_publishes_twice container heading (by rw [count]; exact passes)
      have once := (gated (n + 4)).publishedOnce
      rw [Supersteps.Graph.after_add] at once
      omega
  · intro fails n
    have waits := Supersteps.Graph.after_of_kept container.graph (I := fun c => Quiet c ∧ Waits initial.verificationLimit c)
      (fun _ before => waits_superstep container fails before)
      ⟨start_quiet initial, (start_heading initial).waits (Or.inr ⟨_, .understand⟩)⟩ n
    exact waits.1.gated _

section Ungated

/-- The work item is not there when it is loaded, every execution fails, every
verification passes, and no pull request is to be created automatically. -/
def ungatedContainer : EngineeringContainer where
  workItem := fun n id => if n = 0 then none else some { id, projectId := .v4 1, title := "implement the parser" }
  project := fun _ id => some { id, name := "brain" }
  repositories := fun _ projectId => [{ id := .v4 2, projectId, name := "repo", cloneUrl := "git@host:team/repo.git" }]
  executor := fun _ => { executionId := .v4 3, status := .failed }
  verdict := fun _ => .pass
  autoCreatePr := false

/-- The state of a workflow that is run again with the files of an earlier attempt. -/
def ungatedInitial : EngineeringState :=
  { workflowId := .v4 4, projectId := some (.v4 1), workItemId := .v4 5, modifiedFiles := ["parser.py"] }

/-- The run creates a pull request all the same, and runs each of its last two nodes
twice. -/
theorem ungated_run :
    .loadFailed ∈ (ungatedContainer.graph.after 11 (engineeringStart ungatedInitial)).world.events ∧
      (ungatedContainer.graph.after 11 (engineeringStart ungatedInitial)).world.events.countP
        EngineeringEvent.isCreate = 1 ∧
      (ungatedContainer.graph.after 11 (engineeringStart ungatedInitial)).ran.count .publishObservation = 2 ∧
      (ungatedContainer.graph.after 11 (engineeringStart ungatedInitial)).ran.count .updateBrain = 2 ∧
      ¬ ∀ n, PullRequestGated false (ungatedContainer.graph.after n (engineeringStart ungatedInitial)) := by
  have twice : (ungatedContainer.graph.after 11 (engineeringStart ungatedInitial)).ran.count .publishObservation = 2 := by
    decide
  refine ⟨by decide, by decide, twice, by decide, fun gated => ?_⟩
  have once := (gated 11).publishedOnce
  omega

end Ungated

end EngineeringContainer

end Brain
