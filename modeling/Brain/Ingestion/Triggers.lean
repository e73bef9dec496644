import Brain.Ingestion.Assignments

namespace Brain
open Calls

/-- The number of times a sequence that starts at `previous` turns from false to true. -/
def risings (previous : Bool) : List Bool → Nat
  | [] => 0
  | b :: bs => (if b && !previous then 1 else 0) + risings b bs

/-- What leaves baselines, assignments and the set of work items alone. -/
structure Bystands (w t : World) : Prop where
  snapshots : t.snapshots = w.snapshots
  identities : t.identities = w.identities
  published : ∃ tail, t.published = w.published ++ tail ∧ ∀ e ∈ tail, e.eventType ≠ .workItemAssigned

theorem Reworks.bystands {w t : World} (reworks : Reworks w t) : Bystands w t := by
  obtain ⟨events, published, documents⟩ := reworks.published
  exact ⟨reworks.snapshots, reworks.same, events, published, documents.not_assigned⟩

theorem ProjectsOnly.bystands {w t : World} (projects : ProjectsOnly w t) : Bystands w t := by
  have rest := projects.rest
  exact ⟨by rw [rest], by rw [rest]; rfl, [], by rw [rest]; simp, by simp⟩

namespace OpenProjectIngestionService
variable (self : OpenProjectIngestionService)

/-- Whether a call ingests `x`, and if so whether assigned to the brain actor. -/
def delivers (x : String) (call : Call) : Option Bool :=
  match call.op with
  | .ingest s _ => if s.externalId = x then some (self.assignedToBrain s) else none
  | _ => none

/-- The deliveries of `x` along a history. -/
def deliveries (x : String) (history : List Call) : List Bool := history.filterMap (self.delivers x)

theorem Comments.bystands {arguments : CommentArguments} {w t : World} (comments : Comments arguments w t) :
    Bystands w t := by
  have rest := comments.rest
  obtain ⟨tail, published, feedback⟩ := comments.published
  refine ⟨by rw [rest], by rw [rest]; rfl, tail, published, ?_⟩
  intro e member
  rw [(feedback e member).2]
  decide

theorem Op.run_bystands {o : Outside} {w : World} {op : Op} (sound : Sound w)
    (other : ∀ s options, op ≠ .ingest s options) : Meets o (op.run self) w (fun _ t => Bystands w t) := by
  cases op with
  | ingest s options => exact absurd rfl (other s options)
  | upsertProject externalId name description parentExternalId projectId =>
    refine Meets.seq _ (upsertProject_projects externalId name description parentExternalId projectId o w) ?_ ?_
    · exact fun _ _ projects => Meets.pure projects.bystands
    · exact fun _ _ stays => stays.1.bystands
  | resolveRelationships snapshots =>
    refine (resolveRelationships_refines default snapshots sound).mono ?_
    intro r t reached
    cases r with
    | ok _ => exact reached.1.bystands
    | error e => exact reached.1.bystands
  | ingestComment arguments =>
    refine Meets.seq _ (ingestComment_stores arguments) ?_ ?_
    · exact fun _ _ reached => Meets.pure (Comments.bystands reached.1)
    · exact fun _ _ reached => Comments.bystands reached.1

theorem ended_ingest {w : World} {call : Call} {s : OpenProjectWorkItemSnapshot} {options : IngestOptions}
    (op : call.op = .ingest s options) (sound : Sound w) :
    ∃ r, self.Ingested w options s r (self.ended call w).store ∧
      (self.ended call w).result = r.map (fun _ => ()) ∧ ∀ e, r = .error e → call.outside.Raises e := by
  obtain ⟨outside, _⟩ := call
  subst op
  have run : Meets outside (Op.run self (.ingest s options)) w (fun r t => ∃ r', self.Ingested w options s r' t ∧
      r = r'.map (fun _ => ()) ∧ ∀ e, r' = .error e → outside.Raises e) := by
    refine Meets.seq _ (self.ingestWorkItemSnapshot_ingested options sound) ?_ ?_
    · exact fun result _ reached => Meets.pure ⟨.ok result, reached.1, rfl, by simp⟩
    · exact fun e _ reached => ⟨.error e, reached.1, rfl, reached.2⟩
  exact run 0

theorem ended_tracks {w : World} (call : Call) (sound : Sound w) (announced : Announced w) :
    (∃ s options, call.op = .ingest s options ∧ self.Tracks w options s (self.ended call w).store) ∨
      (∀ x, self.delivers x call = none) ∧ Announced (self.ended call w).store ∧
        (self.ended call w).store.snapshots = w.snapshots ∧ (self.ended call w).store.identities = w.identities ∧
        ∀ x, (self.ended call w).store.assignments x = w.assignments x := by
  have aside : (∀ s options, call.op ≠ .ingest s options) → (∀ x, self.delivers x call = none) →
      (∀ x, self.delivers x call = none) ∧ Announced (self.ended call w).store ∧
        (self.ended call w).store.snapshots = w.snapshots ∧ (self.ended call w).store.identities = w.identities ∧
        ∀ x, (self.ended call w).store.assignments x = w.assignments x := by
    intro other silent
    obtain ⟨snapshots, identities, tail, published, others⟩ :=
      Op.run_bystands self sound other 0 (o := call.outside)
    obtain ⟨after, persists⟩ := self.ended_sound call sound
    obtain ⟨announced', same⟩ := assignments_unchanged announced sound after persists published others
    exact ⟨silent, announced', snapshots, identities, same⟩
  obtain ⟨outside, op⟩ := call
  cases op with
  | ingest s options =>
    obtain ⟨r, ingested, _⟩ := @ended_ingest self _ ⟨outside, .ingest s options⟩ _ _ rfl sound
    exact Or.inl ⟨s, options, rfl, ingested.tracks sound announced⟩
  | upsertProject a b c d e => exact Or.inr (aside (by simp) fun _ => rfl)
  | resolveRelationships snapshots => exact Or.inr (aside (by simp) fun _ => rfl)
  | ingestComment arguments => exact Or.inr (aside (by simp) fun _ => rfl)

/-! ### No duplicate trigger -/

/-- A webhook for the creation of `x` arrives again: the snapshot is assigned to
the brain actor, and so is the baseline of the work item that exists already. -/
def Redelivers (x : String) (w : World) (call : Call) : Prop :=
  ∃ s options, call.op = .ingest s options ∧ s.externalId = x ∧ options.mode = .live ∧
    options.providerAction = some "work_package:created" ∧ self.assignedToBrain s = true ∧
    (w.resolvedProject s options.projectId).isSome = true ∧ (w.package x).isSome = true ∧
    w.baselineAssigned self x = true

theorem assignedToBrain_congr {s s' : OpenProjectWorkItemSnapshot} (left : self.assignedToBrain s = true)
    (right : self.assignedToBrain s' = true) : s.assigneeId = s'.assigneeId := by
  unfold assignedToBrain at left right
  cases brain : given self.brainActorId with
  | none => simp [brain] at left
  | some b =>
    cases atLeft : given s.assigneeId with
    | none => simp [brain, atLeft] at left
    | some a =>
      cases atRight : given s'.assigneeId with
      | none => simp [brain, atRight] at right
      | some a' =>
        simp only [brain, atLeft, atRight, decide_eq_true_eq] at left right
        rw [(given_eq_some.mp atLeft).1, (given_eq_some.mp atRight).1, left, right]

theorem trigger_causes {w : World} {s : OpenProjectWorkItemSnapshot} {action : Option String}
    (triggered : self.shouldTriggerAssignment s (diffSnapshots (w.snapshots.get s.externalId) s)
      (w.package s.externalId).isNone action = true) :
    self.assignedToBrain s = true ∧ (w.baselineAssigned self s.externalId = false ∨
      (w.package s.externalId).isSome = false ∨ action = some "work_package:created") := by
  simp only [shouldTriggerAssignment, Bool.and_eq_true, Bool.or_eq_true] at triggered
  obtain ⟨assigned, cause⟩ := triggered
  refine ⟨assigned, ?_⟩
  rcases cause with event | changed
  · cases action with
    | none =>
      have missing : (w.package s.externalId).isNone = true := event
      exact Or.inr (Or.inl (by simpa using missing))
    | some name =>
      have created : name = "work_package:created" := by simpa [eventIsCreated] using event
      exact Or.inr (Or.inr (by rw [created]))
  · left
    have member : .assigneeChanged ∈ diffSnapshots (w.snapshots.get s.externalId) s := by simpa using changed
    obtain ⟨old, baseline, differ⟩ := mem_diffSnapshots_assignee.mp member
    unfold World.baselineAssigned
    rw [baseline]
    cases before : self.assignedToBrain old with
    | false => simpa using before
    | true => exact absurd (self.assignedToBrain_congr before assigned) differ

/-- The assignments published so far, and the one that is due when the last
delivery was assigned and the baseline is not, are covered by `n` transitions. -/
structure Covered (x : String) (w : World) (last : Bool) (n : Nat) : Prop where
  sound : Sound w
  announced : Announced w
  bound : w.assignments x + (if last && !w.baselineAssigned self x then 1 else 0) ≤ n
  seen : last = true → 1 ≤ n

theorem assignments_of_missing {w : World} {x : String} (missing : (w.package x).isSome = false) : w.assignments x = 0 := by
  have absent : w.package x = none := by simpa using missing
  simp only [World.assignments, absent]

theorem baselineAssigned_congr {w t : World} {x : String} (snapshots : t.snapshots.get x = w.snapshots.get x) :
    t.baselineAssigned self x = w.baselineAssigned self x := by
  simp only [World.baselineAssigned, snapshots]

theorem baselineAssigned_saved {t : World} {s : OpenProjectWorkItemSnapshot} (saved : t.snapshots.get s.externalId = some s) :
    t.baselineAssigned self s.externalId = self.assignedToBrain s := by
  simp only [World.baselineAssigned, saved, Option.any_some]

theorem Covered.keeps {x : String} {w t : World} {last : Bool} {n : Nat} (covered : self.Covered x w last n)
    (sound : Sound t) (announced : Announced t) (snapshots : t.snapshots.get x = w.snapshots.get x)
    (same : t.assignments x = w.assignments x) : self.Covered x t last n := by
  obtain ⟨_, _, bound, seen⟩ := covered
  refine ⟨sound, announced, ?_, seen⟩
  rw [same, self.baselineAssigned_congr snapshots]
  exact bound

theorem Covered.spare {w : World} {n : Nat} {call : Call} {s : OpenProjectWorkItemSnapshot} {options : IngestOptions}
    (covered : self.Covered s.externalId w true n) (op : call.op = .ingest s options) (live : options.mode = .live)
    (project : (w.resolvedProject s options.projectId).isSome = true)
    (triggered : self.shouldTriggerAssignment s (diffSnapshots (w.snapshots.get s.externalId) s)
      (w.package s.externalId).isNone options.providerAction = true)
    (fresh : ¬ self.Redelivers s.externalId w call) : w.assignments s.externalId + 1 ≤ n := by
  obtain ⟨_, _, bound, seen⟩ := covered
  simp only [Bool.true_and] at bound
  obtain ⟨assigned, cause⟩ := self.trigger_causes triggered
  cases old : w.baselineAssigned self s.externalId with
  | false => simpa [old] using bound
  | true =>
    cases known : (w.package s.externalId).isSome with
    | false =>
      rw [assignments_of_missing known]
      exact seen rfl
    | true =>
      rcases cause with unassigned | absent | created
      · rw [old] at unassigned
        cases unassigned
      · rw [known] at absent
        cases absent
      · exact absurd ⟨s, options, op, rfl, live, created, assigned, project, known, old⟩ fresh

theorem Covered.step {x : String} {w : World} {last : Bool} {n : Nat} (covered : self.Covered x w last n)
    (call : Call) (fresh : ¬ self.Redelivers x w call) :
    self.Covered x (self.ended call w).store ((self.delivers x call).getD last)
      (n + if (self.delivers x call).getD false && !last then 1 else 0) := by
  obtain ⟨before, announcedBefore, bound, seen⟩ := id covered
  have sound := (self.ended_sound call before).1
  rcases self.ended_tracks call before announcedBefore with
    ⟨s, options, op, announced, others, own⟩ | ⟨none, announced, snapshots, -, same⟩
  · by_cases ofX : s.externalId = x
    · subst ofX
      have delivered : self.delivers s.externalId call = some (self.assignedToBrain s) := by
        simp [delivers, op]
      rw [delivered]
      simp only [Option.getD_some]
      refine ⟨sound, announced, ?_, ?_⟩
      · rcases own with ⟨snapshots, same⟩ | ⟨snapshots, same⟩ | ⟨snapshots, more, live, project, triggered⟩
        · rw [same, self.baselineAssigned_congr snapshots]
          cases assigned : self.assignedToBrain s <;> cases last <;>
            cases old : w.baselineAssigned self s.externalId <;> simp_all <;> omega
        · rw [same, self.baselineAssigned_saved snapshots]
          cases assigned : self.assignedToBrain s <;> simp <;> omega
        · rw [more, self.baselineAssigned_saved snapshots, (self.trigger_causes triggered).1]
          cases last with
          | false =>
            simp only [Bool.not_true, Bool.and_false, Bool.not_false, Bool.and_true, if_true]
            simp only [Bool.false_and, Bool.false_eq_true, if_false] at bound ⊢
            omega
          | true =>
            simp only [Bool.not_true, Bool.and_false, Bool.false_eq_true, if_false]
            exact Covered.spare self covered op live project triggered fresh
      · intro assigned
        cases last with
        | false => simp [assigned]
        | true =>
          have atLeast := seen rfl
          omega
    · have silent : self.delivers x call = Option.none := by simp [delivers, op, ofX]
      obtain ⟨snapshots, same⟩ := others x (Ne.symm ofX)
      rw [silent]
      simpa using Covered.keeps self covered sound announced snapshots same
  · rw [none x]
    simpa using Covered.keeps self covered sound announced (congrArg (fun k => k.get x) snapshots) (same x)

theorem Covered.after {x : String} {history : List Call} {w : World} {last : Bool} {n : Nat}
    (covered : self.Covered x w last n)
    (fresh : self.Along (fun w call => ¬ self.Redelivers x w call) history w) :
    (self.after history w).assignments x ≤ n + risings last (self.deliveries x history) := by
  induction history generalizing w last n with
  | nil =>
    obtain ⟨_, _, bound, _⟩ := covered
    simp only [after_nil, deliveries, List.filterMap_nil, risings]
    omega
  | cons call history ih =>
    have next := ih (Covered.step self covered call fresh.1) fresh.2
    rw [after_cons]
    cases delivered : self.delivers x call with
    | none =>
      simp only [delivered, Option.getD_none, Bool.false_and, Bool.false_eq_true, if_false, Nat.add_zero] at next
      simpa only [deliveries, List.filterMap_cons, delivered] using next
    | some assigned =>
      simp only [delivered, Option.getD_some] at next
      simp only [deliveries, List.filterMap_cons, delivered, risings]
      simp only [deliveries] at next
      omega

/-- Without a webhook that creates the same assigned work item again, there are
at most as many triggers as transitions to the brain actor. -/
theorem assignments_le_risings (x : String) (history : List Call) (projects : Keyed Project.id) (nextUuid : Nat)
    (fresh : self.Along (fun w call => ¬ self.Redelivers x w call) history (World.start projects nextUuid)) :
    (self.after history (World.start projects nextUuid)).assignments x ≤
      risings false (self.deliveries x history) := by
  have start : self.Covered x (World.start projects nextUuid) false 0 :=
    ⟨Sound.start projects nextUuid, by simp [Announced, World.start], by simp [World.assignments, World.package,
      World.findWorkItem, findByExternalRef, World.start], by simp⟩
  have bound := Covered.after self start fresh
  omega

/-- The webhook that creates a work package assigned to the actor of the brain. -/
def createdByWebhook : Call :=
  .undisturbed (.ingest { externalId := "1", assigneeId := some "7" }
    { mode := .live, source := "webhook", providerAction := some "work_package:created" })

/-- The same snapshot as a pull cycle delivers it. -/
def pulled : Call :=
  .undisturbed (.ingest { externalId := "1", assigneeId := some "7" }
    { mode := .live, source := "pull", publishUnchanged := false })

/-- A webhook and then two pulls of the same snapshot: one trigger. -/
theorem assignments_le_risings_pulled :
    let self : OpenProjectIngestionService := { brainActorId := some "7" }
    (self.after [createdByWebhook, pulled, pulled] World.oneProject).assignments "1" ≤
      risings false (self.deliveries "1" [createdByWebhook, pulled, pulled]) := by
  refine assignments_le_risings _ "1" _ _ _ ?_
  refine ⟨?_, ?_, ?_, trivial⟩
  · rintro ⟨s, options, op, -, -, -, -, -, known, -⟩
    exact absurd known (by decide)
  · rintro ⟨s, options, op, -, -, created, -⟩
    cases op
    cases created
  · rintro ⟨s, options, op, -, -, created, -⟩
    cases op
    cases created

/-- The webhook arrives twice and triggers the work twice. -/
theorem redelivery_triggers_again :
    let self : OpenProjectIngestionService := { brainActorId := some "7" }
    ¬ (self.after [createdByWebhook, createdByWebhook] World.oneProject).assignments "1" ≤
      risings false (self.deliveries "1" [createdByWebhook, createdByWebhook]) := by
  decide

end OpenProjectIngestionService

end Brain
