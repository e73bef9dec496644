import Brain.Ingestion.Triggers

namespace Brain
open Calls

theorem Sound.package_isSome {w : World} (sound : Sound w) {x : String} :
    (w.package x).isSome = true ↔ ∃ id, (id, [openProjectRef x "work_package"]) ∈ w.identities := by
  constructor
  · intro known
    obtain ⟨item, found⟩ := Option.isSome_iff_exists.mp known
    obtain ⟨stored, refs⟩ := sound.package_eq_some.mp found
    exact ⟨item.id, List.mem_map.mpr ⟨item, stored, by rw [refs]⟩⟩
  · rintro ⟨id, listed⟩
    obtain ⟨item, stored, same⟩ := List.mem_map.mp listed
    simp only [Prod.mk.injEq] at same
    have found := sound.package_eq_some.mpr ⟨stored, same.2⟩
    rw [found]
    rfl

def Call.Live (call : Call) : Prop := ∀ s options, call.op = .ingest s options → options.mode = .live

namespace OpenProjectIngestionService
variable (self : OpenProjectIngestionService)

variable {s : OpenProjectWorkItemSnapshot}

theorem assignedToBrain_of_same {s' : OpenProjectWorkItemSnapshot} (same : s.assigneeId = s'.assigneeId) :
    self.assignedToBrain s = self.assignedToBrain s' := by
  simp only [assignedToBrain, same]

theorem mem_diffSnapshots_of_reassigned {old : OpenProjectWorkItemSnapshot}
    (before : self.assignedToBrain old = false) (assigned : self.assignedToBrain s = true) :
    .assigneeChanged ∈ diffSnapshots (some old) s := by
  refine mem_diffSnapshots_assignee.mpr ⟨old, rfl, ?_⟩
  intro same
  rw [self.assignedToBrain_of_same same, assigned] at before
  cases before

theorem shouldTriggerAssignment_eq_true {changes : List SemanticChange} {created : Bool} {action : Option String} :
    self.shouldTriggerAssignment s changes created action = true ↔ self.assignedToBrain s = true ∧
      (eventIsCreated created action = true ∨ .assigneeChanged ∈ changes) := by
  simp only [shouldTriggerAssignment, Bool.and_eq_true, Bool.or_eq_true, List.contains_iff_mem]

/-- A call that ingests `x` returns. -/
def Completes (x : String) (w : World) (call : Call) : Prop :=
  self.delivers x call ≠ none → (self.ended call w).result = .ok ()

/-- A delivery of `x` that is assigned to the brain actor does not create the
work item under the name of another provider event than its creation, unless the
baseline shows the reassignment, and does not miss its project when the work
item and a baseline without the assignment exist. -/
def Heeds (x : String) (w : World) (call : Call) : Prop :=
  ∀ s options, call.op = .ingest s options → s.externalId = x → self.assignedToBrain s = true →
    if (w.resolvedProject s options.projectId).isSome then
      (w.package x).isSome = true ∨ eventIsCreated true options.providerAction = true ∨
        ∃ old, w.snapshots.get x = some old ∧ self.assignedToBrain old = false
    else (w.package x).isSome = true → w.baselineAssigned self x = true

/-- `x` was last heard of with the assignment `last`. -/
structure Heard (x : String) (w : World) (last : Bool) : Prop where
  sound : Sound w
  announced : Announced w
  based : (w.package x).isSome = true → ∃ old, w.snapshots.get x = some old
  base : w.baselineAssigned self x = last

variable {x : String} {w : World}

theorem ended_silent {call : Call} (sound : Sound w) (announced : Announced w) (silent : self.delivers x call = none) :
    (self.ended call w).store.snapshots.get x = w.snapshots.get x ∧
      (self.ended call w).store.assignments x = w.assignments x ∧
      (((self.ended call w).store.package x).isSome = true → (w.package x).isSome = true) := by
  rcases self.ended_tracks call sound announced with ⟨s, options, op, _, others, _⟩ | ⟨_, _, snapshots, identities, same⟩
  · have other : s.externalId ≠ x := by
      intro same
      simp [delivers, op, same] at silent
    obtain ⟨snapshots, same⟩ := others x (Ne.symm other)
    refine ⟨snapshots, same, ?_⟩
    intro known
    obtain ⟨r, ingested, _⟩ := self.ended_ingest op sound
    have reach := ingested.reach ((w.resolvedProject s options.projectId).getD default) (by simp +contextual)
    rcases reach.knows_only (World.mirror_knows.mpr known) with before | ⟨s', member, ofX⟩
    · exact World.mirror_knows.mp before
    · rw [List.mem_singleton.mp member] at ofX
      exact absurd ofX other
  · refine ⟨by rw [snapshots], same x, ?_⟩
    intro known
    have after := (self.ended_sound call sound).1
    obtain ⟨id, listed⟩ := after.package_isSome.mp known
    have before : (id, [openProjectRef x "work_package"]) ∈ w.identities := identities ▸ listed
    exact sound.package_isSome.mpr ⟨id, before⟩

theorem delivers_eq_some {call : Call} {b : Bool} (delivered : self.delivers x call = some b) :
    ∃ s options, call.op = .ingest s options ∧ s.externalId = x ∧ b = self.assignedToBrain s := by
  obtain ⟨outside, op⟩ := call
  cases op with
  | ingest s options =>
    simp only [delivers] at delivered
    split at delivered
    · rename_i ofX
      exact ⟨s, options, rfl, ofX, (Option.some.inj delivered).symm⟩
    · cases delivered
  | upsertProject => cases delivered
  | resolveRelationships => cases delivered
  | ingestComment => cases delivered

theorem ended_completes {call : Call} {options : IngestOptions} (sound : Sound w)
    (op : call.op = .ingest s options) (ofX : s.externalId = x)
    (completes : self.Completes x w call) :
    ∃ result, self.Ingested w options s (.ok result) (self.ended call w).store := by
  obtain ⟨r, ingested, ends, _⟩ := self.ended_ingest op sound
  have returned := completes (by simp [delivers, op, ofX])
  cases r with
  | ok result => exact ⟨result, ingested⟩
  | error e =>
    rw [ends] at returned
    cases returned

variable {last : Bool}

theorem Heard.step (heard : self.Heard x w last) (call : Call) (completes : self.Completes x w call) :
    self.Heard x (self.ended call w).store ((self.delivers x call).getD last) := by
  obtain ⟨sound, announced, based, base⟩ := heard
  have after := (self.ended_sound call sound).1
  have announced' : Announced (self.ended call w).store := by
    rcases self.ended_tracks call sound announced with ⟨_, _, _, tracked, _, _⟩ | ⟨_, kept, _⟩
    · exact tracked
    · exact kept
  cases delivered : self.delivers x call with
  | none =>
    obtain ⟨snapshots, _, packages⟩ := self.ended_silent sound announced delivered
    refine ⟨after, announced', ?_, ?_⟩
    · intro known
      rw [snapshots]
      exact based (packages known)
    · simp only [World.baselineAssigned, snapshots] at base ⊢
      exact base
  | some b =>
    obtain ⟨s, options, op, ofX, rfl⟩ := self.delivers_eq_some delivered
    obtain ⟨result, ingested⟩ := self.ended_completes sound op ofX completes
    have saved := (ingested.completed sound announced).1
    rw [ofX] at saved
    exact ⟨after, announced', fun _ => ⟨s, saved⟩, by simp [World.baselineAssigned, saved]⟩

theorem Heard.after {history : List Call} (heard : self.Heard x w last)
    (completes : self.Along (self.Completes x) history w) :
    self.Heard x (self.after history w) ((self.deliveries x history).getLast?.getD last) := by
  induction history generalizing w last with
  | nil => exact heard
  | cons call history ih =>
    have next := ih (Heard.step self heard call completes.1) completes.2
    rw [after_cons]
    cases delivered : self.delivers x call with
    | none => simpa only [deliveries, List.filterMap_cons, delivered, Option.getD_none] using next
    | some b =>
      simp only [delivered, Option.getD_some] at next
      simpa only [deliveries, List.filterMap_cons, delivered, List.getLast?_cons, Option.getD_some] using next

/-- An assignment is out for the work item of `x` since there were `c`. -/
structure Due (x : String) (c : Nat) (w : World) (last : Bool) : Prop where
  heard : self.Heard x w last
  floor : c ≤ w.assignments x
  out : last = true → (w.package x).isSome = true → c < w.assignments x

theorem Due.step {c : Nat} (due : self.Due x c w last) (call : Call) (live : call.Live)
    (completes : self.Completes x w call) (heeds : self.Heeds x w call)
    (assigned : ∀ b, self.delivers x call = some b → b = true) :
    self.Due x c (self.ended call w).store ((self.delivers x call).getD last) := by
  obtain ⟨heard, floor, out⟩ := due
  have next := Heard.step self heard call completes
  obtain ⟨sound, announced, based, base⟩ := heard
  cases delivered : self.delivers x call with
  | none =>
    obtain ⟨_, same, packages⟩ := self.ended_silent sound announced delivered
    rw [delivered] at next
    refine ⟨next, by rw [same]; exact floor, ?_⟩
    intro wasAssigned known
    rw [same]
    exact out wasAssigned (packages known)
  | some b =>
    have isAssigned := assigned b delivered
    subst isAssigned
    rw [delivered] at next
    obtain ⟨s, options, op, rfl, nowAssigned⟩ := self.delivers_eq_some delivered
    obtain ⟨result, ingested⟩ := self.ended_completes sound op rfl completes
    have grows : w.assignments s.externalId ≤ (self.ended call w).store.assignments s.externalId := by
      obtain ⟨_, _, own⟩ := ingested.tracks sound announced
      rcases own with ⟨_, same⟩ | ⟨_, same⟩ | ⟨_, more, _⟩ <;> omega
    refine ⟨next, Nat.le_trans floor grows, ?_⟩
    intro _ known
    have heeded := heeds s options op rfl nowAssigned.symm
    rcases (ingested.completed sound announced).2 with ⟨project, _, trigger⟩ | ⟨project, same⟩
    · rw [if_pos project] at heeded
      have triggers : (∃ old, w.snapshots.get s.externalId = some old ∧ self.assignedToBrain old = false) →
          c < (self.ended call w).store.assignments s.externalId := by
        rintro ⟨old, stored, before⟩
        have changed := self.mem_diffSnapshots_of_reassigned before nowAssigned.symm
        rw [← stored] at changed
        have more := trigger (live s options op)
          (by simp [IngestOptions.quiet, List.ne_nil_of_mem changed])
          (self.shouldTriggerAssignment_eq_true.mpr ⟨nowAssigned.symm, Or.inr changed⟩)
        omega
      cases package : w.package s.externalId with
      | some item =>
        cases last with
        | true =>
          have before := out rfl (by rw [package]; rfl)
          omega
        | false =>
          obtain ⟨old, stored⟩ := based (by rw [package]; rfl)
          refine triggers ⟨old, stored, ?_⟩
          simpa [World.baselineAssigned, stored] using base
      | none =>
        rw [package] at heeded trigger
        rcases heeded with existing | created | reassigned
        · cases existing
        · have more := trigger (live s options op) (by simp [IngestOptions.quiet])
            (self.shouldTriggerAssignment_eq_true.mpr ⟨nowAssigned.symm, Or.inl created⟩)
          omega
        · exact triggers reassigned
    · have existed : (w.package s.externalId).isSome = true := same ▸ known
      rw [project] at heeded
      have wasAssigned : last = true := base.symm.trans (heeded existed)
      have before := out wasAssigned existed
      omega

theorem Due.after {c : Nat} {history : List Call} (due : self.Due x c w last) (live : ∀ call ∈ history, call.Live)
    (completes : self.Along (self.Completes x) history w) (heeds : self.Along (self.Heeds x) history w)
    (assigned : ∀ b ∈ self.deliveries x history, b = true) :
    self.Due x c (self.after history w) ((self.deliveries x history).getLast?.getD last) := by
  induction history generalizing w last with
  | nil => exact due
  | cons call history ih =>
    have listed : ∀ b, self.delivers x call = some b ∨ b ∈ self.deliveries x history → b = true := by
      intro b source
      refine assigned b (List.mem_filterMap.mpr ?_)
      rcases source with delivered | later
      · exact ⟨call, List.mem_cons_self .., delivered⟩
      · obtain ⟨other, member, delivered⟩ := List.mem_filterMap.mp later
        exact ⟨other, List.mem_cons_of_mem _ member, delivered⟩
    have first := fun b delivered => listed b (Or.inl delivered)
    have next := ih (Due.step self due call (live call (List.mem_cons_self ..)) completes.1 heeds.1 first)
      (fun later member => live later (List.mem_cons_of_mem _ member)) completes.2 heeds.2
      (fun b member => listed b (Or.inr member))
    rw [after_cons]
    cases delivered : self.delivers x call with
    | none => simpa only [deliveries, List.filterMap_cons, delivered, Option.getD_none] using next
    | some b =>
      simp only [delivered, Option.getD_some] at next
      simpa only [deliveries, List.filterMap_cons, delivered, List.getLast?_cons, Option.getD_some] using next

/-- Where a history ends with `x` assigned to the brain actor and a work item for
it, an assignment was published since `x` was last not assigned. -/
theorem assignment_since_unassigned (x : String) (early late : List Call) (projects : Keyed Project.id)
    (nextUuid : Nat) (live : ∀ call ∈ early ++ late, call.Live)
    (completes : self.Along (self.Completes x) (early ++ late) (World.start projects nextUuid))
    (heeds : self.Along (self.Heeds x) (early ++ late) (World.start projects nextUuid))
    (unassigned : (self.deliveries x early).getLast? ≠ some true)
    (delivered : self.deliveries x late ≠ []) (assigned : ∀ b ∈ self.deliveries x late, b = true)
    (known : ((self.after (early ++ late) (World.start projects nextUuid)).package x).isSome = true) :
    (self.after early (World.start projects nextUuid)).assignments x <
      (self.after (early ++ late) (World.start projects nextUuid)).assignments x := by
  have start : self.Heard x (World.start projects nextUuid) false :=
    ⟨Sound.start projects nextUuid, by simp [Announced, World.start],
      by simp [World.package, World.findWorkItem, findByExternalRef, World.start],
      rfl⟩
  rw [along_append] at completes heeds
  have between := Heard.after self start completes.1
  have quiet : (self.deliveries x early).getLast?.getD false = false := by
    cases last : (self.deliveries x early).getLast? with
    | none => rfl
    | some b =>
      cases b with
      | false => rfl
      | true => exact absurd last unassigned
  rw [quiet] at between
  have due : self.Due x _ (self.after early (World.start projects nextUuid)) false :=
    ⟨between, Nat.le_refl _, by simp⟩
  have final := Due.after self due (fun call member => live call (List.mem_append_right _ member)) completes.2
    heeds.2 assigned
  rw [after_append] at known ⊢
  obtain ⟨_, _, out⟩ := final
  refine out ?_ known
  rw [List.getLast?_eq_getLast_of_ne_nil delivered, Option.getD_some]
  exact assigned _ (List.getLast_mem delivered)

/-- An unassigned work package, then the same one assigned to the brain actor. -/
theorem assignment_since_unassigned_reassigned :
    let self : OpenProjectIngestionService := { brainActorId := some "7" }
    let early := [Call.undisturbed (.ingest { externalId := "1" } { mode := .live, source := "webhook" })]
    (self.after early World.oneProject).assignments "1" <
      (self.after (early ++ [pulled]) World.oneProject).assignments "1" := by
  refine assignment_since_unassigned _ "1" _ _ _ _ ?_ ?_ ?_ (by decide) (by decide) (by decide) (by decide)
  · intro call member s options op
    simp only [List.cons_append, List.nil_append, List.mem_cons, List.not_mem_nil, or_false] at member
    rcases member with rfl | rfl <;> cases op <;> rfl
  · exact ⟨fun _ => rfl, fun _ => rfl, trivial⟩
  · refine ⟨?_, ?_, trivial⟩
    · intro s options op _ assigned
      cases op
      exact absurd assigned (by decide)
    · intro s options op _ _
      cases op
      rw [if_pos (by decide)]
      exact Or.inl (by decide)

/-- A work package assigned to the brain actor that is first seen through an
update: it gets a work item and no trigger. -/
theorem first_seen_by_update_untriggered :
    let self : OpenProjectIngestionService := { brainActorId := some "7" }
    let history := [Call.undisturbed (.ingest { externalId := "1", assigneeId := some "7" }
      { mode := .live, source := "webhook", providerAction := some "work_package:updated" })]
    self.deliveries "1" history = [true] ∧ ((self.after history World.oneProject).package "1").isSome = true ∧
      ¬ (self.after [] World.oneProject).assignments "1" < (self.after history World.oneProject).assignments "1" := by
  decide

end OpenProjectIngestionService

end Brain
