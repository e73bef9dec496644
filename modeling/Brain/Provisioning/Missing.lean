import Brain.Application.Provisioning
import Brain.Lib.Runs

namespace Brain

def ProvisioningPort.Owns (port : ProvisioningPort) (ref : ExternalReference) : Prop :=
  ref.provider = port.provider ∧ ref.externalType = some port.externalType

theorem ProvisioningPort.owns_reference (port : ProvisioningPort) (created : String × Option String) :
    port.Owns (port.reference created) :=
  ⟨rfl, rfl⟩

theorem ExternalReference.sameProject_iff {a b : ExternalReference} :
    a.sameProject b = true ↔ a.provider = b.provider ∧ a.externalType = b.externalType ∧ a.externalId = b.externalId := by
  simp [sameProject, and_assoc]

theorem ProvisioningPort.Owns.same {port : ProvisioningPort} {a b : ExternalReference} (owns : port.Owns b)
    (same : a.sameProject b = true) : port.Owns a := by
  obtain ⟨provider, externalType, _⟩ := ExternalReference.sameProject_iff.mp same
  exact ⟨provider.trans owns.1, externalType.trans owns.2⟩

namespace ProjectProvisioningService
variable {self : ProjectProvisioningService}
variable {w : ProvisioningWorld}

/-! ### What one call of `provision` creates -/

variable (self) in
/-- The create operation that `provision` calls for a slot. -/
def createCall (project : Project) (answers : CreateAnswers) (slot : ProviderSlot) : Option CreateCall :=
  (self.port slot).map fun port =>
    { slot, project
      name := (self.createArguments project slot).1
      description := (self.createArguments project slot).2
      created := match answers slot with
        | .ok created => some (port.reference created)
        | .error _ => none }

theorem tryProvide_spec (project : Project) (answers : CreateAnswers) (s : ProvisioningResult × List CreateCall)
    (slot : ProviderSlot) :
    (self.tryProvide project answers s slot).2 = s.2 ++ (self.createCall project answers slot).toList ∧
      (self.tryProvide project answers s slot).1.refsAdded =
        s.1.refsAdded ++ (self.createCall project answers slot).toList.filterMap CreateCall.created ∧
      (self.tryProvide project answers s slot).1.project = s.1.project := by
  unfold tryProvide createCall
  cases self.port slot with
  | none => simp
  | some port => cases answers slot <;> simp

theorem provided_spec (project : Project) (answers : CreateAnswers) (slots : List ProviderSlot)
    (s : ProvisioningResult × List CreateCall) :
    (slots.foldl (self.tryProvide project answers) s).2 = s.2 ++ slots.filterMap (self.createCall project answers) ∧
      (slots.foldl (self.tryProvide project answers) s).1.refsAdded =
        s.1.refsAdded ++ (slots.filterMap (self.createCall project answers)).filterMap CreateCall.created ∧
      (slots.foldl (self.tryProvide project answers) s).1.project = s.1.project := by
  induction slots generalizing s with
  | nil => simp
  | cons slot slots ih =>
    obtain ⟨calls, refs, same⟩ := ih (self.tryProvide project answers s slot)
    obtain ⟨calls', refs', same'⟩ := @tryProvide_spec self project answers s slot
    have split : (slot :: slots).filterMap (self.createCall project answers) =
        (self.createCall project answers slot).toList ++ slots.filterMap (self.createCall project answers) := by
      cases found : self.createCall project answers slot <;> simp [found]
    rw [List.foldl_cons, split, List.filterMap_append, ← List.append_assoc, ← List.append_assoc, ← calls', ← refs']
    exact ⟨calls, refs, same.trans same'⟩

variable (self) in
/-- The create operations of one call of `provision`. -/
def creates (project : Project) (answers : CreateAnswers) : List CreateCall :=
  slots.filterMap (self.createCall project answers)

theorem mem_slots (slot : ProviderSlot) : slot ∈ slots := by
  cases slot <;> decide

theorem mem_creates {project : Project} {answers : CreateAnswers} {call : CreateCall} :
    call ∈ self.creates project answers ↔ self.createCall project answers call.slot = some call := by
  rw [creates, List.mem_filterMap]
  constructor
  · rintro ⟨slot, _, created⟩
    have own : call.slot = slot := by
      obtain ⟨port, _, rfl⟩ := Option.map_eq_some_iff.mp created
      rfl
    rwa [own]
  · intro created
    exact ⟨call.slot, mem_slots call.slot, created⟩

theorem nodup_creates (project : Project) (answers : CreateAnswers) :
    ((self.creates project answers).map CreateCall.slot).Nodup := by
  have sublist : ((self.creates project answers).map CreateCall.slot).Sublist slots := by
    unfold creates
    generalize slots = all
    induction all with
    | nil => exact .slnil
    | cons slot all ih =>
      unfold createCall at ih ⊢
      cases configured : self.port slot with
      | none => simpa [configured] using ih.cons slot
      | some port => simpa [configured] using ih.cons_cons slot
  exact sublist.nodup (by decide)

/-! ### What is recorded -/

theorem mem_merge {merged : List ExternalReference} {ref r : ExternalReference} (member : r ∈ merged) : r ∈ merge merged ref := by
  unfold merge
  split
  · exact member
  · exact List.mem_append_left _ member

theorem merge_same (merged : List ExternalReference) (ref : ExternalReference) :
    ∃ r ∈ merge merged ref, r.sameProject ref = true := by
  unfold merge
  split
  · rename_i found
    exact List.any_eq_true.mp found
  · exact ⟨ref, List.mem_append_right _ (List.mem_singleton.mpr rfl), ExternalReference.sameProject_iff.mpr ⟨rfl, rfl, rfl⟩⟩

theorem mem_foldl_merge (refs : List ExternalReference) {merged : List ExternalReference} {r : ExternalReference}
    (member : r ∈ merged) : r ∈ refs.foldl merge merged := by
  induction refs generalizing merged with
  | nil => exact member
  | cons ref refs ih => exact ih (mem_merge member)

theorem foldl_merge_same {refs : List ExternalReference} {ref : ExternalReference} (added : ref ∈ refs)
    (merged : List ExternalReference) : ∃ r ∈ refs.foldl merge merged, r.sameProject ref = true := by
  induction refs generalizing merged with
  | nil => cases added
  | cons first refs ih =>
    rcases List.mem_cons.mp added with rfl | later
    · obtain ⟨r, member, same⟩ := merge_same merged ref
      exact ⟨r, mem_foldl_merge refs member, same⟩
    · exact ih later (merge merged first)

theorem link_keeps (result : ProvisioningResult) (candidate : String × Option String × String) :
    (link result candidate).project.id = result.project.id ∧
      ∀ r ∈ result.project.externalRefs, r ∈ (link result candidate).project.externalRefs := by
  obtain ⟨provider, externalId, externalType⟩ := candidate
  simp only [link]
  split
  · exact ⟨rfl, fun r member => member⟩
  · split
    · exact ⟨rfl, fun r member => member⟩
    · exact ⟨rfl, fun r member => List.mem_append_left _ member⟩

theorem linked_keeps (candidates : List (String × Option String × String)) (result : ProvisioningResult) :
    (candidates.foldl link result).project.id = result.project.id ∧
      ∀ r ∈ result.project.externalRefs, r ∈ (candidates.foldl link result).project.externalRefs := by
  induction candidates generalizing result with
  | nil => exact ⟨rfl, fun r member => member⟩
  | cons candidate candidates ih =>
    obtain ⟨same, keeps⟩ := ih (link result candidate)
    obtain ⟨same', keeps'⟩ := link_keeps result candidate
    exact ⟨same.trans same', fun r member => keeps r (keeps' r member)⟩

def recordOn (project : Project) (refs : List ExternalReference) : Project :=
  { project with externalRefs := refs.foldl merge project.externalRefs }

theorem persistRefs_spec (update : Option PyException) (result : ProvisioningResult) (w : ProvisioningWorld) :
    (persistRefs update result w).2 = w ∧ (update = none → result.refsAdded = []) ∨
      (persistRefs update result w).2 =
        { w with projects := w.projects.upsert (recordOn result.project result.refsAdded) } := by
  unfold persistRefs
  by_cases nothing : result.refsAdded = []
  · rw [if_pos nothing]
    exact Or.inl ⟨rfl, fun _ => nothing⟩
  · rw [if_neg nothing]
    cases update with
    | none => exact Or.inr rfl
    | some exception => exact Or.inl ⟨rfl, nofun⟩

theorem provision_spec {projectId : ProjectId} {answers : CreateAnswers} {update : Option PyException}
    {w : ProvisioningWorld} {project : Project} (found : w.projects.get projectId = some project) :
    (self.provision projectId answers update w).2 = { w with calls := w.calls ++ self.creates project answers } ∧
        (update = none → (self.creates project answers).filterMap CreateCall.created = []) ∨
      (self.provision projectId answers update w).2 =
        { w with
          calls := w.calls ++ self.creates project answers
          projects := w.projects.upsert (recordOn project ((self.creates project answers).filterMap CreateCall.created)) } := by
  obtain ⟨calls, refs, same⟩ := @provided_spec self project answers slots ({ project }, [])
  unfold provision
  simp only [found]
  rw [calls]
  rcases persistRefs_spec update (slots.foldl (self.tryProvide project answers) ({ project }, [])).1
    { w with calls := w.calls ++ ([] ++ slots.filterMap (self.createCall project answers)) } with ⟨stays, nothing⟩ | stores
  · refine Or.inl ⟨stays, fun raisesNot => ?_⟩
    have none := nothing raisesNot
    rw [refs] at none
    exact none
  · rw [stores, refs, same]
    exact Or.inr rfl

/-! ### One call after another -/

variable (self) in
/-- No reference of the project is of what a configured provider creates. -/
def Bare (project : Project) : Prop :=
  ∀ slot port, self.port slot = some port → ∀ ref ∈ project.externalRefs, ¬ port.Owns ref

variable (self) in
/-- The call is no `provision` of a project that has what it creates. -/
def Vacant (w : ProvisioningWorld) : ProvisioningCall → Prop
  | .provision projectId .. => ∀ project, w.projects.get projectId = some project → self.Bare project
  | _ => True

variable (self) in
/-- A create operation was called only for a project that had no reference of
the provider and the kind. -/
def OnlyMissing (w : ProvisioningWorld) : Prop :=
  ∀ call ∈ w.calls, ∀ port, self.port call.slot = some port → ∀ ref ∈ call.project.externalRefs, ¬ port.Owns ref

def Updates : ProvisioningCall → Prop
  | .createCanonical .. => True
  | .createConnected _ _ _ update | .provision _ _ update | .bootstrap _ _ update => update = none

theorem mem_creates_project {project : Project} {answers : CreateAnswers} {call : CreateCall}
    (member : call ∈ self.creates project answers) :
    call.project = project ∧ ∃ port, self.port call.slot = some port ∧ ∀ ref, call.created = some ref → port.Owns ref := by
  obtain ⟨port, configured, isCall⟩ := Option.map_eq_some_iff.mp (mem_creates.mp member)
  refine ⟨by rw [← isCall], port, configured, ?_⟩
  intro ref created
  rw [← isCall] at created
  cases answer : answers call.slot with
  | error exception => simp [answer] at created
  | ok made =>
    simp only [answer, Option.some.injEq] at created
    rw [← created]
    exact port.owns_reference made

theorem onlyMissing_creates {project : Project} {answers : CreateAnswers} (before : self.OnlyMissing w)
    {calls : List CreateCall} (isCalls : calls = w.calls ++ self.creates project answers)
    {projects : Keyed Project.id} {nextUuid : Nat} :
    self.OnlyMissing { projects, calls, nextUuid } ↔ self.Bare project := by
  subst isCalls
  constructor
  · intro holds slot port configured ref member
    have called : (⟨slot, project, (self.createArguments project slot).1, (self.createArguments project slot).2,
        match answers slot with | .ok created => some (port.reference created) | .error _ => none⟩ : CreateCall) ∈
          self.creates project answers := by
      refine mem_creates.mpr ?_
      simp [createCall, configured]
    exact holds _ (List.mem_append_right _ called) port configured ref member
  · intro bare call member port configured ref inProject
    rcases List.mem_append.mp member with old | new
    · exact before call old port configured ref inProject
    · rw [(mem_creates_project new).1] at inProject
      exact bare call.slot port configured ref inProject

theorem onlyMissing_provision (before : self.OnlyMissing w) (projectId : ProjectId) (answers : CreateAnswers)
    (update : Option PyException) :
    self.OnlyMissing (self.provision projectId answers update w).2 ↔
      ∀ project, w.projects.get projectId = some project → self.Bare project := by
  cases found : w.projects.get projectId with
  | none =>
    have same : (self.provision projectId answers update w).2 = w := by simp [provision, found]
    rw [same]
    exact iff_of_true before (fun project isSome => by cases isSome)
  | some project =>
    have only : (∀ other, some project = some other → self.Bare other) ↔ self.Bare project := by
      constructor
      · exact fun all => all project rfl
      · rintro bare other ⟨⟩
        exact bare
    rw [only]
    rcases provision_spec found with ⟨world, _⟩ | world
    · rw [world]
      exact onlyMissing_creates before rfl
    · rw [world]
      exact onlyMissing_creates before rfl

theorem createCanonical_bare {name : String} {description : Option String} {w : ProvisioningWorld} {project : Project}
    (found : (createCanonical name description w).2.projects.get (createCanonical name description w).1.id = some project) :
    project = (createCanonical name description w).1 := by
  have stored := Keyed.get_upsert_self w.projects (createCanonical name description w).1
  exact (Option.some.inj (stored.symm.trans found)).symm

theorem bootstrap_calls (projectId : ProjectId) (external : ExternalProjects) (update : Option PyException)
    (w : ProvisioningWorld) : (bootstrap projectId external update w).2.calls = w.calls := by
  unfold bootstrap
  cases w.projects.get projectId with
  | none => rfl
  | some project =>
    simp only
    rcases persistRefs_spec update _ w with ⟨world, _⟩ | world <;> rw [world]

theorem onlyMissing_step (w : ProvisioningWorld) (call : ProvisioningCall) (w' : ProvisioningWorld)
    (before : self.OnlyMissing w) (taken : self.step w call = some w') : self.OnlyMissing w' ↔ self.Vacant w call := by
  cases call with
  | createCanonical name description =>
    cases taken
    exact iff_of_true before trivial
  | createConnected name description answers update =>
    cases taken
    refine iff_of_true ?_ trivial
    refine (onlyMissing_provision (w := (createCanonical name description w).2) before _ answers update).mpr ?_
    intro project found
    rw [createCanonical_bare found]
    intro slot port configured ref member
    cases member
  | provision projectId answers update =>
    cases taken
    exact onlyMissing_provision before projectId answers update
  | bootstrap projectId external update =>
    cases taken
    refine iff_of_true ?_ trivial
    rw [OnlyMissing, bootstrap_calls]
    exact before

/-! ### Runs -/

def creations (slot : ProviderSlot) (id : ProjectId) (calls : List CreateCall) : Nat :=
  calls.countP fun call => call.slot = slot ∧ call.project.id = id ∧ call.created.isSome

structure Recorded (service : ProjectProvisioningService) (w : ProvisioningWorld) : Prop where
  storedBelow : ∀ project ∈ w.projects.items, project.id.Below w.nextUuid
  calledBelow : ∀ call ∈ w.calls, call.project.id.Below w.nextUuid
  owned : ∀ call ∈ w.calls, ∃ port, service.port call.slot = some port ∧ ∀ ref, call.created = some ref → port.Owns ref
  recorded : ∀ call ∈ w.calls, ∀ ref, call.created = some ref →
    ∃ project ∈ w.projects.items, project.id = call.project.id ∧ ∃ r ∈ project.externalRefs, r.sameProject ref = true
  once : ∀ slot id, creations slot id w.calls ≤ 1

theorem creations_append (slot : ProviderSlot) (id : ProjectId) (calls more : List CreateCall) :
    creations slot id (calls ++ more) = creations slot id calls + creations slot id more :=
  List.countP_append

theorem creations_eq_zero {slot : ProviderSlot} {id : ProjectId} {calls : List CreateCall}
    (never : ∀ call ∈ calls, call.slot = slot → call.project.id = id → call.created = none) : creations slot id calls = 0 := by
  refine List.countP_eq_zero.mpr fun call member made => ?_
  obtain ⟨isSlot, isId, created⟩ := by simpa only [decide_eq_true_eq] using made
  rw [never call member isSlot isId] at created
  cases created

theorem creations_le_one {slot : ProviderSlot} {id : ProjectId} {calls : List CreateCall}
    (nodup : (calls.map CreateCall.slot).Nodup) : creations slot id calls ≤ 1 := by
  have bySlot : creations slot id calls ≤ (calls.map CreateCall.slot).count slot := by
    rw [List.count_eq_countP, List.countP_map]
    refine List.countP_mono_left fun call _ made => ?_
    have isSlot : call.slot = slot := by simpa using (of_decide_eq_true made).1
    simp [isSlot]
  exact Nat.le_trans bySlot (List.nodup_iff_count_le_one.mp nodup slot)

theorem Recorded.extend (recorded : self.Recorded w) {project project' : Project} {calls : List CreateCall}
    (stored : project ∈ w.projects.items) (same : project'.id = project.id)
    (keeps : ∀ r ∈ project.externalRefs, r ∈ project'.externalRefs)
    (own : ∀ call ∈ calls, call.project = project ∧
      ∃ port, self.port call.slot = some port ∧ ∀ ref, call.created = some ref → port.Owns ref)
    (nodup : (calls.map CreateCall.slot).Nodup)
    (missing : ∀ call ∈ calls, ∀ port, self.port call.slot = some port → ∀ ref ∈ project.externalRefs, ¬ port.Owns ref)
    (records : ∀ call ∈ calls, ∀ ref, call.created = some ref → ∃ r ∈ project'.externalRefs, r.sameProject ref = true) :
    self.Recorded { w with calls := w.calls ++ calls, projects := w.projects.upsert project' } := by
  refine ⟨?_, ?_, ?_, ?_, ?_⟩
  · intro other member
    rcases Keyed.mem_upsert.mp member with rfl | ⟨old, _⟩
    · rw [same]
      exact recorded.storedBelow project stored
    · exact recorded.storedBelow other old
  · intro call member
    rcases List.mem_append.mp member with old | new
    · exact recorded.calledBelow call old
    · rw [(own call new).1]
      exact recorded.storedBelow project stored
  · intro call member
    rcases List.mem_append.mp member with old | new
    · exact recorded.owned call old
    · exact (own call new).2
  · intro call member ref created
    rcases List.mem_append.mp member with old | new
    · obtain ⟨other, listed, isProject, r, inOther, isRef⟩ := recorded.recorded call old ref created
      by_cases mine : other.id = project.id
      · have isSame := w.projects.key_injective listed stored mine
        subst isSame
        exact ⟨project', Keyed.mem_upsert_self .., same.trans isProject, r, keeps r inOther, isRef⟩
      · exact ⟨other, Keyed.mem_upsert.mpr (Or.inr ⟨listed, by rwa [same]⟩), isProject, r, inOther, isRef⟩
    · refine ⟨project', Keyed.mem_upsert_self .., ?_, records call new ref created⟩
      rw [same, (own call new).1]
  · intro slot id
    rw [creations_append]
    have before := recorded.once slot id
    have more := @creations_le_one slot id calls nodup
    by_cases made : ∃ call ∈ calls, call.slot = slot ∧ call.project.id = id
    · obtain ⟨call, new, rfl, rfl⟩ := made
      obtain ⟨isProject, port, configured, _⟩ := own call new
      have never : creations call.slot call.project.id w.calls = 0 := by
        refine creations_eq_zero fun earlier old isSlot isId => ?_
        cases created : earlier.created with
        | none => rfl
        | some ref =>
          obtain ⟨other, listed, isOther, r, inOther, isRef⟩ := recorded.recorded earlier old ref created
          obtain ⟨port', configured', owns⟩ := recorded.owned earlier old
          rw [isSlot, configured] at configured'
          obtain rfl := Option.some.inj configured'
          have mine : other = project :=
            w.projects.key_injective listed stored (isOther.trans (isId.trans (congrArg Project.id isProject)))
          rw [mine] at inOther
          exact absurd ((owns ref created).same isRef) (missing call new port configured r inOther)
      omega
    · have none : creations slot id calls = 0 :=
        creations_eq_zero fun call member isSlot isId => absurd ⟨call, member, isSlot, isId⟩ made
      omega

theorem recorded_provision (recorded : self.Recorded w) (projectId : ProjectId) (answers : CreateAnswers)
    (bare : ∀ project, w.projects.get projectId = some project → self.Bare project) :
    self.Recorded (self.provision projectId answers none w).2 := by
  cases found : w.projects.get projectId with
  | none =>
    have same : (self.provision projectId answers none w).2 = w := by simp [provision, found]
    rw [same]
    exact recorded
  | some project =>
    have stored := (Keyed.get_eq_some.mp found).1
    have missing : ∀ call ∈ self.creates project answers, ∀ port, self.port call.slot = some port →
        ∀ ref ∈ project.externalRefs, ¬ port.Owns ref :=
      fun call _ port configured => bare project found call.slot port configured
    have made : ∀ call ∈ self.creates project answers, ∀ ref, call.created = some ref →
        ref ∈ (self.creates project answers).filterMap CreateCall.created :=
      fun call member ref created => List.mem_filterMap.mpr ⟨call, member, created⟩
    rcases provision_spec found with ⟨world, nothing⟩ | world
    · have whole := recorded.extend stored rfl (fun r member => member) (fun call member => mem_creates_project member)
        (nodup_creates project answers) missing fun call member ref created => by
          have created := made call member ref created
          rw [nothing rfl] at created
          cases created
      rw [Keyed.upsert_eq_self.mpr stored] at whole
      rw [world]
      exact whole
    · rw [world]
      exact recorded.extend stored rfl (fun r member => mem_foldl_merge _ member)
        (fun call member => mem_creates_project member) (nodup_creates project answers) missing
        fun call member ref created => foldl_merge_same (made call member ref created) _

theorem recorded_createCanonical (recorded : self.Recorded w) (name : String) (description : Option String)
    : self.Recorded (createCanonical name description w).2 := by
  have later {id : ProjectId} (below : id.Below w.nextUuid) : id.Below (w.nextUuid + 1) := below.mono (Nat.le_succ _)
  refine ⟨?_, ?_, recorded.owned, ?_, recorded.once⟩
  · intro project member
    rcases Keyed.mem_upsert.mp member with rfl | ⟨old, _⟩
    · exact Uuid.fresh_below _
    · exact later (recorded.storedBelow project old)
  · exact fun call member => later (recorded.calledBelow call member)
  · intro call member ref created
    obtain ⟨project, listed, isProject, isRecorded⟩ := recorded.recorded call member ref created
    refine ⟨project, Keyed.mem_upsert.mpr (Or.inr ⟨listed, ?_⟩), isProject, isRecorded⟩
    exact (recorded.storedBelow project listed).ne_fresh

theorem recorded_bootstrap (recorded : self.Recorded w) (projectId : ProjectId) (external : ExternalProjects)
    (update : Option PyException) :
    self.Recorded (bootstrap projectId external update w).2 := by
  unfold bootstrap
  cases found : w.projects.get projectId with
  | none => exact recorded
  | some project =>
    have stored := (Keyed.get_eq_some.mp found).1
    simp only
    generalize [("openproject", external.workManagement, "project"), ("gitlab", external.sourceControl, "project"),
      ("xwiki", external.documentation, "space")] = candidates
    obtain ⟨same, keeps⟩ := linked_keeps candidates { project }
    rcases persistRefs_spec update (candidates.foldl link { project }) w with ⟨world, _⟩ | world
    · rw [world]
      exact recorded
    · rw [world]
      have whole := @Recorded.extend self w recorded project (recordOn (candidates.foldl link { project }).project
          (candidates.foldl link { project }).refsAdded) [] stored same
        (fun r member => mem_foldl_merge _ (keeps r member)) (fun call member => absurd member List.not_mem_nil)
        List.nodup_nil (fun call member => absurd member List.not_mem_nil) (fun call member => absurd member List.not_mem_nil)
      rwa [List.append_nil] at whole

theorem recorded_step (w : ProvisioningWorld) (call : ProvisioningCall) (w' : ProvisioningWorld)
    (recorded : self.Recorded w) (allowed : self.Vacant w call ∧ Updates call) (taken : self.step w call = some w') :
    self.Recorded w' := by
  obtain ⟨vacant, updates⟩ := allowed
  cases call with
  | createCanonical name description =>
    cases taken
    exact recorded_createCanonical recorded name description
  | createConnected name description answers update =>
    cases taken
    cases updates
    refine recorded_provision (recorded_createCanonical recorded name description) _ answers ?_
    intro project found
    rw [createCanonical_bare found]
    intro slot port configured ref member
    cases member
  | provision projectId answers update =>
    cases taken
    cases updates
    exact recorded_provision recorded projectId answers vacant
  | bootstrap projectId external update =>
    cases taken
    exact recorded_bootstrap recorded projectId external update

/-- OpenProject, GitLab and XWiki; every character counts as a letter. -/
def threeProviders : ProjectProvisioningService where
  workManagement := some ⟨"openproject", "project"⟩
  sourceControl := some ⟨"gitlab", "project"⟩
  documentation := some ⟨"xwiki", "space"⟩
  isAlnum := fun _ => true

def allCreate (externalId : String) : CreateAnswers := fun _ => .ok (externalId, none)

end ProjectProvisioningService

end Brain
