import Brain.Bootstrap.Loops
import Brain.Lib.Scan
import Brain.Projection.Writes

namespace Brain
open Calls OpenProjectIngestionService

/-! ### What ingestion leaves to a sweep -/

def World.shapes (w : World) : List (List ExternalReference × ProjectId) :=
  w.workItems.items.map fun item => (item.externalRefs, item.projectId)

def mappedOf (items : List WorkItem) : List String :=
  items.filterMap fun item => (workItemProviderRef item).map ExternalReference.externalId

/-- The mapped work packages of a project, in the order of the repository. -/
def World.mapped (w : World) (projectId : ProjectId) : List String := mappedOf (w.listWorkItemsByProject projectId)

theorem mapped_shapes (w : World) (projectId : ProjectId) : w.mapped projectId =
    (w.shapes.filter fun shape => shape.2 = projectId).filterMap fun shape =>
      (findProviderRef shape.1 "work_package").map ExternalReference.externalId := by
  simp only [World.mapped, mappedOf, World.listWorkItemsByProject, World.shapes, List.filter_map, List.filterMap_map]
  rfl

/-- The step from `w` to `t` adds work items at the end only, and no fetch. -/
structure Extends (w t : World) : Prop where
  shapes : Issued w → Issued t ∧ w.shapes <+: t.shapes
  watermarks : t.watermarks = w.watermarks
  fetched : t.fetched = w.fetched

instance : IsPreorder World Extends where
  refl _ := ⟨fun issued => ⟨issued, List.prefix_refl _⟩, rfl, rfl⟩
  trans _ _ _ first second := by
    refine ⟨fun issued => ?_, second.watermarks.trans first.watermarks, second.fetched.trans first.fetched⟩
    obtain ⟨between, early⟩ := first.shapes issued
    exact ⟨(second.shapes between).1, early.trans (second.shapes between).2⟩

variable {w : World}

theorem mapped_prefix {t : World} (shapes : w.shapes <+: t.shapes) (projectId : ProjectId) :
    ∃ new, t.mapped projectId = w.mapped projectId ++ new := by
  obtain ⟨later, same⟩ := shapes
  rw [mapped_shapes, mapped_shapes, ← same, List.filter_append, List.filterMap_append]
  exact ⟨_, rfl⟩

section
variable {s : OpenProjectWorkItemSnapshot} {ingesting : Bool} {w t : World}

theorem CanonicalWrite.shapes (write : CanonicalWrite s ingesting w t) (issued : Issued w) : w.shapes <+: t.shapes := by
  have unchanged : t.workItems = w.workItems → w.shapes <+: t.shapes := by
    intro items
    simp only [World.shapes, items, List.prefix_refl]
  have rewritten : ∀ item rewritten : WorkItem, item ∈ w.workItems.items → t = World.putWorkItem rewritten w →
      item.id = rewritten.id → (item.externalRefs, item.projectId) = (rewritten.externalRefs, rewritten.projectId) →
      w.shapes <+: t.shapes := by
    rintro item rewritten stored rfl sameId sameShape
    have same : (World.putWorkItem rewritten w).shapes = w.shapes := Keyed.map_upsert _ stored sameId sameShape
    exact same ▸ List.prefix_refl _
  cases write with
  | apart apart => exact unchanged apart.workItems
  | create projectId _ _ =>
    have unused : ∀ entry ∈ w.workItems.items, entry.id ≠ .v4 w.nextUuid := fun entry stored => (issued entry stored).ne_fresh
    have appended : (World.putWorkItem (newWorkItem (.v4 w.nextUuid) s projectId) { w with nextUuid := w.nextUuid + 1 }).workItems.items =
        w.workItems.items ++ [newWorkItem (.v4 w.nextUuid) s projectId] := Keyed.items_upsert_fresh unused
    unfold World.shapes
    rw [appended, List.map_append]
    exact List.prefix_append _ _
  | @apply item _ own => exact rewritten item _ (package_stored own) rfl rfl rfl
  | @adopt item _ _ own _ _ _ => exact rewritten item _ (package_stored own) rfl rfl rfl
  | relate _ _ _ _ _ _ _ _ _ => exact unchanged createRelation_workItems
  | project _ projected =>
    obtain ⟨entities, rfl⟩ := projected
    exact unchanged rfl

theorem CanonicalWrite.extends (write : CanonicalWrite s ingesting w t) : Extends w t := by
  refine ⟨fun issued => ⟨write.issued issued, write.shapes issued⟩, ?_, ?_⟩
  · cases write with
    | apart apart => exact apart.watermarks
    | relate _ _ _ _ _ _ _ _ _ => unfold World.createRelation; split <;> rfl
    | project _ projected => obtain ⟨entities, rfl⟩ := projected; rfl
    | create _ _ _ => rfl
    | apply _ _ => rfl
    | adopt _ _ _ _ => rfl
  · cases write with
    | apart apart => exact apart.fetched
    | relate _ _ _ _ _ _ _ _ _ => unfold World.createRelation; split <;> rfl
    | project _ projected => obtain ⟨entities, rfl⟩ := projected; rfl
    | create _ _ _ => rfl
    | apply _ _ => rfl
    | adopt _ _ _ _ => rfl

theorem CanonicalWrites.extends (writes : CanonicalWrites s ingesting w t) : Extends w t := by
  induction writes with
  | refl => exact refl_of Extends w
  | tail _ write ih => exact trans_of Extends ih write.extends

end

theorem Ingests.extends {self : OpenProjectIngestionService} {o : Outside} {options : IngestOptions}
    {s : OpenProjectWorkItemSnapshot} {t : World} (ingests : self.Ingests o options s w t) : Extends w t := by
  obtain ⟨n, result, returned, rfl⟩ := ingests
  have finished := self.ingestWorkItemSnapshot_finishes options (o := o) (s := s) (w := w) n
  rw [returned] at finished
  exact CanonicalWrites.extends finished.1

theorem Records.extends {t : World} (records : WorkManagementPullSyncService.Records w t) : Extends w t := by
  obtain ⟨conflict, rfl⟩ := records
  exact ⟨fun issued => ⟨issued, List.prefix_refl _⟩, rfl, rfl⟩

theorem Sound.issued (sound : Sound w) : Issued w := sound.workItems.below

theorem Sound.noteFetch (sound : Sound w) (x : String) : Sound (World.noteFetch x w) :=
  ⟨sound.workItems, sound.attachments, sound.comments, sound.parents, sound.ends, sound.triples,
    sound.relationIds, sound.mappings⟩

theorem Sound.saveWatermark (sound : Sound w) (watermark : ProviderSyncWatermark) :
    Sound (World.saveWatermark watermark w) :=
  ⟨sound.workItems, sound.attachments, sound.comments, sound.parents, sound.ends, sound.triples,
    sound.relationIds, sound.mappings⟩

theorem Sound.mapped_nodup (sound : Sound w) (projectId : ProjectId) : (w.mapped projectId).Nodup := by
  have items : (w.listWorkItemsByProject projectId).Nodup := (List.Nodup.of_map WorkItem.id w.workItems.nodup).filter _
  have named : ∀ item ∈ w.workItems.items, ∀ x, (workItemProviderRef item).map ExternalReference.externalId = some x →
      item.externalRefs = [openProjectRef x "work_package"] := by
    intro item stored x isRef
    obtain ⟨y, refs⟩ := sound.workItems.named item stored
    have same : y = x := by simpa [workItemProviderRef, findProviderRef, refs, openProjectRef] using isRef
    rw [refs, same]
  refine List.pairwise_filterMap.mpr (items.imp_of_mem ?_)
  rintro item item' listed listed' different x isRef _ isRef' rfl
  have stored := (List.mem_filter.mp listed).1
  have stored' := (List.mem_filter.mp listed').1
  refine different (sound.workItems.unique item stored item' stored' ?_)
  rw [named item stored x isRef, named item' stored' x isRef']

/-! ### The sweep -/

namespace WorkManagementPullSyncService
variable (self : WorkManagementPullSyncService)

/-- The provider returns a snapshot of the work package. -/
def provides (x : String) : Bool := (self.provider.getWorkPackageSnapshot x).isSome

variable {projectId : ProjectId}

theorem sweepItems_fetches {o : Outside} {w : World} {seen : List String} (items : List WorkItem) (swept : Nat)
    (sound : Sound w) : Meets o (self.sweepItems projectId seen items swept) w (byResult
      (fun _ t => Sound t ∧ w.shapes <+: t.shapes ∧ t.watermarks = w.watermarks ∧
        t.fetched = w.fetched ++ Scan.taken seen.contains self.provides self.sweepLimit (mappedOf items) swept)
      (fun _ _ => True)) := by
  induction items generalizing swept w with
  | nil => exact Meets.pure ⟨sound, List.prefix_refl _, rfl, by simp [mappedOf, Scan.taken]⟩
  | cons item items ih =>
    unfold sweepItems
    by_cases full : self.sweepLimit ≤ swept
    · rw [if_pos full]
      refine Meets.pure ⟨sound, List.prefix_refl _, rfl, ?_⟩
      cases mappedOf (item :: items) with
      | nil => simp [Scan.taken]
      | cons x xs => simp [Scan.taken, full]
    rw [if_neg full]
    cases isRef : workItemProviderRef item with
    | none =>
      have same : mappedOf (item :: items) = mappedOf items := by simp [mappedOf, isRef]
      rw [same]
      exact ih swept sound
    | some ref =>
      have same : mappedOf (item :: items) = ref.externalId :: mappedOf items := by simp [mappedOf, isRef]
      rw [same, Scan.taken, if_neg full]
      dsimp only
      by_cases skipped : seen.contains ref.externalId = true
      · rw [if_pos skipped, if_pos skipped]
        exact ih swept sound
      rw [if_neg skipped, if_neg skipped]
      refine Meets.bind (Meets.call ?_ fun _ _ _ => trivial)
      dsimp only [byResult]
      -- the fetch comes first, then the ingestion of what it returned
      have noted : ∀ {t : World} {xs : List String}, w.shapes <+: t.shapes → t.watermarks = w.watermarks →
          t.fetched = (World.noteFetch ref.externalId w).fetched ++ xs →
          w.shapes <+: t.shapes ∧ t.watermarks = w.watermarks ∧ t.fetched = w.fetched ++ ref.externalId :: xs := by
        intro t xs shapes watermarks fetched
        refine ⟨shapes, watermarks, fetched.trans ?_⟩
        simp [World.noteFetch]
      have later := sound.noteFetch ref.externalId
      cases answer : self.provider.getWorkPackageSnapshot ref.externalId with
      | none =>
        have unprovided : self.provides ref.externalId = false := by simp [provides, answer]
        rw [unprovided]
        refine (ih swept later).mono ?_
        intro r t reached
        cases r with
        | error _ => trivial
        | ok _ =>
          obtain ⟨soundAfter, shapes, watermarks, fetched⟩ := reached
          exact ⟨soundAfter, noted shapes watermarks fetched⟩
      | some snapshot =>
        have provided : self.provides ref.externalId = true := by simp [provides, answer]
        rw [provided]
        refine Meets.seq _ (ingestWorkItemSnapshot_ends _ snapshot later) ?_ (fun _ _ _ => trivial)
        rintro _ t ⟨ingests, soundBetween⟩
        have extends' := Ingests.extends ingests
        have between := (extends'.shapes later.issued).2
        refine (ih (swept + 1) soundBetween).mono ?_
        intro r u reached
        cases r with
        | error _ => trivial
        | ok _ =>
          obtain ⟨soundAfter, shapes, watermarks, fetched⟩ := reached
          rw [extends'.fetched] at fetched
          exact ⟨soundAfter, noted (between.trans shapes) (watermarks.trans extends'.watermarks) fetched⟩

/-! ### A cycle -/

/-- The start of the window, when the clock shows `current`. -/
def sinceAt (watermark : ProviderSyncWatermark) (current : Time) : Time :=
  match watermark.lastSyncedAt, watermark.bootstrapCompletedAt with
  | some lastSyncedAt, _ => lastSyncedAt
  | none, some bootstrapCompletedAt => bootstrapCompletedAt - overlapSeconds
  | none, none => current - self.sinceDays * secondsPerDay

theorem since_eq (watermark : ProviderSyncWatermark) : self.since watermark = (do
    let current ← now
    pure (self.sinceAt watermark current)) := by
  obtain ⟨_, _, lastSyncedAt, _, bootstrapCompletedAt⟩ := watermark
  cases lastSyncedAt with
  | some _ => rfl
  | none => cases bootstrapCompletedAt <;> rfl

def watermarkOf (projectExternalId : String) (w : World) : ProviderSyncWatermark :=
  (World.getOrCreateWatermark "openproject" ("work_items:" ++ projectExternalId) w).1

/-- The work packages that the list calls of a cycle return. -/
def windowIds (since : Time) (projectExternalId : String) : List String :=
  (self.window since projectExternalId).map OpenProjectWorkItemSnapshot.externalId

/-- What the sweep of a cycle asks for, when the project has these mapped work packages. -/
def sweptIds (watermark : ProviderSyncWatermark) (projectExternalId : String) (mapped : List String) : List String :=
  match watermark.lastSyncedAt with
  | none => []
  | some since => Scan.taken (self.windowIds since projectExternalId).contains self.provides self.sweepLimit mapped 0

variable {o : Outside} {w : World}

/-- A cycle ends with its sweep, when its watermark was synced before, and saves
the watermark. -/
theorem finishSync_ends (watermark : ProviderSyncWatermark) (result : PullSyncResult) (seen : List String)
    (I : World → Prop)
    (sweeps : watermark.lastSyncedAt.isSome = true →
      Meets o (self.sweepMissing projectId seen) w (byResult (fun _ t => I t) (fun _ _ => True)))
    (skips : ¬ watermark.lastSyncedAt.isSome = true → I w) :
    Meets o (self.finishSync projectId watermark result seen) w (byResult
      (fun r t => r.status = result.status ∧ ∃ u savedAt, I u ∧ t = World.saveWatermark { watermark with
        lastSyncedAt := some savedAt
        lastExternalId := seen.getLast?.or watermark.lastExternalId } u)
      (fun _ _ => True)) := by
  have finish : ∀ (itemsSwept : Nat) (u : World), I u → Meets o (do
      let lastSyncedAt ← now
      command .pullWatermarkSave (World.saveWatermark { watermark with
        lastSyncedAt := some lastSyncedAt
        lastExternalId := seen.getLast?.or watermark.lastExternalId })
      pure { result with
        itemsSwept
        details := result.details ++ ["watermark advanced; " ++ toString result.itemsPulled ++ " pulled"] } : Prog PullSyncResult) u
      (byResult
        (fun r t => r.status = result.status ∧ ∃ u savedAt, I u ∧ t = World.saveWatermark { watermark with
          lastSyncedAt := some savedAt
          lastExternalId := seen.getLast?.or watermark.lastExternalId } u)
        (fun _ _ => True)) := by
    intro itemsSwept u reached
    refine Meets.bind (Meets.now fun savedAt => ?_)
    dsimp only [byResult]
    refine Meets.bind (Meets.command ?_ (fun _ _ => trivial) (fun _ _ => trivial))
    exact Meets.pure ⟨rfl, u, savedAt, reached, rfl⟩
  unfold finishSync
  by_cases synced : watermark.lastSyncedAt.isSome = true
  · rw [if_pos synced]
    exact Meets.seq _ (sweeps synced) (fun swept t reached => finish swept t reached) (fun _ _ _ => trivial)
  · rw [if_neg synced]
    exact Meets.bind (Meets.pure (finish result.itemsSwept w (skips synced)))

theorem finishSync_sweeps (watermark : ProviderSyncWatermark) (result : PullSyncResult) (seen : List String)
    (sound : Sound w) :
    Meets o (self.finishSync projectId watermark result seen) w (byResult
      (fun r t => Sound t ∧ w.shapes <+: t.shapes ∧ r.status = result.status ∧ t.fetched = w.fetched ++
        if watermark.lastSyncedAt.isSome then Scan.taken seen.contains self.provides self.sweepLimit (w.mapped projectId) 0 else [])
      (fun _ _ => True)) := by
  refine (self.finishSync_ends watermark result seen (fun t => Sound t ∧ w.shapes <+: t.shapes ∧ t.fetched = w.fetched ++
    if watermark.lastSyncedAt.isSome then Scan.taken seen.contains self.provides self.sweepLimit (w.mapped projectId) 0
    else []) ?_ ?_).mono ?_
  · intro synced
    rw [if_pos synced]
    refine Meets.bind (Meets.query ?_ fun _ _ _ => trivial)
    dsimp only [byResult]
    refine (self.sweepItems_fetches (w.listWorkItemsByProject projectId) 0 sound).mono ?_
    intro r t reached
    cases r with
    | error _ => trivial
    | ok _ =>
      obtain ⟨soundAfter, shapes, _, fetched⟩ := reached
      exact ⟨soundAfter, shapes, fetched⟩
  · intro unsynced
    rw [if_neg unsynced]
    exact ⟨sound, List.prefix_refl _, (List.append_nil _).symm⟩
  · intro r t reached
    cases r with
    | error _ => trivial
    | ok _ =>
      obtain ⟨status, u, savedAt, ⟨soundHere, shapes, fetched⟩, rfl⟩ := reached
      exact ⟨soundHere.saveWatermark _, shapes, status, fetched⟩

/-- A cycle that returns `ok` asks for what its sweep takes of the work packages
mapped before, followed by those it created itself. -/
theorem syncProject_sweeps {project : Project} {ref : ExternalReference} (isRef : providerProjectRef project = some ref)
    (sound : Sound w) : Meets o (self.syncProject project) w (byResult
      (fun r t => Sound t ∧ w.shapes <+: t.shapes ∧ (r.status = "ok" → ∃ new, t.fetched = w.fetched ++
        self.sweptIds (watermarkOf ref.externalId w) ref.externalId (w.mapped project.id ++ new)))
      (fun _ _ => True)) := by
  unfold syncProject watermarkOf
  rw [isRef]
  dsimp only
  refine Meets.bind (Meets.call ?_ fun _ _ _ => trivial)
  dsimp only [byResult]
  have rest := getOrCreateWatermark_rest "openproject" ("work_items:" ++ ref.externalId) w
  generalize World.getOrCreateWatermark "openproject" ("work_items:" ++ ref.externalId) w = got at rest ⊢
  obtain ⟨watermark, u⟩ := got
  dsimp only at rest ⊢
  have soundHere : Sound u := by
    rw [rest]
    exact ⟨sound.workItems, sound.attachments, sound.comments, sound.parents, sound.ends, sound.triples,
      sound.relationIds, sound.mappings⟩
  have sameItems : u.workItems = w.workItems := by rw [rest]
  have sameFetched : u.fetched = w.fetched := by rw [rest]
  rw [since_eq]
  refine Meets.bind (Meets.bind (Meets.now fun current => ?_))
  dsimp only [byResult]
  refine Meets.pure ?_
  dsimp only [byResult]
  refine Meets.seq _ (self.pullLoop_pulls _ soundHere (Nat.lt_succ_self _)) ?_ (fun _ _ _ => trivial)
  rintro pulled t ⟨soundAfter, result, snapshots, later, rfl, window, walk, complete⟩
  have extends' : Extends u t := walk.within (fun _ _ _ _ ingests => Ingests.extends ingests) (fun _ _ => Records.extends)
  have shapes : w.shapes <+: t.shapes := by
    have between := (extends'.shapes soundHere.issued).2
    simpa only [World.shapes, sameItems] using between
  dsimp only [Option.getD_some]
  refine (self.finishSync_sweeps watermark result _ soundAfter).mono ?_
  intro r v reached
  cases r with
  | error _ => trivial
  | ok r =>
    obtain ⟨soundEnd, shapes', status, fetched⟩ := reached
    refine ⟨soundEnd, shapes.trans shapes', fun succeeded => ?_⟩
    obtain ⟨new, mapped⟩ := mapped_prefix shapes project.id
    refine ⟨new, ?_⟩
    rw [fetched, extends'.fetched, sameFetched, mapped, sweptIds]
    have whole : later = [] := by
      rcases complete with whole | ⟨missing, _⟩
      · exact whole
      · rw [status, missing] at succeeded
        simp at succeeded
    cases isSynced : watermark.lastSyncedAt with
    | none => rfl
    | some since =>
      have start : self.sinceAt watermark current = since := by simp [sinceAt, isSynced]
      rw [start, whole, List.append_nil] at window
      dsimp only [windowIds]
      rw [window]
      rfl

end WorkManagementPullSyncService

end Brain

namespace Brain
open Calls

/-- One run of the scheduler: what the provider holds while it lasts, and how
the calls to the outside end. -/
structure Cycle where
  provider : OpenProjectAdapter
  outside : Outside

/-- The work packages asked for since `w`. -/
def World.fetchedSince (w t : World) : List String := t.fetched.drop w.fetched.length

namespace WorkManagementPullSyncService
variable (self : WorkManagementPullSyncService)

def during (cycle : Cycle) : WorkManagementPullSyncService := { self with provider := cycle.provider }

def cycleEnded (project : Project) (cycle : Cycle) (w : World) : Calls.Run Site PyException World PullSyncResult :=
  (self.during cycle).syncProject project cycle.outside 0 w

def afterCycles (project : Project) : List Cycle → World → World
  | [], w => w
  | cycle :: cycles, w => afterCycles project cycles (self.cycleEnded project cycle w).store

def succeeded : Except Raised PullSyncResult → Bool
  | .ok result => result.status = "ok"
  | .error _ => false

/-- Every cycle returns `ok`. -/
def Succeed (project : Project) : List Cycle → World → Prop
  | [], _ => True
  | cycle :: cycles, w => succeeded (self.cycleEnded project cycle w).result = true ∧
      Succeed project cycles (self.cycleEnded project cycle w).store

instance decidableSucceed (project : Project) : (cycles : List Cycle) → (w : World) → Decidable (self.Succeed project cycles w)
  | [], _ => isTrue trivial
  | cycle :: cycles, w =>
    have := decidableSucceed project cycles (self.cycleEnded project cycle w).store
    inferInstanceAs (Decidable (_ ∧ _))

def windows (project : Project) (projectExternalId : String) : List Cycle → World → List String
  | [], _ => []
  | cycle :: cycles, w =>
    (self.during cycle).windowIds ((self.during cycle).sinceAt (watermarkOf projectExternalId w) (cycle.outside.clock 1))
        projectExternalId ++
      windows project projectExternalId cycles (self.cycleEnded project cycle w).store

/-- The mapped work packages of the project that are in no window. -/
def missed (project : Project) (projectExternalId : String) (cycles : List Cycle) (w : World) : List String :=
  (w.mapped project.id).filter fun x => !(self.windows project projectExternalId cycles w).contains x

section
variable {self} {project : Project} {ref : ExternalReference} {cycle : Cycle} {cycles : List Cycle} {w : World}

theorem mem_missed {x : String} : x ∈ self.missed project ref.externalId cycles w ↔
    x ∈ w.mapped project.id ∧ x ∉ self.windows project ref.externalId cycles w := by
  simp [missed]

theorem cycleEnded_sweeps (isRef : providerProjectRef project = some ref) (sound : Sound w)
    (succeeds : succeeded (self.cycleEnded project cycle w).result = true) :
    Sound (self.cycleEnded project cycle w).store ∧ w.shapes <+: (self.cycleEnded project cycle w).store.shapes ∧
      ∃ new, (self.cycleEnded project cycle w).store.fetched = w.fetched ++
        (self.during cycle).sweptIds (watermarkOf ref.externalId w) ref.externalId (w.mapped project.id ++ new) := by
  have ended := (self.during cycle).syncProject_sweeps (o := cycle.outside) isRef sound 0
  unfold cycleEnded at succeeds ⊢
  cases returned : ((self.during cycle).syncProject project cycle.outside 0 w).result with
  | error e =>
    rw [returned] at succeeds
    cases succeeds
  | ok result =>
    rw [returned] at ended succeeds
    exact ⟨ended.1, ended.2.1, ended.2.2 (of_decide_eq_true succeeds)⟩

theorem never_fetched (isRef : providerProjectRef project = some ref) {missing early late : List String} {x : String}
    (sound : Sound w) (succeed : self.Succeed project cycles w)
    (provided : ∀ cycle ∈ cycles, ∀ y ∈ missing, (self.during cycle).provides y = true)
    (unseen : ∀ y ∈ missing, y ∉ self.windows project ref.externalId cycles w)
    (split : w.mapped project.id = early ++ x :: late) (absent : x ∉ early)
    (behind : self.sweepLimit ≤ (early.filter missing.contains).length) :
    ∃ fetched, (self.afterCycles project cycles w).fetched = w.fetched ++ fetched ∧ x ∉ fetched := by
  induction cycles generalizing w late with
  | nil => exact ⟨[], (List.append_nil _).symm, List.not_mem_nil⟩
  | cons cycle cycles ih =>
    obtain ⟨soundAfter, shapes, new, fetched⟩ := cycleEnded_sweeps isRef sound succeed.1
    obtain ⟨later, mapped⟩ := mapped_prefix shapes project.id
    rw [split, List.append_assoc, List.cons_append] at mapped
    obtain ⟨rest, restFetched, notRest⟩ := ih soundAfter succeed.2
      (fun cycle' listed => provided cycle' (List.mem_cons_of_mem _ listed))
      (fun y listed seen => unseen y listed (List.mem_append_right _ seen)) mapped
    refine ⟨_, by rw [afterCycles, restFetched, fetched, List.append_assoc], ?_⟩
    rw [List.mem_append, not_or]
    refine ⟨?_, notRest⟩
    unfold sweptIds
    cases isSynced : (watermarkOf ref.externalId w).lastSyncedAt with
    | none => exact List.not_mem_nil
    | some since =>
      have start : (self.during cycle).sinceAt (watermarkOf ref.externalId w) (cycle.outside.clock 1) = since := by
        simp [sinceAt, isSynced]
      rw [split, List.append_assoc, List.cons_append]
      refine Scan.not_mem_taken absent (Nat.le_trans behind ?_)
      rw [Nat.zero_add]
      refine Scan.filter_le_weight fun y _ isMissing => ?_
      have listed : y ∈ missing := by simpa using isMissing
      refine ⟨?_, provided cycle (List.mem_cons_self ..) y listed⟩
      have unseenHere : y ∉ (self.during cycle).windowIds since ref.externalId := by
        intro seen
        refine unseen y listed (List.mem_append_left _ ?_)
        rwa [start]
      simpa using unseenHere

theorem missed_contains {x : String} (inMapped : x ∈ w.mapped project.id) :
    (self.missed project ref.externalId cycles w).contains x = !(self.windows project ref.externalId cycles w).contains x := by
  rw [Bool.eq_iff_iff, List.contains_iff_mem, mem_missed]
  simp [inMapped]

theorem one_starves (isRef : providerProjectRef project = some ref) (sound : Sound w)
    (succeed : self.Succeed project cycles w)
    (provided : ∀ cycle ∈ cycles, ∀ x ∈ self.missed project ref.externalId cycles w, (self.during cycle).provides x = true)
    (more : self.sweepLimit < (self.missed project ref.externalId cycles w).length) :
    ∃ x ∈ self.missed project ref.externalId cycles w, x ∉ w.fetchedSince (self.afterCycles project cycles w) := by
  obtain ⟨early, x, late, split, selected, before⟩ := Scan.split_at_filter more
  have nodup := sound.mapped_nodup project.id
  rw [split] at nodup
  have absent : x ∉ early := fun listed => List.disjoint_of_nodup_append nodup listed (List.mem_cons_self ..)
  have isMissed : x ∈ self.missed project ref.externalId cycles w := by
    rw [mem_missed, split]
    exact ⟨by simp, by simpa using selected⟩
  have behind : self.sweepLimit ≤ (early.filter (self.missed project ref.externalId cycles w).contains).length := by
    refine Nat.le_of_eq (before.symm.trans (congrArg List.length (List.filter_congr fun y isEarly => ?_)))
    exact (missed_contains (by simp [split, isEarly])).symm
  obtain ⟨fetched, all, never⟩ := never_fetched isRef sound succeed provided
    (fun y listed => (mem_missed.mp listed).2) split absent behind
  refine ⟨x, isMissed, ?_⟩
  rw [World.fetchedSince, all, List.drop_left]
  exact never

theorem unsynced_asks_nothing (isRef : providerProjectRef project = some ref) (sound : Sound w)
    (succeed : self.Succeed project [cycle] w) (unsynced : (watermarkOf ref.externalId w).lastSyncedAt = none) :
    w.fetchedSince (self.afterCycles project [cycle] w) = [] := by
  obtain ⟨_, _, new, fetched⟩ := cycleEnded_sweeps isRef sound succeed.1
  rw [World.fetchedSince, afterCycles, afterCycles, fetched, List.drop_left, sweptIds, unsynced]

theorem one_sweep_covers (isRef : providerProjectRef project = some ref) (sound : Sound w)
    (succeed : self.Succeed project [cycle] w)
    (provided : ∀ x ∈ self.missed project ref.externalId [cycle] w, (self.during cycle).provides x = true)
    (within : (self.missed project ref.externalId [cycle] w).length ≤ self.sweepLimit)
    (synced : (watermarkOf ref.externalId w).lastSyncedAt.isSome = true) :
    ∀ x ∈ self.missed project ref.externalId [cycle] w, x ∈ w.fetchedSince (self.afterCycles project [cycle] w) := by
  intro x isMissed
  obtain ⟨_, _, new, fetched⟩ := cycleEnded_sweeps isRef sound succeed.1
  obtain ⟨since, isSynced⟩ := Option.isSome_iff_exists.mp synced
  have start : (self.during cycle).sinceAt (watermarkOf ref.externalId w) (cycle.outside.clock 1) = since := by
    simp [sinceAt, isSynced]
  have window : self.windows project ref.externalId [cycle] w = (self.during cycle).windowIds since ref.externalId := by
    simp [windows, start]
  obtain ⟨inMapped, unseen⟩ := mem_missed.mp isMissed
  rw [window] at unseen
  rw [World.fetchedSince, afterCycles, afterCycles, fetched, List.drop_left, sweptIds, isSynced]
  refine Scan.mem_taken inMapped (by simpa using unseen) (provided x isMissed) ?_
  rw [Nat.zero_add]
  -- what the sweep does not skip on its way is missed
  refine Nat.le_trans (Scan.weight_le_filter (p := (self.missed project ref.externalId [cycle] w).contains)
    fun y inMapped taken => ?_) ?_
  · rw [missed_contains inMapped, window]
    simpa using taken
  refine Nat.le_trans (Nat.le_of_eq ?_) within
  exact congrArg List.length (List.filter_congr fun y inMapped => missed_contains inMapped)

end

/-- As many cycles as the limit needs for the missed work packages ask for all of
them exactly when one sweep does. -/
theorem sweep_covers_iff (project : Project) {ref : ExternalReference} (isRef : providerProjectRef project = some ref)
    (positive : 0 < self.sweepLimit) (cycles : List Cycle) {w : World} (sound : Sound w)
    (succeed : self.Succeed project cycles w)
    (provided : ∀ cycle ∈ cycles, ∀ x ∈ self.missed project ref.externalId cycles w, (self.during cycle).provides x = true)
    (count : cycles.length = ((self.missed project ref.externalId cycles w).length + self.sweepLimit - 1) / self.sweepLimit) :
    (∀ x ∈ self.missed project ref.externalId cycles w, x ∈ w.fetchedSince (self.afterCycles project cycles w)) ↔
      self.missed project ref.externalId cycles w = [] ∨
        ((self.missed project ref.externalId cycles w).length ≤ self.sweepLimit ∧
          (watermarkOf ref.externalId w).lastSyncedAt.isSome = true) := by
  by_cases none : self.missed project ref.externalId cycles w = []
  · simp [none]
  have some : 0 < (self.missed project ref.externalId cycles w).length := List.length_pos_iff.mpr none
  rw [or_iff_right none]
  by_cases within : (self.missed project ref.externalId cycles w).length ≤ self.sweepLimit
  · -- within the limit there is a single cycle
    have one : ((self.missed project ref.externalId cycles w).length + self.sweepLimit - 1) / self.sweepLimit = 1 := by
      rw [Nat.div_eq_iff positive]
      omega
    obtain ⟨cycle, rfl⟩ := List.length_eq_one_iff.mp (count.trans one)
    constructor
    · intro covered
      refine ⟨within, ?_⟩
      by_contra unsynced
      obtain ⟨x, isMissed⟩ := List.exists_mem_of_length_pos some
      have asked := covered x isMissed
      rw [unsynced_asks_nothing isRef sound succeed (by simpa using unsynced)] at asked
      cases asked
    · rintro ⟨_, synced⟩
      exact one_sweep_covers isRef sound succeed (provided cycle (List.mem_cons_self ..)) within synced
  · constructor
    · intro covered
      obtain ⟨x, isMissed, never⟩ := one_starves isRef sound succeed provided (Nat.lt_of_not_le within)
      exact absurd (covered x isMissed) never
    · rintro ⟨less, _⟩
      exact absurd less within

/-- A project of the provider with two mapped work packages, synced before. -/
def mappedProject : Project := { id := .v5 "project", name := "Project", externalRefs := [openProjectRef "10" "project"] }

def twoMapped : World :=
  let imported (x : String) := Call.undisturbed (.ingest { externalId := x }
    { mode := .bootstrap, source := "bootstrap", projectId := some mappedProject.id })
  World.saveWatermark { provider := "openproject", syncKey := "work_items:10", lastSyncedAt := some 0 }
    (OpenProjectIngestionService.after {} [imported "1", imported "2"]
      (World.start ((Keyed.empty : Keyed Project.id).upsert mappedProject) 0))

/-- The provider changes nothing, and returns a snapshot of everything. -/
def quietCycle : Cycle := ⟨⟨{ workPackage := fun x => .dict [("id", .str x)] }⟩, Outside.clean⟩

theorem sweep_covers_iff_two :
    let self : WorkManagementPullSyncService := { provider := quietCycle.provider, sweepLimit := 2 }
    (∀ x ∈ self.missed mappedProject "10" [quietCycle] twoMapped,
        x ∈ twoMapped.fetchedSince (self.afterCycles mappedProject [quietCycle] twoMapped)) ↔
      self.missed mappedProject "10" [quietCycle] twoMapped = [] ∨
        ((self.missed mappedProject "10" [quietCycle] twoMapped).length ≤ 2 ∧
          (watermarkOf "10" twoMapped).lastSyncedAt.isSome = true) := by
  intro self
  have sound : Sound twoMapped := (OpenProjectIngestionService.after_sound {} _ (Sound.start _ 0)).1.saveWatermark _
  exact self.sweep_covers_iff mappedProject rfl (by decide) [quietCycle] sound (by decide +kernel) (by decide +kernel)
    (by decide +kernel)

/-- With a limit of one, two cycles ask twice for the same work package. -/
theorem second_package_starves :
    let self : WorkManagementPullSyncService := { provider := quietCycle.provider, sweepLimit := 1 }
    let cycles := [quietCycle, quietCycle]
    self.Succeed mappedProject cycles twoMapped ∧ self.missed mappedProject "10" cycles twoMapped = ["1", "2"] ∧
      (∀ cycle ∈ cycles, ∀ x ∈ self.missed mappedProject "10" cycles twoMapped, (self.during cycle).provides x = true) ∧
      cycles.length = ((self.missed mappedProject "10" cycles twoMapped).length + self.sweepLimit - 1) / self.sweepLimit ∧
      ¬ ∀ x ∈ self.missed mappedProject "10" cycles twoMapped,
        x ∈ twoMapped.fetchedSince (self.afterCycles mappedProject cycles twoMapped) := by
  decide +kernel

end WorkManagementPullSyncService

end Brain
