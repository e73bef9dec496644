import Brain.Bootstrap.Resume
import Brain.Pull.Cycles

namespace Brain
open Calls OpenProjectIngestionService

namespace OpenProjectIngestionService
variable {self : OpenProjectIngestionService} {w t : World} {options : IngestOptions} {s : OpenProjectWorkItemSnapshot}

theorem Ingested.conflicts {r : Except Raised OpenProjectIngestionResult} (ingested : self.Ingested w options s r t) :
    t.conflicts = w.conflicts := by
  have moved : ∀ u, Moves w u → u.conflicts = w.conflicts := by
    intro u moves
    have same := congrArg World.conflicts moves.outer
    exact same
  cases ingested with
  | stopped stop => exact moved _ stop.moves
  | closed prepared _ publishes =>
    obtain ⟨next, _, rfl⟩ := publishes
    have same := moved _ prepared.moves
    exact same

end OpenProjectIngestionService

/-! ### What a pull cycle keeps -/

namespace WorkManagementPullSyncService
variable (service : WorkManagementPullSyncService)

/-- What the operations of a cycle keep. -/
structure KeptByPulls (I : World → Prop) : Prop where
  ingests : ∀ s options, Preserves I (service.ingestion.ingestWorkItemSnapshot s options)
  records : ∀ s, Preserves I (recordStatusConflict s)
  fetches : ∀ x w, I w → I (World.noteFetch x w)
  watermarks : ∀ (w : World) (watermarks : Keyed ProviderSyncWatermark.key), I w → I { w with watermarks }

variable {service} {I : World → Prop}

theorem pullSnapshots_preserves (kept : service.KeptByPulls I) (projectId : ProjectId)
    (page : List OpenProjectWorkItemSnapshot) (pulled : PullSyncResult × List String) :
    Preserves I (service.pullSnapshots projectId page pulled) := by
  induction page generalizing pulled with
  | nil => exact Preserves.pure pulled
  | cons s page ih => exact Preserves.bind (kept.ingests s _) fun _ => Preserves.bind (kept.records s) fun _ => ih _

theorem pullPage_preserves (kept : service.KeptByPulls I) (projectId : ProjectId) (projectExternalId : String) (since : Time)
    (offset : Nat) (pulled : PullSyncResult × List String) :
    Preserves I (service.pullPage projectId projectExternalId since offset pulled) := by
  refine Preserves.bind (Preserves.attempt Preserves.query) fun answer => ?_
  cases answer with
  | error e =>
    dsimp only
    split
    · exact Preserves.pure _
    · exact Preserves.reraise e
  | ok page => exact Preserves.bind (pullSnapshots_preserves kept projectId page _) fun _ => Preserves.pure _

theorem sweepItems_preserves (kept : service.KeptByPulls I) (projectId : ProjectId) (seen : List String)
    (workItems : List WorkItem) (swept : Nat) : Preserves I (service.sweepItems projectId seen workItems swept) := by
  induction workItems generalizing swept with
  | nil => exact Preserves.pure swept
  | cons workItem workItems ih =>
    unfold sweepItems
    split
    · exact Preserves.pure swept
    · split
      · exact ih swept
      · split
        · exact ih swept
        · refine Preserves.bind (Preserves.call fun w => kept.fetches _ w) fun snapshot => ?_
          cases snapshot with
          | none => exact ih swept
          | some snapshot => exact Preserves.bind (kept.ingests snapshot _) fun _ => ih (swept + 1)

theorem finishSync_preserves (kept : service.KeptByPulls I) (projectId : ProjectId) (watermark : ProviderSyncWatermark)
    (result : PullSyncResult) (seen : List String) : Preserves I (service.finishSync projectId watermark result seen) := by
  have save : ∀ itemsSwept : Nat, Preserves I (do
      let lastSyncedAt ← now
      command .pullWatermarkSave (World.saveWatermark { watermark with
        lastSyncedAt := some lastSyncedAt
        lastExternalId := seen.getLast?.or watermark.lastExternalId })
      pure { result with
        itemsSwept
        details := result.details ++ ["watermark advanced; " ++ toString result.itemsPulled ++ " pulled"] } :
      Prog PullSyncResult) := by
    intro itemsSwept
    refine Preserves.bind Preserves.now fun _ => Preserves.bind (Preserves.call fun w => ?_) fun _ => Preserves.pure _
    exact kept.watermarks w _
  unfold finishSync
  split
  · exact Preserves.bind (Preserves.bind Preserves.query fun workItems => sweepItems_preserves kept projectId seen workItems 0) save
  · exact Preserves.bind (Preserves.pure _) save

/-- A cycle keeps what its operations keep, wherever it raises. -/
theorem syncProject_preserves (kept : service.KeptByPulls I) (project : Project) : Preserves I (service.syncProject project) := by
  unfold syncProject
  split
  · exact Preserves.pure _
  · refine Preserves.bind (Preserves.call fun w held => ?_) fun watermark => ?_
    · rw [getOrCreateWatermark_rest]
      exact kept.watermarks w _ held
    · rw [since_eq]
      refine Preserves.bind (Preserves.bind Preserves.now fun _ => Preserves.pure _) fun since => ?_
      refine Preserves.bind (Preserves.paged (pullPage_preserves kept project.id _ since) _ _ _) fun pulled => ?_
      exact finishSync_preserves kept project.id watermark _ _

end WorkManagementPullSyncService

/-! ### Bootstraps, cycles and webhooks in any order -/

/-- `t` is a later state than `w`: nothing stored was lost or got another id. -/
structure Evolves (w t : World) : Prop where
  sound : Sound t
  owned : Owned t
  persists : Persists w t
  nextUuid : w.nextUuid ≤ t.nextUuid

def SameOpen (c c' : SyncConflict) : Prop :=
  c.workItemId = c'.workItemId ∧ c.providerField = c'.providerField ∧ c.providerValue = c'.providerValue ∧
    c.resolved = false ∧ c'.resolved = false

/-- A conflict on the status of a work item, as `_record_status_conflict` saves it. -/
structure IsStatusConflict (w : World) (c : SyncConflict) : Prop where
  provider : c.provider = "openproject"
  providerField : c.providerField = "status"
  closed : mapHumanWorkStatus c.providerValue = .done ∨ mapHumanWorkStatus c.providerValue = .cancelled
  brainValue : c.brainValue = "verification_pending"
  item : w.packageId c.externalId = some c.workItemId

/-- The register of conflicts only grew from `w` to `t`, and by no second report. -/
structure Registers (w t : World) : Prop where
  grows : ∃ new, t.conflicts = w.conflicts ++ new ∧ ∀ c ∈ new, IsStatusConflict t c
  once : w.conflicts.Pairwise (¬ SameOpen · ·) → t.conflicts.Pairwise (¬ SameOpen · ·)

variable {w t u : World}

theorem Evolves.refl (sound : Sound w) (owned : Owned w) : Evolves w w := ⟨sound, owned, Persists.refl w, Nat.le_refl _⟩

theorem Evolves.trans (first : Evolves w t) (second : Evolves t u) : Evolves w u :=
  ⟨second.sound, second.owned, first.persists.trans second.persists, Nat.le_trans first.nextUuid second.nextUuid⟩

theorem Evolves.step (before : Evolves w t) (kept : Sound u ∧ Persists t u) (comments : u.comments = t.comments)
    (nextUuid : t.nextUuid ≤ u.nextUuid) : Evolves w u := by
  have owned := (commentary_persists before.sound kept.1 kept.2 before.owned comments).2
  exact before.trans ⟨kept.1, owned, kept.2, nextUuid⟩

theorem Evolves.beside (before : Evolves w t) (conflicts : List SyncConflict) (fetched : List String)
    (watermarks : Keyed ProviderSyncWatermark.key) : Evolves w { t with conflicts, fetched, watermarks } := by
  have sound := before.sound
  have persists := before.persists
  exact ⟨⟨sound.workItems, sound.attachments, sound.comments, sound.parents, sound.ends, sound.triples, sound.relationIds,
    sound.mappings⟩, before.owned, ⟨persists.workItems, persists.attachments, persists.comments, persists.relations⟩,
    before.nextUuid⟩

theorem SameIds.packageId (same : SameIds w t) {x : String} {id : WorkItemId} (found : w.packageId x = some id) :
    t.packageId x = some id := by
  obtain ⟨item, isItem, rfl⟩ := Option.map_eq_some_iff.mp found
  obtain ⟨later, foundLater, sameId⟩ := same.workItem _ _ isItem
  exact Option.map_eq_some_iff.mpr ⟨later, foundLater, sameId⟩

theorem Registers.of_same (conflicts : t.conflicts = w.conflicts) : Registers w t :=
  ⟨⟨[], by simp [conflicts], by simp⟩, fun once => conflicts ▸ once⟩

theorem Registers.trans (first : Registers w t) (second : Registers t u)
    (ids : ∀ x id, t.packageId x = some id → u.packageId x = some id) : Registers w u := by
  obtain ⟨new, grown, isNew⟩ := first.grows
  obtain ⟨later, grownLater, isLater⟩ := second.grows
  refine ⟨⟨new ++ later, by rw [grownLater, grown, List.append_assoc], fun c listed => ?_⟩, second.once ∘ first.once⟩
  rcases List.mem_append.mp listed with old | fresh
  · have kept := isNew c old
    exact ⟨kept.provider, kept.providerField, kept.closed, kept.brainValue, ids _ _ kept.item⟩
  · exact isLater c fresh

theorem Registers.of_saved {c : SyncConflict} (isNew : IsStatusConflict w c) (first : ∀ c' ∈ w.conflicts, ¬ SameOpen c' c) :
    Registers w (World.saveConflict c w) := by
  refine ⟨⟨[c], rfl, ?_⟩, fun once => ?_⟩
  · intro c' listed
    rw [List.mem_singleton.mp listed]
    exact ⟨isNew.provider, isNew.providerField, isNew.closed, isNew.brainValue, isNew.item⟩
  · refine List.pairwise_append.mpr ⟨once, List.pairwise_singleton _ _, fun c' old _ listed => ?_⟩
    rw [List.mem_singleton.mp listed]
    exact first c' old

namespace OpenProjectIngestionService
variable (self : OpenProjectIngestionService) {o : Outside}

theorem ingestWorkItemSnapshot_evolves (s : OpenProjectWorkItemSnapshot) (options : IngestOptions)
    (before : Evolves w t) : Meets o (self.ingestWorkItemSnapshot s options) t fun _ u =>
      Evolves w u ∧ u.conflicts = t.conflicts ∧ ∀ x id, t.packageId x = some id → u.packageId x = some id := by
  refine (self.ingestWorkItemSnapshot_ingested options before.sound).mono ?_
  rintro r u ⟨ingested, _⟩
  obtain ⟨comments, _, nextUuid⟩ := ingested.frame
  obtain ⟨sound, persists⟩ := ingested.sound before.sound
  refine ⟨before.step ⟨sound, persists⟩ comments nextUuid, ingested.conflicts, ?_⟩
  exact fun x id => (persists.sameIds before.sound sound).packageId

end OpenProjectIngestionService

namespace WorkManagementPullSyncService
variable {o : Outside}

theorem unreported {s : OpenProjectWorkItemSnapshot} {id : WorkItemId} {c : SyncConflict}
    (unrecorded : ¬ (t.listConflicts id).any (recordsStatus s) = true)
    (new : c.workItemId = id ∧ c.providerField = "status" ∧ c.providerValue = s.state) :
    ∀ c' ∈ t.conflicts, ¬ SameOpen c' c := by
  rintro c' listed ⟨ofItem, isStatus, isState, isOpen, _⟩
  rw [new.1] at ofItem
  rw [new.2.1] at isStatus
  rw [new.2.2] at isState
  refine unrecorded (List.any_eq_true.mpr ⟨c', List.mem_filter.mpr ⟨listed, by simpa using ofItem⟩, ?_⟩)
  simp only [recordsStatus, isStatus, isState, isOpen, decide_true, Bool.not_false, Bool.and_self]

/-- What is saved is the first open report on the status of a stored work item. -/
theorem recordStatusConflict_saves (s : OpenProjectWorkItemSnapshot) :
    Meets o (recordStatusConflict s) t fun _ u => u = t ∨ ∃ c, IsStatusConflict t c ∧
      (∀ c' ∈ t.conflicts, ¬ SameOpen c' c) ∧ u = World.saveConflict c t := by
  unfold recordStatusConflict
  split
  · exact Meets.pure (Or.inl rfl)
  · rename_i closed
    refine Meets.bind (Meets.query ?_ fun _ _ _ => Or.inl rfl)
    dsimp only [byResult]
    split
    · exact Meets.pure (Or.inl rfl)
    · rename_i item found
      have own : t.packageId s.externalId = some item.id := Option.map_eq_some_iff.mpr ⟨item, found, rfl⟩
      split
      · exact Meets.pure (Or.inl rfl)
      · refine Meets.bind (Meets.query ?_ fun _ _ _ => Or.inl rfl)
        dsimp only [byResult]
        split
        · exact Meets.pure (Or.inl rfl)
        · rename_i unrecorded
          have closed : mapHumanWorkStatus s.state = .done ∨ mapHumanWorkStatus s.state = .cancelled := by tauto
          refine Meets.bind (Meets.command ?_ (fun _ _ => Or.inl rfl) fun _ _ => ?_)
          · dsimp only [byResult]
            refine Meets.pure ?_
            exact Or.inr ⟨_, ⟨rfl, rfl, closed, rfl, own⟩, unreported unrecorded ⟨rfl, rfl, rfl⟩, rfl⟩
          · exact Or.inr ⟨_, ⟨rfl, rfl, closed, rfl, own⟩, unreported unrecorded ⟨rfl, rfl, rfl⟩, rfl⟩

theorem syncProject_evolves (service : WorkManagementPullSyncService) (project : Project) :
    Preserves (fun t => Evolves w t ∧ Registers w t) (service.syncProject project) := by
  refine syncProject_preserves ⟨?_, ?_, ?_, ?_⟩ project
  · rintro s options o t ⟨before, registers⟩
    refine (service.ingestion.ingestWorkItemSnapshot_evolves s options before).mono ?_
    exact fun _ _ kept => ⟨kept.1, registers.trans (.of_same kept.2.1) kept.2.2⟩
  · rintro s o t ⟨before, registers⟩
    refine (recordStatusConflict_saves s).mono ?_
    rintro _ _ (rfl | ⟨c, isNew, first, rfl⟩)
    · exact ⟨before, registers⟩
    · exact ⟨before.beside _ t.fetched t.watermarks, registers.trans (.of_saved isNew first) fun _ _ => id⟩
  · rintro x t ⟨before, registers⟩
    exact ⟨before.beside t.conflicts _ t.watermarks, registers.trans (.of_same rfl) fun _ _ => id⟩
  · rintro t watermarks ⟨before, registers⟩
    exact ⟨before.beside t.conflicts t.fetched watermarks, registers.trans (.of_same rfl) fun _ _ => id⟩

end WorkManagementPullSyncService

inductive SyncService
  | bootstrap (service : OpenProjectProjectBootstrapService) (projectId : ProjectId) (externalProjectId : String) (force : Bool)
  | pull (service : WorkManagementPullSyncService) (project : Project)
  | live (ingestion : OpenProjectIngestionService) (snapshot : OpenProjectWorkItemSnapshot) (options : IngestOptions)

/-- A call of a service, with what fails outside while it lasts. -/
structure SyncTurn where
  service : SyncService
  outside : Outside := Outside.clean
  moment : Nat := 0

namespace SyncTurn

/-- The store that a turn leaves, whether or not it raises. -/
def ended (turn : SyncTurn) (w : World) : World :=
  match turn.service with
  | .bootstrap service projectId externalProjectId force =>
    (service.bootstrap projectId externalProjectId force turn.outside turn.moment w).store
  | .pull service project => (service.syncProject project turn.outside turn.moment w).store
  | .live ingestion snapshot options => (ingestion.ingestWorkItemSnapshot snapshot options turn.outside turn.moment w).store

def after (turns : List SyncTurn) (w : World) : World := turns.foldl (fun w turn => turn.ended w) w

/-- A bootstrap is started for a project whose id was drawn before. -/
def Starts (w : World) (turn : SyncTurn) : Prop :=
  match turn.service with
  | .bootstrap _ projectId _ _ => projectId.Below w.nextUuid
  | _ => True

def isIncremental (turn : SyncTurn) : Bool :=
  match turn.service with
  | .bootstrap .. => false
  | _ => true

theorem evolves (turn : SyncTurn) (sound : Sound w) (owned : Owned w) (starts : turn.Starts w) :
    Evolves w (turn.ended w) ∧ (turn.isIncremental = true → Registers w (turn.ended w)) := by
  obtain ⟨service, o, n⟩ := turn
  have here := Evolves.refl sound owned
  cases service with
  | bootstrap service projectId externalProjectId force =>
    refine ⟨?_, fun live => by cases live⟩
    have ended := @OpenProjectProjectBootstrapService.bootstrap_leaves service projectId o w externalProjectId force sound owned
      starts n
    show Evolves w (service.bootstrap projectId externalProjectId force o n w).store
    cases result : (service.bootstrap projectId externalProjectId force o n w).result with
    | ok r =>
      rw [result] at ended
      rcases ended with ⟨_, same⟩ | ⟨_, leaves⟩
      · rw [same]
        exact here
      · exact ⟨leaves.sound, leaves.owned, leaves.persists, leaves.nextUuid⟩
    | error e =>
      rw [result] at ended
      have progress := ended.2.progress
      exact ⟨progress.sound, progress.owned, progress.persists, progress.nextUuid⟩
  | pull service project =>
    obtain ⟨later, registers⟩ := service.syncProject_evolves project o w ⟨here, .of_same rfl⟩ n
    exact ⟨later, fun _ => registers⟩
  | live ingestion snapshot options =>
    obtain ⟨later, conflicts, _⟩ := ingestion.ingestWorkItemSnapshot_evolves snapshot options here n
    exact ⟨later, fun _ => .of_same conflicts⟩

theorem Starts.later {turn : SyncTurn} (starts : turn.Starts w) (later : Evolves w t) : turn.Starts t := by
  obtain ⟨service, o, n⟩ := turn
  cases service with
  | bootstrap service projectId externalProjectId force => exact Uuid.Below.mono starts later.nextUuid
  | pull service project => trivial
  | live ingestion snapshot options => trivial

theorem after_evolves {turns : List SyncTurn} (sound : Sound w) (owned : Owned w)
    (starts : ∀ turn ∈ turns, turn.Starts w) : Evolves w (after turns w) := by
  induction turns generalizing w with
  | nil => exact Evolves.refl sound owned
  | cons turn turns ih =>
    have first := (turn.evolves sound owned (starts turn (List.mem_cons_self ..))).1
    refine first.trans (ih first.sound first.owned fun other listed => ?_)
    exact (starts other (List.mem_cons_of_mem _ listed)).later first

/-- Whatever order bootstraps, pull cycles and live ingestions come in, and wherever
they raise, each provider identity keeps its one entity under the id it was given. -/
theorem identities_kept (turns : List SyncTurn) {w : World} (sound : Sound w) (owned : Owned w)
    (starts : ∀ turn ∈ turns, turn.Starts w) :
    Sound (after turns w) ∧ Owned (after turns w) ∧ SameIds w (after turns w) := by
  have later := after_evolves sound owned starts
  exact ⟨later.sound, later.owned, later.persists.sameIds sound later.sound⟩

/-- A bootstrap that breaks off, a delivery, a pull cycle and the bootstrap again. -/
def childFirstTurns : List SyncTurn :=
  let bootstrap : OpenProjectProjectBootstrapService := { provider := OpenProjectProjectBootstrapService.childFirst, pageSize := 1 }
  [{ service := .bootstrap bootstrap (.v5 "project") "10" false
     outside := OpenProjectProjectBootstrapService.downFrom 40 },
    { service := .live {} { externalId := "1", state := "closed" } { mode := .live, source := "openproject.webhook" } },
    { service := .pull { provider := bootstrap.provider }
        { id := .v5 "project", name := "Project", externalRefs := [openProjectRef "10" "project"] } },
    { service := .bootstrap bootstrap (.v5 "project") "10" false }]

theorem identities_kept_child_first : Sound (after childFirstTurns World.oneProject) ∧
    Owned (after childFirstTurns World.oneProject) ∧ SameIds World.oneProject (after childFirstTurns World.oneProject) := by
  refine identities_kept childFirstTurns (Sound.start _ 0) (fun _ member => absurd member List.not_mem_nil) ?_
  intro turn listed
  simp only [childFirstTurns, List.mem_cons, List.not_mem_nil, or_false] at listed
  rcases listed with rfl | rfl | rfl | rfl <;> trivial

/-- In every run of pull cycles and live ingestions the register of conflicts only
grows, by reports of a closed status of a stored work item, and no work item gets a
second open report of one status. -/
theorem conflicts_registered (turns : List SyncTurn) {w : World} (sound : Sound w) (owned : Owned w)
    (incremental : ∀ turn ∈ turns, turn.isIncremental = true) : Registers w (after turns w) := by
  induction turns generalizing w with
  | nil => exact .of_same rfl
  | cons turn turns ih =>
    have live : ∀ turn' : SyncTurn, turn'.isIncremental = true → ∀ w : World, turn'.Starts w := by
      rintro ⟨service, o, n⟩ incremental w
      cases service with
      | bootstrap service projectId externalProjectId force => cases incremental
      | pull service project => trivial
      | live ingestion snapshot options => trivial
    have later : ∀ turn' ∈ turns, turn'.isIncremental = true := fun turn' listed => incremental turn' (List.mem_cons_of_mem _ listed)
    obtain ⟨first, registers⟩ := turn.evolves sound owned (live turn (incremental turn (List.mem_cons_self ..)) w)
    have rest := after_evolves first.sound first.owned fun turn' listed => live turn' (later turn' listed) _
    refine (registers (incremental turn (List.mem_cons_self ..))).trans (ih first.sound first.owned later) fun x id => ?_
    exact (rest.persists.sameIds first.sound rest.sound).packageId

/-- Two pull cycles and a delivery of a work package that is closed. -/
def closedTurns : List SyncTurn :=
  let closed : PyValue := .dict [("id", .str "1"), ("_embedded", .dict [("status", .dict [("name", .str "closed")])])]
  let pull : SyncService := .pull { provider := ⟨{ updatedWorkPackages := fun _ _ => [closed] }⟩ }
    { id := .v5 "project", name := "Project", externalRefs := [openProjectRef "10" "project"] }
  [{ service := pull },
    { service := .live {} { externalId := "1", state := "closed" } { mode := .live, source := "openproject.webhook" } },
    { service := pull }]

theorem conflicts_registered_once : Registers World.oneProject (after closedTurns World.oneProject) ∧
    (after closedTurns World.oneProject).conflicts.length = 1 := by
  refine ⟨conflicts_registered closedTurns (Sound.start _ 0) (fun _ member => absurd member List.not_mem_nil) ?_, ?_⟩
  · simp [closedTurns, isIncremental]
  · decide +kernel

end SyncTurn
end Brain
