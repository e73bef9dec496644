import Brain.Ingestion.Refinement

namespace Brain
open Calls

/-- The project that `_resolve_project` picks, read off the stored projects. -/
def World.resolvedProject (w : World) (s : OpenProjectWorkItemSnapshot) (projectId : Option ProjectId) :
    Option ProjectId :=
  match projectId with
  | some id => (w.projects.get id).map fun _ => id
  | none =>
    let byRef := (given s.projectId).bind fun x => w.findProject "openproject" x (some "project")
    (byRef.map Project.id).or (w.projects.items.head?.map Project.id)

/-- The sites of `_resolve_project` and of the read of the baseline before it. -/
def Site.isLookup : Site → Bool
  | .snapshotsGet | .resolveProjectGet | .resolveProjectFind | .resolveProjectList => true
  | _ => false

theorem resolveProject_resolves {o : Outside} {w : World} {s : OpenProjectWorkItemSnapshot}
    {projectId : Option ProjectId} :
    Meets o (resolveProject s projectId) w (byResult
      (fun found t => t = w ∧ found = w.resolvedProject s projectId)
      (fun e t => t = w ∧ o.Raises e ∧ e.site.isLookup = true)) := by
  cases projectId with
  | some id =>
    refine Meets.bind (Meets.query ?_ fun _ _ raises => ⟨rfl, raises, rfl⟩)
    exact Meets.pure ⟨rfl, rfl⟩
  | none =>
    have listed : Meets o (query .resolveProjectList fun w : World => w.projects.items.head?.map Project.id) w
        (byResult (fun found t => t = w ∧ found = w.projects.items.head?.map Project.id)
          (fun e t => t = w ∧ o.Raises e ∧ e.site.isLookup = true)) :=
      Meets.query ⟨rfl, rfl⟩ fun _ _ raises => ⟨rfl, raises, rfl⟩
    unfold resolveProject
    cases external : given s.projectId with
    | none =>
      have first : w.resolvedProject s none = w.projects.items.head?.map Project.id := by
        simp [World.resolvedProject, external]
      rw [first]
      exact Meets.bind (Meets.pure listed)
    | some x =>
      refine Meets.bind (Meets.query ?_ fun _ _ raises => ⟨rfl, raises, rfl⟩)
      dsimp only [byResult]
      cases hit : w.findProject "openproject" x (some "project") with
      | some project => exact Meets.pure ⟨rfl, by simp [World.resolvedProject, external, hit]⟩
      | none =>
        have first : w.resolvedProject s none = w.projects.items.head?.map Project.id := by
          simp [World.resolvedProject, external, hit]
        rw [first]
        exact listed

/-- Events were appended to the bus and ids were drawn. -/
def Publishes (w : World) (tail : List EventEnvelope) (t : World) : Prop :=
  ∃ next, w.nextUuid ≤ next ∧ t = { w with published := w.published ++ tail, nextUuid := next }

theorem Publishes.none (w : World) : Publishes w [] w := ⟨w.nextUuid, Nat.le_refl _, by simp⟩

/-- The `WorkItemCreated` or `WorkItemChanged` event of a resolved work item. -/
structure IsWorkItemEvent (item : WorkItem) (s : OpenProjectWorkItemSnapshot) (changes : List SemanticChange)
    (created : Bool) (e : EventEnvelope) : Prop where
  eventType : e.eventType = OpenProjectIngestionService.workItemEventType created
  payload : e.payload = .workItem item (changes.map SemanticChange.value) (snapshotPayload s) s.externalId

structure IsProviderFact (s : OpenProjectWorkItemSnapshot) (changes : List SemanticChange) (created : Bool)
    (e : EventEnvelope) : Prop where
  eventType : e.eventType = OpenProjectIngestionService.workItemEventType created
  payload : e.payload = .providerFact "openproject" s.externalId s.summary s.state s.assigneeId
    (changes.map SemanticChange.value) (snapshotPayload s)

structure IsAssignment (item : WorkItem) (s : OpenProjectWorkItemSnapshot) (e : EventEnvelope) : Prop where
  eventType : e.eventType = .workItemAssigned
  payload : e.payload = .workItemAssigned item.id s.assigneeId

namespace OpenProjectIngestionService
variable (self : OpenProjectIngestionService)

/-- An unchanged pull refresh, which publishes nothing. -/
def IngestOptions.quiet (options : IngestOptions) (created : Bool) (changes : List SemanticChange) : Bool :=
  !options.publishUnchanged && !created && changes.isEmpty

/-- How an ingestion ends after its snapshot was handed to the snapshot store,
and which events it publishes from there on. -/
inductive Closes (options : IngestOptions) (s : OpenProjectWorkItemSnapshot) (created : Bool)
    (changes : List SemanticChange) :
    Option WorkItem → Except Raised OpenProjectIngestionResult → List EventEnvelope → Prop
  | saveRaised {item : Option WorkItem} (e : Raised) (site : e.site = .snapshotsSave)
      (stored : e.tookEffect = true) : Closes options s created changes item (.error e) []
  | bootstrapped {item : Option WorkItem} (result : OpenProjectIngestionResult)
      (mode : options.mode = .bootstrap) : Closes options s created changes item (.ok result) []
  | unchanged {item : WorkItem} (result : OpenProjectIngestionResult) (mode : options.mode = .live)
      (quiet : options.quiet created changes = true) : Closes options s created changes (some item) (.ok result) []
  | eventRaised {item : WorkItem} (e : Raised) (event : EventEnvelope) (mode : options.mode = .live)
      (loud : options.quiet created changes = false) (site : e.site = .publishWorkItem)
      (isEvent : IsWorkItemEvent item s changes (eventIsCreated created options.providerAction) event) :
      Closes options s created changes (some item) (.error e) (if e.tookEffect then [event] else [])
  | event {item : WorkItem} (result : OpenProjectIngestionResult) (event : EventEnvelope)
      (mode : options.mode = .live) (loud : options.quiet created changes = false)
      (isEvent : IsWorkItemEvent item s changes (eventIsCreated created options.providerAction) event)
      (untriggered : self.shouldTriggerAssignment s changes created options.providerAction = false) :
      Closes options s created changes (some item) (.ok result) [event]
  | assignmentRaised {item : WorkItem} (e : Raised) (event assignment : EventEnvelope)
      (mode : options.mode = .live) (loud : options.quiet created changes = false)
      (isEvent : IsWorkItemEvent item s changes (eventIsCreated created options.providerAction) event)
      (triggered : self.shouldTriggerAssignment s changes created options.providerAction = true)
      (site : e.site = .publishAssignment) (isAssignment : IsAssignment item s assignment) :
      Closes options s created changes (some item) (.error e)
        (event :: if e.tookEffect then [assignment] else [])
  | assigned {item : WorkItem} (result : OpenProjectIngestionResult) (event assignment : EventEnvelope)
      (mode : options.mode = .live) (loud : options.quiet created changes = false)
      (isEvent : IsWorkItemEvent item s changes (eventIsCreated created options.providerAction) event)
      (triggered : self.shouldTriggerAssignment s changes created options.providerAction = true)
      (isAssignment : IsAssignment item s assignment) :
      Closes options s created changes (some item) (.ok result) [event, assignment]
  | factRaised (e : Raised) (event : EventEnvelope) (mode : options.mode = .live)
      (site : e.site = .publishProviderFact)
      (isFact : IsProviderFact s changes (eventIsCreated false options.providerAction) event) :
      Closes options s created changes none (.error e) (if e.tookEffect then [event] else [])
  | fact (result : OpenProjectIngestionResult) (event : EventEnvelope) (mode : options.mode = .live)
      (isFact : IsProviderFact s changes (eventIsCreated false options.providerAction) event) :
      Closes options s created changes none (.ok result) [event]

variable {o : Outside} {w : World} {options : IngestOptions} {s : OpenProjectWorkItemSnapshot}
  {changes : List SemanticChange}

theorem publishes_of_drawn {u t : World} {tail : List EventEnvelope} (published : Publishes w tail u)
    (drawn : Drawn u t) : Publishes w tail t := by
  obtain ⟨next, le, rfl⟩ := published
  obtain ⟨later, le', rfl⟩ := drawn
  exact ⟨later, Nat.le_trans le le', rfl⟩

theorem publishes_event {u : World} {tail : List EventEnvelope} (published : Publishes w tail u)
    (e : EventEnvelope) : Publishes w (tail ++ [e]) (World.publish e u) := by
  obtain ⟨next, le, rfl⟩ := published
  exact ⟨next, le, by simp [World.publish]⟩

theorem publishResolved_closes {item : WorkItem} {projectId : ProjectId} {result : OpenProjectIngestionResult}
    (live : options.mode = .live) :
    Meets o (self.publishResolved options s item projectId result) w (fun r t =>
      ∃ tail, self.Closes options s result.created result.changes (some item) r tail ∧
        Publishes w tail t ∧ ∀ e, r = .error e → o.Raises e) := by
  unfold publishResolved
  split
  · rename_i quiet
    exact Meets.pure ⟨[], .unchanged _ live quiet, Publishes.none w, by simp⟩
  · rename_i loud
    have loud : options.quiet result.created result.changes = false := by
      simpa [IngestOptions.quiet] using loud
    refine Meets.seq _ modelToEnvelope_drawn ?_ (fun _ _ stopped => stopped.elim)
    rintro event t ⟨drawn, type, body⟩
    have isEvent : IsWorkItemEvent item s result.changes
        (eventIsCreated result.created options.providerAction) event := ⟨type, body⟩
    have before := publishes_of_drawn (Publishes.none w) drawn
    have after := publishes_event before event
    refine Meets.bind (Meets.command ?_ ?_ ?_)
    · dsimp only [byResult]
      split
      · rename_i triggered
        have triggered : self.shouldTriggerAssignment s result.changes result.created
            options.providerAction = true := triggered
        refine Meets.bind (Meets.seq _ modelToEnvelope_drawn ?_ (fun _ _ stopped => stopped.elim))
        rintro assignment u ⟨drawn', type', body'⟩
        have isAssignment : IsAssignment item s assignment := ⟨type', body'⟩
        have published := publishes_of_drawn after drawn'
        refine Meets.command ?_ ?_ ?_
        · dsimp only [byResult]
          exact Meets.pure ⟨_, .assigned _ event assignment live loud isEvent triggered isAssignment,
            publishes_event published assignment, by simp⟩
        · intro exception raises
          refine ⟨_, .assignmentRaised _ event assignment live loud isEvent triggered rfl isAssignment, published, ?_⟩
          rintro e ⟨⟩
          exact raises
        · intro exception raises
          refine ⟨_, .assignmentRaised _ event assignment live loud isEvent triggered rfl isAssignment,
            publishes_event published assignment, ?_⟩
          rintro e ⟨⟩
          exact raises
      · rename_i untriggered
        have untriggered : self.shouldTriggerAssignment s result.changes result.created
            options.providerAction = false := by simpa using untriggered
        exact Meets.pure ⟨_, .event _ event live loud isEvent untriggered, after, by simp⟩
    · intro exception raises
      refine ⟨_, .eventRaised _ event live loud rfl isEvent, before, ?_⟩
      rintro e ⟨⟩
      exact raises
    · intro exception raises
      refine ⟨_, .eventRaised _ event live loud rfl isEvent, after, ?_⟩
      rintro e ⟨⟩
      exact raises

theorem publishProviderFact_closes {result : OpenProjectIngestionResult} (live : options.mode = .live)
    (fresh : result.created = false) (created : Bool) :
    Meets o (publishProviderFact options s changes result) w (fun r t =>
      ∃ tail, self.Closes options s created changes none r tail ∧ Publishes w tail t ∧
        ∀ e, r = .error e → o.Raises e) := by
  unfold publishProviderFact
  rw [fresh]
  refine Meets.seq _ modelToEnvelope_drawn ?_ (fun _ _ stopped => stopped.elim)
  rintro event t ⟨drawn, type, body⟩
  have isFact : IsProviderFact s changes (eventIsCreated false options.providerAction) event := ⟨type, body⟩
  have before := publishes_of_drawn (Publishes.none w) drawn
  have after := publishes_event before event
  refine Meets.bind (Meets.command ?_ ?_ ?_)
  · dsimp only [byResult]
    exact Meets.pure ⟨_, .fact _ event live isFact, after, by simp⟩
  · intro exception raises
    refine ⟨_, .factRaised _ event live rfl isFact, before, ?_⟩
    rintro e ⟨⟩
    exact raises
  · intro exception raises
    refine ⟨_, .factRaised _ event live rfl isFact, after, ?_⟩
    rintro e ⟨⟩
    exact raises

/-- The world at the moment the snapshot is saved, with the work item when a
project was found. -/
inductive Prepared (w : World) (options : IngestOptions) (s : OpenProjectWorkItemSnapshot) :
    Option WorkItem → World → Prop
  | resolved {projectId : ProjectId} {item : WorkItem} {u : World}
      (project : w.resolvedProject s options.projectId = some projectId) (moves : Moves w u)
      (package : u.package s.externalId = some item) (mirror : u.mirror = w.mirror.ingest projectId s)
      (mapped : Mapped w → Mapped u) (catalogued : AllCatalogued u s.attachments)
      (silent : AllCatalogued w s.attachments → u.published = w.published) :
      Prepared w options s (some item) u
  | unresolved (project : w.resolvedProject s options.projectId = none) : Prepared w options s none w

inductive Stopped (w : World) (options : IngestOptions) (s : OpenProjectWorkItemSnapshot) (e : Raised) :
    World → Prop
  | untouched {t : World} (early : e.site.isLookup = true ∨ BeforeWorkItem e) (moves : Moves w t)
      (mirror : t.mirror = w.mirror) (mapped : e.site.isRepository = true ∨ (Mapped w → Mapped t))
      (silent : AllCatalogued w s.attachments → t.published = w.published) : Stopped w options s e t
  | partly {t : World} {projectId : ProjectId} (project : w.resolvedProject s options.projectId = some projectId)
      (late : AfterWorkItem e ∨ e.site = .snapshotsSave ∧ e.tookEffect = false) (moves : Moves w t)
      (reach : Mirror.Reach projectId [s] w.mirror t.mirror) (knows : t.mirror.Knows s.externalId)
      (mapped : e.site.isRepository = true ∨ (Mapped w → Mapped t))
      (silent : AllCatalogued w s.attachments → t.published = w.published) : Stopped w options s e t
  | unsaved (project : w.resolvedProject s options.projectId = none) (site : e.site = .snapshotsSave)
      (lost : e.tookEffect = false) : Stopped w options s e w

/-- What one ingestion does, whatever fails outside. -/
inductive Ingested (w : World) (options : IngestOptions) (s : OpenProjectWorkItemSnapshot) :
    Except Raised OpenProjectIngestionResult → World → Prop
  | stopped {e : Raised} {t : World} (stop : Stopped w options s e t) : Ingested w options s (.error e) t
  | closed {r : Except Raised OpenProjectIngestionResult} {item : Option WorkItem} {u t : World}
      {tail : List EventEnvelope} (prepared : Prepared w options s item u)
      (closes : self.Closes options s (w.package s.externalId).isNone
        (diffSnapshots (w.snapshots.get s.externalId) s) item r tail)
      (publishes : Publishes (World.saveSnapshot s u) tail t) : Ingested w options s r t

theorem ingestWorkItemSnapshot_ingested (options : IngestOptions) (sound : Sound w) :
    Meets o (self.ingestWorkItemSnapshot s options) w (fun r t =>
      self.Ingested w options s r t ∧ ∀ e, r = .error e → o.Raises e) := by
  unfold ingestWorkItemSnapshot
  refine Meets.bind (Meets.query ?_ ?_)
  · dsimp only [byResult]
    refine Meets.seq _ resolveProject_resolves ?_ ?_
    · rintro project t ⟨stayed, found⟩
      rw [stayed]
      cases project with
      | some projectId =>
        refine Meets.seq _ (Meets.and (self.ingestCanonical_refines _ sound)
          (self.ingestCanonical_catalogues _ sound.attachments)) ?_ ?_
        · rintro ⟨item, result⟩ u ⟨⟨moves, package, mirror, created, changes, mapped⟩, catalogued, silent⟩
          have prepared := Prepared.resolved found.symm moves package mirror mapped (catalogued _ rfl) silent
          refine Meets.bind (Meets.command ?_ ?_ ?_)
          · dsimp only [byResult]
            split
            · rename_i bootstrap
              exact Meets.pure ⟨.closed prepared (.bootstrapped _ bootstrap) (Publishes.none _), by simp⟩
            · rename_i other
              have live : options.mode = .live := by
                cases mode : options.mode with
                | live => rfl
                | bootstrap => exact absurd mode other
              refine (self.publishResolved_closes live).mono ?_
              rintro r t ⟨tail, closes, publishes, raises⟩
              dsimp only at closes
              rw [created, changes] at closes
              exact ⟨.closed prepared closes publishes, raises⟩
          · intro exception raises
            refine ⟨.stopped (.partly found.symm (Or.inr ⟨rfl, rfl⟩) moves ?_ ?_ (Or.inl rfl) silent), ?_⟩
            · rw [mirror]
              exact Mirror.Reach.ingest (List.mem_singleton.mpr rfl) .refl
            · rw [World.mirror_knows, package]
              rfl
            · rintro e ⟨⟩
              exact raises
          · intro exception raises
            refine ⟨.closed prepared (.saveRaised _ rfl rfl) (Publishes.none _), ?_⟩
            rintro e ⟨⟩
            exact raises
        · rintro e u ⟨⟨moves, raises, reach, mapped, ⟨before, untouched⟩ | ⟨after, knows⟩⟩, _, silent⟩
          · refine ⟨.stopped (.untouched (Or.inr before) moves untouched mapped silent), ?_⟩
            rintro _ ⟨⟩
            exact raises
          · refine ⟨.stopped (.partly found.symm (Or.inl after) moves reach knows mapped silent), ?_⟩
            rintro _ ⟨⟩
            exact raises
      | none =>
        have prepared := Prepared.unresolved found.symm
        refine Meets.bind (Meets.command ?_ ?_ ?_)
        · dsimp only [byResult]
          split
          · rename_i bootstrap
            exact Meets.pure ⟨.closed prepared (.bootstrapped _ bootstrap) (Publishes.none _), by simp⟩
          · rename_i other
            have live : options.mode = .live := by
              cases mode : options.mode with
              | live => rfl
              | bootstrap => exact absurd mode other
            refine (self.publishProviderFact_closes live rfl (w.package s.externalId).isNone).mono ?_
            rintro r t ⟨tail, closes, publishes, raises⟩
            exact ⟨.closed prepared closes publishes, raises⟩
        · intro exception raises
          refine ⟨.stopped (.unsaved found.symm rfl rfl), ?_⟩
          rintro e ⟨⟩
          exact raises
        · intro exception raises
          refine ⟨.closed prepared (.saveRaised _ rfl rfl) (Publishes.none _), ?_⟩
          rintro e ⟨⟩
          exact raises
    · rintro e t ⟨stayed, raises, lookup⟩
      rw [stayed]
      refine ⟨.stopped (.untouched (Or.inl lookup) (Moves.refl w) rfl (Or.inr id) fun _ => rfl), ?_⟩
      rintro _ ⟨⟩
      exact raises
  · intro tookEffect exception raises
    refine ⟨.stopped (.untouched (Or.inl rfl) (Moves.refl w) rfl (Or.inr id) fun _ => rfl), ?_⟩
    rintro e ⟨⟩
    exact raises

end OpenProjectIngestionService

end Brain
