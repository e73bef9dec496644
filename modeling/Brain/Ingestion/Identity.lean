import Brain.Ingestion.History

namespace Brain
open Calls

theorem Publishes.sound {w t : World} {tail : List EventEnvelope} (publishes : Publishes w tail t)
    (sound : Sound w) : Sound t := by
  obtain ⟨next, le, rfl⟩ := publishes
  have drawn : Tends w { w with nextUuid := next } := (Drawn.beside ⟨next, le, rfl⟩).tends
  have later := drawn.sound sound
  exact ⟨later.workItems, later.attachments, later.comments, later.parents, later.ends, later.triples,
    later.relationIds, later.mappings⟩

theorem Sound.saveSnapshot {w : World} (sound : Sound w) (s : OpenProjectWorkItemSnapshot) :
    Sound (World.saveSnapshot s w) :=
  ⟨sound.workItems, sound.attachments, sound.comments, sound.parents, sound.ends, sound.triples,
    sound.relationIds, sound.mappings⟩

theorem Publishes.mirror {u t : World} {s : OpenProjectWorkItemSnapshot} {tail : List EventEnvelope}
    (publishes : Publishes (World.saveSnapshot s u) tail t) : t.mirror = u.mirror := by
  obtain ⟨next, _, rfl⟩ := publishes
  exact mirror_congr rfl rfl

namespace OpenProjectIngestionService
variable {self : OpenProjectIngestionService} {w u t : World} {options : IngestOptions}
  {s : OpenProjectWorkItemSnapshot} {r : Except Raised OpenProjectIngestionResult} {e : Raised}
  {item : Option WorkItem}

theorem Prepared.moves (prepared : Prepared w options s item u) : Moves w u := by
  cases prepared with
  | resolved _ moves => exact moves
  | unresolved => exact Moves.refl w

theorem Prepared.mapped (prepared : Prepared w options s item u) (before : Mapped w) : Mapped u := by
  cases prepared with
  | resolved _ _ _ _ mapped => exact mapped before
  | unresolved => exact before

theorem Stopped.moves (stopped : Stopped w options s e t) : Moves w t := by
  cases stopped with
  | untouched _ moves => exact moves
  | partly _ _ moves => exact moves
  | unsaved => exact Moves.refl w

theorem Stopped.mapped (stopped : Stopped w options s e t) (memory : e.site.isRepository = false)
    (before : Mapped w) : Mapped t := by
  have keep : (e.site.isRepository = true ∨ (Mapped w → Mapped t)) → Mapped t := by
    rintro (repository | mapped)
    · rw [memory] at repository
      cases repository
    · exact mapped before
  cases stopped with
  | untouched _ _ _ mapped => exact keep mapped
  | partly _ _ _ _ _ mapped => exact keep mapped
  | unsaved => exact before

theorem Ingested.sound (ingested : self.Ingested w options s r t) (sound : Sound w) : Sound t ∧ Persists w t := by
  cases ingested with
  | stopped stop => exact stop.moves.sound sound
  | closed prepared _ publishes =>
    obtain ⟨atSave, persists⟩ := prepared.moves.sound sound
    refine ⟨publishes.sound (atSave.saveSnapshot s), ?_⟩
    obtain ⟨next, _, rfl⟩ := publishes
    exact ⟨persists.workItems, persists.attachments, persists.comments, persists.relations⟩

theorem Ingested.mapped (ingested : self.Ingested w options s r t)
    (memory : ∀ e, r = .error e → e.site.isRepository = false) (before : Mapped w) : Mapped t := by
  cases ingested with
  | stopped stop => exact stop.mapped (memory _ rfl) before
  | closed prepared _ publishes =>
    obtain ⟨next, _, rfl⟩ := publishes
    exact prepared.mapped before

theorem Ingested.reach (ingested : self.Ingested w options s r t) (projectId : ProjectId)
    (only : ∀ p, w.resolvedProject s options.projectId = some p → p = projectId) :
    Mirror.Reach projectId [s] w.mirror t.mirror := by
  cases ingested with
  | stopped stop =>
    cases stop with
    | untouched _ _ mirror => rw [mirror]
    | partly project _ _ reach =>
      have same := only _ project
      subst same
      exact reach
    | unsaved => exact .refl
  | closed prepared _ publishes =>
    rw [publishes.mirror]
    cases prepared with
    | resolved project _ _ mirror =>
      have same := only _ project
      subst same
      rw [mirror]
      exact Mirror.Reach.ingest (List.mem_singleton.mpr rfl) .refl
    | unresolved => exact .refl

variable {arguments : CommentArguments}

theorem storedComment_eq_some {comment : Comment} (stored : storedComment w arguments = some comment) :
    w.findComment "openproject" arguments.externalId (some "activity") = none ∧
      ∃ workItemId, comment = newComment (.v4 w.nextUuid) workItemId arguments := by
  unfold storedComment at stored
  split at stored
  · rename_i workItemId absent _
    exact ⟨absent, workItemId, (Option.some.inj stored).symm⟩
  · cases stored

theorem Comments.registered (comments : Comments arguments w t)
    (stored : t.comments = w.comments ∨ t.comments = withComment w (storedComment w arguments))
    (registered : Registered Comment.externalRefs "activity" w.comments w.nextUuid) :
    Registered Comment.externalRefs "activity" t.comments t.nextUuid ∧ w.comments.items ⊆ t.comments.items := by
  have unchanged : t.comments = w.comments →
      Registered Comment.externalRefs "activity" t.comments t.nextUuid ∧ w.comments.items ⊆ t.comments.items := by
    intro same
    rw [same]
    exact ⟨registered.later comments.nextUuid, List.Subset.refl _⟩
  rcases stored with same | added
  · exact unchanged same
  rcases comments.drawn with same | later
  · exact unchanged same
  cases new : storedComment w arguments with
  | none =>
    rw [new] at added
    exact unchanged added
  | some comment =>
    obtain ⟨absent, workItemId, rfl⟩ := storedComment_eq_some new
    rw [new] at added
    have items : t.comments = w.comments.upsert (newComment (.v4 w.nextUuid) workItemId arguments) := added
    rw [items]
    refine ⟨(registered.later comments.nextUuid).create absent rfl later, fun old member => ?_⟩
    exact Keyed.mem_upsert.mpr (Or.inr ⟨member, registered.fresh old member⟩)

theorem Comments.sound (comments : Comments arguments w t)
    (stored : t.comments = w.comments ∨ t.comments = withComment w (storedComment w arguments))
    (sound : Sound w) : Sound t ∧ Persists w t := by
  obtain ⟨registered, kept⟩ := comments.registered stored sound.comments
  have rest := comments.rest
  have le := comments.nextUuid
  have items : t.workItems = w.workItems := by rw [rest]
  have relations : t.relations = w.relations := by rw [rest]
  have mappings : t.mappings = w.mappings := by rw [rest]
  have attachments : t.attachments = w.attachments := by rw [rest]
  refine ⟨⟨?_, ?_, registered, ?_, ?_, ?_, ?_, ?_⟩, ?_, ?_, kept, ?_⟩
  · rw [items]
    exact sound.workItems.later le
  · rw [attachments]
    exact sound.attachments.later le
  · unfold World.Holds
    rw [items]
    exact sound.parents
  · unfold World.Holds
    rw [items, relations]
    exact sound.ends
  · rw [relations]
    exact sound.triples
  · intro r member
    exact (sound.relationIds r (relations ▸ member)).mono le
  · unfold World.MapsTo
    rw [items, mappings]
    exact sound.mappings
  · simp only [World.identities, items, List.Subset.refl]
  · simp only [attachments, List.Subset.refl]
  · simp only [relations, List.Subset.refl]

end OpenProjectIngestionService

theorem ProjectsOnly.sound {w t : World} (projects : ProjectsOnly w t) (sound : Sound w) :
    Sound t ∧ Persists w t := by
  have rest := projects.rest
  have le := projects.nextUuid
  have drawn : Tends w { w with nextUuid := t.nextUuid } := (Drawn.beside ⟨t.nextUuid, le, rfl⟩).tends
  have later := drawn.sound sound
  rw [rest]
  exact ⟨⟨later.workItems, later.attachments, later.comments, later.parents, later.ends, later.triples,
    later.relationIds, later.mappings⟩, fun _ => id, fun _ => id, fun _ => id, fun _ => id⟩

namespace OpenProjectIngestionService
variable (self : OpenProjectIngestionService)

variable {w : World}

theorem Op.run_sound {o : Outside} (op : Op) (sound : Sound w) :
    Meets o (op.run self) w (fun _ t => Sound t ∧ Persists w t) := by
  cases op with
  | upsertProject externalId name description parentExternalId projectId =>
    refine Meets.seq _ (upsertProject_projects externalId name description parentExternalId projectId o w) ?_ ?_
    · exact fun _ _ projects => Meets.pure (projects.sound sound)
    · exact fun _ _ stays => stays.1.sound sound
  | ingest snapshot options =>
    refine Meets.seq _ (self.ingestWorkItemSnapshot_ingested options sound) ?_ ?_
    · exact fun _ _ reached => Meets.pure (reached.1.sound sound)
    · exact fun _ _ reached => reached.1.sound sound
  | resolveRelationships snapshots =>
    refine (resolveRelationships_refines default snapshots sound).mono ?_
    intro r t reached
    cases r with
    | ok _ => exact reached.1.sound sound
    | error e => exact reached.1.sound sound
  | ingestComment arguments =>
    refine Meets.seq _ (ingestComment_stores arguments) ?_ ?_
    · exact fun _ _ reached => Meets.pure (reached.1.sound (Or.inr reached.2) sound)
    · exact fun _ _ reached => reached.1.sound reached.2.2.2 sound

theorem ended_sound (call : Call) (sound : Sound w) :
    Sound (self.ended call w).store ∧ Persists w (self.ended call w).store :=
  Op.run_sound self call.op sound 0 (o := call.outside)

theorem Op.run_mapped {o : Outside} (op : Op) (returns : RepositoriesReturn o) (sound : Sound w)
    (mapped : Mapped w) : Meets o (op.run self) w (fun _ t => Mapped t) := by
  have memory : ∀ e : Raised, o.Raises e → e.site.isRepository = false := by
    intro e raises
    cases repository : e.site.isRepository with
    | false => rfl
    | true => exact absurd raises (Outside.not_raises_of_returns fun n => returns n e.site repository)
  have congr : ∀ t : World, t.workItems = w.workItems → t.mappings = w.mappings → Mapped t := by
    intro t items mappings
    unfold Mapped
    rw [items, mappings]
    exact mapped
  cases op with
  | upsertProject externalId name description parentExternalId projectId =>
    have kept : ∀ t, ProjectsOnly w t → Mapped t :=
      fun t projects => congr t (by rw [projects.rest]) (by rw [projects.rest])
    refine Meets.seq _ (upsertProject_projects externalId name description parentExternalId projectId o w) ?_ ?_
    · exact fun _ t projects => Meets.pure (kept t projects)
    · exact fun _ t stays => kept t stays.1
  | ingest snapshot options =>
    refine Meets.seq _ (self.ingestWorkItemSnapshot_ingested options sound) ?_ ?_
    · rintro _ _ ⟨ingested, _⟩
      exact Meets.pure (ingested.mapped (by simp) mapped)
    · rintro e _ ⟨ingested, raises⟩
      refine ingested.mapped ?_ mapped
      rintro _ ⟨⟩
      exact memory e (raises e rfl)
  | resolveRelationships snapshots =>
    refine (resolveRelationships_refines default snapshots sound).mono ?_
    intro r t reached
    cases r with
    | ok _ => exact reached.1.mapped mapped
    | error e => exact reached.1.mapped mapped
  | ingestComment arguments =>
    have kept : ∀ t, Comments arguments w t → Mapped t :=
      fun t comments => congr t (by rw [comments.rest]) (by rw [comments.rest])
    refine Meets.seq _ (ingestComment_stores arguments) ?_ ?_
    · exact fun _ t reached => Meets.pure (kept t reached.1)
    · exact fun _ t reached => kept t reached.1

theorem after_sound (history : List Call) (sound : Sound w) :
    Sound (self.after history w) ∧ Persists w (self.after history w) := by
  induction history generalizing w with
  | nil => exact ⟨sound, Persists.refl w⟩
  | cons call history ih =>
    obtain ⟨next, persists⟩ := self.ended_sound call sound
    obtain ⟨last, persists'⟩ := ih next
    exact ⟨last, persists.trans persists'⟩

theorem after_mapped (history : List Call) (returns : ∀ call ∈ history, RepositoriesReturn call.outside)
    (sound : Sound w) (mapped : Mapped w) :
    Mapped (self.after history w) := by
  induction history generalizing w with
  | nil => exact mapped
  | cons call history ih =>
    have first := returns call (List.mem_cons_self ..)
    have next := (self.ended_sound call sound).1
    exact ih (fun later member => returns later (List.mem_cons_of_mem _ member)) next
      (Op.run_mapped self call.op first sound mapped 0)

end OpenProjectIngestionService

/-! ### One entity for each provider identity -/

/-- An entity with these references stands for the provider object `x`. -/
def StandsFor (externalRefs : List ExternalReference) (x externalType : String) : Prop :=
  externalRefs.any (fun ref => ref.refersTo "openproject" x (some externalType)) = true

/-- At most one entity for each provider identity, and exactly one mapping for
each work item. -/
structure OneEntityEach (w : World) : Prop where
  workItem : ∀ x, ∀ a ∈ w.workItems.items, ∀ b ∈ w.workItems.items,
    StandsFor a.externalRefs x "work_package" → StandsFor b.externalRefs x "work_package" → a = b
  attachment : ∀ x, ∀ a ∈ w.attachments.items, ∀ b ∈ w.attachments.items,
    StandsFor a.externalRefs x "attachment" → StandsFor b.externalRefs x "attachment" → a = b
  comment : ∀ x, ∀ a ∈ w.comments.items, ∀ b ∈ w.comments.items,
    StandsFor a.externalRefs x "activity" → StandsFor b.externalRefs x "activity" → a = b
  relation : ∀ a ∈ w.relations.items, ∀ b ∈ w.relations.items, World.sameTriple a b = true → a = b
  mapping : ∀ item ∈ w.workItems.items, ∃ mapping, w.listMappings item.id = [mapping] ∧
    item.externalRefs = [openProjectRef mapping.externalId "work_package"]

/-- Every entity of `w` is in `t` under the same id. -/
structure SameIds (w t : World) : Prop where
  workItem : ∀ x a, w.findWorkItem "openproject" x (some "work_package") = some a →
    ∃ b, t.findWorkItem "openproject" x (some "work_package") = some b ∧ b.id = a.id
  attachment : ∀ x a, w.findAttachment "openproject" x (some "attachment") = some a →
    ∃ b, t.findAttachment "openproject" x (some "attachment") = some b ∧ b.id = a.id
  comment : ∀ x a, w.findComment "openproject" x (some "activity") = some a →
    ∃ b, t.findComment "openproject" x (some "activity") = some b ∧ b.id = a.id
  relation : ∀ a ∈ w.relations.items, ∃ b ∈ t.relations.items, World.sameTriple a b = true ∧ b.id = a.id

theorem Registered.standsFor_unique {α : Type} {id : α → Uuid} {externalRefs : α → List ExternalReference}
    {externalType : String} {table : Keyed id} {nextUuid : Nat}
    (registered : Registered externalRefs externalType table nextUuid) {x : String} {a b : α}
    (left : a ∈ table.items) (right : b ∈ table.items) (ofLeft : StandsFor (externalRefs a) x externalType)
    (ofRight : StandsFor (externalRefs b) x externalType) : a = b := by
  obtain ⟨y, namedLeft⟩ := registered.named a left
  obtain ⟨z, namedRight⟩ := registered.named b right
  unfold StandsFor at ofLeft ofRight
  rw [namedLeft] at ofLeft
  rw [namedRight] at ofRight
  simp only [List.any_cons, List.any_nil, Bool.or_false, openProjectRef_refersTo] at ofLeft ofRight
  exact registered.unique a left b right (by rw [namedLeft, namedRight, ofLeft, ofRight])

theorem Registered.find_persists {α : Type} {id : α → Uuid} {externalRefs : α → List ExternalReference}
    {externalType : String} {early late : Keyed id} {m n : Nat}
    (before : Registered externalRefs externalType early m) (after : Registered externalRefs externalType late n)
    (grows : identities externalRefs early ⊆ identities externalRefs late) {x : String} {a : α}
    (found : findByExternalRef externalRefs early.items "openproject" x (some externalType) = some a) :
    ∃ b, findByExternalRef externalRefs late.items "openproject" x (some externalType) = some b ∧ id b = id a := by
  obtain ⟨member, refs⟩ := before.find_eq_some.mp found
  have listed : (id a, externalRefs a) ∈ identities externalRefs early := List.mem_map.mpr ⟨a, member, rfl⟩
  obtain ⟨b, stored, same⟩ := List.mem_map.mp (grows listed)
  simp only [Prod.mk.injEq] at same
  exact ⟨b, after.find_eq_some.mpr ⟨stored, same.2.trans refs⟩, same.1⟩

theorem Sound.oneEntityEach {w : World} (sound : Sound w) (mapped : Mapped w) : OneEntityEach w where
  workItem _ _ left _ right := sound.workItems.standsFor_unique left right
  attachment _ _ left _ right := sound.attachments.standsFor_unique left right
  comment _ _ left _ right := sound.comments.standsFor_unique left right
  relation := sound.triples
  mapping := by
    intro item member
    obtain ⟨mapping, stored, ofItem⟩ := mapped item member
    obtain ⟨provider, other, otherStored, same, refs⟩ := sound.mappings mapping stored
    have equal := w.workItems.key_injective otherStored member (same.trans ofItem)
    subst equal
    refine ⟨mapping, ?_, refs⟩
    have only : ∀ m ∈ w.mappings.items, m.workItemId = other.id → m = mapping := by
      intro m listed ofSame
      have keys : m.key = mapping.key := by
        simp only [IntegrationMapping.key, Prod.mk.injEq]
        exact ⟨ofSame.trans ofItem.symm, (sound.mappings m listed).1.trans provider.symm⟩
      exact w.mappings.key_injective listed stored keys
    exact Keyed.filter_eq_singleton _ stored (by simpa using ofItem)
      (fun m listed passes => only m listed (by simpa using passes))

theorem Persists.sameIds {w t : World} (persists : Persists w t) (before : Sound w) (after : Sound t) :
    SameIds w t where
  workItem _ _ found := before.workItems.find_persists after.workItems persists.workItems found
  attachment _ _ found := before.attachments.find_persists after.attachments persists.attachments found
  comment x a found := by
    obtain ⟨member, refs⟩ := before.comments.find_eq_some.mp found
    exact ⟨a, after.comments.find_eq_some.mpr ⟨persists.comments member, refs⟩, rfl⟩
  relation a member := ⟨a, persists.relations member, by simp [World.sameTriple], rfl⟩

namespace OpenProjectIngestionService

/-- After any history over the in-memory repositories each provider identity has
at most one entity, which keeps its id from then on. -/
theorem identities_unique (self : OpenProjectIngestionService) (early late : List Call)
    (projects : Keyed Project.id) (nextUuid : Nat)
    (inMemory : ∀ call ∈ early ++ late, RepositoriesReturn call.outside) :
    OneEntityEach (self.after (early ++ late) (World.start projects nextUuid)) ∧
      SameIds (self.after early (World.start projects nextUuid))
        (self.after (early ++ late) (World.start projects nextUuid)) := by
  have start := Sound.start projects nextUuid
  have empty : Mapped (World.start projects nextUuid) := by simp [Mapped, World.start]
  have mapped := self.after_mapped (early ++ late) inMemory start empty
  have between := (self.after_sound early start).1
  obtain ⟨sound, persists⟩ := self.after_sound late between
  rw [← after_append] at sound persists
  exact ⟨sound.oneEntityEach mapped, persists.sameIds between sound⟩

/-- A work package delivered by a webhook, resolved again and delivered again. -/
theorem identities_unique_redelivered :
    let delivered := [Call.undisturbed (.ingest { externalId := "1" } { mode := .live, source := "webhook" })]
    let again := [Call.undisturbed (.resolveRelationships [{ externalId := "1" }]),
      Call.undisturbed (.ingest { externalId := "1" } { mode := .bootstrap, source := "bootstrap" })]
    OneEntityEach (after {} (delivered ++ again) World.oneProject) ∧
      SameIds (after {} delivered World.oneProject) (after {} (delivered ++ again) World.oneProject) := by
  refine identities_unique {} _ _ _ 0 ?_
  intro call member n site _
  simp only [List.cons_append, List.nil_append, List.mem_cons, List.not_mem_nil, or_false] at member
  rcases member with rfl | rfl | rfl <;> rfl

end OpenProjectIngestionService

end Brain
