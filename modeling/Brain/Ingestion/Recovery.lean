import Brain.Ingestion.Silence

namespace Brain
open Calls

/-- The events published on the way from `w` to `t`. -/
def World.since (w t : World) : List EventEnvelope := t.published.drop w.published.length

theorem since_eq {w t : World} {tail : List EventEnvelope} (published : t.published = w.published ++ tail) :
    w.since t = tail := by
  rw [World.since, published, List.drop_left]

/-- The event reports `s` with these changes, for a work item or as a bare provider fact. -/
def Reports (s : OpenProjectWorkItemSnapshot) (changes : List SemanticChange) (e : EventEnvelope) : Prop :=
  (∃ item created, IsWorkItemEvent item s changes created e) ∨ ∃ created, IsProviderFact s changes created e

section Reports
variable {s : OpenProjectWorkItemSnapshot} {changes changes' : List SemanticChange} {e : EventEnvelope}

theorem changeValues_injective : Function.Injective (List.map SemanticChange.value) :=
  List.map_injective_iff.mpr SemanticChange.value_injective

theorem IsWorkItemEvent.reports {item : WorkItem} {created : Bool} (isEvent : IsWorkItemEvent item s changes' created e) :
    Reports s changes e ↔ changes' = changes := by
  constructor
  · rintro (⟨_, _, isReport⟩ | ⟨_, isFact⟩)
    · have same := isEvent.payload.symm.trans isReport.payload
      simp only [EventPayload.workItem.injEq] at same
      exact changeValues_injective same.2.1
    · have same := isEvent.payload.symm.trans isFact.payload
      cases same
  · rintro rfl
    exact Or.inl ⟨item, created, isEvent⟩

theorem IsProviderFact.reports {created : Bool} (isFact : IsProviderFact s changes' created e) :
    Reports s changes e ↔ changes' = changes := by
  constructor
  · rintro (⟨_, _, isReport⟩ | ⟨_, isReport⟩)
    · have same := isFact.payload.symm.trans isReport.payload
      cases same
    · have same := isFact.payload.symm.trans isReport.payload
      simp only [EventPayload.providerFact.injEq] at same
      exact changeValues_injective same.2.2.2.2.2.1
  · rintro rfl
    exact Or.inr ⟨created, isFact⟩

theorem Reports.eventType (reports : Reports s changes e) :
    e.eventType = .workItemCreated ∨ e.eventType = .workItemChanged := by
  have either : ∀ created, e.eventType = OpenProjectIngestionService.workItemEventType created →
      e.eventType = .workItemCreated ∨ e.eventType = .workItemChanged := by
    intro created type
    cases created with
    | true => exact Or.inl type
    | false => exact Or.inr type
  rcases reports with ⟨_, created, isEvent⟩ | ⟨created, isFact⟩
  · exact either created isEvent.eventType
  · exact either created isFact.eventType

theorem IsAssignment.not_reports {item : WorkItem} (isAssignment : IsAssignment item s e) : ¬ Reports s changes e := by
  intro reports
  have type := isAssignment.eventType
  rcases reports.eventType with other | other <;> rw [type] at other <;> cases other

theorem exists_append {left right : List EventEnvelope} {P : EventEnvelope → Prop} :
    (∃ e ∈ left ++ right, P e) ↔ (∃ e ∈ left, P e) ∨ ∃ e ∈ right, P e := by
  simp only [List.mem_append, or_and_right, exists_or]

theorem reports_append {documents tail : List EventEnvelope} (only : DocumentEventsOnly documents) :
    (∃ e ∈ documents ++ tail, Reports s changes e) ↔ ∃ e ∈ tail, Reports s changes e := by
  constructor
  · rintro ⟨e, member, reports⟩
    rcases List.mem_append.mp member with document | later
    · have type := only e document
      rcases reports.eventType with other | other <;> rw [type] at other <;> cases other
    · exact ⟨e, later, reports⟩
  · rintro ⟨e, member, reports⟩
    exact ⟨e, List.mem_append_right _ member, reports⟩

end Reports

namespace OpenProjectIngestionService
variable (self : OpenProjectIngestionService)

/-- The exception came when the snapshot was the new baseline already. -/
def afterSave (e : Raised) : Bool :=
  match e.site with
  | .snapshotsSave => e.tookEffect
  | .publishWorkItem | .publishAssignment | .publishProviderFact => true
  | _ => false

/-- The exception came before the work item could be stored. -/
def Untouched (e : Raised) : Prop := e.site.isLookup = true ∨ BeforeWorkItem e

/-- The ingestion of `s` creates its work item. -/
def creates (w : World) (options : IngestOptions) (s : OpenProjectWorkItemSnapshot) : Bool :=
  (w.resolvedProject s options.projectId).isSome && (w.package s.externalId).isNone

/-- `s` makes the brain actor the assignee: by a reported change or with the work item. -/
def assignmentDue (w : World) (options : IngestOptions) (s : OpenProjectWorkItemSnapshot) : Bool :=
  self.shouldTriggerAssignment s (diffSnapshots (w.snapshots.get s.externalId) s) (creates w options s) none

/-- What a later ingestion of `s` can still report after the exception `e`. -/
def Recoverable (w : World) (options : IngestOptions) (s : OpenProjectWorkItemSnapshot) (e : Raised) : Prop :=
  if afterSave e then
    (e.site = .publishAssignment ∨ e.site ≠ .snapshotsSave ∧ e.tookEffect = true) ∧
      (self.assignmentDue w options s = true → e.site = .publishAssignment ∧ e.tookEffect = true)
  else
    (diffSnapshots (w.snapshots.get s.externalId) s ≠ [] ∨ Untouched e) ∧
      (self.assignmentDue w options s = true → (w.resolvedProject s options.projectId).isSome = true ∧
        (.assigneeChanged ∈ diffSnapshots (w.snapshots.get s.externalId) s ∨ Untouched e))

theorem afterSave_of_untouched {e : Raised} (untouched : Untouched e) : afterSave e = false := by
  obtain ⟨site, tookEffect, exception⟩ := e
  rcases untouched with lookup | find | ⟨create, _⟩
  · cases site <;> first | rfl | cases lookup
  · cases find
    rfl
  · cases create
    rfl

theorem afterWorkItem_touches {e : Raised} (late : AfterWorkItem e) : afterSave e = false ∧ ¬ Untouched e := by
  obtain ⟨site, tookEffect, exception⟩ := e
  rcases late with ⟨create, took⟩ | save | apply
  · cases create
    cases took
    exact ⟨rfl, by simp [Untouched, BeforeWorkItem, Site.isLookup]⟩
  · cases save
    exact ⟨rfl, by simp [Untouched, BeforeWorkItem, Site.isLookup]⟩
  · constructor
    · cases site <;> first | rfl | cases apply
    · rintro (lookup | find | ⟨create, _⟩)
      · cases site <;> first | cases lookup; done | cases apply
      · cases find
        cases apply
      · cases create
        cases apply

section First
variable {self} {w t : World} {options : IngestOptions} {s : OpenProjectWorkItemSnapshot} {e : Raised}

theorem Stopped.spec (stopped : Stopped w options s e t) (sound : Sound w) (announced : Announced w)
    (changes : List SemanticChange) :
    afterSave e = false ∧ t.snapshots.get s.externalId = w.snapshots.get s.externalId ∧
      (¬ ∃ event ∈ w.since t, Reports s changes event) ∧
      t.assignments s.externalId = w.assignments s.externalId ∧
      (Untouched e → (t.package s.externalId).isSome = (w.package s.externalId).isSome) ∧
      (¬ Untouched e → (w.resolvedProject s options.projectId).isSome = true →
        (t.package s.externalId).isSome = true) := by
  have moves := stopped.moves
  obtain ⟨after, persists⟩ := moves.sound sound
  obtain ⟨documents, published, only⟩ := moves.published
  have same := (assignments_unchanged announced sound after persists published only.not_assigned).2
  have silent : ¬ ∃ event ∈ w.since t, Reports s changes event := by
    rw [since_eq published]
    have none := @reports_append s changes _ [] only
    rw [List.append_nil] at none
    simp [none]
  have snapshots : t.snapshots.get s.externalId = w.snapshots.get s.externalId := by rw [moves.snapshots]
  cases stopped with
  | untouched early _ mirror =>
    refine ⟨afterSave_of_untouched early, snapshots, silent, same _, ?_, fun touched => absurd early touched⟩
    intro _
    have knows : t.mirror.Knows s.externalId ↔ w.mirror.Knows s.externalId := by rw [mirror]
    rw [World.mirror_knows, World.mirror_knows] at knows
    exact Bool.eq_iff_iff.mpr knows
  | partly project late _ _ knows =>
    have atSave : afterSave e = false ∧ ¬ Untouched e := by
      rcases late with late | ⟨site, lost⟩
      · exact afterWorkItem_touches late
      · obtain ⟨_, _, _⟩ := e
        cases site
        cases lost
        exact ⟨rfl, by simp [Untouched, BeforeWorkItem, Site.isLookup]⟩
    exact ⟨atSave.1, snapshots, silent, same _, fun untouched => absurd untouched atSave.2,
      fun _ _ => World.mirror_knows.mp knows⟩
  | unsaved project site lost =>
    obtain ⟨_, _, _⟩ := e
    cases site
    cases lost
    refine ⟨rfl, snapshots, silent, same _, fun _ => rfl, ?_⟩
    intro _ resolves
    rw [project] at resolves
    cases resolves

variable {item : Option WorkItem} {tail : List EventEnvelope}

theorem Prepared.since {u : World} (prepared : Prepared w options s item u)
    (publishes : Publishes (World.saveSnapshot s u) tail t) :
    ∃ documents, w.since t = documents ++ tail ∧ DocumentEventsOnly documents := by
  obtain ⟨documents, published, only⟩ := prepared.moves.published
  obtain ⟨_, _, appended, _⟩ := publishes.saved
  refine ⟨documents, since_eq ?_, only⟩
  rw [appended, published, List.append_assoc]

theorem Closes.raised {created : Bool} {changes : List SemanticChange}
    (closes : self.Closes options s created changes item (.error e) tail) :
    afterSave e = true ∧ ((∃ event ∈ tail, Reports s changes event) ↔
        e.site = .publishAssignment ∨ e.site ≠ .snapshotsSave ∧ e.tookEffect = true) ∧
      (∀ id, 0 < tail.countP (isAssignmentOf id) ↔
        (e.site = .publishAssignment ∧ e.tookEffect = true) ∧ ∃ own, item = some own ∧ own.id = id) ∧
      (e.site = .publishAssignment → item.isSome = true) := by
  cases closes with
  | saveRaised _ site stored => simp [afterSave, site, stored]
  | eventRaised _ event _ _ site isEvent =>
    have other := fun id => isEvent.not_assignment id
    cases took : e.tookEffect <;> simp [afterSave, site, isEvent.reports, other]
  | assignmentRaised _ event assignment _ _ isEvent _ site isAssignment =>
    have other := fun id => isEvent.not_assignment id
    refine ⟨by simp [afterSave, site], ?_, ?_, fun _ => rfl⟩
    · simp [site, isEvent.reports]
    · intro id
      rw [List.countP_pos_iff]
      cases took : e.tookEffect <;> simp [site, other, isAssignment.iff]
  | factRaised _ event _ site isFact =>
    have other := fun id => isFact.not_assignment id
    cases took : e.tookEffect <;> simp [afterSave, site, isFact.reports, other]

theorem Closes.returned {created : Bool} {changes changes' : List SemanticChange} {result : OpenProjectIngestionResult}
    (closes : self.Closes options s created changes item (.ok result) tail) (live : options.mode = .live) :
    ((∃ event ∈ tail, Reports s changes' event) ↔
        changes = changes' ∧ (item.isSome = true → options.quiet created changes = false)) ∧
      (∀ id, 0 < tail.countP (isAssignmentOf id) ↔ options.quiet created changes = false ∧
        self.shouldTriggerAssignment s changes created options.providerAction = true ∧
          ∃ own, item = some own ∧ own.id = id) := by
  cases closes with
  | bootstrapped _ mode => rw [live] at mode; cases mode
  | unchanged _ _ quiet => simp [quiet]
  | event _ event _ loud isEvent untriggered =>
    have other := fun id => isEvent.not_assignment id
    simp [loud, isEvent.reports, other, untriggered]
  | assigned _ event assignment _ loud isEvent triggered isAssignment =>
    have other := fun id => isEvent.not_assignment id
    refine ⟨by simp [loud, isEvent.reports, isAssignment.not_reports], ?_⟩
    intro id
    rw [List.countP_pos_iff]
    simp [loud, triggered, other, isAssignment.iff]
  | fact _ event _ isFact =>
    have other := fun id => isFact.not_assignment id
    simp [isFact.reports, other]

theorem Prepared.assigns {u : World} {P : Prop} (prepared : Prepared w options s item u)
    (publishes : Publishes (World.saveSnapshot s u) tail t)
    (sound : Sound w) (announced : Announced w)
    (counted : ∀ id, 0 < tail.countP (isAssignmentOf id) ↔ P ∧ ∃ own, item = some own ∧ own.id = id) :
    w.assignments s.externalId < t.assignments s.externalId ↔
      P ∧ (w.resolvedProject s options.projectId).isSome = true := by
  have counts := (prepared.counts publishes sound announced).2 s.externalId
  cases prepared with
  | @resolved _ own _ project _ package =>
    rw [package] at counts
    have own := counted own.id
    simp only [Option.some.injEq, exists_eq_left', and_true] at own
    simp only [project, Option.isSome_some, and_true]
    rw [← own]
    dsimp only at counts
    omega
  | unresolved missing =>
    simp only [missing, Option.isSome_none, Bool.false_eq_true, and_false, iff_false]
    have none : ∀ id, tail.countP (isAssignmentOf id) = 0 := by
      intro id
      have zero := counted id
      simp only [reduceCtorEq, false_and, exists_false, and_false, iff_false] at zero
      omega
    split at counts
    · rename_i own _
      have zero := none own.id
      omega
    · omega

theorem Prepared.isSome {u : World} (prepared : Prepared w options s item u) :
    item.isSome = (w.resolvedProject s options.projectId).isSome := by
  cases prepared with
  | resolved project => rw [project]; rfl
  | unresolved project => rw [project]; rfl

theorem Ingested.retried {result : OpenProjectIngestionResult} (ingested : self.Ingested w options s (.ok result) t)
    (live : options.mode = .live) (action : options.providerAction = none)
    (unpublished : options.publishUnchanged = false) (sound : Sound w) (announced : Announced w)
    (changes : List SemanticChange) :
    ((∃ event ∈ w.since t, Reports s changes event) ↔
        diffSnapshots (w.snapshots.get s.externalId) s = changes ∧
          ((w.resolvedProject s options.projectId).isSome = true →
            (w.package s.externalId).isNone = true ∨ changes ≠ [])) ∧
      (w.assignments s.externalId < t.assignments s.externalId ↔
        self.shouldTriggerAssignment s (diffSnapshots (w.snapshots.get s.externalId) s)
          (w.package s.externalId).isNone none = true ∧ (w.resolvedProject s options.projectId).isSome = true) := by
  have quiet : ∀ created (others : List SemanticChange), options.quiet created others = false ↔ created = true ∨ others ≠ [] := by
    intro created others
    cases created <;> simp [IngestOptions.quiet, unpublished]
  cases ingested with
  | closed prepared closes publishes =>
    obtain ⟨documents, since, only⟩ := prepared.since publishes
    constructor
    · rw [since, reports_append only, (@Closes.returned _ _ _ _ _ _ _ changes _ closes live).1, prepared.isSome, quiet]
      constructor
      · rintro ⟨rfl, loud⟩
        exact ⟨rfl, loud⟩
      · rintro ⟨rfl, loud⟩
        exact ⟨rfl, loud⟩
    · have counted := (@Closes.returned _ _ _ _ _ _ _ changes _ closes live).2
      simp only [← and_assoc] at counted
      rw [prepared.assigns publishes sound announced counted, action, quiet]
      constructor
      · rintro ⟨⟨_, triggered⟩, project⟩
        exact ⟨triggered, project⟩
      · rintro ⟨triggered, project⟩
        refine ⟨⟨?_, triggered⟩, project⟩
        rcases ((self.shouldTriggerAssignment_eq_true).mp triggered).2 with created | changed
        · exact Or.inl created
        · exact Or.inr (List.ne_nil_of_mem changed)

end First

theorem after_silent {x : String} {history : List Call} {w : World} (sound : Sound w) (announced : Announced w)
    (silent : self.deliveries x history = []) :
    (self.after history w).snapshots.get x = w.snapshots.get x ∧
      ((self.after history w).package x).isSome = (w.package x).isSome := by
  induction history generalizing w with
  | nil => exact ⟨rfl, rfl⟩
  | cons call history ih =>
    have first : self.delivers x call = none := by
      cases delivered : self.delivers x call with
      | none => rfl
      | some b => simp [deliveries, delivered] at silent
    obtain ⟨snapshots, _, packages⟩ := self.ended_silent sound announced first
    obtain ⟨after, persists⟩ := self.ended_sound call sound
    obtain ⟨snapshots', packages'⟩ := ih after (self.ended_announced call sound announced)
      (by simpa [deliveries, first] using silent)
    refine ⟨snapshots'.trans snapshots, packages'.trans (Bool.eq_iff_iff.mpr ⟨packages, ?_⟩)⟩
    intro known
    obtain ⟨id, listed⟩ := sound.package_isSome.mp known
    exact after.package_isSome.mpr ⟨id, persists.workItems listed⟩

/-- Over two ingestions of `s`, from `w` to `t` and from `t'` to `f`, its changes
against the baseline of `w` were reported, and the assignment where one was due. -/
def Survives (options : IngestOptions) (s : OpenProjectWorkItemSnapshot) (w t t' f : World) : Prop :=
  (∃ event ∈ w.since t ++ t'.since f, Reports s (diffSnapshots (w.snapshots.get s.externalId) s) event) ∧
    (self.assignmentDue w options s = true → w.assignments s.externalId < t.assignments s.externalId ∨
      t'.assignments s.externalId < f.assignments s.externalId)

/-- A reportable live ingestion raises and a pull of the same snapshot follows:
exactly from the recoverable exceptions nothing is lost. -/
theorem survives_iff_recoverable (history between : List Call) (first retry : Call) (projects : Keyed Project.id)
    (nextUuid : Nat) {s : OpenProjectWorkItemSnapshot} {options again : IngestOptions} {e : Raised}
    {w t t' f : World} (atFirst : w = self.after history (World.start projects nextUuid))
    (op : first.op = .ingest s options)
    (reportable : diffSnapshots (w.snapshots.get s.externalId) s ≠ [] ∨ creates w options s = true)
    (raised : (self.ended first w).result = .error e) (afterFirst : t = (self.ended first w).store)
    (atRetry : t' = self.after between t) (silent : self.deliveries s.externalId between = [])
    (opAgain : retry.op = .ingest s again) (live : again.mode = .live) (action : again.providerAction = none)
    (unpublished : again.publishUnchanged = false) (clean : retry.outside.Clean)
    (sameProject : t'.resolvedProject s again.projectId = w.resolvedProject s options.projectId)
    (afterRetry : f = (self.ended retry t').store) :
    self.Survives options s w t t' f ↔ self.Recoverable w options s e := by
  have empty : Announced (World.start projects nextUuid) := by simp [Announced, World.start]
  have sound := (self.after_sound history (Sound.start projects nextUuid)).1
  have announced := self.after_announced history (Sound.start projects nextUuid) empty
  rw [← atFirst] at sound announced
  have soundT := (self.ended_sound first sound).1
  have announcedT := self.ended_announced first sound announced
  rw [← afterFirst] at soundT announcedT
  have soundT' := (self.after_sound between soundT).1
  have announcedT' := self.after_announced between soundT announcedT
  obtain ⟨snapshots, packages⟩ := self.after_silent soundT announcedT silent
  rw [← atRetry] at soundT' announcedT' snapshots packages
  -- the retry returns, and reports what it finds new
  obtain ⟨r', retried, _, raises'⟩ := self.ended_ingest opAgain soundT'
  rw [← afterRetry] at retried
  have second : ((∃ event ∈ t'.since f, Reports s (diffSnapshots (w.snapshots.get s.externalId) s) event) ↔
        diffSnapshots (t.snapshots.get s.externalId) s = diffSnapshots (w.snapshots.get s.externalId) s ∧
          ((w.resolvedProject s options.projectId).isSome = true →
            (t.package s.externalId).isSome = false ∨ diffSnapshots (w.snapshots.get s.externalId) s ≠ [])) ∧
      (t'.assignments s.externalId < f.assignments s.externalId ↔
        self.shouldTriggerAssignment s (diffSnapshots (t.snapshots.get s.externalId) s)
          (!(t.package s.externalId).isSome) none = true ∧ (w.resolvedProject s options.projectId).isSome = true) := by
    cases r' with
    | error e' => exact absurd (raises' e' rfl) (Outside.not_raises_of_returns fun n => clean n e'.site)
    | ok result =>
      have outcome := retried.retried live action unpublished soundT' announcedT'
        (diffSnapshots (w.snapshots.get s.externalId) s)
      rw [sameProject, snapshots, ← Option.not_isSome, packages] at outcome
      simpa only [Bool.not_eq_true'] using outcome
  obtain ⟨r, ingested, ends, _⟩ := self.ended_ingest op sound
  rw [← afterFirst] at ingested
  rw [raised] at ends
  cases r with
  | ok result => cases ends
  | error e' =>
    cases ends
    have due := @shouldTriggerAssignment_eq_true self s (diffSnapshots (w.snapshots.get s.externalId) s)
      (creates w options s) none
    have changed : .assigneeChanged ∈ diffSnapshots (w.snapshots.get s.externalId) s →
        diffSnapshots (w.snapshots.get s.externalId) s ≠ [] := List.ne_nil_of_mem
    have fresh : creates w options s = true ↔ (w.resolvedProject s options.projectId).isSome = true ∧
        (w.package s.externalId).isSome = false := by
      simp only [creates, Bool.and_eq_true, Option.isNone_iff_eq_none, Option.isSome_eq_false_iff]
    unfold Survives Recoverable
    rw [exists_append, second.1, second.2]
    cases ingested with
    | stopped stop =>
      obtain ⟨unsaved, sameSnapshot, unreported, unassigned, same, exists'⟩ := stop.spec sound announced
        (diffSnapshots (w.snapshots.get s.externalId) s)
      have again' := @shouldTriggerAssignment_eq_true self s (diffSnapshots (w.snapshots.get s.externalId) s)
        (!(t.package s.externalId).isSome) none
      simp only [eventIsCreated, Bool.not_eq_true'] at due again'
      rw [sameSnapshot, again', unassigned, unsaved, assignmentDue, due]
      grind
    | closed prepared closes publishes =>
      obtain ⟨documents, since, only⟩ := prepared.since publishes
      obtain ⟨saved, reported, counted, hasItem⟩ := closes.raised
      have assigned := prepared.assigns publishes sound announced counted
      have snapshot := (prepared.snapshots publishes s.externalId).trans (if_pos rfl)
      rw [prepared.isSome] at hasItem
      have known : (w.resolvedProject s options.projectId).isSome = true → (t.package s.externalId).isSome = true := by
        intro project
        rw [publishes.saved.1]
        cases prepared with
        | resolved _ _ package => rw [package]; rfl
        | unresolved missing => rw [missing] at project; cases project
      have again' := @shouldTriggerAssignment_eq_true self s [] (!(t.package s.externalId).isSome) none
      simp only [eventIsCreated, Bool.not_eq_true', List.not_mem_nil, or_false] at again'
      rw [snapshot, diffSnapshots_self, again', since, reports_append only, reported, assigned, saved, assignmentDue]
      grind

def failingAt (failing : Site) : Outside where
  outcome _ site := if site = failing then .raises false ⟨"RuntimeError", "down"⟩ else .returns
  clock _ := 0

/-- The lookup of the work item fails and a pull follows: nothing is lost. -/
theorem survives_iff_recoverable_lookup :
    let self : OpenProjectIngestionService := { brainActorId := some "7" }
    let s : OpenProjectWorkItemSnapshot := { externalId := "1", assigneeId := some "7" }
    let options : IngestOptions := { mode := .live, source := "webhook" }
    let first : Call := ⟨failingAt .findOrCreateFind, .ingest s options⟩
    let t := (self.ended first World.oneProject).store
    self.Survives options s World.oneProject t t (self.ended pulled t).store := by
  intro self s options first t
  refine (survives_iff_recoverable self [] [] first pulled _ 0 rfl rfl ?_ rfl rfl rfl rfl rfl rfl rfl rfl
    Outside.clean_clean ?_ rfl).mpr ?_
  · exact Or.inr (by decide)
  · decide
  · refine ⟨Or.inr (Or.inr (Or.inl rfl)), fun _ => ⟨by decide, Or.inr (Or.inr (Or.inl rfl))⟩⟩

/-- The bus fails on the first event of a new work item assigned to the brain
actor. The pull that follows finds nothing new, and neither event is ever published. -/
theorem publish_failure_loses_events :
    let self : OpenProjectIngestionService := { brainActorId := some "7" }
    let s : OpenProjectWorkItemSnapshot := { externalId := "1", assigneeId := some "7" }
    let options : IngestOptions := { mode := .live, source := "webhook" }
    let first : Call := ⟨failingAt .publishWorkItem, .ingest s options⟩
    let t := (self.ended first World.oneProject).store
    creates World.oneProject options s = true ∧ (∃ e, (self.ended first World.oneProject).result = .error e) ∧
      ¬ self.Survives options s World.oneProject t t (self.ended pulled t).store := by
  intro self s options first t
  refine ⟨by decide, ⟨_, rfl⟩, ?_⟩
  rintro ⟨⟨event, member, _⟩, _⟩
  have nothing : World.oneProject.since t ++ t.since (self.ended pulled t).store = [] := by decide
  rw [nothing] at member
  cases member

end OpenProjectIngestionService

end Brain
