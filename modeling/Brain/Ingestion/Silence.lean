import Brain.Ingestion.Sightings

namespace Brain
open Calls

theorem resolvedProject_congr {w t : World} (projects : t.projects = w.projects)
    (s : OpenProjectWorkItemSnapshot) (projectId : Option ProjectId) :
    t.resolvedProject s projectId = w.resolvedProject s projectId := by
  simp only [World.resolvedProject, World.findProject, projects]

/-- The operations of a bootstrap run over work items and comments. -/
def Call.Bootstraps (call : Call) : Prop :=
  match call.op with
  | .ingest _ options => options.mode = .bootstrap
  | .resolveRelationships _ => True
  | .ingestComment arguments => arguments.mode = .bootstrap
  | .upsertProject .. => False

namespace OpenProjectIngestionService
variable (self : OpenProjectIngestionService)

section Ingested
variable {self} {w t : World} {s : OpenProjectWorkItemSnapshot} {options : IngestOptions}
  {r : Except Raised OpenProjectIngestionResult}

theorem Ingested.projects (ingested : self.Ingested w options s r t) : t.projects = w.projects := by
  cases ingested with
  | stopped stop => exact stop.moves.projects
  | closed prepared _ publishes =>
    obtain ⟨next, _, rfl⟩ := publishes
    exact prepared.moves.projects

theorem Ingested.frame (ingested : self.Ingested w options s r t) :
    t.comments = w.comments ∧ t.bootstrapStates = w.bootstrapStates ∧ w.nextUuid ≤ t.nextUuid := by
  have moved : ∀ u, Moves w u →
      u.comments = w.comments ∧ u.bootstrapStates = w.bootstrapStates ∧ w.nextUuid ≤ u.nextUuid := by
    intro u moves
    have states := congrArg World.bootstrapStates moves.outer
    exact ⟨moves.comments, states, moves.nextUuid⟩
  cases ingested with
  | stopped stop => exact moved _ stop.moves
  | closed prepared _ publishes =>
    obtain ⟨next, le, rfl⟩ := publishes
    obtain ⟨comments, states, le'⟩ := moved _ prepared.moves
    exact ⟨comments, states, Nat.le_trans le' le⟩

theorem Ingested.unresolved (ingested : self.Ingested w options s r t)
    (project : w.resolvedProject s options.projectId = none) : t.mirror = w.mirror := by
  cases ingested with
  | stopped stop =>
    cases stop with
    | untouched _ _ mirror => exact mirror
    | partly found => rw [project] at found; cases found
    | unsaved => rfl
  | closed prepared _ publishes =>
    obtain ⟨next, _, rfl⟩ := publishes
    cases prepared with
    | resolved found => rw [project] at found; cases found
    | unresolved => exact mirror_congr rfl rfl

theorem Ingested.saves {result : OpenProjectIngestionResult} (ingested : self.Ingested w options s (.ok result) t) :
    t.snapshots = w.snapshots.upsert s := by
  cases ingested with
  | closed prepared _ publishes =>
    obtain ⟨next, _, rfl⟩ := publishes
    have before := prepared.moves.snapshots
    simp only [World.saveSnapshot, before]

theorem Ingested.bootstrapped (ingested : self.Ingested w options s r t) (bootstrap : options.mode = .bootstrap) :
    ∃ tail, t.published = w.published ++ tail ∧ DocumentEventsOnly tail := by
  cases ingested with
  | stopped stop => exact stop.moves.published
  | closed prepared closes publishes =>
    obtain ⟨_, _, appended, _⟩ := publishes.saved
    cases closes with
    | saveRaised => rw [appended, List.append_nil]; exact prepared.moves.published
    | bootstrapped => rw [appended, List.append_nil]; exact prepared.moves.published
    | unchanged _ live => rw [bootstrap] at live; cases live
    | eventRaised _ _ live => rw [bootstrap] at live; cases live
    | event _ _ live => rw [bootstrap] at live; cases live
    | assignmentRaised _ _ _ live => rw [bootstrap] at live; cases live
    | assigned _ _ _ live => rw [bootstrap] at live; cases live
    | factRaised _ _ live => rw [bootstrap] at live; cases live
    | fact _ _ live => rw [bootstrap] at live; cases live

end Ingested

/-- The snapshot `s` is the baseline, and its work item and attachments are stored. -/
structure Settled (w : World) (s : OpenProjectWorkItemSnapshot) : Prop where
  baseline : w.snapshots.get s.externalId = some s
  known : (w.package s.externalId).isSome = true
  attachments : AllCatalogued w s.attachments

variable {w : World} {s : OpenProjectWorkItemSnapshot}

theorem Ingested.settled {t : World} {options : IngestOptions} {result : OpenProjectIngestionResult}
    (ingested : self.Ingested w options s (.ok result) t)
    (project : (w.resolvedProject s options.projectId).isSome = true) : Settled t s := by
  cases ingested with
  | closed prepared _ publishes =>
    have saved := (prepared.snapshots publishes s.externalId).trans (if_pos rfl)
    have packages := publishes.saved.1
    cases prepared with
    | resolved _ _ package _ _ catalogued =>
      refine ⟨saved, by rw [packages, package]; rfl, ?_⟩
      obtain ⟨next, _, rfl⟩ := publishes
      exact catalogued
    | unresolved missing =>
      rw [missing] at project
      cases project

variable {call : Call}

theorem Settled.silent (settled : Settled w s) (sound : Sound w) (announced : Announced w)
    (silent : self.delivers s.externalId call = none) :
    Settled (self.ended call w).store s := by
  obtain ⟨snapshots, _, _⟩ := self.ended_silent sound announced silent
  obtain ⟨after, persists⟩ := self.ended_sound call sound
  refine ⟨snapshots.trans settled.baseline, ?_, ?_⟩
  · obtain ⟨id, listed⟩ := sound.package_isSome.mp settled.known
    exact after.package_isSome.mpr ⟨id, persists.workItems listed⟩
  · intro raw member named
    obtain ⟨id, listed⟩ := settled.attachments raw member named
    exact ⟨id, persists.attachments listed⟩

theorem ended_announced (call : Call) (sound : Sound w) (announced : Announced w) :
    Announced (self.ended call w).store := by
  rcases self.ended_tracks call sound announced with ⟨_, _, _, tracked, _, _⟩ | ⟨_, kept, _⟩
  · exact tracked
  · exact kept

theorem after_announced (history : List Call) (sound : Sound w) (announced : Announced w) :
    Announced (self.after history w) := by
  induction history generalizing w with
  | nil => exact announced
  | cons call history ih =>
    exact ih (self.ended_sound call sound).1 (self.ended_announced call sound announced)

variable {history : List Call}

theorem Settled.after (settled : Settled w s) (sound : Sound w) (announced : Announced w)
    (silent : self.deliveries s.externalId history = []) :
    Settled (self.after history w) s := by
  induction history generalizing w with
  | nil => exact settled
  | cons call history ih =>
    have first : self.delivers s.externalId call = none := by
      cases delivered : self.delivers s.externalId call with
      | none => rfl
      | some b => simp [deliveries, delivered] at silent
    refine ih (settled.silent self sound announced first)
      (self.ended_sound call sound).1 (self.ended_announced call sound announced) ?_
    simpa [deliveries, first] using silent

/-! ### The bootstrap -/

theorem ended_bootstraps (sound : Sound w) (bootstraps : call.Bootstraps) :
    ∃ tail, (self.ended call w).store.published = w.published ++ tail ∧ DocumentEventsOnly tail := by
  obtain ⟨outside, op⟩ := call
  cases op with
  | ingest s options =>
    obtain ⟨r, ingested, _⟩ := @ended_ingest self _ ⟨outside, .ingest s options⟩ _ _ rfl sound
    exact ingested.bootstrapped bootstraps
  | resolveRelationships snapshots =>
    have reached : Meets outside (resolveRelationships snapshots) w (fun _ t => Reworks w t) := by
      refine (resolveRelationships_refines default snapshots sound).mono ?_
      intro r t refined
      cases r with
      | ok _ => exact refined.1
      | error e => exact refined.1
    exact (reached 0).published
  | ingestComment arguments =>
    have stored : Meets outside (Op.run self (.ingestComment arguments)) w (fun _ t => Comments arguments w t) := by
      refine Meets.seq _ (ingestComment_stores arguments) ?_ ?_
      · exact fun _ _ reached => Meets.pure reached.1
      · exact fun _ _ reached => reached.1
    obtain ⟨tail, published, feedback⟩ := (stored 0).published
    refine ⟨tail, published, ?_⟩
    intro e member
    have live := (feedback e member).1
    have bootstrap : arguments.mode = .bootstrap := bootstraps
    rw [bootstrap] at live
    cases live
  | upsertProject => exact bootstraps.elim

theorem after_bootstraps (sound : Sound w) (bootstraps : ∀ call ∈ history, call.Bootstraps) :
    ∃ tail, (self.after history w).published = w.published ++ tail ∧ DocumentEventsOnly tail := by
  induction history generalizing w with
  | nil => exact ⟨[], by simp, by simp [DocumentEventsOnly]⟩
  | cons call history ih =>
    obtain ⟨first, atFirst, firstDocuments⟩ := self.ended_bootstraps sound (bootstraps call (List.mem_cons_self ..))
    obtain ⟨rest, atRest, restDocuments⟩ := ih (self.ended_sound call sound).1
      (fun later member => bootstraps later (List.mem_cons_of_mem _ member))
    refine ⟨first ++ rest, ?_, ?_⟩
    · rw [after_cons, atRest, atFirst, List.append_assoc]
    · intro e member
      rcases List.mem_append.mp member with old | new
      · exact firstDocuments e old
      · exact restDocuments e new

/-- The bootstrap's last ingestion of this work package was that of `s`; it
returned and had a project. -/
def Imports (s : OpenProjectWorkItemSnapshot) (history : List Call) (w : World) : Prop :=
  ∃ early call late options, history = early ++ call :: late ∧ call.op = .ingest s options ∧
    ((self.after early w).resolvedProject s options.projectId).isSome = true ∧
    (self.ended call (self.after early w)).result = .ok () ∧ self.deliveries s.externalId late = []

theorem Imports.settled (imports : self.Imports s history w) (sound : Sound w) (announced : Announced w) :
    Settled (self.after history w) s := by
  obtain ⟨early, call, late, options, rfl, op, project, returned, silent⟩ := imports
  have soundEarly := (self.after_sound early sound).1
  have announcedEarly := self.after_announced early sound announced
  obtain ⟨result, ingested⟩ := self.ended_completes soundEarly op rfl (fun _ => returned)
  rw [after_append, after_cons]
  exact (ingested.settled self project).after self (self.ended_sound call soundEarly).1
    (self.ended_announced call soundEarly announcedEarly) silent

/-! ### Pulls after it -/

/-- A pull cycle ingests `s`, whose project can be found. -/
def PullsAgain (s : OpenProjectWorkItemSnapshot) (w : World) (call : Call) : Prop :=
  ∃ options, call.op = .ingest s options ∧ options.mode = .live ∧ options.providerAction = none ∧
    options.publishUnchanged = false ∧ (w.resolvedProject s options.projectId).isSome = true

theorem ended_pullsAgain (settled : Settled w s) (sound : Sound w) (pulls : PullsAgain s w call) :
    (self.ended call w).store.published = w.published := by
  obtain ⟨options, op, live, _, unpublished, project⟩ := pulls
  obtain ⟨r, ingested, _⟩ := self.ended_ingest op sound
  have quiet : options.quiet (w.package s.externalId).isNone (diffSnapshots (w.snapshots.get s.externalId) s) = true := by
    have known := settled.known
    rw [settled.baseline, diffSnapshots_self]
    simp [IngestOptions.quiet, unpublished, known]
  generalize (self.ended call w).store = t at ingested ⊢
  cases ingested with
  | stopped stop =>
    cases stop with
    | untouched _ _ _ _ silent => exact silent settled.attachments
    | partly _ _ _ _ _ _ silent => exact silent settled.attachments
    | unsaved => rfl
  | closed prepared closes publishes =>
    obtain ⟨_, _, appended, _⟩ := publishes.saved
    cases prepared with
    | resolved _ _ _ _ _ _ silent =>
      have same := silent settled.attachments
      cases closes with
      | saveRaised => rw [appended, List.append_nil, same]
      | bootstrapped _ mode => rw [live] at mode; cases mode
      | unchanged => rw [appended, List.append_nil, same]
      | eventRaised _ _ _ loud => rw [quiet] at loud; cases loud
      | event _ _ _ loud => rw [quiet] at loud; cases loud
      | assignmentRaised _ _ _ _ loud => rw [quiet] at loud; cases loud
      | assigned _ _ _ _ loud => rw [quiet] at loud; cases loud
    | unresolved missing => rw [missing] at project; cases project

theorem Settled.pullsAgain {other : OpenProjectWorkItemSnapshot} (settled : Settled w other) (sound : Sound w)
    (announced : Announced w) (pulled : Settled w s)
    (pulls : PullsAgain s w call) : Settled (self.ended call w).store other := by
  obtain ⟨options, op, _⟩ := pulls
  by_cases same : other.externalId = s.externalId
  · have equal : other = s := by
      have baseline := settled.baseline
      rw [same, pulled.baseline] at baseline
      exact (Option.some.inj baseline).symm
    subst equal
    obtain ⟨r, ingested, _⟩ := self.ended_ingest op sound
    obtain ⟨after, persists⟩ := self.ended_sound call sound
    refine ⟨?_, ?_, ?_⟩
    · obtain ⟨_, _, own⟩ := ingested.tracks sound announced
      rcases own with ⟨kept, _⟩ | ⟨saved, _⟩ | ⟨saved, _⟩
      · exact kept.trans settled.baseline
      · exact saved
      · exact saved
    · obtain ⟨id, listed⟩ := sound.package_isSome.mp settled.known
      exact after.package_isSome.mpr ⟨id, persists.workItems listed⟩
    · intro raw member named
      obtain ⟨id, listed⟩ := settled.attachments raw member named
      exact ⟨id, persists.attachments listed⟩
  · exact settled.silent self sound announced (by simp [delivers, op, Ne.symm same])

theorem after_pullsAgain (sound : Sound w) (announced : Announced w)
    (pulls : ∀ call ∈ history, ∃ s, Settled w s ∧ PullsAgain s w call) :
    (self.after history w).published = w.published := by
  induction history generalizing w with
  | nil => rfl
  | cons call history ih =>
    obtain ⟨s, settled, first⟩ := pulls call (List.mem_cons_self ..)
    have published := self.ended_pullsAgain settled sound first
    have projects : (self.ended call w).store.projects = w.projects := by
      obtain ⟨options, op, _⟩ := first
      obtain ⟨r, ingested, _⟩ := self.ended_ingest op sound
      exact ingested.projects
    rw [after_cons, ← published]
    refine ih (self.ended_sound call sound).1 (self.ended_announced call sound announced) ?_
    intro later member
    obtain ⟨s', settled', options, op, live, action, unpublished, project⟩ := pulls later (List.mem_cons_of_mem _ member)
    refine ⟨s', settled'.pullsAgain self sound announced settled first, options, op, live, action, unpublished, ?_⟩
    rw [resolvedProject_congr projects]
    exact project

/-- A bootstrap publishes nothing but document events, and pulling the snapshots
it imported publishes nothing. -/
theorem bootstrap_silent (earlier boot pulls : List Call) (projects : Keyed Project.id) (nextUuid : Nat)
    (bootstraps : ∀ call ∈ boot, call.Bootstraps)
    (again : ∀ call ∈ pulls, ∃ s, self.Imports s boot (self.after earlier (World.start projects nextUuid)) ∧
      PullsAgain s (self.after (earlier ++ boot) (World.start projects nextUuid)) call) :
    (∃ tail, (self.after (earlier ++ boot) (World.start projects nextUuid)).published =
        (self.after earlier (World.start projects nextUuid)).published ++ tail ∧ DocumentEventsOnly tail) ∧
      (self.after (earlier ++ boot ++ pulls) (World.start projects nextUuid)).published =
        (self.after (earlier ++ boot) (World.start projects nextUuid)).published := by
  have start := Sound.start projects nextUuid
  have empty : Announced (World.start projects nextUuid) := by simp [Announced, World.start]
  have sound := (self.after_sound earlier start).1
  have announced := self.after_announced earlier start empty
  constructor
  · rw [after_append]
    exact self.after_bootstraps sound bootstraps
  · rw [self.after_append (earlier ++ boot)]
    refine self.after_pullsAgain (self.after_sound _ start).1 (self.after_announced _ start empty) ?_
    intro call member
    obtain ⟨s, imports, pull⟩ := again call member
    refine ⟨s, ?_, pull⟩
    rw [after_append]
    exact Imports.settled self imports sound announced

/-- A bootstrap of one work package assigned to the brain actor, and two pulls of it. -/
theorem bootstrap_silent_pulled :
    let self : OpenProjectIngestionService := { brainActorId := some "7" }
    let imported := Call.undisturbed (.ingest { externalId := "1", assigneeId := some "7" }
      { mode := .bootstrap, source := "bootstrap" })
    (∃ tail, (self.after ([] ++ [imported]) World.oneProject).published =
        (self.after [] World.oneProject).published ++ tail ∧ DocumentEventsOnly tail) ∧
      (self.after ([] ++ [imported] ++ [pulled, pulled]) World.oneProject).published =
        (self.after ([] ++ [imported]) World.oneProject).published := by
  refine bootstrap_silent _ [] _ _ _ 0 ?_ ?_
  · intro call member
    rw [List.mem_singleton.mp member]
    rfl
  · intro call member
    refine ⟨{ externalId := "1", assigneeId := some "7" }, ?_, ?_⟩
    · exact ⟨[], _, [], _, rfl, rfl, by decide, rfl, rfl⟩
    · simp only [List.mem_cons, List.not_mem_nil, or_false, or_self] at member
      rw [member]
      exact ⟨_, rfl, rfl, rfl, rfl, by decide⟩

/-- A bootstrap publishes the document event of a text attachment. A pull
publishes when the bootstrap had no project for its work package, and when it
finds none itself. -/
theorem bootstrap_publishes :
    let documents : DocumentIngestionService :=
      { parse := fun _ _ => ({ title := some "notes" }, 0), sha256 := id
        decisions := false, eventBus := true }
    let self : OpenProjectIngestionService :=
      { documentIngestion := some documents, contentFetcher := some fun _ => "text" }
    let attached : OpenProjectWorkItemSnapshot :=
      { externalId := "1", attachments := [[("id", .str "5"), ("content_type", .str "text/plain"),
          ("download_url", .str "/5")]] }
    let boot (s : OpenProjectWorkItemSnapshot) (projectId : Option ProjectId) :=
      Call.undisturbed (.ingest s { mode := .bootstrap, source := "bootstrap", projectId })
    let pull (s : OpenProjectWorkItemSnapshot) (projectId : Option ProjectId) :=
      Call.undisturbed (.ingest s { mode := .live, source := "pull", publishUnchanged := false, projectId })
    (self.after [boot attached none] World.oneProject).published ≠ [] ∧
      (self.after [boot { externalId := "1" } (some (.v5 "missing")), pull { externalId := "1" } none]
        World.oneProject).published ≠ [] ∧
      (self.after [boot { externalId := "1" } none, pull { externalId := "1" } (some (.v5 "missing"))]
        World.oneProject).published ≠ [] := by
  decide +kernel

end OpenProjectIngestionService

end Brain
