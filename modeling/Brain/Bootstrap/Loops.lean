import Brain.Application.OpenProjectBootstrap
import Brain.Application.WorkManagementSync
import Brain.Ingestion.Identity

namespace Brain
open Calls

namespace OpenProjectIngestionService
variable (self : OpenProjectIngestionService)

/-- A run of `ingest_work_item_snapshot` that returns. -/
def Ingests (o : Outside) (options : IngestOptions) (s : OpenProjectWorkItemSnapshot) (w t : World) : Prop :=
  ∃ n result, (self.ingestWorkItemSnapshot s options o n w).result = .ok result ∧
    (self.ingestWorkItemSnapshot s options o n w).store = t

/-- A run of `ingest_work_item_snapshot` that raises. -/
def BreaksOff (o : Outside) (options : IngestOptions) (s : OpenProjectWorkItemSnapshot) (w t : World) : Prop :=
  ∃ n e, (self.ingestWorkItemSnapshot s options o n w).result = .error e ∧
    (self.ingestWorkItemSnapshot s options o n w).store = t

variable {self} {o : Outside} {options : IngestOptions} {s : OpenProjectWorkItemSnapshot} {w t : World}

theorem Ingests.ingested (ingests : self.Ingests o options s w t) (sound : Sound w) :
    ∃ result, self.Ingested w options s (.ok result) t := by
  obtain ⟨n, result, returned, rfl⟩ := ingests
  have ingested := (self.ingestWorkItemSnapshot_ingested options sound (o := o) (s := s) n).1
  rw [returned] at ingested
  exact ⟨result, ingested⟩

theorem BreaksOff.ingested (breaks : self.BreaksOff o options s w t) (sound : Sound w) :
    ∃ e, self.Ingested w options s (.error e) t := by
  obtain ⟨n, e, raised, rfl⟩ := breaks
  have ingested := (self.ingestWorkItemSnapshot_ingested options sound (o := o) (s := s) n).1
  rw [raised] at ingested
  exact ⟨e, ingested⟩

theorem ingestWorkItemSnapshot_ends (options : IngestOptions) (s : OpenProjectWorkItemSnapshot) (sound : Sound w) :
    Meets o (self.ingestWorkItemSnapshot s options) w (byResult
      (fun _ t => self.Ingests o options s w t ∧ Sound t)
      (fun e t => o.Raises e ∧ self.BreaksOff o options s w t)) := by
  intro n
  obtain ⟨ingested, raises⟩ := self.ingestWorkItemSnapshot_ingested options sound (o := o) (s := s) n
  have later := (ingested.sound sound).1
  cases result : (self.ingestWorkItemSnapshot s options o n w).result with
  | ok r => exact ⟨⟨n, r, result, rfl⟩, later⟩
  | error e => exact ⟨raises e result, n, e, result, rfl⟩

end OpenProjectIngestionService

theorem Sound.saveBootstrapState {w : World} (sound : Sound w) (state : ProviderBootstrapState) :
    Sound (World.saveBootstrapState state w) :=
  ⟨sound.workItems, sound.attachments, sound.comments, sound.parents, sound.ends, sound.triples,
    sound.relationIds, sound.mappings⟩

theorem Sound.saveConflict {w : World} (sound : Sound w) (conflict : SyncConflict) :
    Sound (World.saveConflict conflict w) :=
  ⟨sound.workItems, sound.attachments, sound.comments, sound.parents, sound.ends, sound.triples,
    sound.relationIds, sound.mappings⟩

theorem getOrCreateWatermark_rest (provider syncKey : String) (w : World) :
    (World.getOrCreateWatermark provider syncKey w).2 = { w with watermarks := (World.getOrCreateWatermark provider syncKey w).2.watermarks } := by
  unfold World.getOrCreateWatermark
  split <;> rfl

/-! ### The loop of the bootstrap -/

namespace OpenProjectProjectBootstrapService
variable (self : OpenProjectProjectBootstrapService) {o : Outside} {w : World} {externalProjectId : String}
  {state : ProviderBootstrapState} {projectId : ProjectId}

def Checkpoints (state : ProviderBootstrapState) (w t : World) : Prop :=
  ∃ offset, t = World.saveBootstrapState { state with lastPage := offset } w

/-- The raw list the loop reads: it starts at the page of the checkpoint. -/
def remaining (externalProjectId : String) (state : ProviderBootstrapState) : List PyValue :=
  (self.provider.transport.projectWorkPackages externalProjectId).drop (max state.lastPage 1 - 1)

def batch (externalProjectId : String) (state : ProviderBootstrapState) : List OpenProjectWorkItemSnapshot :=
  Paging.read parseRaw self.pageSize (self.remaining externalProjectId state)

theorem ingestSnapshot_ends (projectId : ProjectId) (s : OpenProjectWorkItemSnapshot) (sound : Sound w) :
    Meets o (self.ingestSnapshot projectId s) w (byResult
      (fun _ t => self.ingestion.Ingests o (bootstrapOptions projectId) s w t ∧ Sound t)
      (fun e t => o.Raises e ∧ self.ingestion.BreaksOff o (bootstrapOptions projectId) s w t)) :=
  Meets.seq _ (OpenProjectIngestionService.ingestWorkItemSnapshot_ends _ s sound) (fun _ _ ended => Meets.pure ended)
    (fun _ _ stopped => stopped)

theorem fetchLoop_fetches (result : BootstrapResult) {turns : Nat} (sound : Sound w)
    (enough : (self.provider.transport.projectWorkPackages externalProjectId).length < turns) :
    Meets o (self.fetchLoop externalProjectId state result projectId turns) w (byResult
      (fun r t => Sound t ∧ ∃ result', r = some (result', self.batch externalProjectId state) ∧
        InTurn (self.ingestion.Ingests o (bootstrapOptions projectId)) (Checkpoints state) w
          (self.batch externalProjectId state) t)
      (fun e t => o.Raises e ∧ StopsIn (self.ingestion.Ingests o (bootstrapOptions projectId))
        (self.ingestion.BreaksOff o (bootstrapOptions projectId)) (Checkpoints state) w
        (self.batch externalProjectId state) t)) := by
  have positive := self.positive
  obtain ⟨raws, isList⟩ : ∃ raws, raws = self.provider.transport.projectWorkPackages externalProjectId := ⟨_, rfl⟩
  let walk := InTurn (self.ingestion.Ingests o (bootstrapOptions projectId)) (Checkpoints state) w
  -- the snapshots so far and what the rest of the list holds make up the batch
  refine @Meets.paged _ _ _ _ _ _ (max (raws.length + 1) (max state.lastPage 1)) _ _ _ _ _ _
    (fun offset fetched t => Sound t ∧ walk fetched.2 t ∧ 1 ≤ offset ∧
      offset ≤ max (raws.length + 1) (max state.lastPage 1) ∧ self.batch externalProjectId state =
        fetched.2 ++ Paging.read parseRaw self.pageSize (raws.drop (offset - 1))) ?_ ?_ ?_ ?_
  · exact ⟨sound, .start, by omega, by omega, by rw [batch, remaining, isList]; rfl⟩
  · exact fun _ _ _ reached => reached.2.2.2.1
  · rintro offset ⟨result, snapshots⟩ t ⟨sound, walked, first, within, split⟩
    unfold fetchPage
    obtain ⟨later, parts⟩ := @Paging.page_prefix _ _ parseRaw _ (raws.drop (offset - 1)) positive
    have listed : Paging.page parseRaw self.pageSize (raws.drop (offset - 1)) =
        self.provider.listWorkPackages externalProjectId offset self.pageSize := by rw [isList]; rfl
    rw [listed] at parts
    generalize self.provider.listWorkPackages externalProjectId offset self.pageSize = page at listed parts ⊢
    refine Meets.bind (Meets.query ?_ ?_)
    · dsimp only [byResult]
      refine Meets.seq _ (Meets.forEach_inTurn (Checkpoints state) Sound sound fun s _ u sound =>
        self.ingestSnapshot_ends projectId s sound) ?_ ?_
      · rintro _ u ⟨ingested, sound⟩
        have fetched : walk (snapshots ++ page) u := walked.trans ingested
        have saved : walk (snapshots ++ page) (World.saveBootstrapState { state with lastPage := offset } u) :=
          fetched.idle ⟨offset, rfl⟩
        have stops : ∀ v, walk (snapshots ++ page) v → StopsIn (self.ingestion.Ingests o (bootstrapOptions projectId))
            (self.ingestion.BreaksOff o (bootstrapOptions projectId)) (Checkpoints state) w
            (self.batch externalProjectId state) v := by
          intro v walked
          rw [split, parts, ← List.append_assoc]
          exact StopsIn.before walked later
        refine Meets.bind (Meets.command ?_ (fun _ raises => ⟨raises, stops _ fetched⟩)
          (fun _ raises => ⟨raises, stops _ saved⟩))
        refine Meets.pure ?_
        have after := sound.saveBootstrapState { state with lastPage := offset }
        by_cases short : page.length < self.pageSize
        · have last : snapshots ++ page = self.batch externalProjectId state := by
            rw [split, Paging.read_of_short (by rw [listed]; exact short), listed]
          rw [last] at saved
          have done : decide (page.length < self.pageSize) = true := decide_eq_true short
          simp only [byResult]
          rw [if_pos done]
          exact ⟨after, _, by rw [← last], saved⟩
        · have notDone : ¬ decide (page.length < self.pageSize) = true := by simpa using short
          simp only [byResult]
          rw [if_neg notDone]
          obtain ⟨further, goesOn⟩ := Paging.read_of_full_at listed first short positive
          refine ⟨after, saved, by omega, by omega, ?_⟩
          rw [split, goesOn, List.append_assoc]
      · rintro e u ⟨raises, stops⟩
        refine ⟨raises, ?_⟩
        rw [split, parts, ← List.append_assoc]
        exact StopsIn.after walked stops later
    · intro _ _ raises
      refine ⟨raises, ?_⟩
      rw [split]
      exact StopsIn.before walked _
  · have many : turns ≤ turns * self.pageSize := Nat.le_mul_of_pos_right turns positive
    rw [← isList] at enough
    omega

end OpenProjectProjectBootstrapService

/-! ### The loop of the pull -/

namespace WorkManagementPullSyncService
variable (self : WorkManagementPullSyncService) {o : Outside} {w : World} {projectId : ProjectId}
  {projectExternalId : String} {since : Time}

def Records (w t : World) : Prop := ∃ conflict, t = World.saveConflict conflict w

theorem recordStatusConflict_records (s : OpenProjectWorkItemSnapshot) :
    Meets o (recordStatusConflict s) w (fun r t => (t = w ∨ Records w t) ∧ ∀ e, r = .error e → o.Raises e) := by
  have raised : ∀ {t : World} {e : Raised}, t = w ∨ Records w t → o.Raises e →
      (t = w ∨ Records w t) ∧ ∀ e', (Except.error e : Except Raised Nat) = .error e' → o.Raises e' := by
    intro t e stays raises
    refine ⟨stays, ?_⟩
    rintro _ ⟨⟩
    exact raises
  unfold recordStatusConflict
  split
  · exact Meets.pure ⟨Or.inl rfl, by simp⟩
  · refine Meets.bind (Meets.query ?_ fun _ _ raises => raised (Or.inl rfl) raises)
    dsimp only [byResult]
    split
    · exact Meets.pure ⟨Or.inl rfl, by simp⟩
    · rename_i workItem _
      split
      · exact Meets.pure ⟨Or.inl rfl, by simp⟩
      · refine Meets.bind (Meets.query ?_ fun _ _ raises => raised (Or.inl rfl) raises)
        dsimp only [byResult]
        split
        · exact Meets.pure ⟨Or.inl rfl, by simp⟩
        · refine Meets.bind (Meets.command ?_ ?_ ?_)
          · dsimp only [byResult]
            exact Meets.pure ⟨Or.inr ⟨_, rfl⟩, by simp⟩
          · exact fun _ raises => raised (Or.inl rfl) raises
          · exact fun _ raises => raised (Or.inr ⟨_, rfl⟩) raises

def window (since : Time) (projectExternalId : String) : List OpenProjectWorkItemSnapshot :=
  Paging.read parseRaw self.pageSize (self.provider.transport.updatedWorkPackages since (some projectExternalId))

theorem pullSnapshots_pulls (page : List OpenProjectWorkItemSnapshot) (pulled : PullSyncResult × List String)
    (sound : Sound w) :
    Meets o (self.pullSnapshots projectId page pulled) w (byResult
      (fun r t => Sound t ∧ r.2 = pulled.2 ++ page.map OpenProjectWorkItemSnapshot.externalId ∧
        InTurn (self.ingestion.Ingests o (pullOptions "pull" projectId)) Records w page t)
      (fun e t => o.Raises e ∧ StopsIn (self.ingestion.Ingests o (pullOptions "pull" projectId))
        (self.ingestion.BreaksOff o (pullOptions "pull" projectId)) Records w page t)) := by
  induction page generalizing pulled w with
  | nil => exact Meets.pure ⟨sound, by simp, .start⟩
  | cons s page ih =>
    refine Meets.seq _ (OpenProjectIngestionService.ingestWorkItemSnapshot_ends _ s sound) ?_ ?_
    · rintro ingested t ⟨ingests, later⟩
      have first : InTurn (self.ingestion.Ingests o (pullOptions "pull" projectId)) Records w [s] t :=
        InTurn.start.step ingests
      have recorded : ∀ u, u = t ∨ Records t u →
          InTurn (self.ingestion.Ingests o (pullOptions "pull" projectId)) Records w [s] u ∧ Sound u := by
        rintro u (rfl | records)
        · exact ⟨first, later⟩
        · obtain ⟨conflict, rfl⟩ := id records
          exact ⟨first.idle records, later.saveConflict conflict⟩
      refine Meets.seq _ (recordStatusConflict_records s) ?_ ?_
      · rintro conflicts u ⟨stays, _⟩
        obtain ⟨walked, sound⟩ := recorded u stays
        refine (ih _ sound).mono ?_
        intro r v reached
        cases r with
        | ok r =>
          obtain ⟨sound, seen, rest⟩ := reached
          refine ⟨sound, ?_, walked.trans rest⟩
          rw [seen, List.append_assoc]
          rfl
        | error e =>
          have stops := StopsIn.after walked reached.2 []
          rw [List.append_nil] at stops
          exact ⟨reached.1, stops⟩
      · rintro e u ⟨stays, raises⟩
        exact ⟨raises e rfl, StopsIn.before (recorded u stays).1 page⟩
    · rintro e t ⟨raises, broke⟩
      exact ⟨raises, [], s :: page, w, rfl, .start, Or.inr ⟨s, rfl, broke⟩⟩

/-- The loop ends. Unless the provider no longer has the project, it pulls what
a paged reading of the raw list sees, in order. -/
theorem pullLoop_pulls (result : PullSyncResult) {turns : Nat} (sound : Sound w)
    (enough : (self.provider.transport.updatedWorkPackages since (some projectExternalId)).length < turns) :
    Meets o (self.pullLoop projectId projectExternalId since result turns) w (byResult
      (fun r t => Sound t ∧ ∃ result' pulled later,
        r = some (result', pulled.map OpenProjectWorkItemSnapshot.externalId) ∧
        self.window since projectExternalId = pulled ++ later ∧
        InTurn (self.ingestion.Ingests o (pullOptions "pull" projectId)) Records w pulled t ∧
        (later = [] ∨ (result'.status = "provider_project_missing" ∧
          ∃ e, o.Raises e ∧ e.site = .listChangedWorkPackages ∧ isMissingProviderProject e.exception = true)))
      (fun e t => o.Raises e ∧ StopsIn (self.ingestion.Ingests o (pullOptions "pull" projectId))
        (self.ingestion.BreaksOff o (pullOptions "pull" projectId)) Records w
        (self.window since projectExternalId) t)) := by
  have positive := self.positive
  obtain ⟨raws, isList⟩ : ∃ raws, raws = self.provider.transport.updatedWorkPackages since (some projectExternalId) :=
    ⟨_, rfl⟩
  let walk := InTurn (self.ingestion.Ingests o (pullOptions "pull" projectId)) Records w
  refine @Meets.paged _ _ _ _ _ _ (raws.length + 1) _ _ _ _ _ _
    (fun offset pulled t => Sound t ∧ 1 ≤ offset ∧ offset ≤ raws.length + 1 ∧
      ∃ done, pulled.2 = done.map OpenProjectWorkItemSnapshot.externalId ∧ walk done t ∧
        self.window since projectExternalId =
          done ++ Paging.read parseRaw self.pageSize (raws.drop (offset - 1))) ?_ ?_ ?_ ?_
  · exact ⟨sound, by omega, by omega, [], rfl, .start, by rw [window, ← isList]; rfl⟩
  · exact fun _ _ _ reached => reached.2.2.1
  · rintro offset ⟨result, seen⟩ t ⟨sound, first, within, done, isSeen, walked, split⟩
    unfold pullPage
    obtain ⟨later, parts⟩ := @Paging.page_prefix _ _ parseRaw _ (raws.drop (offset - 1)) positive
    have listed : Paging.page parseRaw self.pageSize (raws.drop (offset - 1)) =
        self.provider.listChangedWorkPackages since offset self.pageSize (some projectExternalId) := by rw [isList]; rfl
    rw [listed] at parts
    generalize self.provider.listChangedWorkPackages since offset self.pageSize (some projectExternalId) = page
      at listed parts ⊢
    have answered : Meets o (attempt (query .listChangedWorkPackages fun _ : World => page)) t
        (byResult (fun answer u => u = t ∧ (answer = .ok page ∨
          ∃ e, answer = .error e ∧ o.Raises e ∧ e.site = .listChangedWorkPackages)) (fun _ _ => False)) := by
      refine Meets.attempt (Meets.query ⟨rfl, Or.inl rfl⟩ ?_)
      exact fun _ _ raises => ⟨rfl, Or.inr ⟨_, rfl, raises, rfl⟩⟩
    dsimp only
    refine Meets.seq _ answered ?_ (fun _ _ stopped => stopped.elim)
    rintro answer u ⟨stayed, answer⟩
    rw [stayed]
    rcases answer with rfl | ⟨e, rfl, raises, site⟩
    · dsimp only
      refine Meets.seq _ (self.pullSnapshots_pulls page _ sound) ?_ ?_
      · rintro ⟨result', seen'⟩ v ⟨sound, isSeen', ingested⟩
        dsimp only at isSeen isSeen'
        rw [isSeen, ← List.map_append] at isSeen'
        refine Meets.pure ?_
        by_cases short : page.length < self.pageSize
        · have last : done ++ page = self.window since projectExternalId := by
            rw [split, Paging.read_of_short (by rw [listed]; exact short), listed]
          have finished : decide (page.length < self.pageSize) = true := decide_eq_true short
          simp only [byResult]
          rw [if_pos finished]
          exact ⟨sound, _, done ++ page, [], by rw [isSeen'], by rw [last, List.append_nil], walked.trans ingested,
            Or.inl rfl⟩
        · have unfinished : ¬ decide (page.length < self.pageSize) = true := by simpa using short
          simp only [byResult]
          rw [if_neg unfinished]
          obtain ⟨further, goesOn⟩ := Paging.read_of_full_at listed first short positive
          refine ⟨sound, by omega, by omega, done ++ page, isSeen', walked.trans ingested, ?_⟩
          rw [split, goesOn, List.append_assoc]
      · rintro e v ⟨raises, stops⟩
        refine ⟨raises, ?_⟩
        rw [split, parts, ← List.append_assoc]
        exact StopsIn.after walked stops later
    · dsimp only
      split
      · rename_i missing
        refine Meets.pure ?_
        simp only [byResult, if_true]
        exact ⟨sound, _, done, _, by rw [← isSeen], split, walked, Or.inr ⟨rfl, e, raises, site, missing⟩⟩
      · refine Meets.reraise ⟨raises, ?_⟩
        rw [split]
        exact StopsIn.before walked _
  · have many : turns ≤ turns * self.pageSize := Nat.le_mul_of_pos_right turns positive
    rw [← isList] at enough
    omega

end WorkManagementPullSyncService

/-! ### What the loops leave out -/

/-- Both loops end. They ingest every parseable element once exactly when none is
in front of the page they start at, and none on a later page than an element that
the parser rejects. -/
theorem loops_complete_iff (bootstrap : OpenProjectProjectBootstrapService) (pull : WorkManagementPullSyncService)
    (externalProjectId : String) (state : ProviderBootstrapState) (since : Time) (projectId : ProjectId)
    (fetched : BootstrapResult) (pulled : PullSyncResult) {turns : Nat} {o : Outside} {w : World} (sound : Sound w)
    (answers : ∀ e, o.Raises e → e.site ≠ .listChangedWorkPackages)
    (enough : (bootstrap.provider.transport.projectWorkPackages externalProjectId).length < turns)
    (enough' : (pull.provider.transport.updatedWorkPackages since (some externalProjectId)).length < turns) :
    Meets o (bootstrap.fetchLoop externalProjectId state fetched projectId turns) w (byResult
      (fun r t => ∃ result ingested, r = some (result, ingested) ∧
        InTurn (bootstrap.ingestion.Ingests o (OpenProjectProjectBootstrapService.bootstrapOptions projectId))
          (OpenProjectProjectBootstrapService.Checkpoints state) w ingested t ∧
        (ingested.Perm ((bootstrap.provider.transport.projectWorkPackages externalProjectId).filterMap parseRaw) ↔
          (∀ raw ∈ (bootstrap.provider.transport.projectWorkPackages externalProjectId).take (max state.lastPage 1 - 1),
            parseRaw raw = none) ∧
          Paging.Tidy parseRaw bootstrap.pageSize (bootstrap.remaining externalProjectId state)))
      (fun e _ => o.Raises e)) ∧
    Meets o (pull.pullLoop projectId externalProjectId since pulled turns) w (byResult
      (fun r t => ∃ result ingested, r = some (result, ingested.map OpenProjectWorkItemSnapshot.externalId) ∧
        InTurn (pull.ingestion.Ingests o (WorkManagementPullSyncService.pullOptions "pull" projectId))
          WorkManagementPullSyncService.Records w ingested t ∧
        (ingested.Perm ((pull.provider.transport.updatedWorkPackages since (some externalProjectId)).filterMap parseRaw) ↔
          Paging.Tidy parseRaw pull.pageSize (pull.provider.transport.updatedWorkPackages since (some externalProjectId))))
      (fun e _ => o.Raises e)) := by
  constructor
  · refine (bootstrap.fetchLoop_fetches fetched sound enough).mono ?_
    intro r t reached
    cases r with
    | error e => exact reached.1
    | ok r =>
      obtain ⟨_, result, isBatch, walk⟩ := reached
      exact ⟨result, _, isBatch, walk, Paging.read_drop_complete_iff bootstrap.positive _⟩
  · refine (pull.pullLoop_pulls pulled sound enough').mono ?_
    intro r t reached
    cases r with
    | error e => exact reached.1
    | ok r =>
      obtain ⟨_, result, ingested, later, isPulled, window, walk, complete⟩ := reached
      have whole : later = [] := by
        rcases complete with whole | ⟨_, e, raises, site, _⟩
        · exact whole
        · exact absurd site (answers e raises)
      rw [whole, List.append_nil] at window
      refine ⟨result, ingested, isPulled, walk, ?_⟩
      rw [← window]
      exact Paging.read_complete_iff pull.positive

/-- Two parseable elements, the second on a later page than a rejected element. -/
def rejectingProvider : OpenProjectAdapter :=
  let elements : List PyValue := [.none, .dict [("id", .str "1")], .dict [("id", .str "2")]]
  ⟨{ projectWorkPackages := fun _ => elements, updatedWorkPackages := fun _ _ => elements }⟩

theorem loops_complete_iff_unpaged :
    let bootstrap : OpenProjectProjectBootstrapService := { provider := rejectingProvider }
    let pull : WorkManagementPullSyncService := { provider := rejectingProvider }
    Returns Outside.clean (bootstrap.fetchLoop "10" { projectId := .v5 "project", provider := "openproject" }
        { projectId := .v5 "project", status := .connected } (.v5 "project") 4) World.oneProject
      (fun r _ => ∃ result ingested, r = some (result, ingested) ∧
        ingested.Perm ((bootstrap.provider.transport.projectWorkPackages "10").filterMap parseRaw)) ∧
    Returns Outside.clean (pull.pullLoop (.v5 "project") "10" 0 {} 4) World.oneProject
      (fun r _ => ∃ result, ∃ ingested : List OpenProjectWorkItemSnapshot,
        r = some (result, ingested.map OpenProjectWorkItemSnapshot.externalId) ∧
        ingested.Perm ((pull.provider.transport.updatedWorkPackages 0 (some "10")).filterMap parseRaw)) := by
  intro bootstrap pull
  have calm : ∀ e : Raised, ¬ Outside.clean.Raises e := fun _ => Outside.not_raises_of_returns fun _ => rfl
  have tidy : Paging.Tidy parseRaw 100 (rejectingProvider.transport.projectWorkPackages "10") := by
    intro i j r r' _ _ listed _
    have few : j < 3 := (List.getElem?_eq_some_iff.mp listed).1
    omega
  obtain ⟨fetches, pulls⟩ := loops_complete_iff bootstrap pull "10" { projectId := .v5 "project", provider := "openproject" }
    0 (.v5 "project") { projectId := .v5 "project", status := .connected } {} (Sound.start _ 0)
    (fun e raises => absurd raises (calm e)) (by decide : 3 < 4) (by decide : 3 < 4)
  constructor
  · refine fetches.mono ?_
    intro r t reached
    cases r with
    | error e => exact calm e reached
    | ok r =>
      obtain ⟨result, ingested, isFetched, _, complete⟩ := reached
      exact ⟨result, ingested, isFetched, complete.mpr ⟨by simp, tidy⟩⟩
  · refine pulls.mono ?_
    intro r t reached
    cases r with
    | error e => exact calm e reached
    | ok r =>
      obtain ⟨result, ingested, isPulled, _, complete⟩ := reached
      exact ⟨result, ingested, isPulled, complete.mpr tidy⟩

/-- With pages of two, both loops stop after the first and never see the second element. -/
theorem rejected_element_ends_loops :
    let bootstrap : OpenProjectProjectBootstrapService := { provider := rejectingProvider, pageSize := 2 }
    let pull : WorkManagementPullSyncService := { provider := rejectingProvider, pageSize := 2 }
    let fetched := bootstrap.fetchLoop "10" { projectId := .v5 "project", provider := "openproject" }
        { projectId := .v5 "project", status := .connected } (.v5 "project") 4 Outside.clean 0 World.oneProject
    let pulled := pull.pullLoop (.v5 "project") "10" 0 {} 4 Outside.clean 0 World.oneProject
    ((bootstrap.provider.transport.projectWorkPackages "10").filterMap parseRaw).map (·.externalId) = ["1", "2"] ∧
      fetched.store.snapshots.items.map (·.externalId) = ["1"] ∧ pulled.store.snapshots.items.map (·.externalId) = ["1"] ∧
      (fetched.result.toOption.bind id).isSome = true ∧ (pulled.result.toOption.bind id).isSome = true := by
  decide +kernel

end Brain
