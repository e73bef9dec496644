import Brain.Application.XWikiIngestion
import Brain.Ingestion.Frames

namespace Brain
open Calls

/-! ### Time passes in an ingestion -/

namespace DocumentIngestionService
variable (self : DocumentIngestionService)

theorem newUuid_forward : Forward newUuid := Forward.internal _

theorem createDecisions_forward (parsed : ParsedDocument) (artifact : SourceArtifact) (projectId : ProjectId) :
    Forward (self.createDecisions parsed artifact projectId) := by
  unfold createDecisions
  split
  · split
    · exact Forward.bind newUuid_forward fun _ => Forward.bind (Forward.command _ _) fun _ => Forward.pure _
    · exact Forward.pure _
  · exact Forward.pure _

theorem publishDocumentChanged_forward (document : Document) (source : String) :
    Forward (publishDocumentChanged document source) := by
  refine Forward.bind ?_ fun _ => Forward.command _ _
  exact Forward.bind newUuid_forward fun _ => Forward.bind newUuid_forward fun _ => Forward.pure _

theorem findOrCreateDocument_forward (artifact : SourceArtifact) (parsed : ParsedDocument) (docType : DocumentType)
    (projectId : ProjectId) : Forward (findOrCreateDocument artifact parsed docType projectId) := by
  refine Forward.bind (Forward.query _ _) fun existing => ?_
  split
  · split
    · exact Forward.bind (Forward.query _ _) fun _ => Forward.pure _
    · exact Forward.pure _
  · exact Forward.bind newUuid_forward fun _ => Forward.bind (Forward.command _ _) fun _ => Forward.pure _

theorem storeVersion_forward (artifact : SourceArtifact) (parsed : ParsedDocument) (docType : DocumentType)
    (projectId : ProjectId) (repositoryId : Option RepositoryId) (commitSha : Option String) (document : Document) :
    Forward (self.storeVersion artifact parsed docType projectId repositoryId commitSha document) := by
  refine Forward.bind newUuid_forward fun _ => Forward.bind Forward.now fun _ => ?_
  refine Forward.bind (Forward.command _ _) fun _ => ?_
  refine Forward.bind (Forward.forEach (fun _ => Forward.command _ _) _) fun _ => ?_
  refine Forward.bind (Forward.command _ _) fun _ => Forward.bind (self.createDecisions_forward _ _ _) fun _ => ?_
  split
  · exact Forward.bind (publishDocumentChanged_forward _ _) fun _ => Forward.pure _
  · exact Forward.pure _

theorem ingest_forward (artifact : SourceArtifact) (projectId : ProjectId) (documentType : Option DocumentType) :
    Forward (self.ingest artifact projectId documentType) := by
  refine Forward.bind (Forward.call _ _) fun _ => Forward.bind (findOrCreateDocument_forward _ _ _ _) fun found => ?_
  obtain ⟨document, currentVersion⟩ := found
  cases currentVersion with
  | none => exact self.storeVersion_forward _ _ _ _ _ _ _
  | some version =>
    dsimp only
    split
    · exact Forward.bind (Forward.query _ _) fun _ => Forward.pure _
    · exact self.storeVersion_forward _ _ _ _ _ _ _

end DocumentIngestionService

/-! ### The counters -/

namespace SpaceCycle
variable {cycle : SpaceCycle}

/-- The counters and the flag say what the turns so far did. -/
structure Counted (cycle : SpaceCycle) : Prop where
  total : cycle.result.ingested + cycle.result.unchanged + cycle.result.failed = cycle.attempts.length
  flag : cycle.failed = true ↔ cycle.result.failed ≠ 0
  failures : cycle.failed = true ↔ ∃ turn ∈ cycle.attempts, turn.2.isFailure = true

theorem counted_count (counted : cycle.Counted) (ref : ExternalReference) (outcome : PageOutcome) :
    (cycle.count ref outcome).Counted := by
  obtain ⟨total, flag, failures⟩ := counted
  have failure : ∀ turn : ExternalReference × PageOutcome, turn.2.isFailure = true →
      ∃ other ∈ cycle.attempts ++ [turn], other.2.isFailure = true :=
    fun turn isFailure => ⟨turn, by simp, isFailure⟩
  have success : ∀ turn : ExternalReference × PageOutcome, turn.2.isFailure = false →
      ((∃ other ∈ cycle.attempts ++ [turn], other.2.isFailure = true) ↔ cycle.failed = true) := by
    intro turn isSuccess
    rw [failures]
    simp [isSuccess, or_and_right, exists_or]
  cases outcome with
  | unmapped space =>
    refine ⟨?_, ?_, ?_⟩
    · simp only [count, fail, List.length_append, List.length_singleton]
      omega
    · simp [count, fail]
    · exact iff_of_true rfl (failure (ref, .unmapped space) rfl)
  | raised exception =>
    refine ⟨?_, ?_, ?_⟩
    · simp only [count, fail, List.length_append, List.length_singleton]
      omega
    · simp [count, fail]
    · exact iff_of_true rfl (failure (ref, .raised exception) rfl)
  | ingested fetchedAt artifact createdNewVersion =>
    have unfailed := success (ref, .ingested fetchedAt artifact createdNewVersion) rfl
    cases createdNewVersion with
    | true =>
      refine ⟨?_, flag, unfailed.symm⟩
      simp only [count, List.length_append, List.length_singleton]
      omega
    | false =>
      refine ⟨?_, flag, unfailed.symm⟩
      simp only [count, List.length_append, List.length_singleton]
      omega

theorem count_rest (cycle : SpaceCycle) (ref : ExternalReference) (outcome : PageOutcome) :
    (cycle.count ref outcome).refs = cycle.refs ∧
      (cycle.count ref outcome).result.since = cycle.result.since ∧
      (cycle.count ref outcome).result.discovered = cycle.result.discovered ∧
      (cycle.count ref outcome).attempts = cycle.attempts ++ [(ref, outcome)] := by
  cases outcome with
  | ingested fetchedAt artifact createdNewVersion => cases createdNewVersion <;> exact ⟨rfl, rfl, rfl, rfl⟩
  | _ => exact ⟨rfl, rfl, rfl, rfl⟩

end SpaceCycle

/-! ### The loop -/

namespace XWikiDocumentationSyncService
variable {self : XWikiDocumentationSyncService} {port : DocumentationPort} {o : Outside}

/-- A page that was ingested was fetched after the moment `n`. -/
def FetchedAfter (port : DocumentationPort) (n : Nat) (turn : ExternalReference × PageOutcome) : Prop :=
  ∀ fetchedAt artifact createdNewVersion, turn.2 = .ingested fetchedAt artifact createdNewVersion →
    n ≤ fetchedAt ∧ artifact = port.fetchDocument fetchedAt turn.1

theorem tryPage_forward (port : DocumentationPort) (ref : ExternalReference) : Forward (self.tryPage port ref) := by
  refine Forward.bind (Forward.query _ _) fun resolution => ?_
  cases resolution with
  | none => exact Forward.pure _
  | some project =>
    refine Forward.bind (Forward.ask _ _) fun fetched => ?_
    exact Forward.bind (self.ingestion.ingest_forward _ _ _) fun _ => Forward.pure _

theorem tryPage_filed (port : DocumentationPort) (ref : ExternalReference) :
    Within Filed (fun _ => True) (self.tryPage port ref) := by
  refine Within.bind (Within.query trivial) fun resolution => ?_
  cases resolution with
  | none => exact Within.pure _
  | some project =>
    refine Within.bind (Within.ask trivial) fun fetched => ?_
    refine Within.bind ((self.ingestion.ingest_filed _ _ _ _ _).mono (fun _ _ => id) (fun _ _ => trivial)) fun _ => ?_
    exact Within.pure _

theorem tryPage_fetchedAfter {n : Nat} {w : World} {ref : ExternalReference} {outcome : PageOutcome}
    (returned : (self.tryPage port ref o n w).result = .ok outcome) : FetchedAfter port n (ref, outcome) := by
  obtain ⟨resolution, n₁, w₁, resolved, rest⟩ := bind_eq_ok returned
  have later : n ≤ n₁ := (call_eq_ok resolved).2.1 ▸ Nat.le_succ n
  intro fetchedAt artifact createdNewVersion isIngested
  cases resolution with
  | none =>
    obtain rfl : PageOutcome.unmapped _ = outcome := Except.ok.inj rest
    cases isIngested
  | some project =>
    obtain ⟨fetched, n₂, w₂, asked, onward⟩ := bind_eq_ok rest
    obtain ⟨rfl, rfl, rfl⟩ := ask_eq_ok asked
    obtain ⟨ingested, _, _, _, last⟩ := bind_eq_ok onward
    obtain rfl : PageOutcome.ingested n₁ (port.fetchDocument n₁ ref) ingested.createdNewVersion = outcome :=
      Except.ok.inj last
    cases isIngested
    exact ⟨later, rfl⟩

theorem syncPage_returns (port : DocumentationPort) (o : Outside) (n : Nat) (w : World) (ref : ExternalReference) :
    ∃ outcome n' t, self.syncPage port ref o n w = ⟨.ok outcome, n', t⟩ ∧ n ≤ n' ∧ Filed w t ∧
      FetchedAfter port n (ref, outcome) := by
  have forward := self.tryPage_forward port ref o n w
  have filed := (self.tryPage_filed port ref o w n).store
  have fetched : ∀ outcome, (self.tryPage port ref o n w).result = .ok outcome → FetchedAfter port n (ref, outcome) :=
    fun _ => tryPage_fetchedAfter
  unfold syncPage
  generalize ended : self.tryPage port ref o n w = run at forward filed fetched
  obtain ⟨r, n', t⟩ := run
  have attempted : attempt (self.tryPage port ref) o n w = ⟨.ok r, n', t⟩ := by simp only [attempt, ended]
  rw [bind_ok attempted]
  cases r with
  | ok outcome => exact ⟨outcome, n', t, rfl, forward, filed, fetched outcome rfl⟩
  | error e => exact ⟨.raised e.exception, n', t, rfl, forward, filed, fun _ _ _ isIngested => by cases isIngested⟩

theorem syncPages_returns (port : DocumentationPort) (o : Outside) (refs : List ExternalReference) (cycle : SpaceCycle)
    (n : Nat) (w : World) :
    ∃ (turns : List (ExternalReference × PageOutcome)) (n' : Nat) (t : World),
      self.syncPages port refs cycle o n w =
        ⟨.ok (turns.foldl (fun cycle turn => cycle.count turn.1 turn.2) cycle), n', t⟩ ∧
      turns.map Prod.fst = refs ∧ n ≤ n' ∧ Filed w t ∧ ∀ turn ∈ turns, FetchedAfter port n turn := by
  induction refs generalizing cycle n w with
  | nil => exact ⟨[], n, w, rfl, rfl, Nat.le_refl n, refl_of Filed w, by simp⟩
  | cons ref refs ih =>
    obtain ⟨outcome, n₁, w₁, first, le₁, filed₁, fetched₁⟩ := self.syncPage_returns port o n w ref
    obtain ⟨turns, n', t, rest, heads, le, filed, fetched⟩ := ih (cycle.count ref outcome) n₁ w₁
    refine ⟨(ref, outcome) :: turns, n', t, ?_, by simp [heads], Nat.le_trans le₁ le, trans_of Filed filed₁ filed, ?_⟩
    · unfold syncPages
      rw [bind_ok first, rest]
      rfl
    · intro turn member
      rcases List.mem_cons.mp member with rfl | later
      · exact fetched₁
      · intro fetchedAt artifact createdNewVersion isIngested
        obtain ⟨after, isFetched⟩ := fetched turn later fetchedAt artifact createdNewVersion isIngested
        exact ⟨Nat.le_trans le₁ after, isFetched⟩

end XWikiDocumentationSyncService

/-! ### The cursor -/

def World.spaceCursor (w : World) (projectId : ProjectId) (space : String) : Option Time :=
  (w.watermarks.get ("xwiki", XWikiWatermarks.syncKey projectId space)).bind ProviderSyncWatermark.lastSyncedAt

namespace XWikiWatermarks
variable {o : Outside} {projectId : ProjectId} {space : String} {w t : World}

theorem getOrCreate_cursor (projectId : ProjectId) (space : String) (w : World) :
    (World.getOrCreateWatermark "xwiki" (syncKey projectId space) w).1.lastSyncedAt = w.spaceCursor projectId space ∧
      (World.getOrCreateWatermark "xwiki" (syncKey projectId space) w).1.key = ("xwiki", syncKey projectId space) ∧
      (World.getOrCreateWatermark "xwiki" (syncKey projectId space) w).2.spaceCursor projectId space =
        w.spaceCursor projectId space := by
  unfold World.getOrCreateWatermark World.spaceCursor
  split
  · rename_i watermark stored
    exact ⟨by rw [stored]; rfl, (Keyed.get_eq_some.mp stored).2, rfl⟩
  · rename_i missing
    rw [missing]
    refine ⟨rfl, rfl, ?_⟩
    have created : (w.watermarks.upsert { provider := "xwiki", syncKey := syncKey projectId space }).get
        ("xwiki", syncKey projectId space) = some { provider := "xwiki", syncKey := syncKey projectId space } :=
      Keyed.get_upsert_self _ _
    rw [created]
    rfl

theorem filed_cursor (filed : Filed w t) : t.spaceCursor projectId space = w.spaceCursor projectId space := by
  unfold World.spaceCursor
  rw [filed.beside.1.watermarks]

theorem since_cursor (projectId : ProjectId) (space : String) :
    Within (fun w t => t.spaceCursor projectId space = w.spaceCursor projectId space) (fun _ => True)
      (since projectId space) := by
  have refl : Std.Refl fun w t : World => t.spaceCursor projectId space = w.spaceCursor projectId space := ⟨fun _ => rfl⟩
  have preorder : IsTrans World fun w t => t.spaceCursor projectId space = w.spaceCursor projectId space :=
    ⟨fun _ _ _ first second => second.trans first⟩
  refine Within.bind (Within.call (fun w => ?_) trivial) fun _ => Within.pure _
  exact (getOrCreate_cursor projectId space w).2.2

theorem since_ok {n n' : Nat} {cursor : Option Time} (read : since projectId space o n w = ⟨.ok cursor, n', t⟩) :
    cursor = w.spaceCursor projectId space ∧ n' = n + 1 ∧ t.spaceCursor projectId space = w.spaceCursor projectId space := by
  have returned : (since projectId space o n w).result = .ok cursor := by rw [read]
  obtain ⟨watermark, n₁, w₁, got, _⟩ := bind_eq_ok returned
  obtain ⟨rfl, rfl, rfl⟩ := call_eq_ok got
  have whole : since projectId space o n w = ⟨.ok _, _, _⟩ := bind_ok got
  rw [read] at whole
  cases whole
  obtain ⟨atCursor, _, kept⟩ := getOrCreate_cursor projectId space w
  exact ⟨atCursor, rfl, kept⟩

theorem advance_cursor (o : Outside) (projectId : ProjectId) (space : String) (lastExternalId : Option String) (n : Nat)
    (w : World) :
    (advance projectId space none lastExternalId o n w).store.spaceCursor projectId space = w.spaceCursor projectId space ∨
      (advance projectId space none lastExternalId o n w).store.spaceCursor projectId space = some (o.clock (n + 1)) ∧
        n + 1 ≤ (advance projectId space none lastExternalId o n w).time := by
  obtain ⟨_, key, kept⟩ := getOrCreate_cursor projectId space w
  unfold advance
  generalize World.getOrCreateWatermark "xwiki" (syncKey projectId space) = getOrCreate at key kept
  simp only [Bind.bind, call]
  cases o.outcome n .advanceWatermarkGet with
  | raises tookEffect exception =>
    left
    cases tookEffect
    · rfl
    · exact kept
  | returns =>
    have saved : ∀ lastExternalId, (World.saveWatermark { (getOrCreate w).1 with
        lastSyncedAt := some (o.clock (n + 1)), lastExternalId } (getOrCreate w).2).spaceCursor projectId space =
        some (o.clock (n + 1)) := by
      intro lastExternalId
      have stored := Keyed.get_upsert_self (getOrCreate w).2.watermarks { (getOrCreate w).1 with
        lastSyncedAt := some (o.clock (n + 1)), lastExternalId }
      unfold World.spaceCursor World.saveWatermark
      rw [← key]
      exact congrArg (Option.bind · ProviderSyncWatermark.lastSyncedAt) stored
    simp only [now, command, call, Option.getD_none]
    cases o.outcome (n + 1 + 1) .advanceWatermarkSave with
    | returns => exact Or.inr ⟨saved _, Nat.le_add_right (n + 1) 2⟩
    | raises tookEffect exception =>
      cases tookEffect
      · exact Or.inl kept
      · exact Or.inr ⟨saved _, Nat.le_add_right (n + 1) 2⟩

end XWikiWatermarks

/-! ### One cycle -/

namespace XWikiDocumentationSyncService
variable {self : XWikiDocumentationSyncService} {port : DocumentationPort} {project : Project} {space : String}
  {o : Outside} {n n' : Nat} {w t : World} {cycle : SpaceCycle}

/-- What the loop of a cycle that starts at the moment `n` in `w` leaves. -/
structure Reconciled (port : DocumentationPort) (project : Project) (space : String) (n n' : Nat) (w : World)
    (cycle : SpaceCycle) : Prop where
  refs : cycle.refs = port.listChangedDocuments (n + 1) (w.spaceCursor project.id space) [space]
  since : cycle.result.since = w.spaceCursor project.id space
  discovered : cycle.result.discovered = cycle.refs.length
  heads : cycle.attempts.map Prod.fst = cycle.refs
  counted : cycle.Counted
  fetched : ∀ turn ∈ cycle.attempts, FetchedAfter port (n + 1) turn
  later : n + 2 ≤ n'

theorem counted_foldl (turns : List (ExternalReference × PageOutcome)) (counted : cycle.Counted) :
    let after := turns.foldl (fun cycle turn => cycle.count turn.1 turn.2) cycle
    after.Counted ∧ after.refs = cycle.refs ∧ after.result.since = cycle.result.since ∧
      after.result.discovered = cycle.result.discovered ∧ after.attempts = cycle.attempts ++ turns := by
  induction turns generalizing cycle with
  | nil => exact ⟨counted, rfl, rfl, rfl, (List.append_nil _).symm⟩
  | cons turn turns ih =>
    obtain ⟨refs, since, discovered, attempts⟩ := cycle.count_rest turn.1 turn.2
    obtain ⟨countedAfter, sameRefs, sameSince, sameDiscovered, allAttempts⟩ :=
      ih (SpaceCycle.counted_count counted turn.1 turn.2)
    refine ⟨countedAfter, sameRefs.trans refs, sameSince.trans since, sameDiscovered.trans discovered, ?_⟩
    rw [List.foldl_cons, allAttempts, attempts]
    simp

theorem reconcile_ok (ended : self.reconcile port project space o n w = ⟨.ok cycle, n', t⟩) :
    Reconciled port project space n n' w cycle ∧ t.spaceCursor project.id space = w.spaceCursor project.id space := by
  have returned : (self.reconcile port project space o n w).result = .ok cycle := by rw [ended]
  obtain ⟨since, n₁, w₁, read, rest⟩ := bind_eq_ok returned
  obtain ⟨refs, n₂, w₂, listed, loop⟩ := bind_eq_ok rest
  obtain ⟨turns, n₃, w₃, ran, heads, later, filed, fetched⟩ := self.syncPages_returns port o refs
    (SpaceCycle.start project.id space since refs) n₂ w₂
  unfold reconcile at ended
  rw [bind_ok read, bind_ok listed, ran] at ended
  cases ended
  obtain ⟨rfl, rfl, kept⟩ := XWikiWatermarks.since_ok read
  obtain ⟨isListed, rfl, rfl⟩ := ask_eq_ok listed
  have start : (SpaceCycle.start project.id space (w.spaceCursor project.id space) refs).Counted :=
    ⟨rfl, by simp [SpaceCycle.start], by simp [SpaceCycle.start]⟩
  obtain ⟨counted, sameRefs, sameSince, sameDiscovered, attempts⟩ := counted_foldl turns start
  refine ⟨⟨sameRefs.trans isListed, sameSince, ?_, ?_, counted, ?_, later⟩, ?_⟩
  · rw [sameDiscovered, sameRefs]
    rfl
  · rw [attempts, sameRefs]
    exact heads
  · intro turn member fetchedAt artifact createdNewVersion isIngested
    rw [attempts] at member
    obtain ⟨after, isFetched⟩ := fetched turn member fetchedAt artifact createdNewVersion isIngested
    exact ⟨by omega, isFetched⟩
  · exact (XWikiWatermarks.filed_cursor filed).trans kept

theorem reconcile_forward (self : XWikiDocumentationSyncService) (port : DocumentationPort) (project : Project)
    (space : String) : Forward (self.reconcile port project space) := by
  refine Forward.bind (Forward.bind (Forward.call _ _) fun _ => Forward.pure _) fun since => ?_
  refine Forward.bind (Forward.ask _ _) fun refs => ?_
  intro o n w
  obtain ⟨_, _, _, ran, _, later, _⟩ := self.syncPages_returns port o refs
    (SpaceCycle.start project.id space since refs) n w
  rw [ran]
  exact later

theorem syncSpace_forward (self : XWikiDocumentationSyncService) (port : DocumentationPort) (project : Project)
    (space : String) : Forward (self.syncSpace port project space) := by
  refine Forward.bind (self.reconcile_forward port project space) fun cycle => ?_
  dsimp only
  split
  · refine Forward.bind ?_ fun _ => Forward.pure _
    exact Forward.bind (Forward.call _ _) fun _ => Forward.bind Forward.now fun _ => Forward.command _ _
  · exact Forward.pure _

theorem reconcile_cursor (self : XWikiDocumentationSyncService) (port : DocumentationPort) (project : Project)
    (space : String) (o : Outside) (n : Nat) (w : World) :
    (self.reconcile port project space o n w).store.spaceCursor project.id space = w.spaceCursor project.id space := by
  generalize ended : self.reconcile port project space o n w = run
  obtain ⟨_ | cycle, n', t⟩ := run
  · have since := XWikiWatermarks.since_cursor project.id space o w n
    unfold reconcile at ended
    generalize read : XWikiWatermarks.since project.id space o n w = first at since
    obtain ⟨_ | cursor, n₁, w₁⟩ := first
    · rw [bind_error read] at ended
      cases ended
      exact since.1
    · rw [bind_ok read] at ended
      generalize listed : ask .listChangedDocuments (fun n _ => port.listChangedDocuments n cursor [space]) o n₁ w₁ =
        second at ended
      have within : Within Eq (fun _ => True) (ask .listChangedDocuments fun n _ =>
          port.listChangedDocuments n cursor [space] : Prog (List ExternalReference)) := Within.ask trivial
      have kept := within o w₁ n₁
      rw [listed] at kept
      obtain ⟨_ | refs, n₂, w₂⟩ := second
      · rw [bind_error listed] at ended
        cases ended
        exact kept.1 ▸ since
      · rw [bind_ok listed] at ended
        obtain ⟨_, _, _, ran, _⟩ := self.syncPages_returns port o refs
          (SpaceCycle.start project.id space cursor refs) n₂ w₂
        rw [ran] at ended
        cases ended
  · exact (reconcile_ok ended).2

theorem syncSpace_cursor (self : XWikiDocumentationSyncService) (port : DocumentationPort) (project : Project)
    (space : String) (o : Outside) (n : Nat) (w : World) :
    (self.syncSpace port project space o n w).store.spaceCursor project.id space = w.spaceCursor project.id space ∨
      ∃ cycle n' t, self.reconcile port project space o n w = ⟨.ok cycle, n', t⟩ ∧ cycle.advances = true ∧
        (self.syncSpace port project space o n w).store.spaceCursor project.id space = some (o.clock (n' + 1)) ∧
        n' + 1 ≤ (self.syncSpace port project space o n w).time := by
  have before := reconcile_cursor self port project space o n w
  unfold syncSpace
  generalize ended : self.reconcile port project space o n w = run at before
  obtain ⟨_ | cycle, n', t⟩ := run
  · rw [bind_error ended]
    exact Or.inl before
  · rw [bind_ok ended]
    cases advances : cycle.advances with
    | false => exact Or.inl before
    | true =>
      have moved := XWikiWatermarks.advance_cursor o project.id space
        (cycle.refs.getLast?.map ExternalReference.externalId) n' t
      simp only [if_true]
      generalize saved : XWikiWatermarks.advance project.id space none
        (cycle.refs.getLast?.map ExternalReference.externalId) o n' t = last at moved
      obtain ⟨_ | _, _, _⟩ := last
      · rw [bind_error saved]
        exact moved.imp (fun kept => kept.trans before) fun atClock => ⟨cycle, n', t, rfl, advances, atClock⟩
      · rw [bind_ok saved]
        exact moved.imp (fun kept => kept.trans before) fun atClock => ⟨cycle, n', t, rfl, advances, atClock⟩

end XWikiDocumentationSyncService

end Brain
