import Brain.Documentation.Cycles
import Brain.Lib.Runs
import Mathlib.Data.List.Dedup

namespace Brain
open Calls Runs

/-- An edit of a page, made before the call of the number `moment`. -/
structure PageEdit where
  page : String
  moment : Nat
  time : Time
  content : String
  deriving DecidableEq

structure Wiki where
  edits : List PageEdit
  present : Nat → String → Prop := fun _ _ => True

/-- The page was edited at or after `since`, as of the moment `n`. -/
def Wiki.ChangedSince (wiki : Wiki) (n : Nat) (since : Option Time) (page : String) : Prop :=
  ∀ s, since = some s → ∃ edit ∈ wiki.edits, edit.page = page ∧ edit.moment ≤ n ∧ s ≤ edit.time

theorem Wiki.ChangedSince.mono {wiki : Wiki} {m n : Nat} {since : Option Time} {page : String}
    (changed : wiki.ChangedSince m since page) (later : m ≤ n) : wiki.ChangedSince n since page := by
  intro s isSince
  obtain ⟨edit, made, ofPage, early, recent⟩ := changed s isSince
  exact ⟨edit, made, ofPage, Nat.le_trans early later, recent⟩

def pagesOf (refs : List ExternalReference) : List String := refs.map ExternalReference.externalId

/-- The port lists the existing pages changed at or after `since`. -/
def DocumentationPort.Lists (port : DocumentationPort) (wiki : Wiki) (space : String) : Prop :=
  ∀ n since page, page ∈ pagesOf (port.listChangedDocuments n since [space]) ↔
    wiki.present n page ∧ wiki.ChangedSince n since page

def Wiki.ofEdits (edits : List PageEdit) : Wiki where
  edits
  present n page := ∃ edit ∈ edits, edit.page = page ∧ edit.moment ≤ n

def Wiki.contentAt (wiki : Wiki) (n : Nat) (page : String) : Option String :=
  ((wiki.edits.filter fun edit => edit.page = page ∧ edit.moment ≤ n).getLast?).map PageEdit.content

def DocumentationPort.ofEdits (edits : List PageEdit) : DocumentationPort where
  listChangedDocuments n since _ :=
    ((edits.filter fun edit => edit.moment ≤ n ∧ since.all (· ≤ edit.time)).map PageEdit.page).dedup.map fun page =>
      { provider := "xwiki", externalId := page, externalType := some "page" }
  fetchDocument n ref :=
    { sourceUri := ref.externalId, provider := "xwiki", mimeType := some "text/x-xwiki", fileName := some ref.externalId
      content := (Wiki.ofEdits edits).contentAt n ref.externalId }

theorem DocumentationPort.ofEdits_lists (edits : List PageEdit) (space : String) :
    (DocumentationPort.ofEdits edits).Lists (Wiki.ofEdits edits) space := by
  intro n since page
  have listed : page ∈ pagesOf ((DocumentationPort.ofEdits edits).listChangedDocuments n since [space]) ↔
      ∃ edit ∈ edits, edit.page = page ∧ edit.moment ≤ n ∧ ∀ s, since = some s → s ≤ edit.time := by
    simp only [pagesOf, DocumentationPort.ofEdits, List.map_map, Function.comp_def, List.map_id', List.mem_dedup,
      List.mem_map, List.mem_filter, decide_eq_true_eq, Option.all_eq_true]
    constructor
    · rintro ⟨edit, ⟨made, early, recent⟩, ofPage⟩
      exact ⟨edit, made, ofPage, early, recent⟩
    · rintro ⟨edit, made, ofPage, early, recent⟩
      exact ⟨edit, ⟨made, early, recent⟩, ofPage⟩
  rw [listed]
  constructor
  · rintro ⟨edit, made, ofPage, early, recent⟩
    exact ⟨⟨edit, made, ofPage, early⟩, fun s isSince => ⟨edit, made, ofPage, early, recent s isSince⟩⟩
  · rintro ⟨⟨edit, made, ofPage, early⟩, changed⟩
    cases since with
    | none => exact ⟨edit, made, ofPage, early, by simp⟩
    | some s =>
      obtain ⟨edit, made, ofPage, early, recent⟩ := changed s rfl
      exact ⟨edit, made, ofPage, early, by simpa using recent⟩

/-- The cycles of a space up to a moment, with the turns of their loops. -/
structure SpaceSync where
  moment : Nat
  world : World
  attempts : List (ExternalReference × PageOutcome) := []

/-- A cycle runs, or time passes and others write, but not to the cursor. -/
inductive SpaceStep
  | cycle
  | elsewhere (moment : Nat) (world : World)

namespace XWikiDocumentationSyncService
variable (self : XWikiDocumentationSyncService) (port : DocumentationPort) (project : Project) (space : String)
  (o : Outside)

def loopAt (S : SpaceSync) : Except Raised SpaceCycle := (self.reconcile port project space o S.moment S.world).result

def attemptsAt (S : SpaceSync) : List (ExternalReference × PageOutcome) :=
  match self.loopAt port project space o S with
  | .ok cycle => cycle.attempts
  | .error _ => []

def act (S : SpaceSync) : SpaceStep → Option SpaceSync
  | .cycle =>
    let run := self.syncSpace port project space o S.moment S.world
    some ⟨run.time, run.store, S.attempts ++ self.attemptsAt port project space o S⟩
  | .elsewhere moment world =>
    if S.moment ≤ moment ∧ world.spaceCursor project.id space = S.world.spaceCursor project.id space then
      some ⟨moment, world, S.attempts⟩
    else none

/-- The next cycle ends with no failure. -/
def EndsClean (S : SpaceSync) : Prop :=
  ∃ cycle, self.loopAt port project space o S = .ok cycle ∧ cycle.result.failed = 0

def Fails (S : SpaceSync) (page : String) : Prop :=
  ∃ cycle, self.loopAt port project space o S = .ok cycle ∧
    ∃ turn ∈ cycle.attempts, turn.1.externalId = page ∧ turn.2.isFailure = true

/-- What a cycle does whatever happens to its pages. -/
structure Isolates (service : XWikiDocumentationSyncService) (port : DocumentationPort) (project : Project)
    (space : String) (o : Outside) (S : SpaceSync) : Prop where
  /-- Once the pages are listed, the loop reaches its end. -/
  completes : o.outcome S.moment .spaceWatermarkGet = .returns →
    o.outcome (S.moment + 1) .listChangedDocuments = .returns →
    ∃ cycle, service.loopAt port project space o S = .ok cycle
  returns : ∀ result, (service.syncSpace port project space o S.moment S.world).result = .ok result →
    ∃ cycle, service.loopAt port project space o S = .ok cycle ∧ result = cycle.result
  listed : ∀ cycle, service.loopAt port project space o S = .ok cycle →
    cycle.refs = port.listChangedDocuments (S.moment + 1) (S.world.spaceCursor project.id space) [space]
  attempted : ∀ cycle, service.loopAt port project space o S = .ok cycle → cycle.attempts.map Prod.fst = cycle.refs
  discovered : ∀ cycle, service.loopAt port project space o S = .ok cycle →
    cycle.result.discovered = cycle.refs.length ∧
      cycle.result.discovered = cycle.result.ingested + cycle.result.unchanged + cycle.result.failed
  cursor : (service.syncSpace port project space o S.moment S.world).store.spaceCursor project.id space ≠
      S.world.spaceCursor project.id space → service.EndsClean port project space o S

variable {self port project space o} {S T : SpaceSync} {cycle : SpaceCycle}

theorem loopAt_reconciled (looped : self.loopAt port project space o S = .ok cycle) :
    ∃ n, Reconciled port project space S.moment n S.world cycle := by
  unfold loopAt at looped
  generalize ended : self.reconcile port project space o S.moment S.world = run at looped
  obtain ⟨_, n, t⟩ := run
  obtain rfl : _ = Except.ok cycle := looped
  exact ⟨n, (reconcile_ok ended).1⟩

theorem endsClean_of_advances (looped : self.loopAt port project space o S = .ok cycle)
    (advances : cycle.advances = true) : self.EndsClean port project space o S := by
  obtain ⟨n, reconciled⟩ := loopAt_reconciled looped
  have unfailed : cycle.failed = false := by
    unfold SpaceCycle.advances at advances
    simp only [Bool.and_eq_true, Bool.not_eq_true'] at advances
    exact advances.1
  have flag := reconciled.counted.flag
  rw [unfailed] at flag
  exact ⟨cycle, looped, by simpa using flag⟩

theorem cursor_unclean (unclean : ¬ self.EndsClean port project space o S) :
    (self.syncSpace port project space o S.moment S.world).store.spaceCursor project.id space =
      S.world.spaceCursor project.id space := by
  rcases self.syncSpace_cursor port project space o S.moment S.world with
    kept | ⟨cycle, n, t, ended, advances, _, _⟩
  · exact kept
  · have looped : self.loopAt port project space o S = .ok cycle := by rw [loopAt, ended]
    exact absurd (endsClean_of_advances looped advances) unclean

theorem isolates (S : SpaceSync) : self.Isolates port project space o S where
  completes := by
    intro read listed
    have sinceRun : XWikiWatermarks.since project.id space o S.moment S.world = ⟨.ok _, S.moment + 1, _⟩ :=
      bind_ok (call_returns read)
    generalize (World.getOrCreateWatermark "xwiki" (XWikiWatermarks.syncKey project.id space) S.world).1.lastSyncedAt =
      cursor at sinceRun
    generalize (World.getOrCreateWatermark "xwiki" (XWikiWatermarks.syncKey project.id space) S.world).2 = t at sinceRun
    have listRun : ask .listChangedDocuments (fun n (_ : World) => port.listChangedDocuments n cursor [space]) o
        (S.moment + 1) t = ⟨.ok (port.listChangedDocuments (S.moment + 1) cursor [space]), S.moment + 2, t⟩ :=
      call_returns listed
    obtain ⟨turns, n, u, ran, _⟩ := self.syncPages_returns port o
      (port.listChangedDocuments (S.moment + 1) cursor [space])
      (SpaceCycle.start project.id space cursor (port.listChangedDocuments (S.moment + 1) cursor [space]))
      (S.moment + 2) t
    unfold loopAt reconcile
    rw [bind_ok sinceRun, bind_ok listRun, ran]
    exact ⟨_, rfl⟩
  returns := by
    intro result returned
    obtain ⟨cycle, n, t, ended, rest⟩ := bind_eq_ok returned
    refine ⟨cycle, by rw [loopAt, ended], ?_⟩
    cases advances : cycle.advances with
    | false =>
      simp only [advances, Bool.false_eq_true, if_false] at rest
      exact (Except.ok.inj rest).symm
    | true =>
      simp only [advances, if_true] at rest
      obtain ⟨_, _, _, _, last⟩ := bind_eq_ok rest
      exact (Except.ok.inj last).symm
  listed := by
    intro cycle looped
    obtain ⟨_, reconciled⟩ := loopAt_reconciled looped
    exact reconciled.refs
  attempted := by
    intro cycle looped
    obtain ⟨_, reconciled⟩ := loopAt_reconciled looped
    exact reconciled.heads
  discovered := by
    intro cycle looped
    obtain ⟨_, reconciled⟩ := loopAt_reconciled looped
    refine ⟨reconciled.discovered, ?_⟩
    have length := congrArg List.length reconciled.heads
    rw [List.length_map] at length
    rw [reconciled.discovered, ← length, reconciled.counted.total]
  cursor := by
    intro moved
    by_contra unclean
    exact moved (cursor_unclean unclean)

/-! ### A page that failed -/

theorem fails_unclean {page : String} (fails : self.Fails port project space o S page) :
    ¬ self.EndsClean port project space o S := by
  rintro ⟨clean, looped, unfailed⟩
  obtain ⟨cycle, alike, turn, member, _, failure⟩ := fails
  obtain rfl : clean = cycle := Except.ok.inj (looped.symm.trans alike)
  obtain ⟨_, reconciled⟩ := loopAt_reconciled looped
  have failed := reconciled.counted.failures.mpr ⟨turn, member, failure⟩
  exact reconciled.counted.flag.mp failed unfailed

/-- No cycle of the steps ends with no failure. -/
def Unfinished (self : XWikiDocumentationSyncService) (port : DocumentationPort) (project : Project) (space : String)
    (o : Outside) : List SpaceStep → SpaceSync → Prop :=
  Along (self.act port project space o) fun S step => step = .cycle → ¬ self.EndsClean port project space o S

theorem cursor_unfinished {steps : List SpaceStep} (unfinished : self.Unfinished port project space o steps S)
    (run : after (self.act port project space o) steps S = some T) :
    T.world.spaceCursor project.id space = S.world.spaceCursor project.id space ∧ S.moment ≤ T.moment := by
  let Stays : SpaceSync → Prop := fun T =>
    T.world.spaceCursor project.id space = S.world.spaceCursor project.id space ∧ S.moment ≤ T.moment
  suffices throughout : Throughout (self.act port project space o) Stays steps S from throughout.last run
  refine Along.throughout ?_ unfinished ⟨rfl, Nat.le_refl _⟩
  intro U step V stays unclean acted
  obtain ⟨cursor, later⟩ := stays
  cases step with
  | cycle =>
    cases acted
    have forward := self.syncSpace_forward port project space o U.moment U.world
    exact ⟨(cursor_unclean (unclean rfl)).trans cursor, Nat.le_trans later forward⟩
  | elsewhere moment world =>
    unfold act at acted
    dsimp only at acted
    split at acted
    · rename_i allowed
      cases acted
      exact ⟨allowed.2.trans cursor, Nat.le_trans later allowed.1⟩
    · cases acted

theorem pagesOf_reconciled {n n' : Nat} {w : World} (reconciled : Reconciled port project space n n' w cycle)
    {turn : ExternalReference × PageOutcome} (member : turn ∈ cycle.attempts) :
    turn.1.externalId ∈ pagesOf (port.listChangedDocuments (n + 1) (w.spaceCursor project.id space) [space]) := by
  have head : turn.1 ∈ cycle.attempts.map Prod.fst := List.mem_map_of_mem member
  rw [reconciled.heads, reconciled.refs] at head
  exact List.mem_map_of_mem head

theorem failed_is_listed {wiki : Wiki} (lists : port.Lists wiki space) {page : String}
    (fails : self.Fails port project space o S page) {steps : List SpaceStep}
    (unfinished : self.Unfinished port project space o steps S)
    (run : after (self.act port project space o) steps S = some T) (looped : self.loopAt port project space o T = .ok cycle)
    (present : wiki.present (T.moment + 1) page) : page ∈ pagesOf cycle.refs := by
  obtain ⟨first, firstLoop, turn, member, rfl, _⟩ := fails
  obtain ⟨_, early⟩ := loopAt_reconciled firstLoop
  obtain ⟨_, late⟩ := loopAt_reconciled looped
  obtain ⟨cursor, later⟩ := cursor_unfinished unfinished run
  have changed := ((lists _ _ _).mp (pagesOf_reconciled early member)).2
  rw [late.refs, cursor]
  exact (lists _ _ _).mpr ⟨present, changed.mono (Nat.succ_le_succ later)⟩

/-- Cycles isolate failures, and a page that failed stays listed. -/
theorem cycles_isolate_and_retry (self : XWikiDocumentationSyncService) (port : DocumentationPort) (project : Project)
    (space : String) (wiki : Wiki) (lists : port.Lists wiki space) (o : Outside) (S : SpaceSync) :
    self.Isolates port project space o S ∧
      ∀ page, self.Fails port project space o S page → ∀ steps T, self.Unfinished port project space o steps S →
        after (self.act port project space o) steps S = some T → ∀ cycle, self.loopAt port project space o T = .ok cycle →
        wiki.present (T.moment + 1) page → page ∈ pagesOf cycle.refs := by
  refine ⟨isolates S, ?_⟩
  intro page fails steps T unfinished run cycle looped present
  exact failed_is_listed lists fails unfinished run looped present

/-- A page of a space that no project maps. -/
def unmappedEdit : PageEdit := { page := "ADAS.Braking", moment := 0, time := 0, content := "= Braking" }

def plainSync : XWikiDocumentationSyncService where
  ingestion :=
    { parse := fun _ n => ({ documentType := .general, nodes := [] }, n), sha256 := id, decisions := false
      eventBus := false }

theorem unmapped_is_listed_again :
    ∃ T cycle, after (plainSync.act (.ofEdits [unmappedEdit]) { id := .v5 "ADAS", name := "ADAS" } "ADAS" Outside.clean)
        [.cycle] { moment := 0, world := {} } = some T ∧
      plainSync.loopAt (.ofEdits [unmappedEdit]) { id := .v5 "ADAS", name := "ADAS" } "ADAS" Outside.clean T = .ok cycle ∧
      "ADAS.Braking" ∈ pagesOf cycle.refs := by
  have fails : plainSync.Fails (.ofEdits [unmappedEdit]) { id := .v5 "ADAS", name := "ADAS" } "ADAS" Outside.clean
      { moment := 0, world := {} } "ADAS.Braking" := ⟨_, rfl, _, List.mem_singleton_self _, rfl, rfl⟩
  refine ⟨_, _, rfl, rfl, (cycles_isolate_and_retry plainSync (.ofEdits [unmappedEdit]) { id := .v5 "ADAS", name := "ADAS" }
    "ADAS" (Wiki.ofEdits [unmappedEdit]) (DocumentationPort.ofEdits_lists _ _) Outside.clean
    { moment := 0, world := {} }).2 _ fails [.cycle] _ ?_ rfl _ rfl ?_⟩
  · intro T _
    exact ⟨fun _ => fails_unclean fails, trivial⟩
  · exact ⟨unmappedEdit, List.mem_singleton_self _, rfl, Nat.zero_le _⟩

end XWikiDocumentationSyncService

end Brain

namespace Brain
open Calls Runs

/-- The port returns a page as the edits so far left it. -/
def DocumentationPort.Fetches (port : DocumentationPort) (wiki : Wiki) : Prop :=
  ∀ n ref, (port.fetchDocument n ref).content = wiki.contentAt n ref.externalId

theorem DocumentationPort.ofEdits_fetches (edits : List PageEdit) :
    (DocumentationPort.ofEdits edits).Fetches (Wiki.ofEdits edits) := fun _ _ => rfl

/-- The edits and the calls happen under one clock that never goes back. -/
structure SharedClock (edits : List PageEdit) (clock : Nat → Time) : Prop where
  monotone : ∀ m n, m ≤ n → clock m ≤ clock n
  ordered : edits.Pairwise fun early late => early.moment ≤ late.moment
  later : ∀ edit ∈ edits, ∀ n, n < edit.moment → clock n ≤ edit.time
  earlier : ∀ edit ∈ edits, ∀ n, edit.moment ≤ n → edit.time ≤ clock n

/-- The page was ingested with a content at least as new as the edit. -/
def Heard (wiki : Wiki) (edit : PageEdit) (attempts : List (ExternalReference × PageOutcome)) : Prop :=
  ∃ ref fetchedAt artifact createdNewVersion, (ref, .ingested fetchedAt artifact createdNewVersion) ∈ attempts ∧
    ref.externalId = edit.page ∧ edit.moment ≤ fetchedAt ∧ artifact.content = wiki.contentAt fetchedAt edit.page

theorem Heard.append {wiki : Wiki} {edit : PageEdit} {early : List (ExternalReference × PageOutcome)}
    (heard : Heard wiki edit early) (late : List (ExternalReference × PageOutcome)) : Heard wiki edit (early ++ late) := by
  obtain ⟨ref, fetchedAt, artifact, createdNewVersion, member, rest⟩ := heard
  exact ⟨ref, fetchedAt, artifact, createdNewVersion, List.mem_append_left _ member, rest⟩

theorem Heard.of_late {wiki : Wiki} {edit : PageEdit} {late : List (ExternalReference × PageOutcome)}
    (heard : Heard wiki edit late) (early : List (ExternalReference × PageOutcome)) : Heard wiki edit (early ++ late) := by
  obtain ⟨ref, fetchedAt, artifact, createdNewVersion, member, rest⟩ := heard
  exact ⟨ref, fetchedAt, artifact, createdNewVersion, List.mem_append_right _ member, rest⟩

namespace XWikiDocumentationSyncService
variable {self : XWikiDocumentationSyncService} {port : DocumentationPort} {project : Project} {space : String}
  {o : Outside} {S T : SpaceSync} {cycle : SpaceCycle} {edits : List PageEdit}

def FetchesAfter (self : XWikiDocumentationSyncService) (port : DocumentationPort) (project : Project) (space : String)
    (o : Outside) (S : SpaceSync) (edit : PageEdit) : Prop :=
  ∃ ref fetchedAt artifact createdNewVersion,
    (ref, .ingested fetchedAt artifact createdNewVersion) ∈ self.attemptsAt port project space o S ∧
    ref.externalId = edit.page ∧ edit.moment ≤ fetchedAt

/-- Where a cycle moves the cursor, no page is edited between its read (its
fetch, or the listing when it is not listed) and the end of the cycle at a time
before the new cursor. -/
def Quiet (self : XWikiDocumentationSyncService) (port : DocumentationPort) (project : Project) (space : String)
    (o : Outside) (edits : List PageEdit) (S : SpaceSync) : SpaceStep → Prop
  | .elsewhere _ _ => True
  | .cycle =>
    let run := self.syncSpace port project space o S.moment S.world
    ∀ cursor, run.store.spaceCursor project.id space = some cursor →
      S.world.spaceCursor project.id space ≠ some cursor →
      ∀ edit ∈ edits, S.moment + 1 < edit.moment → edit.moment ≤ run.time → edit.time < cursor →
        self.FetchesAfter port project space o S edit

/-- Everything edited before the cursor was ingested. -/
def Kept (project : Project) (space : String) (edits : List PageEdit) (S : SpaceSync) : Prop :=
  ∀ cursor, S.world.spaceCursor project.id space = some cursor → ∀ edit ∈ edits, edit.time < cursor →
    Heard (Wiki.ofEdits edits) edit S.attempts

theorem attemptsAt_ok (looped : self.loopAt port project space o S = .ok cycle) :
    self.attemptsAt port project space o S = cycle.attempts := by
  rw [attemptsAt, looped]

variable {edit : PageEdit}

theorem heard_of_fetchesAfter (fetches : port.Fetches (Wiki.ofEdits edits))
    (looped : self.loopAt port project space o S = .ok cycle) (fetched : self.FetchesAfter port project space o S edit) :
    Heard (Wiki.ofEdits edits) edit cycle.attempts := by
  obtain ⟨ref, fetchedAt, artifact, createdNewVersion, member, ofPage, after⟩ := fetched
  obtain ⟨_, reconciled⟩ := loopAt_reconciled looped
  rw [attemptsAt_ok looped] at member
  have isFetched := (reconciled.fetched _ member fetchedAt artifact createdNewVersion rfl).2
  refine ⟨ref, fetchedAt, artifact, createdNewVersion, member, ofPage, after, ?_⟩
  rw [isFetched, fetches, ofPage]

theorem heard_of_listed (lists : port.Lists (Wiki.ofEdits edits) space) (fetches : port.Fetches (Wiki.ofEdits edits))
    (looped : self.loopAt port project space o S = .ok cycle) (unfailed : cycle.failed = false)
    (made : edit ∈ edits) (early : edit.moment ≤ S.moment + 1)
    (recent : ∀ cursor, S.world.spaceCursor project.id space = some cursor → cursor ≤ edit.time) :
    Heard (Wiki.ofEdits edits) edit cycle.attempts := by
  obtain ⟨_, reconciled⟩ := loopAt_reconciled looped
  have listed : edit.page ∈ pagesOf cycle.refs := by
    rw [reconciled.refs]
    exact (lists _ _ _).mpr ⟨⟨edit, made, rfl, early⟩, fun cursor isCursor => ⟨edit, made, rfl, early, recent cursor isCursor⟩⟩
  obtain ⟨ref, isListed, ofPage⟩ := List.mem_map.mp listed
  rw [← reconciled.heads] at isListed
  obtain ⟨⟨_, outcome⟩, member, rfl⟩ := List.mem_map.mp isListed
  have success : outcome.isFailure = false := by
    by_contra failure
    have failed := reconciled.counted.failures.mpr ⟨_, member, by simpa using failure⟩
    rw [unfailed] at failed
    cases failed
  cases outcome with
  | ingested fetchedAt artifact createdNewVersion =>
    obtain ⟨after, isFetched⟩ := reconciled.fetched _ member fetchedAt artifact createdNewVersion rfl
    refine ⟨_, fetchedAt, artifact, createdNewVersion, member, ofPage, by omega, ?_⟩
    rw [isFetched, fetches, ofPage]
  | _ => cases success

theorem clean_hears (lists : port.Lists (Wiki.ofEdits edits) space) (fetches : port.Fetches (Wiki.ofEdits edits))
    (kept : Kept project space edits S) (looped : self.loopAt port project space o S = .ok cycle)
    (unfailed : cycle.failed = false) (made : edit ∈ edits) (early : edit.moment ≤ S.moment + 1) :
    Heard (Wiki.ofEdits edits) edit (S.attempts ++ cycle.attempts) := by
  by_cases recent : ∀ cursor, S.world.spaceCursor project.id space = some cursor → cursor ≤ edit.time
  · exact (heard_of_listed lists fetches looped unfailed made early recent).of_late _
  · simp only [not_forall, Nat.not_le] at recent
    obtain ⟨cursor, isCursor, passed⟩ := recent
    exact (kept cursor isCursor edit made passed).append _

theorem kept_act (lists : port.Lists (Wiki.ofEdits edits) space) (fetches : port.Fetches (Wiki.ofEdits edits))
    (clock : SharedClock edits o.clock) {step : SpaceStep} (kept : Kept project space edits S)
    (quiet : self.Quiet port project space o edits S step) (acted : self.act port project space o S step = some T) :
    Kept project space edits T := by
  cases step with
  | elsewhere moment world =>
    unfold act at acted
    dsimp only at acted
    split at acted
    · rename_i allowed
      cases acted
      intro cursor isCursor edit made passed
      exact kept cursor (allowed.2 ▸ isCursor) edit made passed
    · cases acted
  | cycle =>
    cases acted
    intro cursor isCursor edit made passed
    by_cases same : S.world.spaceCursor project.id space = some cursor
    · exact (kept cursor same edit made passed).append _
    rcases self.syncSpace_cursor port project space o S.moment S.world with
      unmoved | ⟨cycle, n, t, ended, advances, moved, saved⟩
    · exact absurd (unmoved.symm.trans isCursor) same
    have looped : self.loopAt port project space o S = .ok cycle := by rw [loopAt, ended]
    have unfailed : cycle.failed = false := by
      simp only [SpaceCycle.advances, Bool.and_eq_true, Bool.not_eq_true'] at advances
      exact advances.1
    show Heard _ _ (S.attempts ++ self.attemptsAt port project space o S)
    rw [attemptsAt_ok looped]
    by_cases early : edit.moment ≤ S.moment + 1
    · exact clean_hears lists fetches kept looped unfailed made early
    -- an edit after the end of the cycle is not before the new cursor
    have during : edit.moment ≤ (self.syncSpace port project space o S.moment S.world).time := by
      by_contra future
      have notPassed := clock.later edit made (n + 1) (by omega)
      have isSaved : o.clock (n + 1) = cursor := Option.some.inj (moved.symm.trans isCursor)
      exact Nat.not_lt.mpr (isSaved ▸ notPassed) passed
    have fetched := quiet cursor isCursor same edit made (by omega) during passed
    exact (heard_of_fetchesAfter fetches looped fetched).of_late _

/-- The state before the first cycle. -/
def Fresh (project : Project) (space : String) (S : SpaceSync) : Prop := S.world.spaceCursor project.id space = none

/-- In a run of quiet cycles, a cycle without failure has heard every edit made
before it. -/
theorem quiet_edits_heard (self : XWikiDocumentationSyncService) (port : DocumentationPort) (project : Project)
    (space : String) (o : Outside) (edits : List PageEdit) (clock : SharedClock edits o.clock)
    (lists : port.Lists (Wiki.ofEdits edits) space) (fetches : port.Fetches (Wiki.ofEdits edits))
    (S : SpaceSync) (fresh : Fresh project space S) (steps : List SpaceStep)
    (quiet : Along (self.act port project space o) (self.Quiet port project space o edits) steps S) :
    ∀ first rest T, steps = first ++ rest → after (self.act port project space o) first S = some T →
      self.EndsClean port project space o T → ∀ edit ∈ edits, edit.moment ≤ T.moment →
        Heard (Wiki.ofEdits edits) edit (T.attempts ++ self.attemptsAt port project space o T) := by
  intro first rest T split run clean edit made early
  have start : Kept project space edits S := by
    intro cursor isCursor
    rw [fresh] at isCursor
    cases isCursor
  have throughout : Throughout (self.act port project space o) (Kept project space edits) steps S :=
    quiet.throughout (fun _ _ _ kept quiet acted => kept_act lists fetches clock kept quiet acted) start
  have kept : Kept project space edits T := throughout_iff.mp throughout first rest T split run
  obtain ⟨cycle, looped, unfailed⟩ := clean
  obtain ⟨_, reconciled⟩ := loopAt_reconciled looped
  have flag : cycle.failed = false := by
    have := reconciled.counted.flag
    cases isFailed : cycle.failed with
    | false => rfl
    | true => exact absurd unfailed (this.mp isFailed)
  rw [attemptsAt_ok looped]
  exact clean_hears lists fetches kept looped flag made (by omega)

def adas : Project :=
  { id := .v5 "ADAS", name := "ADAS"
    externalRefs := [{ provider := "xwiki", externalId := "ADAS", externalType := some "space" }] }

def adasWorld : World := World.putProject adas {}

def ticking : Outside := ⟨fun _ _ => .returns, id⟩

theorem ticking_clock (ordered : edits.Pairwise fun early late => early.moment ≤ late.moment)
    (between : ∀ edit ∈ edits, edit.time ≤ edit.moment ∧ edit.moment ≤ edit.time + 1) :
    SharedClock edits ticking.clock where
  monotone _ _ le := le
  ordered := ordered
  later edit made _ before := Nat.lt_succ_iff.mp (Nat.lt_of_lt_of_le before (between edit made).2)
  earlier edit made _ after := Nat.le_trans (between edit made).1 after

def lateEdits : List PageEdit :=
  [{ page := "ADAS.Braking", moment := 0, time := 0, content := "draft" },
    { page := "ADAS.Braking", moment := 13, time := 12, content := "final" }]

theorem late_edit_heard :
    ∃ T, after (plainSync.act (.ofEdits lateEdits) adas "ADAS" ticking) [.cycle] { moment := 0, world := adasWorld } =
        some T ∧
      ∀ edit ∈ lateEdits, Heard (Wiki.ofEdits lateEdits) edit
        (T.attempts ++ plainSync.attemptsAt (.ofEdits lateEdits) adas "ADAS" ticking T) := by
  refine ⟨_, rfl, ?_⟩
  intro edit made
  refine quiet_edits_heard plainSync (.ofEdits lateEdits) adas "ADAS" ticking lateEdits
    (ticking_clock (by decide) (by decide)) (DocumentationPort.ofEdits_lists _ _) (DocumentationPort.ofEdits_fetches _)
    { moment := 0, world := adasWorld } rfl [.cycle] ?_ [.cycle] [] _ rfl rfl ⟨_, rfl, rfl⟩ edit made ?_
  · intro U acted
    refine ⟨?_, trivial⟩
    intro cursor isCursor _ edit made listed _ passed
    obtain rfl : (11 : Time) = cursor := Option.some.inj isCursor
    have either : ∀ edit ∈ lateEdits, edit.moment ≤ 1 ∨ 11 ≤ edit.time := by decide
    rcases either edit made with early | recent
    · exact absurd listed (Nat.not_lt.mpr early)
    · exact absurd passed (Nat.not_lt.mpr recent)
  · have early : ∀ edit ∈ lateEdits, edit.moment ≤ 13 := by decide
    exact early edit made

/-! ### An edit that is never heard -/

theorem attemptsAt_passed (lists : port.Lists (Wiki.ofEdits edits) space) {cursor : Time}
    (isCursor : S.world.spaceCursor project.id space = some cursor) (past : ∀ edit ∈ edits, edit.time < cursor) :
    self.attemptsAt port project space o S = [] := by
  cases looped : self.loopAt port project space o S with
  | error e => rw [attemptsAt, looped]
  | ok cycle =>
    obtain ⟨_, reconciled⟩ := loopAt_reconciled looped
    rw [attemptsAt_ok looped, ← List.map_eq_nil_iff (f := Prod.fst), reconciled.heads, reconciled.refs,
      ← List.map_eq_nil_iff (f := ExternalReference.externalId), List.eq_nil_iff_forall_not_mem]
    intro page listed
    obtain ⟨edit, made, _, _, recent⟩ := ((lists _ _ _).mp listed).2 cursor isCursor
    exact Nat.not_le.mpr (past edit made) recent

theorem unheard_run (lists : port.Lists (Wiki.ofEdits edits) space) (cursor : Time)
    (isCursor : S.world.spaceCursor project.id space = some cursor) (past : ∀ edit ∈ edits, edit.time < cursor)
    (clock : ∀ n, S.moment ≤ n → ∀ edit ∈ edits, edit.time < o.clock n) (k : Nat)
    (run : after (self.act port project space o) (List.replicate k .cycle) S = some T) :
    T.attempts = S.attempts ∧ self.attemptsAt port project space o T = [] := by
  induction k generalizing S cursor with
  | zero =>
    cases run
    exact ⟨rfl, attemptsAt_passed lists isCursor past⟩
  | succ k ih =>
    obtain ⟨U, acted, onward⟩ := after_cons.mp run
    cases acted
    have nothing : self.attemptsAt port project space o S = [] := attemptsAt_passed lists isCursor past
    have forward := self.syncSpace_forward port project space o S.moment S.world
    have beyond : ∃ next, (self.syncSpace port project space o S.moment S.world).store.spaceCursor project.id space =
        some next ∧ ∀ edit ∈ edits, edit.time < next := by
      rcases self.syncSpace_cursor port project space o S.moment S.world with
        kept | ⟨cycle, n, t, ended, _, moved, _⟩
      · exact ⟨cursor, kept.trans isCursor, past⟩
      · have later := self.reconcile_forward port project space o S.moment S.world
        rw [ended] at later
        exact ⟨_, moved, clock (n + 1) (Nat.le_succ_of_le later)⟩
    obtain ⟨next, isNext, pastNext⟩ := beyond
    obtain ⟨attempts, quiet⟩ := ih next isNext pastNext (fun n reached => clock n (Nat.le_trans forward reached)) onward
    rw [attempts, nothing, List.append_nil]
    exact ⟨rfl, quiet⟩

theorem endsClean_of_nothing (returns : o.Clean) (nothing : self.attemptsAt port project space o S = []) :
    self.EndsClean port project space o S := by
  have isolated : self.Isolates port project space o S := isolates S
  obtain ⟨cycle, looped⟩ := isolated.completes (returns _ _) (returns _ _)
  obtain ⟨_, reconciled⟩ := loopAt_reconciled looped
  rw [attemptsAt_ok looped] at nothing
  have total := reconciled.counted.total
  rw [nothing] at total
  exact ⟨cycle, looped, by simp at total; omega⟩

def brakingEdits : List PageEdit :=
  [{ page := "ADAS.Braking", moment := 0, time := 0, content := "draft" },
    { page := "ADAS.Braking", moment := 6, time := 5, content := "final" }]

/-- The edit made while the page is ingested is before the cursor that the cycle
saves, so no later cycle lists the page. -/
theorem edit_never_heard :
    (∀ edit ∈ brakingEdits, edit.moment ≤ 6) ∧ SharedClock brakingEdits ticking.clock ∧
      (DocumentationPort.ofEdits brakingEdits).Lists (Wiki.ofEdits brakingEdits) "ADAS" ∧
      (DocumentationPort.ofEdits brakingEdits).Fetches (Wiki.ofEdits brakingEdits) ∧
      Fresh adas "ADAS" { moment := 0, world := adasWorld } ∧
      ∃ T, after (plainSync.act (.ofEdits brakingEdits) adas "ADAS" ticking) [.cycle]
          { moment := 0, world := adasWorld } = some T ∧ 6 ≤ T.moment ∧
        ∀ k U, after (plainSync.act (.ofEdits brakingEdits) adas "ADAS" ticking) (List.replicate k .cycle) T = some U →
          plainSync.EndsClean (.ofEdits brakingEdits) adas "ADAS" ticking U ∧
          ∃ edit ∈ brakingEdits, ¬ Heard (Wiki.ofEdits brakingEdits) edit U.attempts := by
  refine ⟨by decide, ticking_clock (by decide) (by decide), DocumentationPort.ofEdits_lists _ _, DocumentationPort.ofEdits_fetches _, rfl,
    _, rfl, by decide, ?_⟩
  intro k U run
  have past : ∀ edit ∈ brakingEdits, edit.time < 6 := by decide
  obtain ⟨attempts, nothing⟩ := unheard_run (DocumentationPort.ofEdits_lists _ _) 11 rfl
    (fun edit made => Nat.lt_of_lt_of_le (past edit made) (by decide))
    (fun n reached edit made => Nat.lt_of_lt_of_le (past edit made) (Nat.le_trans (by decide) reached)) k run
  refine ⟨endsClean_of_nothing (fun _ _ => rfl) nothing, brakingEdits.getLast (by decide), by decide, ?_⟩
  rintro ⟨ref, fetchedAt, artifact, createdNewVersion, member, _, after, _⟩
  rw [attempts] at member
  obtain ⟨_, isFetched⟩ := Prod.mk.inj (List.mem_singleton.mp member)
  cases isFetched
  exact absurd after (by decide)

end XWikiDocumentationSyncService

end Brain
