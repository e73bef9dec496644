import Brain.Ingestion.Outcome
import Brain.Mirror.Passes

namespace Brain
open Calls

/-! ### The second pass -/

namespace OpenProjectIngestionService

def SecondPassSite (site : Site) : Prop := site = .resolveRelationshipsFind ∨ site.isApply = true

variable {o : Outside} {w : World}

theorem resolveRelationshipsOf_refines {s : OpenProjectWorkItemSnapshot} (projectId : ProjectId) (sound : Sound w) :
    Meets o (resolveRelationshipsOf s) w (byResult
      (fun _ t => Reworks w t ∧ t.mirror = w.mirror.resolve s)
      (fun e t => Reworks w t ∧ o.Raises e ∧ SecondPassSite e.site ∧
        Mirror.Resolves projectId [s] w.mirror t.mirror)) := by
  refine Meets.bind (Meets.query ?_ fun _ _ raises => ⟨refl_of Reworks w, raises, Or.inl rfl, .refl _⟩)
  dsimp only [byResult]
  split
  · rename_i missing
    have absent : w.package s.externalId = none := missing
    have unknown : ¬ w.mirror.Knows s.externalId := by rw [World.mirror_knows, absent]; simp
    exact Meets.pure ⟨refl_of Reworks w, by simp [Mirror.resolve, unknown]⟩
  · rename_i item hit
    have found : w.package s.externalId = some item := hit
    have knows : w.mirror.Knows s.externalId := by rw [World.mirror_knows, found]; rfl
    have only : s ∈ w.mirror.knownOf [s] := Mirror.mem_knownOf.mpr ⟨List.mem_singleton.mpr rfl, knows⟩
    have start : Mirror.Reach projectId (w.mirror.knownOf [s]) w.mirror w.mirror := .refl
    refine Meets.seq _ (resolveParent_refines sound found) ?_ ?_
    · rintro item' t ⟨reworks, package, mirror⟩
      have reach := start.resolveParent only
      rw [← mirror] at reach
      refine Meets.seq _ (resolveRelations_refines (reworks.sound sound).1 package s.relations) ?_ ?_
      · rintro _ u ⟨reworks', _, mirror'⟩
        have both := trans_of Reworks reworks reworks'
        refine (projectSubgraph_beside (S := fun _ => False) item' o u).mono ?_
        intro r v stays
        cases r with
        | ok _ =>
          have after : v.mirror = w.mirror.resolve s := by
            rw [stays.1.mirror, mirror', mirror, Mirror.resolve, if_pos knows]
            rfl
          exact ⟨trans_of Reworks both stays.tends.reworks, after⟩
        | error e => exact stays.2.1.elim
      · rintro e u ⟨reworks', raises, site, done, before, mirror'⟩
        have reached := reach.resolveSome only before.subset
        rw [← mirror'] at reached
        have items : u.mirror.item = w.mirror.item := by
          rw [mirror', Mirror.item_resolveSome, mirror, Mirror.item_resolveParent]
        exact ⟨trans_of Reworks reworks reworks', raises, Or.inr site, reached, items⟩
    · rintro e t ⟨reworks, raises, site, untouched | resolved⟩
      · exact ⟨reworks, raises, Or.inr site, by rw [untouched]; exact .refl _⟩
      · refine ⟨reworks, raises, Or.inr site, ?_⟩
        rw [resolved]
        exact ⟨start.resolveParent only, Mirror.item_resolveParent _ s⟩

theorem resolveRelationships_refines (projectId : ProjectId) (snapshots : List OpenProjectWorkItemSnapshot)
    (sound : Sound w) :
    Meets o (resolveRelationships snapshots) w (byResult
      (fun _ t => Reworks w t ∧ t.mirror = snapshots.foldl (fun m s => m.resolve s) w.mirror)
      (fun e t => Reworks w t ∧ o.Raises e ∧ SecondPassSite e.site ∧
        Mirror.Resolves projectId snapshots w.mirror t.mirror)) := by
  induction snapshots generalizing w with
  | nil => exact Meets.pure ⟨refl_of Reworks w, rfl⟩
  | cons s snapshots ih =>
    refine Meets.seq _ (resolveRelationshipsOf_refines projectId sound) ?_ ?_
    · rintro _ t ⟨reworks, mirror⟩
      refine (ih (reworks.sound sound).1).mono ?_
      intro r u reached
      cases r with
      | ok _ =>
        obtain ⟨reworks', mirror'⟩ := reached
        rw [mirror] at mirror'
        exact ⟨trans_of Reworks reworks reworks', mirror'⟩
      | error e =>
        obtain ⟨reworks', raises, site, resolves⟩ := reached
        rw [mirror] at resolves
        exact ⟨trans_of Reworks reworks reworks', raises, site, resolves.cons⟩
    · rintro e t ⟨reworks, raises, site, resolves⟩
      exact ⟨reworks, raises, site, resolves.mono (by simp)⟩

/-! ### Comments -/

/-- A comment operation leaves everything but comments, graph and bus alone. -/
structure Comments (arguments : CommentArguments) (w t : World) : Prop where
  rest : t = { w with comments := t.comments, graph := t.graph, published := t.published, nextUuid := t.nextUuid }
  nextUuid : w.nextUuid ≤ t.nextUuid
  drawn : t.comments = w.comments ∨ w.nextUuid < t.nextUuid
  published : ∃ tail, t.published = w.published ++ tail ∧
    ∀ e ∈ tail, arguments.mode = .live ∧ e.eventType = .humanFeedbackReceived

/-- The comment the operation stores, when the activity is new and has a work item. -/
def storedComment (w : World) (arguments : CommentArguments) : Option Comment :=
  match w.findComment "openproject" arguments.externalId (some "activity"), arguments.workItemId with
  | none, some workItemId => some (newComment (.v4 w.nextUuid) workItemId arguments)
  | _, _ => none

def withComment (w : World) (comment : Option Comment) : Keyed Comment.id :=
  match comment with
  | some comment => w.comments.upsert comment
  | none => w.comments

theorem Comments.refl (arguments : CommentArguments) (w : World) : Comments arguments w w :=
  ⟨rfl, Nat.le_refl _, Or.inl rfl, [], by simp, by simp⟩

variable {arguments : CommentArguments}

theorem Comments.trans {u v : World} (first : Comments arguments u v) (second : Comments arguments v w)
    : Comments arguments u w := by
  obtain ⟨early, atFirst, earlyKind⟩ := first.published
  obtain ⟨late, atSecond, lateKind⟩ := second.published
  refine ⟨?_, Nat.le_trans first.nextUuid second.nextUuid, ?_, early ++ late, ?_, ?_⟩
  · have atEnd := second.rest
    rw [first.rest] at atEnd
    exact atEnd
  · have atFirst := first.nextUuid
    have atSecond := second.nextUuid
    rcases first.drawn with same | drawn
    · rcases second.drawn with same' | drawn'
      · exact Or.inl (same'.trans same)
      · exact Or.inr (by omega)
    · exact Or.inr (by omega)
  · rw [atSecond, atFirst, List.append_assoc]
  · intro e member
    rcases List.mem_append.mp member with old | new
    · exact earlyKind e old
    · exact lateKind e new

theorem Comments.of_drawn {t : World} (drawn : Drawn w t) : Comments arguments w t := by
  obtain ⟨next, le, rfl⟩ := drawn
  exact ⟨rfl, le, Or.inl rfl, [], by simp, by simp⟩

/-- The sites of `ingest_comment`. -/
def isCommentSite : Site → Bool
  | .commentFind | .commentCreate | .publishFeedback => true
  | _ => false

theorem projectComment_comments {S : Site → Prop} (arguments : CommentArguments) (comment : Comment) :
    Within (fun w t => Comments arguments w t ∧ t.comments = w.comments) S (projectComment comment) := by
  have graphOnly : IsPreorder World (fun w t => Comments arguments w t ∧ t.comments = w.comments) :=
    { refl := fun w => ⟨Comments.refl arguments w, rfl⟩
      trans := fun _ _ _ first second => ⟨first.1.trans second.1, second.2.trans first.2⟩ }
  refine Within.swallow (S := fun _ => True) (Within.bind ?_ fun _ => ?_)
  · exact Within.command (fun _ => ⟨⟨rfl, Nat.le_refl _, Or.inl rfl, [], by simp [World.upsertEntities], by simp⟩, rfl⟩) trivial
  · exact Within.command (fun _ => ⟨⟨rfl, Nat.le_refl _, Or.inl rfl, [], by simp [World.upsertRelations], by simp⟩, rfl⟩) trivial

theorem storeComment_stores (absent : w.findComment "openproject" arguments.externalId (some "activity") = none) :
    Meets o (storeComment arguments) w (byResult
      (fun _ t => Comments arguments w t ∧ t.comments = withComment w (storedComment w arguments))
      (fun e t => Comments arguments w t ∧ o.Raises e ∧ isCommentSite e.site = true ∧
        (t.comments = w.comments ∨ t.comments = withComment w (storedComment w arguments)))) := by
  unfold storeComment
  cases target : arguments.workItemId with
  | none =>
    refine Meets.pure ⟨Comments.refl arguments w, ?_⟩
    simp [storedComment, absent, target, withComment]
  | some workItemId =>
    have stored : storedComment w arguments = some (newComment (.v4 w.nextUuid) workItemId arguments) := by
      simp [storedComment, absent, target]
    refine Meets.seq _ (newUuid_id o w) ?_ (fun _ _ stopped => stopped.elim)
    rintro id t ⟨rfl, rfl⟩
    have drawn : Comments arguments w { w with nextUuid := w.nextUuid + 1 } :=
      Comments.of_drawn ⟨w.nextUuid + 1, Nat.le_succ _, rfl⟩
    have created : Comments arguments w (World.putComment (newComment (.v4 w.nextUuid) workItemId arguments)
        { w with nextUuid := w.nextUuid + 1 }) :=
      ⟨rfl, Nat.le_succ _, Or.inr (Nat.lt_succ_self _), [], by simp [World.putComment], by simp⟩
    refine Meets.bind (Meets.command ?_ ?_ ?_)
    · refine Meets.seq _ (projectComment_comments (S := fun _ => False) arguments _ o _) ?_ ?_
      · rintro _ u ⟨comments, kept⟩
        refine Meets.pure ⟨created.trans comments, ?_⟩
        rw [kept, stored]
        rfl
      · exact fun _ _ stopped => stopped.2.1.elim
    · exact fun _ raises => ⟨drawn, raises, rfl, Or.inl rfl⟩
    · exact fun _ raises => ⟨created, raises, rfl, Or.inr (by rw [stored]; rfl)⟩

theorem publishFeedback_comments (live : arguments.mode = .live) :
    Meets o (publishFeedback arguments) w (fun r t => Comments arguments w t ∧ t.comments = w.comments ∧
      ∀ e, r = .error e → o.Raises e ∧ isCommentSite e.site = true) := by
  refine Meets.seq _ modelToEnvelope_drawn ?_ (fun _ _ stopped => stopped.elim)
  rintro event t ⟨⟨next, le, rfl⟩, type, _⟩
  have before : Comments arguments w { w with nextUuid := next } := ⟨rfl, le, Or.inl rfl, [], by simp, by simp⟩
  have after : Comments arguments w (World.publish event { w with nextUuid := next }) := by
    refine ⟨rfl, le, Or.inl rfl, [event], rfl, ?_⟩
    intro e member
    rw [List.mem_singleton.mp member]
    exact ⟨live, type⟩
  refine Meets.command ⟨after, rfl, by simp⟩ ?_ ?_
  · intro _ raises
    refine ⟨before, rfl, ?_⟩
    rintro e ⟨⟩
    exact ⟨raises, rfl⟩
  · intro _ raises
    refine ⟨after, rfl, ?_⟩
    rintro e ⟨⟩
    exact ⟨raises, rfl⟩

theorem ingestComment_stores (arguments : CommentArguments) : Meets o (ingestComment arguments) w (byResult
      (fun _ t => Comments arguments w t ∧ t.comments = withComment w (storedComment w arguments))
      (fun e t => Comments arguments w t ∧ o.Raises e ∧ isCommentSite e.site = true ∧
        (t.comments = w.comments ∨ t.comments = withComment w (storedComment w arguments)))) := by
  refine Meets.bind (Meets.query ?_ fun _ _ raises => ⟨Comments.refl arguments w, raises, rfl, Or.inl rfl⟩)
  dsimp only [byResult]
  split
  · rename_i comment found
    exact Meets.pure ⟨Comments.refl arguments w, by simp [storedComment, found, withComment]⟩
  · rename_i absent
    have finish : ∀ (comment : Option Comment) (t : World), Comments arguments w t →
        t.comments = withComment w (storedComment w arguments) →
        Meets o (match comment with
          | some comment => pure comment
          | none => do
            let workItemId ← newUuid
            let id ← newUuid
            pure { id, workItemId, authorName := some arguments.authorName, text := arguments.text, kind := .context })
          t (byResult
          (fun _ t => Comments arguments w t ∧ t.comments = withComment w (storedComment w arguments))
          (fun e t => Comments arguments w t ∧ o.Raises e ∧ isCommentSite e.site = true ∧
            (t.comments = w.comments ∨ t.comments = withComment w (storedComment w arguments)))) := by
      intro comment t comments stored
      cases comment with
      | some comment => exact Meets.pure ⟨comments, stored⟩
      | none => exact fun _ => ⟨comments.trans (Comments.of_drawn ⟨t.nextUuid + 1 + 1, by omega, rfl⟩), stored⟩
    refine Meets.seq _ (storeComment_stores absent) ?_ (fun _ _ stopped => stopped)
    rintro comment t ⟨comments, stored⟩
    split
    · rename_i live
      refine Meets.seq _ (publishFeedback_comments live) ?_ ?_
      · rintro _ u ⟨more, kept, _⟩
        exact finish comment u (comments.trans more) (kept.trans stored)
      · rintro e u ⟨more, kept, raises⟩
        exact ⟨comments.trans more, (raises e rfl).1, (raises e rfl).2, Or.inr (kept.trans stored)⟩
    · exact finish comment t comments stored

end OpenProjectIngestionService

/-! ### Projects -/

/-- A project operation writes projects and their graph nodes only. -/
structure ProjectsOnly (w t : World) : Prop where
  rest : t = { w with projects := t.projects, graph := t.graph, nextUuid := t.nextUuid }
  nextUuid : w.nextUuid ≤ t.nextUuid

instance : IsPreorder World ProjectsOnly where
  refl w := ⟨rfl, Nat.le_refl _⟩
  trans u v w first second := by
    refine ⟨?_, Nat.le_trans first.nextUuid second.nextUuid⟩
    have atEnd := second.rest
    rw [first.rest] at atEnd
    exact atEnd

/-- The sites of `upsert_project`. -/
def Site.isProject : Site → Bool
  | .upsertProjectGet | .upsertProjectFind | .upsertProjectFindParent | .upsertProjectCreate
  | .upsertProjectUpdate | .projectNodeEntities | .projectNodeRelations => true
  | _ => false

abbrev ProjectSite (site : Site) : Prop := site.isProject = true

theorem upsertProjectNode_projects (project : Project) :
    Within ProjectsOnly ProjectSite (upsertProjectNode project) := by
  refine Within.bind (Within.command (fun _ => ⟨rfl, Nat.le_refl _⟩) rfl) fun _ => ?_
  split
  · exact Within.command (fun _ => ⟨rfl, Nat.le_refl _⟩) rfl
  · exact Within.pure ()

theorem findProjectForUpsert_projects (externalId : String) (projectId : Option ProjectId) :
    Within ProjectsOnly ProjectSite (findProjectForUpsert externalId projectId) := by
  have byReference : Within ProjectsOnly ProjectSite
      (query .upsertProjectFind (·.findProject "openproject" externalId (some "project")) : Prog (Option Project)) :=
    Within.query rfl
  cases projectId with
  | some id =>
    refine Within.bind (Within.query rfl) fun byId => ?_
    cases byId with
    | some project => exact Within.pure _
    | none => exact byReference
  | none => exact byReference

theorem findParentProject_projects (parentExternalId : Option String) :
    Within ProjectsOnly ProjectSite (findParentProject parentExternalId) := by
  unfold findParentProject
  split
  · exact Within.bind (Within.query rfl) fun _ => Within.pure _
  · exact Within.pure none

theorem upsertProject_projects (externalId name description : String) (parentExternalId : Option String)
    (projectId : Option ProjectId) :
    Within ProjectsOnly ProjectSite (upsertProject externalId name description parentExternalId projectId) := by
  refine Within.bind (findProjectForUpsert_projects externalId projectId) fun existing => ?_
  refine Within.bind (findParentProject_projects parentExternalId) fun parentId => ?_
  split
  · refine Within.bind (Within.internal fun _ => ⟨rfl, Nat.le_succ _⟩) fun id => ?_
    refine Within.bind (Within.command (fun _ => ⟨rfl, Nat.le_refl _⟩) rfl) fun _ => ?_
    exact Within.bind (upsertProjectNode_projects _) fun _ => Within.pure _
  · have finish : ∀ updated : Project, Within ProjectsOnly ProjectSite (do
        upsertProjectNode updated
        pure updated) :=
      fun updated => Within.bind (upsertProjectNode_projects updated) fun _ => Within.pure updated
    dsimp only
    split
    · exact Within.bind (Within.command (fun _ => ⟨rfl, Nat.le_refl _⟩) rfl) fun _ => finish _
    · exact finish _

/-! ### Histories -/

/-- The operations of the ingestion service. -/
inductive Op
  | upsertProject (externalId name description : String) (parentExternalId : Option String)
      (projectId : Option ProjectId)
  | ingest (snapshot : OpenProjectWorkItemSnapshot) (options : OpenProjectIngestionService.IngestOptions)
  | resolveRelationships (snapshots : List OpenProjectWorkItemSnapshot)
  | ingestComment (arguments : OpenProjectIngestionService.CommentArguments)

namespace Op
open OpenProjectIngestionService

def run (self : OpenProjectIngestionService) : Op → Prog Unit
  | .upsertProject externalId name description parentExternalId projectId => do
    let _ ← Brain.upsertProject externalId name description parentExternalId projectId
    pure ()
  | .ingest snapshot options => do
    let _ ← self.ingestWorkItemSnapshot snapshot options
    pure ()
  | .resolveRelationships snapshots => OpenProjectIngestionService.resolveRelationships snapshots
  | .ingestComment arguments => do
    let _ ← OpenProjectIngestionService.ingestComment arguments
    pure ()

end Op

/-- One operation with everything that happens outside while it runs. -/
structure Call where
  outside : Outside
  op : Op

/-- A call during which nothing outside fails. -/
def Call.undisturbed (op : Op) : Call := ⟨Outside.clean, op⟩

namespace OpenProjectIngestionService
variable (self : OpenProjectIngestionService)

def ended (call : Call) (w : World) : Calls.Run Site PyException World Unit :=
  call.op.run self call.outside 0 w

/-- The world after the calls of a history. An operation that raises leaves what
it wrote, and the next one starts from there. -/
def after (history : List Call) (w : World) : World :=
  history.foldl (fun w call => (self.ended call w).store) w

@[simp] theorem after_nil (w : World) : self.after [] w = w := rfl

@[simp] theorem after_cons (call : Call) (history : List Call) (w : World) :
    self.after (call :: history) w = self.after history (self.ended call w).store := rfl

@[simp] theorem after_append (early late : List Call) (w : World) :
    self.after (early ++ late) w = self.after late (self.after early w) :=
  List.foldl_append ..

def Along (P : World → Call → Prop) : List Call → World → Prop
  | [], _ => True
  | call :: history, w => P w call ∧ Along P history (self.ended call w).store

theorem along_append {P : World → Call → Prop} {early late : List Call} {w : World} :
    self.Along P (early ++ late) w ↔ self.Along P early w ∧ self.Along P late (self.after early w) := by
  induction early generalizing w with
  | nil => simp [Along]
  | cons call early ih => simp [Along, ih, and_assoc]

end OpenProjectIngestionService

end Brain
