import Brain.Application.OpenProjectBootstrap
import Brain.Ingestion.Identity

namespace Brain
open Calls OpenProjectIngestionService

/-- What a comment says, with its work item under the provider's own name. -/
structure Remark where
  workPackage : Option String
  authorName : Option String
  text : String
  kind : CommentKind
  deriving DecidableEq

/-- The comments in the provider's own names. -/
def World.commentary (w : World) (x : String) : Option Remark :=
  (w.findComment "openproject" x (some "activity")).map fun comment =>
    { workPackage := w.packageName comment.workItemId, authorName := comment.authorName, text := comment.text
      kind := comment.kind }

/-- Every comment belongs to a stored work item. -/
def Owned (w : World) : Prop := ∀ comment ∈ w.comments.items, w.Holds comment.workItemId

/-- Remarks are added in order, and never replace one. -/
def annotate (remarks : List (String × Remark)) (m : String → Option Remark) (x : String) : Option Remark :=
  (m x).or (remarks.lookup x)

@[simp] theorem annotate_nil (m : String → Option Remark) : annotate [] m = m := by
  funext x
  simp [annotate]

theorem annotate_single {k x : String} {remark : Remark} {m : String → Option Remark} :
    annotate [(k, remark)] m x = if x = k then (m x).or (some remark) else m x := by
  by_cases own : x = k
  · simp [annotate, own]
  · have other : (x == k) = false := by simpa using own
    simp only [annotate, List.lookup_cons, other, List.lookup_nil, Option.or_none, if_neg own]

theorem annotate_append (early late : List (String × Remark)) (m : String → Option Remark) :
    annotate (early ++ late) m = annotate late (annotate early m) := by
  funext x
  simp only [annotate, List.lookup_append, Option.or_assoc]

theorem annotate_absorb {done all : List (String × Remark)} (front : done <+: all) (m : String → Option Remark) :
    annotate all (annotate done m) = annotate all m := by
  obtain ⟨rest, rfl⟩ := front
  funext x
  simp only [annotate, List.lookup_append]
  cases m x with
  | some _ => rfl
  | none => cases done.lookup x <;> rfl

theorem packageName_persists {w t : World} {id : WorkItemId} {x : String} (before : Sound w) (after : Sound t)
    (persists : Persists w t) (named : w.packageName id = some x) : t.packageName id = some x := by
  obtain ⟨item, found, rfl⟩ := before.packageName_eq_some.mp named
  obtain ⟨stored, refs⟩ := before.package_eq_some.mp found
  have listed : (item.id, item.externalRefs) ∈ t.identities := persists.workItems (List.mem_map.mpr ⟨item, stored, rfl⟩)
  obtain ⟨later, kept, same⟩ := List.mem_map.mp listed
  simp only [Prod.mk.injEq] at same
  exact after.packageName_eq_some.mpr ⟨later, after.package_eq_some.mpr ⟨kept, same.2.trans refs⟩, same.1⟩

theorem commentary_persists {w t : World} (before : Sound w) (after : Sound t) (persists : Persists w t)
    (owned : Owned w) (same : t.comments = w.comments) : t.commentary = w.commentary ∧ Owned t := by
  constructor
  · funext x
    have search : t.findComment "openproject" x (some "activity") = w.findComment "openproject" x (some "activity") := by
      simp only [World.findComment, same]
    simp only [World.commentary, search]
    cases found : w.findComment "openproject" x (some "activity") with
    | none => rfl
    | some comment =>
      have stored : comment ∈ w.comments.items := List.mem_of_find?_eq_some found
      obtain ⟨y, named⟩ := before.packageName_isSome (owned comment stored)
      simp only [Option.map_some, named, packageName_persists before after persists named]
  · intro comment member
    rw [same] at member
    exact Holds_persists persists (owned comment member)

/-- Remarks were added on the way from `w` to `t`, and nothing else was done to
the state repositories. -/
structure Annotates (w t : World) (remarks : List (String × Remark)) : Prop where
  rest : t = { w with comments := t.comments, graph := t.graph, published := t.published, nextUuid := t.nextUuid }
  nextUuid : w.nextUuid ≤ t.nextUuid
  sound : Sound t
  persists : Persists w t
  owned : Owned t
  commentary : t.commentary = annotate remarks w.commentary

namespace Annotates
variable {u v w : World} {remarks remarks' : List (String × Remark)}

theorem refl (sound : Sound w) (owned : Owned w) : Annotates w w [] :=
  ⟨rfl, Nat.le_refl _, sound, Persists.refl w, owned, (annotate_nil _).symm⟩

theorem trans (first : Annotates u v remarks) (second : Annotates v w remarks') :
    Annotates u w (remarks ++ remarks') := by
  refine ⟨?_, Nat.le_trans first.nextUuid second.nextUuid, second.sound, first.persists.trans second.persists,
    second.owned, ?_⟩
  · have atEnd := second.rest
    rw [first.rest] at atEnd
    exact atEnd
  · rw [second.commentary, first.commentary, annotate_append]

theorem workItems (annotates : Annotates u v remarks) : v.workItems = u.workItems := by rw [annotates.rest]

theorem mirror (annotates : Annotates u v remarks) : v.mirror = u.mirror :=
  mirror_congr annotates.workItems (by rw [annotates.rest])

end Annotates

/-- How far the remarks of a list were added when an exception came. -/
def AnnotatesPart (w t : World) (remarks : List (String × Remark)) : Prop :=
  ∃ done, done <+: remarks ∧ Annotates w t done

theorem AnnotatesPart.after {u v w : World} {early late : List (String × Remark)} (first : Annotates u v early)
    (stops : AnnotatesPart v w late) : AnnotatesPart u w (early ++ late) := by
  obtain ⟨done, front, annotates⟩ := stops
  exact ⟨early ++ done, List.prefix_append_right_inj early |>.mpr front, first.trans annotates⟩

theorem AnnotatesPart.mono {w t : World} {early all : List (String × Remark)} (stops : AnnotatesPart w t early)
    (front : early <+: all) : AnnotatesPart w t all := by
  obtain ⟨done, within, annotates⟩ := stops
  exact ⟨done, within.trans front, annotates⟩

namespace OpenProjectProjectBootstrapService

def activityRemark (x : String) (activity : ProviderActivity) : Option (String × Remark) :=
  if strip activity.text = "" then none
  else some (activity.externalId,
    { workPackage := some x, authorName := some activity.authorName, text := activity.text, kind := .context })

variable (self : OpenProjectProjectBootstrapService) {o : Outside} {w : World}

def remarksOf (x : String) : List (String × Remark) := (self.provider.listActivities x).filterMap (activityRemark x)

def remarks (m : Mirror) (batch : List OpenProjectWorkItemSnapshot) : List (String × Remark) :=
  batch.flatMap fun s => if m.Knows s.externalId then self.remarksOf s.externalId else []

variable {item : WorkItem}

theorem annotates_of_comments {t : World} {x : String} {activity : ProviderActivity} (sound : Sound w)
    (owned : Owned w) (found : w.package x = some item)
    (comments : Comments (activityComment item.id activity) w t)
    (stored : t.comments = withComment w (storedComment w (activityComment item.id activity))) :
    Annotates w t [(activity.externalId,
      { workPackage := some x, authorName := some activity.authorName, text := activity.text, kind := .context })] := by
  obtain ⟨later, persists⟩ := comments.sound (Or.inr stored) sound
  have rest := comments.rest
  have names : t.packageName = w.packageName := by
    funext id
    simp only [World.packageName]
    rw [rest]
  have holds : w.Holds item.id := ⟨item, (sound.package_eq_some.mp found).1, rfl⟩
  cases known : w.findComment "openproject" activity.externalId (some "activity") with
  | some comment =>
    have unchanged : t.comments = w.comments := by simp [stored, storedComment, activityComment, known, withComment]
    obtain ⟨same, owned'⟩ := commentary_persists sound later persists owned unchanged
    refine ⟨rest, comments.nextUuid, later, persists, owned', ?_⟩
    rw [same]
    funext y
    rw [annotate_single]
    by_cases own : y = activity.externalId
    · rw [own]
      simp [World.commentary, known]
    · rw [if_neg own]
  | none =>
    have added : t.comments =
        w.comments.upsert (newComment (.v4 w.nextUuid) item.id (activityComment item.id activity)) := by
      simp [stored, storedComment, activityComment, known, withComment]
    have new : newComment (.v4 w.nextUuid) item.id (activityComment item.id activity) ∈ t.comments.items :=
      added ▸ Keyed.mem_upsert_self _ _
    have below : (Uuid.v4 w.nextUuid).Below t.nextUuid := later.comments.below _ new
    have fresh := sound.comments.fresh
    have searches := Registered.find_create (sound.comments.later comments.nextUuid)
      (a := newComment (.v4 w.nextUuid) item.id (activityComment item.id activity)) known fresh rfl below
    refine ⟨rest, comments.nextUuid, later, persists, ?_, ?_⟩
    · intro comment member
      rw [added] at member
      rcases Keyed.mem_upsert.mp member with rfl | ⟨old, _⟩
      · exact Holds_persists persists holds
      · exact Holds_persists persists (owned comment old)
    · funext y
      have search : t.findComment "openproject" y (some "activity") = if y = activity.externalId
          then some (newComment (.v4 w.nextUuid) item.id (activityComment item.id activity))
          else w.findComment "openproject" y (some "activity") := by
        rw [World.findComment, added]
        exact searches y
      have named := sound.packageName_package found
      rw [annotate_single]
      by_cases own : y = activity.externalId
      · rw [World.commentary, search, if_pos own, if_pos own, own]
        simp [World.commentary, known, names, newComment, named, activityComment]
      · rw [World.commentary, search, if_neg own, if_neg own, names]
        rfl

theorem ingestActivity_annotates {x : String} (activity : ProviderActivity) (sound : Sound w) (owned : Owned w)
    (found : w.package x = some item) :
    Meets o (ingestActivity item activity) w (byResult
      (fun _ t => Annotates w t (activityRemark x activity).toList)
      (fun e t => o.Raises e ∧ AnnotatesPart w t (activityRemark x activity).toList)) := by
  unfold ingestActivity activityRemark
  split
  · exact Meets.pure (Annotates.refl sound owned)
  · refine Meets.seq _ (ingestComment_stores (activityComment item.id activity)) ?_ ?_
    · rintro _ t ⟨comments, stored⟩
      exact Meets.pure (annotates_of_comments sound owned found comments stored)
    · rintro e t ⟨comments, raises, _, same | stored⟩
      · obtain ⟨later, persists⟩ := comments.sound (Or.inl same) sound
        obtain ⟨kept, owned'⟩ := commentary_persists sound later persists owned same
        refine ⟨raises, [], List.nil_prefix, comments.rest, comments.nextUuid, later, persists, owned', ?_⟩
        rw [kept, annotate_nil]
      · exact ⟨raises, _, List.prefix_refl _, annotates_of_comments sound owned found comments stored⟩

theorem ingestActivities_annotates {x : String} (activities : List ProviderActivity) (sound : Sound w)
    (owned : Owned w) (found : w.package x = some item) :
    Meets o (tally (ingestActivity item) activities) w (byResult
      (fun _ t => Annotates w t (activities.filterMap (activityRemark x)))
      (fun e t => o.Raises e ∧ AnnotatesPart w t (activities.filterMap (activityRemark x)))) := by
  induction activities generalizing w with
  | nil => exact Meets.pure (Annotates.refl sound owned)
  | cons activity activities ih =>
    have split : (activity :: activities).filterMap (activityRemark x) =
        (activityRemark x activity).toList ++ activities.filterMap (activityRemark x) := by
      cases one : activityRemark x activity <;> simp [one]
    rw [split]
    refine Meets.seq _ (ingestActivity_annotates activity sound owned found) ?_ ?_
    · intro _ t annotates
      have kept : t.package x = some item := (package_congr annotates.workItems x).trans found
      refine Meets.seq _ (ih annotates.sound annotates.owned kept) ?_ ?_
      · exact fun _ _ rest => Meets.pure (annotates.trans rest)
      · exact fun _ _ stopped => ⟨stopped.1, AnnotatesPart.after annotates stopped.2⟩
    · exact fun _ _ stopped => ⟨stopped.1, stopped.2.mono (List.prefix_append _ _)⟩

theorem ingestCommentsOf_annotates (s : OpenProjectWorkItemSnapshot) (sound : Sound w) (owned : Owned w) :
    Meets o (self.ingestCommentsOf s) w (byResult
      (fun _ t => Annotates w t (self.remarks w.mirror [s]))
      (fun e t => o.Raises e ∧ AnnotatesPart w t (self.remarks w.mirror [s]))) := by
  have nothing : AnnotatesPart w w (self.remarks w.mirror [s]) := ⟨[], List.nil_prefix, Annotates.refl sound owned⟩
  refine Meets.bind (Meets.query ?_ fun _ _ raises => ⟨raises, nothing⟩)
  dsimp only [byResult]
  split
  · rename_i missing
    have absent : w.package s.externalId = none := missing
    have unknown : ¬ w.mirror.Knows s.externalId := by rw [World.mirror_knows, absent]; simp
    have none : self.remarks w.mirror [s] = [] := by simp [remarks, unknown]
    rw [none]
    exact Meets.pure (Annotates.refl sound owned)
  · rename_i item hit
    have found : w.package s.externalId = some item := hit
    have known : w.mirror.Knows s.externalId := by rw [World.mirror_knows, found]; rfl
    refine Meets.bind (Meets.query ?_ fun _ _ raises => ⟨raises, nothing⟩)
    have all : self.remarks w.mirror [s] =
        (self.provider.listActivities s.externalId).filterMap (activityRemark s.externalId) := by
      simp [remarks, known, remarksOf]
    rw [all]
    exact ingestActivities_annotates _ sound owned found

theorem ingestComments_annotates (batch : List OpenProjectWorkItemSnapshot) (sound : Sound w) (owned : Owned w) :
    Meets o (self.ingestComments batch) w (byResult
      (fun _ t => Annotates w t (self.remarks w.mirror batch))
      (fun e t => o.Raises e ∧ AnnotatesPart w t (self.remarks w.mirror batch))) := by
  unfold ingestComments
  induction batch generalizing w with
  | nil => exact Meets.pure (Annotates.refl sound owned)
  | cons s batch ih =>
    have split : self.remarks w.mirror (s :: batch) = self.remarks w.mirror [s] ++ self.remarks w.mirror batch := by
      simp [remarks]
    rw [split]
    refine Meets.seq _ (self.ingestCommentsOf_annotates s sound owned) ?_ ?_
    · intro _ t annotates
      rw [← annotates.mirror]
      refine Meets.seq _ (ih annotates.sound annotates.owned) ?_ ?_
      · intro _ u rest
        rw [annotates.mirror] at rest ⊢
        exact Meets.pure (annotates.trans rest)
      · intro _ u stopped
        rw [annotates.mirror] at stopped ⊢
        exact ⟨stopped.1, AnnotatesPart.after annotates stopped.2⟩
    · exact fun _ _ stopped => ⟨stopped.1, stopped.2.mono (List.prefix_append _ _)⟩

end OpenProjectProjectBootstrapService

end Brain
