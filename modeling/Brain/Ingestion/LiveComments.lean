import Brain.Ingestion.History
import Brain.Lib.Writers

namespace Brain
open Calls OpenProjectIngestionService FirstWriter

/-- A live `ingest_comment` call on a resolved work item. Besides the graph only
the bus may fail, in the way `publish` says. -/
structure CommentDelivery where
  workItemId : WorkItemId
  externalId : String
  authorName : String
  text : String
  source : String := "openproject.webhook"
  correlationId : Option Uuid := none
  publish : Outcome PyException
  outside : Outside
  moment : Nat
  repositories : RepositoriesReturn outside
  publishes : ∀ n, outside.outcome n .publishFeedback = publish

namespace CommentDelivery

def arguments (delivery : CommentDelivery) : CommentArguments :=
  { workItemId := some delivery.workItemId, externalId := delivery.externalId, authorName := delivery.authorName
    text := delivery.text, mode := .live, source := delivery.source, correlationId := delivery.correlationId }

/-- The bus raised before it took the event. -/
def lost (delivery : CommentDelivery) : Bool :=
  match delivery.publish with
  | .raises false _ => true
  | _ => false

def raises (delivery : CommentDelivery) : Bool :=
  match delivery.publish with
  | .raises _ _ => true
  | .returns => false

def Same (delivery other : CommentDelivery) : Prop :=
  delivery.externalId = other.externalId ∧ (delivery.externalId = "" → delivery.text = other.text)

instance (delivery other : CommentDelivery) : Decidable (delivery.Same other) := inferInstanceAs (Decidable (_ ∧ _))

def body (deliveries : List CommentDelivery) (delivery : CommentDelivery) : String :=
  ((deliveries.find? fun other => delivery.Same other).map CommentDelivery.text).getD delivery.text

def payload (delivery : CommentDelivery) : EventPayload :=
  .humanFeedbackReceived (some delivery.workItemId) delivery.authorName "openproject" delivery.externalId .note
    delivery.text

end CommentDelivery

/-- The comment and the text of a `HumanFeedbackReceived`. -/
def EventPayload.feedback : EventPayload → Option (String × String)
  | .humanFeedbackReceived _ _ provider externalCommentId _ feedback =>
    if provider = "openproject" then some (externalCommentId, feedback) else none
  | _ => none

namespace World

def deliverComment (w : World) (delivery : CommentDelivery) : World :=
  (ingestComment delivery.arguments delivery.outside delivery.moment w).store

def deliverComments (w : World) (deliveries : List CommentDelivery) : World := deliveries.foldl deliverComment w

/-- The feedback published on the way from `w` to `t`. -/
def feedbackSince (w t : World) : List (String × String) :=
  (t.published.drop w.published.length).filterMap fun event => event.payload.feedback

def commentsOf (w : World) (externalId text : String) : List Comment :=
  w.comments.items.filter fun comment =>
    comment.text = text && comment.externalRefs.any (·.refersTo "openproject" externalId (some "activity"))

end World

/-- Every delivered comment was announced and stored once, and announced once
when the bus never raised. -/
structure AllHeard (deliveries : List CommentDelivery) (w t : World) : Prop where
  announced : ∀ delivery ∈ deliveries, (delivery.externalId, delivery.body deliveries) ∈ w.feedbackSince t
  stored : ∀ delivery ∈ deliveries, (t.commentsOf delivery.externalId (delivery.body deliveries)).length = 1
  once : (∀ delivery ∈ deliveries, delivery.raises = false) → ∀ delivery ∈ deliveries, delivery.externalId ≠ "" →
    ((w.feedbackSince t).filter fun feedback => feedback.1 = delivery.externalId).length = 1

/-- No comment under the provider ids of the deliveries is stored yet, and the
stored comments have ids drawn before. -/
structure Unheard (w : World) (deliveries : List CommentDelivery) : Prop where
  below : ∀ comment ∈ w.comments.items, comment.id.Below w.nextUuid
  absent : ∀ delivery ∈ deliveries, w.findComment "openproject" delivery.externalId (some "activity") = none

/-! ### One delivery -/

section
variable {w : World} {delivery : CommentDelivery}

theorem deliverComment_known {comment : Comment}
    (found : w.findComment "openproject" delivery.externalId (some "activity") = some comment) :
    w.deliverComment delivery = w := by
  have returns := delivery.repositories delivery.moment .commentFind rfl
  unfold World.deliverComment ingestComment
  rw [query_bind, returns]
  have known : w.findComment "openproject" delivery.arguments.externalId (some "activity") = some comment := found
  simp only [known]
  rfl

structure Delivered (delivery : CommentDelivery) (w t : World) : Prop where
  comments : t.comments.items = w.comments.items ++ [newComment (.v4 w.nextUuid) delivery.workItemId delivery.arguments]
  published : ∃ events, t.published = w.published ++ events ∧
    events.map EventEnvelope.payload = if delivery.lost then [] else [delivery.payload]
  nextUuid : w.nextUuid < t.nextUuid

theorem projectComment_graph (comment : Comment) :
    Within (fun w t : World => ∃ graph, t = { w with graph }) (fun _ => False) (projectComment comment) := by
  have preorder : IsPreorder World fun w t => ∃ graph, t = { w with graph } := by
    refine { refl := fun w => ⟨w.graph, rfl⟩, trans := ?_ }
    rintro u v w ⟨_, rfl⟩ ⟨graph, rfl⟩
    exact ⟨graph, rfl⟩
  refine Within.swallow (S := fun _ => True) (Within.bind ?_ fun _ => ?_)
  · exact Within.command (fun _ => ⟨_, rfl⟩) trivial
  · exact Within.command (fun _ => ⟨_, rfl⟩) trivial

theorem storeComment_returns (fresh : ∀ comment ∈ w.comments.items, comment.id ≠ .v4 w.nextUuid) :
    Returns delivery.outside (storeComment delivery.arguments) w (fun comment t => comment.isSome = true ∧
      t.comments.items = w.comments.items ++ [newComment (.v4 w.nextUuid) delivery.workItemId delivery.arguments] ∧
      t.published = w.published ∧ w.nextUuid < t.nextUuid) := by
  refine Meets.seq _ (newUuid_id delivery.outside w) ?_ (fun _ _ stopped => stopped.elim)
  rintro id t ⟨rfl, rfl⟩
  refine Meets.bind (Meets.call_of_returns (fun n => delivery.repositories n .commentCreate rfl) ?_)
  refine Meets.seq _ (projectComment_graph _ delivery.outside _) ?_ (fun _ _ stopped => stopped.2.1.elim)
  rintro _ u ⟨graph, rfl⟩
  exact Meets.pure ⟨rfl, Keyed.items_upsert_fresh fresh, rfl, Nat.lt_succ_self _⟩

theorem publishFeedback_published (delivery : CommentDelivery) :
    Meets delivery.outside (publishFeedback delivery.arguments) w (fun _ t =>
      t.comments = w.comments ∧ w.nextUuid ≤ t.nextUuid ∧ ∃ events, t.published = w.published ++ events ∧
        events.map EventEnvelope.payload = if delivery.lost then [] else [delivery.payload]) := by
  refine Meets.seq _ modelToEnvelope_drawn ?_ (fun _ _ stopped => stopped.elim)
  rintro event t ⟨⟨next, le, rfl⟩, _, isPayload⟩
  intro n
  have answer := delivery.publishes n
  unfold command call
  rw [answer]
  have payload : event.payload = delivery.payload := isPayload
  cases outcome : delivery.publish with
  | returns => exact ⟨rfl, le, [event], rfl, by simp [CommentDelivery.lost, outcome, payload]⟩
  | raises tookEffect exception =>
    cases tookEffect with
    | false => exact ⟨rfl, le, [], by simp, by simp [CommentDelivery.lost, outcome]⟩
    | true => exact ⟨rfl, le, [event], rfl, by simp [CommentDelivery.lost, outcome, payload]⟩

theorem deliverComment_new (below : ∀ comment ∈ w.comments.items, comment.id.Below w.nextUuid)
    (absent : w.findComment "openproject" delivery.externalId (some "activity") = none) :
    Delivered delivery w (w.deliverComment delivery) := by
  have fresh : ∀ comment ∈ w.comments.items, comment.id ≠ .v4 w.nextUuid :=
    fun comment stored => (below comment stored).ne_fresh
  suffices meets : Meets delivery.outside (ingestComment delivery.arguments) w fun _ t => Delivered delivery w t from
    meets delivery.moment
  refine Meets.bind (Meets.call_of_returns (fun n => delivery.repositories n .commentFind rfl) ?_)
  have known : w.findComment "openproject" delivery.arguments.externalId (some "activity") = none := absent
  simp only [known, byResult_ok]
  refine Meets.seq _ (storeComment_returns fresh) ?_ (fun _ _ stopped => stopped.elim)
  rintro comment t ⟨isStored, items, published, later⟩
  obtain ⟨comment, rfl⟩ := Option.isSome_iff_exists.mp isStored
  have live : delivery.arguments.mode = .live := rfl
  simp only [live, if_true]
  have announced : ∀ u : World, u.comments = t.comments → t.nextUuid ≤ u.nextUuid →
      (∃ events, u.published = t.published ++ events ∧
        events.map EventEnvelope.payload = if delivery.lost then [] else [delivery.payload]) → Delivered delivery w u := by
    rintro u comments onward ⟨events, tail, payloads⟩
    exact ⟨by rw [comments, items], ⟨events, by rw [tail, published], payloads⟩, Nat.lt_of_lt_of_le later onward⟩
  refine Meets.seq _ (publishFeedback_published delivery) ?_ ?_
  · rintro _ u ⟨comments, onward, events⟩
    exact Meets.pure (announced u comments onward events)
  · rintro _ u ⟨comments, onward, events⟩
    exact announced u comments onward events

end

/-! ### A run of deliveries -/

def Comment.said (comment : Comment) : List ExternalReference × String := (comment.externalRefs, comment.text)

def CommentDelivery.said (delivery : CommentDelivery) : List ExternalReference × String :=
  ([openProjectRef delivery.externalId "activity"], delivery.text)

/-- The deliveries that were taken on the way from `w` to `t`. -/
structure Took (kept : List CommentDelivery) (w t : World) : Prop where
  below : ∀ comment ∈ t.comments.items, comment.id.Below t.nextUuid
  comments : ∃ new, t.comments.items = w.comments.items ++ new ∧
    new.map Comment.said = kept.map CommentDelivery.said
  published : ∃ events, t.published = w.published ++ events ∧
    events.map EventEnvelope.payload = (kept.filter fun delivery => !delivery.lost).map CommentDelivery.payload

section
variable {w t : World} {kept : List CommentDelivery} {delivery : CommentDelivery}

theorem filter_said {new : List Comment} (same : new.map Comment.said = kept.map CommentDelivery.said)
    (p : List ExternalReference × String → Bool) :
    (new.filter fun comment => p comment.said).length = (kept.filter fun delivery => p delivery.said).length := by
  have mapped := congrArg (fun said => (said.filter p).length) same
  simpa only [List.filter_map, List.length_map, Function.comp_def] using mapped

theorem findComment_took (took : Took kept w t)
    (absent : w.findComment "openproject" delivery.externalId (some "activity") = none) :
    t.findComment "openproject" delivery.externalId (some "activity") = none ↔
      delivery.externalId ∉ kept.map CommentDelivery.externalId := by
  obtain ⟨new, items, same⟩ := took.comments
  have among : (∀ comment ∈ new, ¬ comment.said.1.any
        (·.refersTo "openproject" delivery.externalId (some "activity")) = true) ↔
      ∀ other ∈ kept, ¬ other.said.1.any (·.refersTo "openproject" delivery.externalId (some "activity")) = true := by
    have none := filter_said same fun said => said.1.any (·.refersTo "openproject" delivery.externalId (some "activity"))
    rw [← List.filter_eq_nil_iff, ← List.filter_eq_nil_iff, ← List.length_eq_zero_iff, ← List.length_eq_zero_iff, none]
  unfold World.findComment findByExternalRef at absent ⊢
  rw [items, List.find?_append, absent, Option.none_or, List.find?_eq_none]
  refine among.trans ?_
  simp only [CommentDelivery.said, List.any_cons, List.any_nil, Bool.or_false, openProjectRef_refersTo, List.mem_map,
    not_exists, not_and]

theorem took_deliverComment (took : Took kept w t)
    (absent : w.findComment "openproject" delivery.externalId (some "activity") = none) :
    Took (enter CommentDelivery.externalId kept delivery) w (t.deliverComment delivery) := by
  by_cases taken : delivery.externalId ∈ kept.map CommentDelivery.externalId
  · have found : ∃ comment, t.findComment "openproject" delivery.externalId (some "activity") = some comment :=
      Option.ne_none_iff_exists'.mp fun missing => (findComment_took took absent).mp missing taken
    obtain ⟨comment, found⟩ := found
    rw [enter_taken taken, deliverComment_known found]
    exact took
  · rw [enter_free taken]
    obtain ⟨items, ⟨event, published, payloads⟩, later⟩ :=
      deliverComment_new took.below ((findComment_took took absent).mpr taken)
    obtain ⟨new, before, same⟩ := took.comments
    obtain ⟨events, already, earlier⟩ := took.published
    refine ⟨?_, ⟨_, by rw [items, before, List.append_assoc], ?_⟩, ⟨_, by rw [published, already, List.append_assoc], ?_⟩⟩
    · intro comment stored
      rw [items] at stored
      rcases List.mem_append.mp stored with old | added
      · exact (took.below comment old).mono (Nat.le_of_lt later)
      · rw [List.mem_singleton.mp added]
        exact later
    · rw [List.map_append, List.map_append, same]
      rfl
    · rw [List.map_append, List.filter_append, List.map_append, earlier, payloads]
      cases isLost : delivery.lost <;> simp [isLost]

theorem took_deliverComments {deliveries : List CommentDelivery} (took : Took kept w t)
    (absent : ∀ delivery ∈ deliveries, w.findComment "openproject" delivery.externalId (some "activity") = none) :
    Took (deliveries.foldl (enter CommentDelivery.externalId) kept) w (t.deliverComments deliveries) := by
  induction deliveries generalizing kept t with
  | nil => exact took
  | cons delivery deliveries ih =>
    have step := took_deliverComment took (absent delivery (List.mem_cons_self ..))
    exact ih step fun other later => absent other (List.mem_cons_of_mem _ later)

theorem took_firsts {deliveries : List CommentDelivery} (unheard : Unheard w deliveries) :
    Took (firsts CommentDelivery.externalId deliveries) w (w.deliverComments deliveries) :=
  took_deliverComments ⟨unheard.below, ⟨[], by simp, rfl⟩, ⟨[], by simp, rfl⟩⟩ unheard.absent

theorem feedbackSince_took (took : Took kept w t) : w.feedbackSince t =
    (kept.filter fun delivery => !delivery.lost).map fun delivery => (delivery.externalId, delivery.text) := by
  obtain ⟨events, published, payloads⟩ := took.published
  unfold World.feedbackSince
  rw [published, List.drop_left]
  calc events.filterMap (fun event => event.payload.feedback)
      = (events.map EventEnvelope.payload).filterMap EventPayload.feedback := by rw [List.filterMap_map]; rfl
    _ = _ := by
      rw [payloads, List.filterMap_map, ← List.filterMap_eq_map]
      rfl

theorem commentsOf_took (took : Took kept w t)
    (absent : w.findComment "openproject" delivery.externalId (some "activity") = none) (text : String) :
    (t.commentsOf delivery.externalId text).length =
      (kept.filter fun other => other.text = text ∧ other.externalId = delivery.externalId).length := by
  obtain ⟨new, items, same⟩ := took.comments
  have old : w.commentsOf delivery.externalId text = [] := by
    unfold World.findComment findByExternalRef at absent
    rw [World.commentsOf, List.filter_eq_nil_iff]
    intro comment stored
    have unrelated := List.find?_eq_none.mp absent comment stored
    simp only [Bool.and_eq_true, not_and]
    exact fun _ => unrelated
  have count := filter_said same fun said =>
    decide (said.2 = text) && said.1.any (·.refersTo "openproject" delivery.externalId (some "activity"))
  have whole : t.commentsOf delivery.externalId text = w.commentsOf delivery.externalId text ++ new.filter (fun comment =>
      comment.text = text && comment.externalRefs.any (·.refersTo "openproject" delivery.externalId (some "activity"))) := by
    rw [World.commentsOf, items, List.filter_append]
    rfl
  rw [whole, old, List.nil_append]
  refine count.trans (congrArg List.length (List.filter_congr fun other _ => ?_))
  simp only [CommentDelivery.said, List.any_cons, List.any_nil, Bool.or_false, Bool.decide_and]
  congr 1
  rw [Bool.eq_iff_iff, openProjectRef_refersTo, decide_eq_true_iff]

end

/-! ### Which comments are heard -/

namespace CommentDelivery
variable {deliveries : List CommentDelivery} {delivery taken : CommentDelivery}

/-- The comments without an id all say the same. -/
def OneUnidentified (deliveries : List CommentDelivery) : Prop :=
  ∀ delivery ∈ deliveries, ∀ other ∈ deliveries, delivery.externalId = "" → other.externalId = "" →
    delivery.text = other.text

instance (deliveries : List CommentDelivery) : Decidable (OneUnidentified deliveries) :=
  inferInstanceAs (Decidable (∀ _ ∈ _, _))

theorem body_unidentified (unidentified : delivery.externalId = "") : delivery.body deliveries = delivery.text := by
  unfold body
  cases found : deliveries.find? fun other => delivery.Same other with
  | none => rfl
  | some other =>
    have same : delivery.Same other := by simpa using List.find?_some found
    exact (same.2 unidentified).symm

theorem body_identified (identified : delivery.externalId ≠ "")
    (found : first externalId deliveries delivery.externalId = some taken) : delivery.body deliveries = taken.text := by
  have sameTest : (fun other => decide (delivery.Same other)) =
      fun other : CommentDelivery => decide (other.externalId = delivery.externalId) := by
    funext other
    rw [decide_eq_decide]
    exact ⟨fun same => same.1.symm, fun same => ⟨same.symm, fun empty => absurd empty identified⟩⟩
  unfold body
  rw [sameTest]
  rw [first] at found
  rw [found]
  rfl

theorem body_taken (uniform : OneUnidentified deliveries) (member : delivery ∈ deliveries)
    (found : first externalId deliveries delivery.externalId = some taken) : delivery.body deliveries = taken.text := by
  obtain ⟨delivered, sameId⟩ := first_eq_some found
  by_cases identified : delivery.externalId = ""
  · rw [body_unidentified identified]
    exact uniform delivery member taken delivered identified (sameId.trans identified)
  · exact body_identified identified found

end CommentDelivery

section
variable {w t : World} {deliveries : List CommentDelivery}

theorem length_filter_key {as : List CommentDelivery} (nodup : (as.map CommentDelivery.externalId).Nodup)
    {a : CommentDelivery} (member : a ∈ as) (p : CommentDelivery → Bool)
    (only : ∀ b ∈ as, p b = true → b.externalId = a.externalId) (passes : p a = true) : (as.filter p).length = 1 := by
  have single : as.filter p = [a] := by
    have distinct : as.Nodup := nodup.of_map
    rw [← List.perm_singleton]
    refine (List.perm_ext_iff_of_nodup (distinct.filter p) (List.nodup_singleton a)).mpr fun b => ?_
    rw [List.mem_filter, List.mem_singleton]
    constructor
    · rintro ⟨stored, passed⟩
      exact List.inj_on_of_nodup_map nodup stored member (only b stored passed)
    · rintro rfl
      exact ⟨member, passes⟩
  rw [single]
  rfl

theorem allHeard_of_taken (took : Took (firsts CommentDelivery.externalId deliveries) w t)
    (unheard : Unheard w deliveries) (heard : ∀ first ∈ firsts CommentDelivery.externalId deliveries, first.lost = false)
    (uniform : CommentDelivery.OneUnidentified deliveries) : AllHeard deliveries w t := by
  have nodup : ((firsts CommentDelivery.externalId deliveries).map CommentDelivery.externalId).Nodup :=
    nodup_firsts deliveries
  have everything : (firsts CommentDelivery.externalId deliveries).filter (fun delivery => !delivery.lost) =
      firsts CommentDelivery.externalId deliveries :=
    List.filter_eq_self.mpr fun first kept => by rw [heard first kept]; rfl
  have feedback := feedbackSince_took took
  rw [everything] at feedback
  have takenOf : ∀ delivery ∈ deliveries, ∃ taken ∈ firsts CommentDelivery.externalId deliveries,
      taken.externalId = delivery.externalId ∧ delivery.body deliveries = taken.text := by
    intro delivery member
    obtain ⟨taken, found⟩ := exists_first (List.mem_map_of_mem (f := CommentDelivery.externalId) member)
    obtain ⟨_, sameId⟩ := first_eq_some found
    exact ⟨taken, mem_firsts.mpr (sameId ▸ found), sameId, CommentDelivery.body_taken uniform member found⟩
  refine ⟨?_, ?_, ?_⟩
  · intro delivery member
    obtain ⟨taken, kept, sameId, body⟩ := takenOf delivery member
    rw [feedback, body, ← sameId]
    exact List.mem_map_of_mem kept
  · intro delivery member
    obtain ⟨taken, kept, sameId, body⟩ := takenOf delivery member
    rw [commentsOf_took took (unheard.absent delivery member)]
    refine length_filter_key nodup kept _ ?_ ?_
    · intro other _ passed
      simp only [decide_eq_true_eq] at passed
      exact passed.2.trans sameId.symm
    · simp [body, sameId]
  · intro _ delivery member _
    obtain ⟨taken, kept, sameId, _⟩ := takenOf delivery member
    rw [feedback, List.filter_map, List.length_map]
    refine length_filter_key nodup kept _ ?_ ?_
    · intro other _ passed
      simp only [Function.comp_apply, decide_eq_true_eq] at passed
      exact passed.trans sameId.symm
    · simp [sameId]

theorem taken_of_allHeard (took : Took (firsts CommentDelivery.externalId deliveries) w t)
    (unheard : Unheard w deliveries) (all : AllHeard deliveries w t) :
    (∀ first ∈ firsts CommentDelivery.externalId deliveries, first.lost = false) ∧
      CommentDelivery.OneUnidentified deliveries := by
  have nodup : ((firsts CommentDelivery.externalId deliveries).map CommentDelivery.externalId).Nodup :=
    nodup_firsts deliveries
  constructor
  · intro delivery kept
    have announced := all.announced delivery (mem_of_mem_firsts kept)
    rw [feedbackSince_took took] at announced
    obtain ⟨taken, isHeard, same⟩ := List.mem_map.mp announced
    rw [List.mem_filter] at isHeard
    obtain rfl : taken = delivery := List.inj_on_of_nodup_map nodup isHeard.1 kept (Prod.mk.inj same).1
    simpa using isHeard.2
  · have stored : ∀ delivery ∈ deliveries, delivery.externalId = "" →
        ∃ taken ∈ firsts CommentDelivery.externalId deliveries, taken.externalId = "" ∧ taken.text = delivery.text := by
      intro delivery member unidentified
      have once := all.stored delivery member
      rw [commentsOf_took took (unheard.absent delivery member), CommentDelivery.body_unidentified unidentified] at once
      obtain ⟨taken, only⟩ := List.length_eq_one_iff.mp once
      have kept : taken ∈ [taken] := List.mem_singleton_self taken
      rw [← only, List.mem_filter, decide_eq_true_eq] at kept
      exact ⟨taken, kept.1, kept.2.2.trans unidentified, kept.2.1⟩
    intro delivery member other member' unidentified unidentified'
    obtain ⟨taken, kept, takenId, text⟩ := stored delivery member unidentified
    obtain ⟨taken', kept', takenId', text'⟩ := stored other member' unidentified'
    obtain rfl : taken = taken' := List.inj_on_of_nodup_map nodup kept kept' (takenId.trans takenId'.symm)
    exact text.symm.trans text'

end

/-- Every live comment is heard exactly when the bus takes the event of the first
delivery under each provider id, the empty one included, and the comments without
an id all say the same. -/
theorem comments_heard_iff (w : World) (deliveries : List CommentDelivery) (unheard : Unheard w deliveries) :
    AllHeard deliveries w (w.deliverComments deliveries) ↔
      (∀ first ∈ firsts CommentDelivery.externalId deliveries, first.lost = false) ∧
        CommentDelivery.OneUnidentified deliveries := by
  have took := took_firsts unheard
  constructor
  · exact taken_of_allHeard took unheard
  · rintro ⟨heard, uniform⟩
    exact allHeard_of_taken took unheard heard uniform

/-- A delivery where only the bus can fail. -/
def deliveryOf (externalId text : String) (publish : Outcome PyException) : CommentDelivery where
  workItemId := .v5 "42"
  externalId
  authorName := "Ada"
  text
  publish
  outside := ⟨fun _ site => if site = .publishFeedback then publish else .returns, fun _ => 0⟩
  moment := 0
  repositories := by
    intro n site isRepository
    refine if_neg ?_
    rintro rfl
    cases isRepository
  publishes := fun _ => rfl

theorem unheard_empty (deliveries : List CommentDelivery) : Unheard {} deliveries where
  below := by
    intro comment stored
    cases stored
  absent := fun _ _ => rfl

/-- A comment delivered twice and one without an id. -/
theorem comments_heard_redelivered :
    AllHeard [deliveryOf "7" "Please split this." .returns, deliveryOf "" "Done?" .returns,
        deliveryOf "7" "Please split this." .returns] {}
      (World.deliverComments {} [deliveryOf "7" "Please split this." .returns, deliveryOf "" "Done?" .returns,
        deliveryOf "7" "Please split this." .returns]) :=
  (comments_heard_iff {} _ (unheard_empty _)).mpr ⟨by decide, by decide⟩

/-- The bus refuses the event of a comment. The comment is stored by then, so the
delivery that repeats it is not announced. -/
theorem comment_never_heard :
    Unheard {} [deliveryOf "7" "Please split this." (.raises false ⟨"ConnectionError", ""⟩),
        deliveryOf "7" "Please split this." .returns] ∧
      ¬ AllHeard [deliveryOf "7" "Please split this." (.raises false ⟨"ConnectionError", ""⟩),
          deliveryOf "7" "Please split this." .returns] {}
        (World.deliverComments {} [deliveryOf "7" "Please split this." (.raises false ⟨"ConnectionError", ""⟩),
          deliveryOf "7" "Please split this." .returns]) := by
  refine ⟨unheard_empty _, fun heard => ?_⟩
  have announced := heard.announced _ (List.mem_cons_self ..)
  revert announced
  decide

end Brain
