import Brain.Ingestion.Identity

namespace Brain
open Calls

/-- The event assigns the work item `id`. -/
def isAssignmentOf (id : WorkItemId) (e : EventEnvelope) : Bool :=
  e.eventType = .workItemAssigned &&
    match e.payload with
    | .workItemAssigned workItemId _ => workItemId = id
    | _ => false

/-- The number of `WorkItemAssigned` events published for a work package. -/
def World.assignments (w : World) (x : String) : Nat :=
  match w.package x with
  | some item => w.published.countP (isAssignmentOf item.id)
  | none => 0

/-- Work items are announced after they are stored. -/
def Announced (w : World) : Prop :=
  ∀ e ∈ w.published, ∀ id, isAssignmentOf id e = true → w.Holds id

def World.baselineAssigned (w : World) (self : OpenProjectIngestionService) (x : String) : Bool :=
  (w.snapshots.get x).any self.assignedToBrain

theorem isAssignmentOf_eq_false {e : EventEnvelope} (other : e.eventType ≠ .workItemAssigned) (id : WorkItemId) :
    isAssignmentOf id e = false := by
  simp [isAssignmentOf, other]

theorem countP_assignments_eq_zero {events : List EventEnvelope} (id : WorkItemId)
    (others : ∀ e ∈ events, e.eventType ≠ .workItemAssigned) : events.countP (isAssignmentOf id) = 0 := by
  refine List.countP_eq_zero.mpr fun e member => ?_
  simp [isAssignmentOf_eq_false (others e member)]

theorem Sound.package_id_injective {w : World} (sound : Sound w) {x y : String} {a b : WorkItem}
    (left : w.package x = some a) (right : w.package y = some b) (same : a.id = b.id) : x = y := by
  have nameA := sound.packageName_package left
  have nameB := sound.packageName_package right
  rw [same, nameB] at nameA
  exact (Option.some.inj nameA).symm

theorem assignments_eq {w t : World} {x : String} {tail : List EventEnvelope} (announced : Announced w)
    (before : Sound w) (after : Sound t) (persists : Persists w t) (published : t.published = w.published ++ tail) :
    t.assignments x = w.assignments x +
      match t.package x with
      | some item => tail.countP (isAssignmentOf item.id)
      | none => 0 := by
  unfold World.assignments
  cases found : w.package x with
  | some item =>
    have kept := before.workItems.find_persists after.workItems persists.workItems found
    obtain ⟨item', found', same⟩ := kept
    have atEnd : t.package x = some item' := found'
    simp only [atEnd, published, List.countP_append, same]
  | none =>
    cases born : t.package x with
    | none => rfl
    | some item' =>
      have none : w.published.countP (isAssignmentOf item'.id) = 0 := by
        refine List.countP_eq_zero.mpr fun e member assigns => ?_
        obtain ⟨old, stored, same⟩ := announced e member item'.id assigns
        obtain ⟨y, refs⟩ := before.workItems.named old stored
        have known : w.package y = some old := before.package_eq_some.mpr ⟨stored, refs⟩
        obtain ⟨later, atEnd, sameId⟩ := before.workItems.find_persists after.workItems persists.workItems known
        have equal := after.package_id_injective atEnd born (sameId.trans same)
        rw [equal, found] at known
        cases known
      simp only [published, List.countP_append, none]

theorem DocumentEventsOnly.not_assigned {events : List EventEnvelope} (documents : DocumentEventsOnly events) :
    ∀ e ∈ events, e.eventType ≠ .workItemAssigned := by
  intro e member
  rw [documents e member]
  decide

theorem Publishes.saved {u t : World} {s : OpenProjectWorkItemSnapshot} {tail : List EventEnvelope}
    (publishes : Publishes (World.saveSnapshot s u) tail t) :
    (∀ y, t.package y = u.package y) ∧ t.snapshots = u.snapshots.upsert s ∧
      t.published = u.published ++ tail ∧ Persists u t := by
  obtain ⟨next, _, rfl⟩ := publishes
  exact ⟨fun _ => rfl, rfl, rfl, fun _ => id, fun _ => id, fun _ => id, fun _ => id⟩

section Kinds
variable {s : OpenProjectWorkItemSnapshot} {changes : List SemanticChange} {e : EventEnvelope}

theorem workItemEventType_ne_assigned (created : Bool) : OpenProjectIngestionService.workItemEventType created ≠ .workItemAssigned := by
  cases created <;> decide

theorem IsWorkItemEvent.not_assignment {item : WorkItem} {created : Bool}
    (isEvent : IsWorkItemEvent item s changes created e) (id : WorkItemId) : isAssignmentOf id e = false := by
  refine isAssignmentOf_eq_false ?_ id
  rw [isEvent.eventType]
  exact workItemEventType_ne_assigned created

theorem IsProviderFact.not_assignment {created : Bool}
    (isFact : IsProviderFact s changes created e) (id : WorkItemId) : isAssignmentOf id e = false := by
  refine isAssignmentOf_eq_false ?_ id
  rw [isFact.eventType]
  exact workItemEventType_ne_assigned created

theorem IsAssignment.iff {item : WorkItem} (isAssignment : IsAssignment item s e)
    (id : WorkItemId) : isAssignmentOf id e = true ↔ item.id = id := by
  simp [isAssignmentOf, isAssignment.eventType, isAssignment.payload]

end Kinds

namespace OpenProjectIngestionService
variable {self : OpenProjectIngestionService} {options : IngestOptions} {s : OpenProjectWorkItemSnapshot}
  {created : Bool} {changes : List SemanticChange} {item : Option WorkItem}
  {r : Except Raised OpenProjectIngestionResult} {tail : List EventEnvelope}

/-- An ingestion publishes at most one assignment, and that one for its own work
item, live and triggered. -/
theorem Closes.assignments (closes : self.Closes options s created changes item r tail) (id : WorkItemId) :
    tail.countP (isAssignmentOf id) = 0 ∨
      tail.countP (isAssignmentOf id) = 1 ∧ options.mode = .live ∧
        self.shouldTriggerAssignment s changes created options.providerAction = true ∧
        ∃ own, item = some own ∧ own.id = id := by
  have single : ∀ (own : WorkItem) (event assignment : EventEnvelope), isAssignmentOf id event = false →
      IsAssignment own s assignment → options.mode = .live →
      self.shouldTriggerAssignment s changes created options.providerAction = true →
      [event, assignment].countP (isAssignmentOf id) = 0 ∨
        [event, assignment].countP (isAssignmentOf id) = 1 ∧ options.mode = .live ∧
          self.shouldTriggerAssignment s changes created options.providerAction = true ∧
          ∃ own', some own = some own' ∧ own'.id = id := by
    intro own event assignment other isAssignment live triggered
    by_cases same : own.id = id
    · have hit := (isAssignment.iff id).mpr same
      exact Or.inr ⟨by simp [other, hit], live, triggered, own, rfl, same⟩
    · have miss : isAssignmentOf id assignment = false := by
        cases outcome : isAssignmentOf id assignment with
        | false => rfl
        | true => exact absurd ((isAssignment.iff id).mp outcome) same
      exact Or.inl (by simp [other, miss])
  cases closes with
  | saveRaised => exact Or.inl rfl
  | bootstrapped => exact Or.inl rfl
  | unchanged => exact Or.inl rfl
  | eventRaised e event _ _ _ isEvent =>
    have other := isEvent.not_assignment id
    left
    split <;> simp [other]
  | event _ event _ _ isEvent =>
    have other := isEvent.not_assignment id
    exact Or.inl (by simp [other])
  | assignmentRaised e event assignment live _ isEvent triggered _ isAssignment =>
    have other := isEvent.not_assignment id
    split
    · exact single _ event assignment other isAssignment live triggered
    · exact Or.inl (by simp [other])
  | assigned _ event assignment live _ isEvent triggered isAssignment =>
    exact single _ event assignment (isEvent.not_assignment id) isAssignment live triggered
  | factRaised e event _ _ isFact =>
    have other := isFact.not_assignment id
    left
    split <;> simp [other]
  | fact _ event _ isFact =>
    have other := isFact.not_assignment id
    exact Or.inl (by simp [other])

/-- What one ingestion does to baselines and assignments. -/
structure Tracks (self : OpenProjectIngestionService) (w : World) (options : IngestOptions)
    (s : OpenProjectWorkItemSnapshot) (t : World) : Prop where
  announced : Announced t
  others : ∀ y, y ≠ s.externalId → t.snapshots.get y = w.snapshots.get y ∧ t.assignments y = w.assignments y
  own : t.snapshots.get s.externalId = w.snapshots.get s.externalId ∧
      t.assignments s.externalId = w.assignments s.externalId ∨
    t.snapshots.get s.externalId = some s ∧ t.assignments s.externalId = w.assignments s.externalId ∨
    t.snapshots.get s.externalId = some s ∧ t.assignments s.externalId = w.assignments s.externalId + 1 ∧
      options.mode = .live ∧ (w.resolvedProject s options.projectId).isSome = true ∧
      self.shouldTriggerAssignment s (diffSnapshots (w.snapshots.get s.externalId) s)
        (w.package s.externalId).isNone options.providerAction = true

theorem assignments_unchanged {w t : World} {tail : List EventEnvelope} (announced : Announced w) (before : Sound w)
    (after : Sound t) (persists : Persists w t) (published : t.published = w.published ++ tail)
    (others : ∀ e ∈ tail, e.eventType ≠ .workItemAssigned) :
    Announced t ∧ ∀ x, t.assignments x = w.assignments x := by
  constructor
  · intro e member id assigns
    rw [published] at member
    rcases List.mem_append.mp member with old | new
    · exact Holds_persists persists (announced e old id assigns)
    · rw [isAssignmentOf_eq_false (others e new)] at assigns
      cases assigns
  · intro x
    rw [assignments_eq announced before after persists published]
    cases t.package x with
    | none => rfl
    | some item => simp only [countP_assignments_eq_zero item.id others, Nat.add_zero]

theorem Prepared.counts {w u t : World} (prepared : Prepared w options s item u)
    (publishes : Publishes (World.saveSnapshot s u) tail t) (sound : Sound w) (announced : Announced w) :
    Announced u ∧ ∀ y, t.assignments y = w.assignments y +
      match u.package y with
      | some own => tail.countP (isAssignmentOf own.id)
      | none => 0 := by
  have moves := prepared.moves
  obtain ⟨atSave, persists⟩ := moves.sound sound
  obtain ⟨events, published, documents⟩ := moves.published
  obtain ⟨announced', same⟩ := assignments_unchanged announced sound atSave persists published documents.not_assigned
  have after := publishes.sound (atSave.saveSnapshot s)
  obtain ⟨packages, saves, appended, atEnd⟩ := publishes.saved
  refine ⟨announced', ?_⟩
  intro y
  rw [assignments_eq announced' atSave after atEnd appended, same y, packages y]

theorem Prepared.snapshots {w u t : World} (prepared : Prepared w options s item u)
    (publishes : Publishes (World.saveSnapshot s u) tail t) (y : String) :
    t.snapshots.get y = if y = s.externalId then some s else w.snapshots.get y := by
  obtain ⟨_, saves, _, _⟩ := publishes.saved
  rw [saves, ← prepared.moves.snapshots]
  exact Keyed.get_upsert u.snapshots s y

theorem Ingested.tracks {w t : World} (ingested : self.Ingested w options s r t) (sound : Sound w)
    (announced : Announced w) : self.Tracks w options s t := by
  cases ingested with
  | stopped stop =>
    have moves := stop.moves
    obtain ⟨after, persists⟩ := moves.sound sound
    obtain ⟨events, published, documents⟩ := moves.published
    obtain ⟨announced', same⟩ := assignments_unchanged announced sound after persists published documents.not_assigned
    have snapshots := moves.snapshots
    exact ⟨announced', fun y _ => ⟨by rw [snapshots], same y⟩, Or.inl ⟨by rw [snapshots], same _⟩⟩
  | closed prepared closes publishes =>
    rename_i item u tail
    obtain ⟨announced', counts⟩ := prepared.counts publishes sound announced
    have snapshots := prepared.snapshots publishes
    have atSave := (prepared.moves.sound sound).1
    obtain ⟨_, _, appended, atEnd⟩ := publishes.saved
    refine ⟨?_, ?_, ?_⟩
    · intro e member id assigns
      rw [appended] at member
      rcases List.mem_append.mp member with old | new
      · exact Holds_persists atEnd (announced' e old id assigns)
      · have counted : 0 < tail.countP (isAssignmentOf id) := List.countP_pos_iff.mpr ⟨e, new, assigns⟩
        rcases closes.assignments id with nothing | ⟨_, _, _, own, rfl, rfl⟩
        · omega
        · cases prepared with
          | resolved _ _ package => exact Holds_persists atEnd ⟨own, (atSave.package_eq_some.mp package).1, rfl⟩
    · intro y other
      refine ⟨(snapshots y).trans (if_neg other), ?_⟩
      rw [counts y]
      cases found : u.package y with
      | none => rfl
      | some item' =>
        rcases closes.assignments item'.id with nothing | ⟨_, _, _, own, rfl, ownId⟩
        · simp only [nothing, Nat.add_zero]
        · cases prepared with
          | resolved _ _ package => exact absurd (atSave.package_id_injective found package ownId.symm) other
    · have saved := (snapshots s.externalId).trans (if_pos rfl)
      right
      rw [counts s.externalId]
      cases found : u.package s.externalId with
      | none => exact Or.inl ⟨saved, rfl⟩
      | some item' =>
        rcases closes.assignments item'.id with nothing | ⟨one, live, triggered, own, rfl, ownId⟩
        · exact Or.inl ⟨saved, by simp only [nothing, Nat.add_zero]⟩
        · cases prepared with
          | resolved project _ package =>
            exact Or.inr ⟨saved, by simp only [one], live, by rw [project]; rfl, triggered⟩

/-- An ingestion that returns has stored its snapshot. With a project it leaves
a work item, and publishes an assignment where one is due; without a project it
leaves the work items alone. -/
theorem Ingested.completed {w t : World} {result : OpenProjectIngestionResult}
    (ingested : self.Ingested w options s (.ok result) t) (sound : Sound w) (announced : Announced w) :
    t.snapshots.get s.externalId = some s ∧
      ((w.resolvedProject s options.projectId).isSome = true ∧ (t.package s.externalId).isSome = true ∧
        (options.mode = .live →
          options.quiet (w.package s.externalId).isNone (diffSnapshots (w.snapshots.get s.externalId) s) = false →
          self.shouldTriggerAssignment s (diffSnapshots (w.snapshots.get s.externalId) s)
            (w.package s.externalId).isNone options.providerAction = true →
          w.assignments s.externalId < t.assignments s.externalId) ∨
      w.resolvedProject s options.projectId = none ∧
        (t.package s.externalId).isSome = (w.package s.externalId).isSome) := by
  cases ingested with
  | closed prepared closes publishes =>
    rename_i item u tail
    have counts := (prepared.counts publishes sound announced).2
    have packages := publishes.saved.1
    refine ⟨(prepared.snapshots publishes _).trans (if_pos rfl), ?_⟩
    cases prepared with
    | @resolved _ own _ project moves package =>
      left
      refine ⟨by rw [project]; rfl, by rw [packages, package]; rfl, ?_⟩
      intro live loud triggered
      have counted := counts s.externalId
      rw [package] at counted
      cases closes with
      | bootstrapped _ mode => rw [live] at mode; cases mode
      | unchanged _ _ quiet => rw [loud] at quiet; cases quiet
      | event _ _ _ _ _ untriggered => rw [triggered] at untriggered; cases untriggered
      | assigned _ event assignment _ _ _ _ isAssignment =>
        have hit := (isAssignment.iff own.id).mpr rfl
        have once : 0 < [event, assignment].countP (isAssignmentOf own.id) :=
          List.countP_pos_iff.mpr ⟨assignment, by simp, hit⟩
        dsimp only at counted
        omega
    | unresolved project => exact Or.inr ⟨project, by rw [packages]⟩

end OpenProjectIngestionService

end Brain
