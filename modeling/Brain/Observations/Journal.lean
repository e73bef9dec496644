import Brain.Application.Observations

namespace Brain

/-- Only a resolved observation is further along than an acknowledged one. -/
def ObservationStatus.rank : ObservationStatus → Nat
  | .opened => 0
  | .acknowledged => 1
  | .resolved => 2

def Publication.tells (eventType : EventType) (id : ObservationId) : Publication → Bool
  | .observationCreated observationId .. => eventType = .observationCreated ∧ observationId = id
  | .observationAcknowledged observationId _ => eventType = .observationAcknowledged ∧ observationId = id
  | .observationResolved observationId _ => eventType = .observationResolved ∧ observationId = id
  | _ => false

def ObservationCall.eventType : ObservationCall → EventType
  | .create _ => .observationCreated
  | .acknowledge _ => .observationAcknowledged
  | .resolve _ => .observationResolved

def ObservationCall.target : ObservationCall → Option ObservationId
  | .create _ => none
  | .acknowledge observationId | .resolve observationId => some observationId

def ObservationCall.change (now : Time) : ObservationCall → Observation → Observation
  | .create _ => id
  | .acknowledge _ => ObservationService.acknowledge now
  | .resolve _ => ObservationService.resolve now

namespace Journal

def told (s : Journal) (eventType : EventType) (id : ObservationId) : Nat :=
  s.published.countP (Publication.tells eventType id)

/-- The observation is stored, and a call that created it gave it its key. -/
def Has (s : Journal) (call : ObservationCall) (id : ObservationId) : Prop :=
  ∃ a ∈ s.observations.items, a.id = id ∧ ∀ args, call = .create args → a.dedupKey = args.dedupKey

/-- What is stored stays, with its key and with the status that `R` allows. -/
def Carries (R : ObservationStatus → ObservationStatus → Prop) (s s' : Journal) : Prop :=
  ∀ a ∈ s.observations.items,
    ∃ b ∈ s'.observations.items, b.id = a.id ∧ b.dedupKey = a.dedupKey ∧ R a.status b.status

/-- No stored observation goes back in its lifecycle. -/
def Forward : Journal → Journal → Prop := Carries fun before after => before.rank ≤ after.rank

end Journal

namespace ObservationStage

def Tells (eventType : EventType) (id : ObservationId) : ObservationStage → Prop
  | .save saved observation => saved = eventType ∧ observation.id = id
  | .publish publication _ => publication.tells eventType id = true
  | _ => False

def Fits (call : ObservationCall) (s : Journal) : ObservationStage → Prop
  | .save eventType observation =>
    eventType = call.eventType ∧ (∀ args, call = .create args → observation.dedupKey = args.dedupKey) ∧
      (eventType ≠ .observationCreated → s.Has call observation.id)
  | .publish publication observation =>
    (∀ eventType id, publication.tells eventType id = true ↔ eventType = call.eventType ∧ id = observation) ∧
      s.Has call observation
  | .returned (some observation) => s.Has call observation
  | .returned none => call.target ≠ none
  | _ => True

end ObservationStage

namespace ObservationService
variable {service : ObservationService} {call : ObservationCall} {answer : ObservationAnswer}
  {stage stage' : ObservationStage} {s s' : Journal}

inductive Records (service : ObservationService) (call : ObservationCall) (s : Journal) :
    ObservationStage → ObservationStage → Journal → Prop
  | awaits (stage : ObservationStage) (looks : stage = .findByDedupKey ∨ stage = .get) :
      Records service call s .started stage s
  | finds (args : CreateObservation) (key : String) (existing : Observation) (creates : call = .create args)
      (keyed : args.dedupKey = some key) (found : s.findByDedupKey key = some existing) :
      Records service call s .findByDedupKey (.returned (some existing.id)) s
  | constructs (args : CreateObservation) (stage : ObservationStage) (creates : call = .create args)
      (early : stage = .started ∨ stage = .findByDedupKey) :
      Records service call s stage (.save .observationCreated (args.observation (.v4 s.nextUuid)))
        { s with nextUuid := s.nextUuid + 1 }
  | misses (id : ObservationId) (changes : call.target = some id) : Records service call s .get (.returned none) s
  | assigns (observation : Observation) (now : Time) (stored : observation ∈ s.observations.items)
      (changes : call.target = some observation.id) :
      Records service call s .get (.save call.eventType (call.change now observation))
        { s with observations := s.observations.upsert (call.change now observation) }
  | saves (eventType : EventType) (observation : Observation) :
      Records service call s (.save eventType observation) (service.emit eventType observation)
        (save eventType observation s)
  | publishes (publication : Publication) (observation : ObservationId) (stage : ObservationStage)
      (ends : stage = .returned (some observation) ∨ ∃ exception, stage = .raised exception) :
      Records service call s (.publish publication observation) stage { s with published := s.published ++ [publication] }

theorem assign_records {now : Time} {observationId : ObservationId} (changes : call.target = some observationId)
    (taken : some (assign call.eventType (call.change now) observationId s) = some (stage', s')) :
    Records service call s .get stage' s' := by
  unfold assign at taken
  cases found : s.observations.get observationId with
  | none =>
    simp only [found] at taken
    cases taken
    exact .misses observationId changes
  | some observation =>
    simp only [found] at taken
    cases taken
    obtain ⟨stored, rfl⟩ := Keyed.get_eq_some.mp found
    exact .assigns observation now stored changes

theorem resume_records (taken : service.resume call answer stage s = some (stage', s')) :
    Records service call s stage stage' s' := by
  cases answer with
  | raises exception =>
    cases stage with
    | publish publication observation => cases taken; exact .publishes publication observation _ (Or.inr ⟨_, rfl⟩)
    | _ => cases taken
  | done now =>
    cases stage with
    | started =>
      cases call with
      | create args =>
        cases keyed : args.dedupKey with
        | none =>
          simp only [resume, keyed] at taken
          cases taken
          exact .constructs args _ rfl (Or.inl rfl)
        | some key =>
          simp only [resume, keyed] at taken
          cases taken
          exact .awaits _ (Or.inl rfl)
      | acknowledge observationId => cases taken; exact .awaits _ (Or.inr rfl)
      | resolve observationId => cases taken; exact .awaits _ (Or.inr rfl)
    | findByDedupKey =>
      cases call with
      | create args =>
        cases found : args.dedupKey.bind s.findByDedupKey with
        | none =>
          simp only [resume, found] at taken
          cases taken
          exact .constructs args _ rfl (Or.inr rfl)
        | some existing =>
          simp only [resume, found] at taken
          cases taken
          obtain ⟨key, keyed, isFirst⟩ := Option.bind_eq_some_iff.mp found
          exact .finds args key existing rfl keyed isFirst
      | acknowledge observationId => cases taken
      | resolve observationId => cases taken
    | get =>
      cases call with
      | create args => cases taken
      | acknowledge observationId => exact assign_records rfl taken
      | resolve observationId => exact assign_records rfl taken
    | save eventType observation => cases taken; exact .saves eventType observation
    | publish publication observation => cases taken; exact .publishes publication observation _ (Or.inl rfl)
    | returned observation => cases taken
    | raised exception => cases taken

theorem emitted_tells (call : ObservationCall) (observation : Observation) (eventType : EventType) (id : ObservationId) :
    (emitted call.eventType observation).tells eventType id = true ↔ eventType = call.eventType ∧ id = observation.id := by
  rw [@eq_comm _ id]
  cases call <;> simp [emitted, ObservationCall.eventType, Publication.tells]

end ObservationService

/-! ### What the event bus is told -/

/-- What a move does to the telling of one event: it leaves it as it is, takes it
in hand, or does it. -/
inductive Telling (eventType : EventType) (id : ObservationId) (call : ObservationCall) (stage stage' : ObservationStage)
    (s s' : Journal) : Prop
  | keeps (fewer : stage'.Tells eventType id → stage.Tells eventType id) (same : s'.told eventType id = s.told eventType id)
  | constructs (creates : eventType = .observationCreated) (fresh : id = .v4 s.nextUuid)
      (drawn : s'.nextUuid = s.nextUuid + 1) (same : s'.told eventType id = s.told eventType id)
  | assigns (changes : call.target = some id) (isEvent : eventType = call.eventType) (gets : stage = .get)
      (assigned : ∃ now, ∃ a ∈ s.observations.items, a.id = id ∧ call.change now a ∈ s'.observations.items)
      (same : s'.told eventType id = s.told eventType id)
  | tells (own : stage.Tells eventType id) (passes : ¬ stage'.Tells eventType id)
      (once : s'.told eventType id = s.told eventType id + 1)

namespace ObservationService
variable {service : ObservationService} {call : ObservationCall} {stage stage' : ObservationStage} {s s' : Journal}

theorem change_id (now : Time) (observation : Observation) : (call.change now observation).id = observation.id := by
  cases call <;> rfl

theorem change_dedupKey (now : Time) (observation : Observation) :
    (call.change now observation).dedupKey = observation.dedupKey := by
  cases call <;> rfl

theorem emit_tells {eventType : EventType} {id : ObservationId} {observation : Observation}
    (tells : (service.emit call.eventType observation).Tells eventType id) :
    eventType = call.eventType ∧ id = observation.id := by
  unfold emit at tells
  split at tells
  · exact (emitted_tells call observation eventType id).mp tells
  · cases tells

theorem Records.telling (records : Records service call s stage stage' s') (fits : stage.Fits call s)
    (eventType : EventType) (id : ObservationId) : Telling eventType id call stage stage' s s' := by
  cases records with
  | awaits _ looks =>
    refine .keeps (fun tells => ?_) rfl
    rcases looks with rfl | rfl <;> cases tells
  | finds => exact .keeps (fun tells => by cases tells) rfl
  | misses => exact .keeps (fun tells => by cases tells) rfl
  | constructs args _ creates early =>
    by_cases mine : eventType = .observationCreated ∧ id = .v4 s.nextUuid
    · exact .constructs mine.1 mine.2 rfl rfl
    · refine .keeps (fun tells => absurd ?_ mine) rfl
      exact ⟨tells.1.symm, tells.2.symm⟩
  | assigns observation now stored changes =>
    by_cases mine : eventType = call.eventType ∧ id = observation.id
    · obtain ⟨isEvent, rfl⟩ := mine
      exact .assigns changes isEvent rfl ⟨now, observation, stored, rfl, Keyed.mem_upsert_self ..⟩ rfl
    · refine .keeps (fun tells => absurd ?_ mine) rfl
      exact ⟨tells.1.symm, tells.2.symm.trans (change_id now observation)⟩
  | saves saved observation =>
    have same : (save saved observation s).told eventType id = s.told eventType id := by
      unfold save
      split <;> rfl
    refine .keeps (fun tells => ?_) same
    have isEvent : saved = call.eventType := fits.1
    rw [isEvent] at tells
    obtain ⟨rfl, rfl⟩ := emit_tells tells
    exact ⟨isEvent, rfl⟩
  | publishes publication observation _ ends =>
    have silent : ¬ stage'.Tells eventType id := by
      rcases ends with rfl | ⟨exception, rfl⟩ <;> exact fun tells => tells
    cases tells : publication.tells eventType id with
    | true => exact .tells tells silent (by simp [Journal.told, tells])
    | false => exact .keeps (fun again => absurd again silent) (by simp [Journal.told, tells])

end ObservationService

/-! ### What the repository holds -/

namespace Journal
variable {s s' : Journal} {call : ObservationCall} {id : ObservationId}

variable {R : ObservationStatus → ObservationStatus → Prop}

theorem Carries.of_same (refl : ∀ status, R status status) (same : s'.observations = s.observations)
    : s.Carries R s' := by
  intro a stored
  exact ⟨a, by rwa [same], rfl, rfl, refl a.status⟩

theorem carries_upsert (refl : ∀ status, R status status) {a : Observation}
    (replaces : ∀ b ∈ s.observations.items, b.id = a.id → b.dedupKey = a.dedupKey ∧ R b.status a.status) :
    s.Carries R { s with observations := s.observations.upsert a } := by
  intro b stored
  by_cases same : b.id = a.id
  · obtain ⟨key, status⟩ := replaces b stored same
    exact ⟨a, Keyed.mem_upsert_self .., same.symm, key.symm, status⟩
  · exact ⟨b, Keyed.mem_upsert.mpr (Or.inr ⟨stored, same⟩), rfl, rfl, refl b.status⟩

theorem Has.mono (has : s.Has call id) (carries : s.Carries R s') : s'.Has call id := by
  obtain ⟨a, stored, rfl, keyed⟩ := has
  obtain ⟨b, stored', same, key, _⟩ := carries a stored
  exact ⟨b, stored', same, fun args creates => key.trans (keyed args creates)⟩

end Journal

theorem ObservationStage.Fits.mono {R : ObservationStatus → ObservationStatus → Prop} {call : ObservationCall}
    {s s' : Journal} {stage : ObservationStage} (fits : stage.Fits call s) (carries : s.Carries R s') :
    stage.Fits call s' := by
  cases stage with
  | save eventType observation => exact ⟨fits.1, fits.2.1, fun other => (fits.2.2 other).mono carries⟩
  | publish publication observation => exact ⟨fits.1, fits.2.mono carries⟩
  | returned observation =>
    cases observation with
    | none => exact fits
    | some observation => exact Journal.Has.mono fits carries
  | _ => trivial

namespace ObservationService
variable {service : ObservationService} {call : ObservationCall} {stage stage' : ObservationStage} {s s' : Journal}

variable {id : ObservationId}

theorem target_creates {args : CreateObservation} (changes : call.target = some id) : call ≠ .create args := by
  rintro rfl
  cases changes

theorem eventType_of_target (changes : call.target = some id) : call.eventType ≠ .observationCreated := by
  cases call with
  | create args => cases changes
  | acknowledge observationId => simp [ObservationCall.eventType]
  | resolve observationId => simp [ObservationCall.eventType]

theorem stored_same (a : Observation) (now : Time) {b : Observation} (stored : a ∈ s.observations.items)
    (listed : b ∈ s.observations.items) (same : b.id = (call.change now a).id) : b = a :=
  s.observations.key_injective listed stored (same.trans (change_id now a))

theorem Records.carries {R : ObservationStatus → ObservationStatus → Prop}
    (records : Records service call s stage stage' s') (refl : ∀ status, R status status)
    (unsaved : ∀ o, stage = .save .observationCreated o → ∀ a ∈ s.observations.items, a.id ≠ o.id)
    (assigned : stage = .get → ∀ a ∈ s.observations.items, call.target = some a.id →
      ∀ now, R a.status (call.change now a).status) :
    s.Carries R s' := by
  cases records with
  | assigns observation now stored changes =>
    apply Journal.carries_upsert refl
    intro b listed same
    rw [stored_same observation now stored listed same, change_dedupKey]
    exact ⟨rfl, assigned rfl observation stored changes now⟩
  | saves eventType observation =>
    unfold save
    split
    · rename_i creates
      subst creates
      apply Journal.carries_upsert refl
      intro b listed same
      exact absurd same (unsaved observation rfl b listed)
    · exact .of_same refl rfl
  | _ => exact .of_same refl rfl

theorem Records.stays (records : Records service call s stage stage' s')
    (unsaved : ∀ o, stage = .save .observationCreated o → ∀ a ∈ s.observations.items, a.id ≠ o.id) :
    s.Carries (fun _ _ => True) s' :=
  records.carries (fun _ => trivial) unsaved fun _ _ _ _ _ => trivial

theorem emit_fits {observation : Observation} (has : s.Has call observation.id) :
    (service.emit call.eventType observation).Fits call s := by
  unfold emit
  split
  · exact ⟨emitted_tells call observation, has⟩
  · exact has

theorem Records.fits (records : Records service call s stage stage' s') (fits : stage.Fits call s)
    (unsaved : ∀ o, stage = .save .observationCreated o → ∀ a ∈ s.observations.items, a.id ≠ o.id) :
    stage'.Fits call s' := by
  have carries := records.stays unsaved
  cases records with
  | awaits _ looks => rcases looks with rfl | rfl <;> trivial
  | finds args key existing creates keyed found =>
    have isKey : existing.dedupKey = some key := by simpa using List.find?_some found
    refine ⟨existing, List.mem_of_find?_eq_some found, rfl, ?_⟩
    rintro other isCall
    obtain rfl : args = other := ObservationCall.create.inj (creates.symm.trans isCall)
    rw [isKey, keyed]
  | misses id changes => exact fun absent => by rw [absent] at changes; cases changes
  | constructs args _ creates early =>
    refine ⟨by rw [creates]; rfl, ?_, fun other => absurd rfl other⟩
    intro other isCall
    obtain rfl : args = other := ObservationCall.create.inj (creates.symm.trans isCall)
    rfl
  | assigns observation now stored changes =>
    refine ⟨rfl, fun args isCall => absurd isCall (target_creates changes), fun _ => ?_⟩
    exact ⟨_, Keyed.mem_upsert_self .., rfl, fun args isCall => absurd isCall (target_creates changes)⟩
  | saves eventType observation =>
    obtain ⟨rfl, keyed, has⟩ := fits
    apply emit_fits
    by_cases creates : call.eventType = .observationCreated
    · have saved : save call.eventType observation s = { s with observations := s.observations.upsert observation } :=
        if_pos creates
      rw [saved]
      exact ⟨observation, Keyed.mem_upsert_self .., rfl, keyed⟩
    · exact (has creates).mono carries
  | publishes publication observation _ ends =>
    rcases ends with rfl | ⟨exception, rfl⟩
    · exact fits.2
    · trivial

theorem Records.nextUuid_le (records : Records service call s stage stage' s') : s.nextUuid ≤ s'.nextUuid := by
  cases records with
  | constructs => exact Nat.le_succ _
  | saves eventType observation => unfold save; split <;> exact Nat.le_refl _
  | _ => exact Nat.le_refl _

theorem Records.saving {observation : Observation}
    (records : Records service call s stage (.save .observationCreated observation) s') :
    observation.id = .v4 s.nextUuid ∧ s'.observations = s.observations := by
  generalize saves : ObservationStage.save .observationCreated observation = stage' at records
  cases records with
  | awaits _ looks => subst saves; rcases looks with looks | looks <;> cases looks
  | constructs args _ creates early => cases saves; exact ⟨rfl, rfl⟩
  | assigns observation now stored changes =>
    exact absurd (ObservationStage.save.inj saves).1.symm (eventType_of_target changes)
  | saves eventType observation =>
    unfold emit at saves
    split at saves <;> cases saves
  | publishes publication observation _ ends =>
    subst saves
    rcases ends with ends | ⟨exception, ends⟩ <;> cases ends
  | _ => cases saves

theorem Records.origin (records : Records service call s stage stage' s') {a : Observation}
    (stored : a ∈ s'.observations.items) :
    (∃ b ∈ s.observations.items, b.id = a.id) ∨ stage = .save .observationCreated a := by
  cases records with
  | assigns observation now listed changes =>
    rcases Keyed.mem_upsert.mp stored with rfl | ⟨old, _⟩
    · exact Or.inl ⟨observation, listed, (change_id now observation).symm⟩
    · exact Or.inl ⟨a, old, rfl⟩
  | saves eventType observation =>
    unfold save at stored
    split at stored
    · rename_i creates
      rcases Keyed.mem_upsert.mp stored with rfl | ⟨old, _⟩
      · exact Or.inr (by rw [creates])
      · exact Or.inl ⟨a, old, rfl⟩
    · exact Or.inl ⟨a, stored, rfl⟩
  | _ => exact Or.inl ⟨a, stored, rfl⟩

theorem Records.told_le (records : Records service call s stage stage' s') (fits : stage.Fits call s)
    (eventType : EventType) (id : ObservationId) : s.told eventType id ≤ s'.told eventType id := by
  cases records.telling fits eventType id with
  | keeps _ same => exact Nat.le_of_eq same.symm
  | constructs _ _ _ same => exact Nat.le_of_eq same.symm
  | assigns _ _ _ _ same => exact Nat.le_of_eq same.symm
  | tells _ _ once => omega

theorem Records.tells_or_told (records : Records service call s stage stage' s') (bus : service.eventBus = true)
    (fits : stage.Fits call s) {eventType : EventType} (tells : stage.Tells eventType id) :
    stage'.Tells eventType id ∨ s'.told eventType id = s.told eventType id + 1 := by
  cases records with
  | saves saved observation =>
    obtain ⟨rfl, rfl⟩ := tells
    refine Or.inl ?_
    have emits : service.emit saved observation = .publish (emitted saved observation) observation.id := if_pos bus
    rw [emits, fits.1]
    exact (emitted_tells call observation _ _).mpr ⟨rfl, rfl⟩
  | publishes publication observation _ ends =>
    have tells : publication.tells eventType id = true := tells
    exact Or.inr (by simp [Journal.told, tells])
  | constructs args _ creates early => rcases early with rfl | rfl <;> cases tells
  | _ => cases tells

end ObservationService

/-! ### Runs -/

namespace ObservationTasks
open ObservationStage (Tells)
variable {ι : Type} {service : ObservationService} {calls : ι → ObservationCall} {tasks tasks' : ObservationTasks ι}

/-- What every run keeps. -/
structure Recorded (service : ObservationService) (calls : ι → ObservationCall) (tasks : ObservationTasks ι) : Prop where
  fits : ∀ i, (tasks.state i).Fits (calls i) tasks.shared
  storedBelow : ∀ a ∈ tasks.shared.observations.items, a.id.Below tasks.shared.nextUuid
  toldBelow : ∀ eventType id,
    (∃ i, (tasks.state i).Tells eventType id) ∨ tasks.shared.told eventType id ≠ 0 → id.Below tasks.shared.nextUuid
  unsaved : ∀ i o, tasks.state i = .save .observationCreated o → ∀ a ∈ tasks.shared.observations.items, a.id ≠ o.id
  creation : ∀ id, Once (fun i => (tasks.state i).Tells .observationCreated id) (tasks.shared.told .observationCreated id)
  announced : service.eventBus = true → ∀ a ∈ tasks.shared.observations.items,
    tasks.shared.told .observationCreated a.id = 1 ∨ ∃ i, (tasks.state i).Tells .observationCreated a.id

theorem recorded_start : Recorded service calls (start : ObservationTasks ι) where
  fits := fun _ => trivial
  storedBelow := fun a stored => by cases stored
  toldBelow := by
    rintro eventType id (⟨i, tells⟩ | told)
    · cases tells
    · exact absurd rfl told
  unsaved := fun i o saves => by cases saves
  creation := fun id => .never fun i tells => tells
  announced := fun bus a stored => by cases stored

variable [DecidableEq ι] {i : ι} {next : ObservationStage} {shared : Journal}

theorem known_before {eventType : EventType} {id : ObservationId}
    (fewer : next.Tells eventType id → (tasks.state i).Tells eventType id)
    (same : shared.told eventType id = tasks.shared.told eventType id)
    (known : (∃ j, ((tasks.move i next shared).state j).Tells eventType id) ∨ shared.told eventType id ≠ 0) :
    (∃ j, (tasks.state j).Tells eventType id) ∨ tasks.shared.told eventType id ≠ 0 := by
  rcases known with ⟨j, tells⟩ | told
  · by_cases moved : j = i
    · rw [moved, Tasks.state_move_self] at tells
      exact Or.inl ⟨i, fewer tells⟩
    · rw [Tasks.state_move_other moved] at tells
      exact Or.inl ⟨j, tells⟩
  · exact Or.inr (by rwa [same] at told)

section Move
variable (recorded : Recorded service calls tasks)
  (records : ObservationService.Records service (calls i) tasks.shared (tasks.state i) next shared)
include recorded records

theorem fits_move (j : ι) : ((tasks.move i next shared).state j).Fits (calls j) shared := by
  by_cases moved : j = i
  · subst moved
    rw [Tasks.state_move_self]
    exact records.fits (recorded.fits j) (recorded.unsaved j)
  · rw [Tasks.state_move_other moved]
    exact (recorded.fits j).mono (records.stays (recorded.unsaved i))

omit [DecidableEq ι] in
theorem storedBelow_move (a : Observation) (stored : a ∈ shared.observations.items) : a.id.Below shared.nextUuid := by
  refine Uuid.Below.mono ?_ records.nextUuid_le
  rcases records.origin stored with ⟨b, listed, same⟩ | saves
  · rw [← same]
    exact recorded.storedBelow b listed
  · exact recorded.toldBelow .observationCreated a.id (Or.inl ⟨i, by rw [saves]; exact ⟨rfl, rfl⟩⟩)

theorem toldBelow_move (eventType : EventType) (id : ObservationId)
    (known : (∃ j, ((tasks.move i next shared).state j).Tells eventType id) ∨ shared.told eventType id ≠ 0) :
    id.Below shared.nextUuid := by
  have before (earlier : (∃ j, (tasks.state j).Tells eventType id) ∨ tasks.shared.told eventType id ≠ 0) :
      id.Below shared.nextUuid := (recorded.toldBelow eventType id earlier).mono records.nextUuid_le
  cases records.telling (recorded.fits i) eventType id with
  | keeps fewer same => exact before (known_before fewer same known)
  | constructs _ fresh drawn _ =>
    rw [fresh, drawn]
    exact Uuid.fresh_below _
  | assigns _ _ _ assigned _ =>
    obtain ⟨_, a, listed, rfl, _⟩ := assigned
    exact (recorded.storedBelow a listed).mono records.nextUuid_le
  | tells own _ _ => exact before (Or.inl ⟨i, own⟩)

theorem unsaved_move (j : ι) (o : Observation) (saves : (tasks.move i next shared).state j = .save .observationCreated o)
    (a : Observation) (stored : a ∈ shared.observations.items) : a.id ≠ o.id := by
  by_cases moved : j = i
  · rw [moved, Tasks.state_move_self] at saves
    rw [saves] at records
    obtain ⟨drawn, same⟩ := records.saving
    rw [same] at stored
    rw [drawn]
    exact (recorded.storedBelow a stored).ne_fresh
  · rw [Tasks.state_move_other moved] at saves
    rcases records.origin stored with ⟨b, listed, same⟩ | own
    · rw [← same]
      exact recorded.unsaved j o saves b listed
    · intro same
      refine moved ((recorded.creation o.id).one j i ?_ ?_)
      · rw [saves]
        exact ⟨rfl, rfl⟩
      · rw [own]
        exact ⟨rfl, same⟩

theorem creation_move (id : ObservationId) :
    Once (fun j => ((tasks.move i next shared).state j).Tells .observationCreated id)
      (shared.told .observationCreated id) := by
  have once := recorded.creation id
  cases records.telling (recorded.fits i) .observationCreated id with
  | keeps fewer same =>
    rw [same]
    exact once.move_drops (fun _ => Tells .observationCreated id) fewer
  | constructs _ fresh _ same =>
    have new (known : (∃ j, (tasks.state j).Tells .observationCreated id) ∨
        tasks.shared.told .observationCreated id ≠ 0) : False :=
      (recorded.toldBelow .observationCreated id known).ne_fresh fresh
    rw [same]
    refine Once.move_takes (fun _ => Tells .observationCreated id) ?_ fun j tells => ?_
    · exact Decidable.byContradiction fun told => new (Or.inr told)
    · exact new (Or.inl ⟨j, tells⟩)
  | assigns changes isEvent _ _ _ => exact absurd isEvent.symm (ObservationService.eventType_of_target changes)
  | tells own passes told =>
    rw [told]
    exact once.move_does (fun _ => Tells .observationCreated id) own passes

theorem announced_move (bus : service.eventBus = true) (a : Observation) (stored : a ∈ shared.observations.items) :
    shared.told .observationCreated a.id = 1 ∨ ∃ j, ((tasks.move i next shared).state j).Tells .observationCreated a.id := by
  have more := records.told_le (recorded.fits i) .observationCreated a.id
  have bound := (creation_move recorded records a.id).bound
  have before : tasks.shared.told .observationCreated a.id = 1 ∨ ∃ j, (tasks.state j).Tells .observationCreated a.id := by
    rcases records.origin stored with ⟨b, listed, same⟩ | saves
    · rw [← same]
      exact recorded.announced bus b listed
    · exact Or.inr ⟨i, by rw [saves]; exact ⟨rfl, rfl⟩⟩
  rcases before with told | ⟨j, tells⟩
  · exact Or.inl (by omega)
  · by_cases moved : j = i
    · subst moved
      rcases records.tells_or_told bus (recorded.fits j) tells with still | told
      · exact Or.inr ⟨j, by rwa [Tasks.state_move_self]⟩
      · exact Or.inl (by omega)
    · exact Or.inr ⟨j, by rwa [Tasks.state_move_other moved]⟩

theorem recorded_move : Recorded service calls (tasks.move i next shared) where
  fits := fits_move recorded records
  storedBelow := storedBelow_move recorded records
  toldBelow := toldBelow_move recorded records
  unsaved := unsaved_move recorded records
  creation := creation_move recorded records
  announced := announced_move recorded records

end Move

/-- A new observation is saved while none has its key, and a status is assigned
to while the observation is not resolved. -/
structure Guarded (calls : ι → ObservationCall) (tasks : ObservationTasks ι) (turn : ι × ObservationAnswer) : Prop where
  unkeyed : ∀ o key, tasks.state turn.1 = .save .observationCreated o → o.dedupKey = some key →
    tasks.shared.findByDedupKey key = none
  unresolved : tasks.state turn.1 = .get → ∀ a ∈ tasks.shared.observations.items, (calls turn.1).target = some a.id →
    a.status ≠ .resolved

/-- What the guarded runs keep besides. -/
structure Settled (tasks : ObservationTasks ι) : Prop where
  unique : ∀ a ∈ tasks.shared.observations.items, ∀ b ∈ tasks.shared.observations.items, ∀ key,
    a.dedupKey = some key → b.dedupKey = some key → a = b
  resolution : ∀ id, Once (fun i => (tasks.state i).Tells .observationResolved id) (tasks.shared.told .observationResolved id)
  resolved : ∀ id, (∃ i, (tasks.state i).Tells .observationResolved id) ∨ tasks.shared.told .observationResolved id ≠ 0 →
    ∃ a ∈ tasks.shared.observations.items, a.id = id ∧ a.status = .resolved

omit [DecidableEq ι] in
theorem settled_start : Settled (start : ObservationTasks ι) where
  unique := fun a stored => by cases stored
  resolution := fun id => .never fun i tells => tells
  resolved := by
    rintro id (⟨i, tells⟩ | told)
    · cases tells
    · exact absurd rfl told

section Guard
variable {answer : ObservationAnswer} (recorded : Recorded service calls tasks) (settled : Settled tasks)
  (guarded : Guarded calls tasks (i, answer))
  (records : ObservationService.Records service (calls i) tasks.shared (tasks.state i) next shared)
include recorded guarded records

omit [DecidableEq ι] in
theorem forward_move : tasks.shared.Forward shared := by
  refine records.carries (fun status => Nat.le_refl _) (recorded.unsaved i) ?_
  intro gets a stored changes now
  have open' := guarded.unresolved gets a stored changes
  cases call : calls i with
  | create args => exact Nat.le_refl _
  | acknowledge observationId =>
    show a.status.rank ≤ 1
    cases status : a.status with
    | resolved => exact absurd status open'
    | _ => decide
  | resolve observationId =>
    show a.status.rank ≤ 2
    cases a.status <;> decide

include settled

omit [DecidableEq ι] recorded in
theorem unique_move (a : Observation) (left : a ∈ shared.observations.items) (b : Observation)
    (right : b ∈ shared.observations.items) (key : String) (keyed : a.dedupKey = some key)
    (keyed' : b.dedupKey = some key) : a = b := by
  have before := settled.unique
  generalize here : tasks.state i = stage at records
  cases records with
  | assigns observation now stored changes =>
    have old : ∀ c ∈ (tasks.shared.observations.upsert ((calls i).change now observation)).items,
        c.dedupKey = some key → c = (calls i).change now observation ∧ observation.dedupKey = some key ∨
          c ∈ tasks.shared.observations.items ∧ c.id ≠ observation.id := by
      intro c listed isKey
      rcases Keyed.mem_upsert.mp listed with rfl | ⟨old, other⟩
      · exact Or.inl ⟨rfl, by rwa [ObservationService.change_dedupKey] at isKey⟩
      · exact Or.inr ⟨old, by rwa [ObservationService.change_id] at other⟩
    rcases old a left keyed with ⟨rfl, own⟩ | ⟨listed, other⟩
    · rcases old b right keyed' with ⟨rfl, _⟩ | ⟨listed', other'⟩
      · rfl
      · exact absurd (congrArg Observation.id (before b listed' observation stored key keyed' own)) other'
    · rcases old b right keyed' with ⟨rfl, own⟩ | ⟨listed', _⟩
      · exact absurd (congrArg Observation.id (before a listed observation stored key keyed own)) other
      · exact before a listed b listed' key keyed keyed'
  | saves eventType observation =>
    unfold ObservationService.save at left right
    by_cases creates : eventType = .observationCreated
    · rw [if_pos creates] at left right
      subst creates
      have free (c : Observation) (stored : c ∈ tasks.shared.observations.items) (isKey : c.dedupKey = some key) :
          observation.dedupKey ≠ some key := by
        intro own
        have none := List.find?_eq_none.mp (guarded.unkeyed observation key here own) c stored
        exact none (decide_eq_true isKey)
      rcases Keyed.mem_upsert.mp left with rfl | ⟨listed, _⟩
      · rcases Keyed.mem_upsert.mp right with rfl | ⟨listed', _⟩
        · rfl
        · exact absurd keyed (free b listed' keyed')
      · rcases Keyed.mem_upsert.mp right with rfl | ⟨listed', _⟩
        · exact absurd keyed' (free a listed keyed)
        · exact before a listed b listed' key keyed keyed'
    · rw [if_neg creates] at left right
      exact before a left b right key keyed keyed'
  | _ => exact before a left b right key keyed keyed'

omit [DecidableEq ι] recorded records in
theorem unsettled_of_assigned {id : ObservationId} (gets : tasks.state i = .get) (changes : (calls i).target = some id)
    {a : Observation} (stored : a ∈ tasks.shared.observations.items) (isId : a.id = id) :
    ¬ ((∃ j, (tasks.state j).Tells .observationResolved id) ∨ tasks.shared.told .observationResolved id ≠ 0) := by
  intro known
  obtain ⟨b, listed, same, resolved⟩ := settled.resolved id known
  rw [tasks.shared.observations.key_injective listed stored (same.trans isId.symm)] at resolved
  exact guarded.unresolved gets a stored (by rw [isId]; exact changes) resolved

theorem resolution_move (id : ObservationId) :
    Once (fun j => ((tasks.move i next shared).state j).Tells .observationResolved id)
      (shared.told .observationResolved id) := by
  have once := settled.resolution id
  cases records.telling (recorded.fits i) .observationResolved id with
  | keeps fewer same =>
    rw [same]
    exact once.move_drops (fun _ => Tells .observationResolved id) fewer
  | constructs creates _ _ _ => cases creates
  | assigns changes _ gets assigned same =>
    obtain ⟨_, a, listed, isId, _⟩ := assigned
    have unsettled := unsettled_of_assigned settled guarded gets changes listed isId
    rw [same]
    refine Once.move_takes (fun _ => Tells .observationResolved id) ?_ fun j tells => ?_
    · exact Decidable.byContradiction fun told => unsettled (Or.inr told)
    · exact unsettled (Or.inl ⟨j, tells⟩)
  | tells own passes told =>
    rw [told]
    exact once.move_does (fun _ => Tells .observationResolved id) own passes

theorem resolved_move (id : ObservationId)
    (known : (∃ j, ((tasks.move i next shared).state j).Tells .observationResolved id) ∨
      shared.told .observationResolved id ≠ 0) :
    ∃ a ∈ shared.observations.items, a.id = id ∧ a.status = .resolved := by
  have before (earlier : (∃ j, (tasks.state j).Tells .observationResolved id) ∨
      tasks.shared.told .observationResolved id ≠ 0) :
      ∃ a ∈ shared.observations.items, a.id = id ∧ a.status = .resolved := by
    obtain ⟨a, listed, isId, resolved⟩ := settled.resolved id earlier
    obtain ⟨b, listed', same, _, forward⟩ := forward_move recorded guarded records a listed
    refine ⟨b, listed', same.trans isId, ?_⟩
    have far : 2 ≤ b.status.rank := by simpa [resolved, ObservationStatus.rank] using forward
    cases status : b.status with
    | resolved => rfl
    | _ => rw [status] at far; simp [ObservationStatus.rank] at far
  cases records.telling (recorded.fits i) .observationResolved id with
  | keeps fewer same => exact before (known_before fewer same known)
  | constructs creates _ _ _ => cases creates
  | assigns changes isEvent _ assigned _ =>
    obtain ⟨now, a, _, isId, listed⟩ := assigned
    refine ⟨_, listed, (ObservationService.change_id now a).trans isId, ?_⟩
    generalize calls i = call at isEvent
    cases call with
    | resolve observationId => rfl
    | _ => cases isEvent
  | tells own _ _ => exact before (Or.inl ⟨i, own⟩)

theorem settled_move : Settled (tasks.move i next shared) where
  unique := unique_move settled guarded records
  resolution := resolution_move recorded settled guarded records
  resolved := resolved_move recorded settled guarded records

end Guard

/-- What the journal promises, in one state. -/
structure Kept (service : ObservationService) (calls : ι → ObservationCall) (tasks : ObservationTasks ι) : Prop where
  unique : ∀ a ∈ tasks.shared.observations.items, ∀ b ∈ tasks.shared.observations.items, ∀ key,
    a.dedupKey = some key → b.dedupKey = some key → a = b
  returned : ∀ i args key, calls i = .create args → args.dedupKey = some key → ∀ observation,
    tasks.state i = .returned observation →
      ∃ a ∈ tasks.shared.observations.items, observation = some a.id ∧ a.dedupKey = some key
  created : service.eventBus = true → ∀ a ∈ tasks.shared.observations.items,
    tasks.shared.told .observationCreated a.id = 1 ∨
      tasks.shared.told .observationCreated a.id = 0 ∧ ∃ i publication, tasks.state i = .publish publication a.id ∧
        publication.tells .observationCreated a.id = true
  createdOnce : ∀ id, tasks.shared.told .observationCreated id ≤ 1
  resolvedOnce : ∀ id, tasks.shared.told .observationResolved id ≤ 1

omit [DecidableEq ι] in
theorem kept_of_recorded (recorded : Recorded service calls tasks) (settled : Settled tasks) : Kept service calls tasks where
  unique := settled.unique
  returned := by
    intro i args key creates keyed observation returned
    have fits := recorded.fits i
    rw [returned] at fits
    cases observation with
    | none => exact absurd (by rw [creates]; rfl) fits
    | some id =>
      obtain ⟨a, stored, rfl, ownKey⟩ := fits
      exact ⟨a, stored, rfl, (ownKey args creates).trans keyed⟩
  created := by
    intro bus a stored
    rcases recorded.announced bus a stored with told | ⟨i, tells⟩
    · exact Or.inl told
    · refine Or.inr ⟨(recorded.creation a.id).undone i tells, i, ?_⟩
      have fits := recorded.fits i
      cases here : tasks.state i with
      | save eventType o =>
        rw [here] at tells
        obtain ⟨rfl, isId⟩ := tells
        exact absurd isId.symm (recorded.unsaved i o here a stored)
      | publish publication observation =>
        rw [here] at tells fits
        have own := ((fits.1 .observationCreated a.id).mp tells).2
        exact ⟨publication, by rw [own], tells⟩
      | _ => rw [here] at tells; cases tells
  createdOnce := fun id => (recorded.creation id).bound
  resolvedOnce := fun id => (settled.resolution id).bound

/-- Along a run of guarded steps the journal keeps what it promises, and no
status goes back. -/
theorem journal_kept (service : ObservationService) (calls : ι → ObservationCall) (turns : List (ι × ObservationAnswer))
    (along : Runs.Along (step service calls) (Guarded calls) turns start) :
    Runs.Throughout (step service calls) (Kept service calls) turns start ∧
      Runs.Moving (step service calls) (fun before after => before.shared.Forward after.shared) turns start := by
  have stepKept : ∀ tasks turn tasks', Recorded service calls tasks ∧ Settled tasks → Guarded calls tasks turn →
      step service calls tasks turn = some tasks' → Recorded service calls tasks' ∧ Settled tasks' := by
    rintro tasks ⟨i, answer⟩ tasks' ⟨recorded, settled⟩ guarded taken
    obtain ⟨next, shared, moved, rfl⟩ := Tasks.turn_eq_some.mp taken
    have records := ObservationService.resume_records moved
    exact ⟨recorded_move recorded records, settled_move recorded settled guarded records⟩
  have stepMoves : ∀ tasks turn tasks', Recorded service calls tasks ∧ Settled tasks → Guarded calls tasks turn →
      step service calls tasks turn = some tasks' → tasks.shared.Forward tasks'.shared := by
    rintro tasks ⟨i, answer⟩ tasks' ⟨recorded, _⟩ guarded taken
    obtain ⟨next, shared, moved, rfl⟩ := Tasks.turn_eq_some.mp taken
    exact forward_move recorded guarded (ObservationService.resume_records moved)
  have both : Recorded service calls (start : ObservationTasks ι) ∧ Settled (start : ObservationTasks ι) :=
    ⟨recorded_start, settled_start⟩
  refine ⟨?_, along.moving stepKept stepMoves both⟩
  exact (along.throughout stepKept both).mono fun tasks kept => kept_of_recorded kept.1 kept.2

def keyedObservation : CreateObservation :=
  { projectId := .v4 0, observationType := .blocker, title := "t", dedupKey := some "k" }

def threeCalls : Fin 3 → ObservationCall
  | 0 => .create keyedObservation
  | 1 => .resolve (.v4 0)
  | 2 => .acknowledge (.v4 0)

def turnsOf {κ : Type} (i : κ) (count : Nat) : List (κ × ObservationAnswer) := List.replicate count (i, .done 0)

/-- A call creates an observation with a key that none has. -/
theorem journal_kept_creating : ∃ tasks : ObservationTasks (Fin 3),
    Runs.after (step ⟨true⟩ threeCalls) (turnsOf 0 4) start = some tasks ∧
      tasks.shared.told .observationCreated (.v4 0) = 1 ∧
      Runs.Throughout (step ⟨true⟩ threeCalls) (Kept ⟨true⟩ threeCalls) (turnsOf 0 4) start := by
  have along : Runs.Along (step ⟨true⟩ threeCalls) (Guarded threeCalls) (turnsOf 0 4) start := by
    have quiet : ∀ (tasks : ObservationTasks (Fin 3)) turn, (∀ o, tasks.state turn.1 ≠ .save .observationCreated o) →
        tasks.state turn.1 ≠ .get → Guarded threeCalls tasks turn :=
      fun tasks turn saves gets => ⟨fun o key isSave => absurd isSave (saves o), fun isGet => absurd isGet gets⟩
    refine .cons rfl (quiet _ _ ?_ ?_) (.cons rfl (quiet _ _ ?_ ?_) (.cons rfl ⟨?_, ?_⟩ (.cons rfl (quiet _ _ ?_ ?_) trivial)))
    case refine_5 => exact fun o key saves own => rfl
    case refine_2 | refine_4 | refine_6 | refine_8 => intro gets; cases gets
    all_goals intro o saves; cases saves
  exact ⟨_, rfl, by decide, (journal_kept ⟨true⟩ threeCalls _ along).1⟩

def twoCreates : Bool → ObservationCall := fun _ => .create keyedObservation

/-- The resolved observation is acknowledged, and two calls that both looked
before either saved store two observations under one key. -/
theorem journal_broken :
    ¬ Runs.Moving (step ⟨true⟩ threeCalls) (fun before after => before.shared.Forward after.shared)
        (turnsOf 0 4 ++ turnsOf 1 4 ++ turnsOf 2 1 ++ turnsOf 2 1) start ∧
      ¬ Runs.Throughout (step ⟨true⟩ twoCreates) (Kept ⟨true⟩ twoCreates)
        (turnsOf false 2 ++ turnsOf true 2 ++ turnsOf false 1 ++ turnsOf true 1) start := by
  constructor
  · intro moving
    obtain ⟨b, stored, same, _, forward⟩ := moving.last rfl rfl _ (List.mem_singleton.mpr rfl)
    obtain rfl := List.mem_singleton.mp stored
    exact absurd forward (by decide)
  · intro throughout
    have kept := throughout.last rfl
    have same := kept.unique _ (List.mem_cons_self ..) _ (List.mem_cons_of_mem _ (List.mem_cons_self ..)) "k" rfl rfl
    exact absurd (congrArg Observation.id same) (by decide)

end ObservationTasks

end Brain
