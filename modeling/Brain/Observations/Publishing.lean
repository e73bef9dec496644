import Brain.Application.ObservationProjection
import Mathlib.Data.List.Perm.Subperm

namespace Brain

/-! ### What the adapters answer -/

/-- The reference is for the observation and the target it was asked for, and
tells of success or failure. -/
structure Publishing.Answered (job : Publishing) (reference : HumanActivityReference) : Prop where
  observation : reference.observationId = job.observation.id
  target : reference.target = job.target
  provider : reference.provider = job.target.provider
  status : reference.status = .published ∨ reference.status = .failed

theorem Publishing.Answered.pair {job : Publishing} {reference : HumanActivityReference} (answered : job.Answered reference) :
    reference.pair = job.pair :=
  Prod.ext answered.observation answered.provider

/-! ### The moves of a call -/

namespace ObservationProjectionService

inductive Projects (call : ProjectionCall) (s : ProjectionStores) :
    ProjectionAnswer → ProjectionStage → ProjectionStage → ProjectionStores → Prop
  | projects (observation : Observation) (target : ExternalReference) (isCall : call = .project observation target) :
      Projects call s .done .started (.get ⟨observation, target, none⟩) s
  | retries (limit : Int) (isCall : call = .retryFailed limit) : Projects call s .done .started .listFailed s
  | lists (limit : Int) (isCall : call = .retryFailed limit) :
      Projects call s .done .listFailed (nextReference [] (s.listFailed limit)) s
  | skips (reference : HumanActivityReference) (loop : RetryLoop)
      (absent : s.observations.get reference.observationId = none) :
      Projects call s .done (.getObservation reference loop) (nextReference loop.retried loop.rest) s
  | looks (reference : HumanActivityReference) (loop : RetryLoop) (observation : Observation)
      (found : s.observations.get reference.observationId = some observation) :
      Projects call s .done (.getObservation reference loop) (.get ⟨observation, reference.target, some loop⟩) s
  | reuses (job : Publishing) (existing : HumanActivityReference) (found : s.refs.get job.pair = some existing)
      (single : job.loop = none) : Projects call s .done (.get job) (.returned existing) s
  | asks (job : Publishing) : Projects call s .done (.get job) (.publish job) s
  | answers (job : Publishing) (reference : HumanActivityReference) :
      Projects call s (.returns reference) (.publish job) (.save job reference) { s with answers := s.answers ++ [reference] }
  | raises (job : Publishing) (exception : PyException) : Projects call s (.raises exception) (.publish job) (.raised exception) s
  | saves (job : Publishing) (reference : HumanActivityReference) :
      Projects call s .done (.save job reference) (afterProject reference job.loop) { s with refs := s.refs.upsert reference }

variable {call : ProjectionCall} {answer : ProjectionAnswer} {stage stage' : ProjectionStage} {s s' : ProjectionStores}

theorem resume_projects (taken : resume call answer stage s = some (stage', s')) :
    Projects call s answer stage stage' s' := by
  cases stage with
  | started =>
    cases answer with
    | done =>
      cases call with
      | project observation target => cases taken; exact .projects observation target rfl
      | retryFailed limit => cases taken; exact .retries limit rfl
    | _ => cases taken
  | get job =>
    cases answer with
    | done =>
      cases found : s.refs.get job.pair with
      | none =>
        simp only [resume, found] at taken
        cases taken
        exact .asks job
      | some existing =>
        simp only [resume, found] at taken
        split at taken
        · rename_i reused
          cases taken
          exact .reuses job existing found reused.2
        · cases taken
          exact .asks job
    | _ => cases taken
  | publish job =>
    cases answer with
    | done => cases taken
    | returns reference => cases taken; exact .answers job reference
    | raises exception => cases taken; exact .raises job exception
  | save job reference =>
    cases answer with
    | done => cases taken; exact .saves job reference
    | _ => cases taken
  | listFailed =>
    cases answer with
    | done =>
      cases call with
      | project observation target => cases taken
      | retryFailed limit => cases taken; exact .lists limit rfl
    | _ => cases taken
  | getObservation reference loop =>
    cases answer with
    | done =>
      cases found : s.observations.get reference.observationId with
      | none =>
        simp only [resume, found] at taken
        cases taken
        exact .skips reference loop found
      | some observation =>
        simp only [resume, found] at taken
        cases taken
        exact .looks reference loop observation found
    | _ => cases taken
  | _ => cases answer <;> cases taken

end ObservationProjectionService

namespace ProjectionStage

def Saves (pair : ObservationId × String) : ProjectionStage → Prop
  | .save _ reference => reference.pair = pair
  | _ => False

/-- Where a call of `project` can stand. -/
def Single (observation : Observation) (target : ExternalReference) : ProjectionStage → Prop
  | .get job | .publish job | .save job _ => job = ⟨observation, target, none⟩
  | .started | .returned _ | .raised _ => True
  | _ => False

theorem nextReference_saves (retried references : List HumanActivityReference) (job : Publishing)
    (reference : HumanActivityReference) :
    ObservationProjectionService.nextReference retried references ≠ .save job reference := by
  induction references with
  | nil => exact nofun
  | cons first rest ih =>
    unfold ObservationProjectionService.nextReference
    split
    · exact ih
    · exact nofun

theorem afterProject_saves (reference : HumanActivityReference) (loop : Option RetryLoop) (job : Publishing)
    (other : HumanActivityReference) : ObservationProjectionService.afterProject reference loop ≠ .save job other := by
  cases loop with
  | none => exact nofun
  | some loop => exact nextReference_saves _ _ job other

theorem job_of_saves {stage : ProjectionStage} {pair : ObservationId × String} (saves : stage.Saves pair) :
    ∃ job reference, stage = .save job reference ∧ reference.pair = pair := by
  cases stage with
  | save job reference => exact ⟨job, reference, rfl, saves⟩
  | _ => cases saves

end ProjectionStage

namespace ProjectionStores
variable (s : ProjectionStores) (pair : ObservationId × String)

def isPublished : Bool := (s.refs.get pair).any (·.status = .published)

def failed : List HumanActivityReference := s.refs.items.filter (·.status = .failed)

/-- How often the port returned that it published for the pair. -/
def publications : Nat := s.answers.countP fun reference => reference.pair = pair ∧ reference.status = .published

variable {s} {pair}

theorem isPublished_upsert (reference : HumanActivityReference) :
    isPublished { s with refs := s.refs.upsert reference } pair =
      if pair = reference.pair then decide (reference.status = .published) else s.isPublished pair := by
  unfold isPublished
  rw [Keyed.get_upsert]
  split <;> rfl

theorem publications_answer (reference : HumanActivityReference) :
    publications { s with answers := s.answers ++ [reference] } pair =
      s.publications pair + if reference.pair = pair ∧ reference.status = .published then 1 else 0 := by
  by_cases tells : reference.pair = pair ∧ reference.status = .published
  · simp [publications, tells]
  · rw [if_neg tells]
    simp only [publications, List.countP_append, List.countP_singleton, decide_eq_true_eq, if_neg tells]

theorem isPublished_iff : s.isPublished pair = true ↔ ∃ r ∈ s.refs.items, r.pair = pair ∧ r.status = .published := by
  unfold isPublished
  rw [Option.any_eq_true]
  constructor
  · rintro ⟨r, found, published⟩
    obtain ⟨stored, isPair⟩ := Keyed.get_eq_some.mp found
    exact ⟨r, stored, isPair, of_decide_eq_true published⟩
  · rintro ⟨r, stored, isPair, published⟩
    exact ⟨r, Keyed.get_eq_some.mpr ⟨stored, isPair⟩, decide_eq_true published⟩

end ProjectionStores

namespace ObservationProjectionService
variable {call : ProjectionCall} {answer : ProjectionAnswer} {stage stage' : ProjectionStage} {s s' : ProjectionStores}

theorem Projects.observations_same (projects : Projects call s answer stage stage' s') :
    s'.observations = s.observations := by
  cases projects <;> rfl

theorem Projects.stores (projects : Projects call s answer stage stage' s') :
    (s' = s ∧ ∀ job reference, stage' ≠ .save job reference) ∨
      (∃ job reference, stage = .publish job ∧ answer = .returns reference ∧ stage' = .save job reference ∧
        s' = { s with answers := s.answers ++ [reference] }) ∨
      ∃ job reference, stage = .save job reference ∧ stage' = afterProject reference job.loop ∧
        s' = { s with refs := s.refs.upsert reference } := by
  cases projects with
  | answers job reference => exact Or.inr (Or.inl ⟨job, reference, rfl, rfl, rfl, rfl⟩)
  | saves job reference => exact Or.inr (Or.inr ⟨job, reference, rfl, rfl, rfl⟩)
  | lists => exact Or.inl ⟨rfl, ProjectionStage.nextReference_saves _ _⟩
  | skips => exact Or.inl ⟨rfl, ProjectionStage.nextReference_saves _ _⟩
  | _ => exact Or.inl ⟨rfl, fun _ _ saves => by cases saves⟩

theorem Projects.single {observation : Observation} {target : ExternalReference} (projects : Projects call s answer stage stage' s')
    (isCall : call = .project observation target) (single : stage.Single observation target) :
    stage'.Single observation target := by
  subst isCall
  cases projects with
  | projects other target' isCall => cases isCall; rfl
  | retries limit isCall => cases isCall
  | lists limit isCall => cases isCall
  | skips => cases single
  | looks => cases single
  | saves job reference => cases single; trivial
  | reuses => trivial
  | raises => trivial
  | asks job => exact single
  | answers job reference => exact single

end ObservationProjectionService

/-! ### Runs -/

namespace ProjectionTasks
open ObservationProjectionService (Projects)
variable {ι : Type} {calls : ι → ProjectionCall} {tasks tasks' : ProjectionTasks ι}

/-- The port answers about what it was asked; the pair is not published, no other
answer for it waits to be saved, and the observation is stored. -/
structure Allowed (tasks : ProjectionTasks ι) (job : Publishing) (answer : ProjectionAnswer) : Prop where
  answered : ∃ reference, answer = .returns reference ∧ job.Answered reference
  unpublished : tasks.shared.isPublished job.pair = false
  alone : ∀ j, ¬ (tasks.state j).Saves job.pair
  stored : ∃ o ∈ tasks.shared.observations.items, o.id = job.observation.id

def Guarded (tasks : ProjectionTasks ι) (turn : ι × ProjectionAnswer) : Prop :=
  ∀ job, tasks.state turn.1 = .publish job → Allowed tasks job turn.2

/-- A reference from which its publication can be tried again. -/
structure Repeatable (s : ProjectionStores) (reference : HumanActivityReference) : Prop where
  provider : reference.provider = reference.target.provider
  status : reference.status = .published ∨ reference.status = .failed
  stored : ∃ o ∈ s.observations.items, o.id = reference.observationId

/-- What the guarded runs keep. -/
structure Safe (calls : ι → ProjectionCall) (tasks : ProjectionTasks ι) : Prop where
  saving : ∀ pair, Once (fun i => (tasks.state i).Saves pair) (tasks.shared.isPublished pair).toNat
  answered : ∀ i job reference, tasks.state i = .save job reference →
    job.Answered reference ∧ Repeatable tasks.shared reference
  once : ∀ pair, tasks.shared.publications pair ≤ 1
  published : ∀ pair, tasks.shared.publications pair ≠ 0 → tasks.shared.isPublished pair = true ∨
    ∃ i job reference, tasks.state i = .save job reference ∧ reference.pair = pair ∧ reference.status = .published
  repeatable : ∀ reference ∈ tasks.shared.refs.items, Repeatable tasks.shared reference
  single : ∀ i observation target, calls i = .project observation target → (tasks.state i).Single observation target
  returned : ∀ i observation target, calls i = .project observation target → ∀ reference,
    tasks.state i = .returned reference → ∃ kept ∈ tasks.shared.refs.items, kept.pair = (observation.id, target.provider)

theorem safe_start (observations : Keyed Observation.id) : Safe calls (start observations) where
  saving := fun pair => .never fun i saves => saves
  answered := fun i job reference saves => by cases saves
  once := fun pair => Nat.zero_le 1
  published := fun pair published => absurd rfl published
  repeatable := fun reference stored => by cases stored
  single := fun i observation target isCall => trivial
  returned := fun i observation target isCall reference returned => by cases returned

/-- What is published stays as it is. -/
def Keeps (tasks tasks' : ProjectionTasks ι) : Prop :=
  ∀ reference ∈ tasks.shared.refs.items, reference.status = .published → reference ∈ tasks'.shared.refs.items

section Move
variable [DecidableEq ι] {i : ι} {answer : ProjectionAnswer} {next : ProjectionStage} {shared : ProjectionStores}
  (safe : Safe calls tasks) (guarded : Guarded tasks (i, answer))
  (projects : Projects (calls i) tasks.shared answer (tasks.state i) next shared)

include safe in
omit [DecidableEq ι] in
theorem unpublished_of_saves {job : Publishing} {reference : HumanActivityReference}
    (saves : tasks.state i = .save job reference) : tasks.shared.isPublished reference.pair = false := by
  have undone := (safe.saving reference.pair).undone i (by rw [saves]; rfl)
  cases published : tasks.shared.isPublished reference.pair with
  | false => rfl
  | true => rw [published] at undone; cases undone

include safe projects

omit [DecidableEq ι] in
theorem keeps_move (reference : HumanActivityReference) (stored : reference ∈ tasks.shared.refs.items)
    (published : reference.status = .published) : reference ∈ shared.refs.items := by
  rcases projects.stores with ⟨rfl, _⟩ | ⟨job, other, _, _, _, rfl⟩ | ⟨job, other, saves, _, rfl⟩
  · exact stored
  · exact stored
  · refine Keyed.mem_upsert.mpr (Or.inr ⟨stored, fun same => ?_⟩)
    have free := unpublished_of_saves safe saves
    rw [← same] at free
    rw [ProjectionStores.isPublished_iff.mpr ⟨reference, stored, rfl, published⟩] at free
    cases free

omit [DecidableEq ι] safe in
theorem pair_kept {pair : ObservationId × String} (stored : ∃ kept ∈ tasks.shared.refs.items, kept.pair = pair) :
    ∃ kept ∈ shared.refs.items, kept.pair = pair := by
  rcases projects.stores with ⟨rfl, _⟩ | ⟨job, other, _, _, _, rfl⟩ | ⟨job, other, saves, _, rfl⟩
  · exact stored
  · exact stored
  · obtain ⟨kept, listed, isPair⟩ := stored
    by_cases same : kept.pair = other.pair
    · exact ⟨other, Keyed.mem_upsert_self .., same.symm.trans isPair⟩
    · exact ⟨kept, Keyed.mem_upsert.mpr (Or.inr ⟨listed, same⟩), isPair⟩

omit [DecidableEq ι] in
theorem repeatable_move (reference : HumanActivityReference) (stored : reference ∈ shared.refs.items) :
    Repeatable shared reference := by
  have before (old : Repeatable tasks.shared reference) : Repeatable shared reference :=
    ⟨old.provider, old.status, by rw [projects.observations_same]; exact old.stored⟩
  apply before
  rcases projects.stores with ⟨rfl, _⟩ | ⟨job, other, _, _, _, rfl⟩ | ⟨job, other, saves, _, rfl⟩
  · exact safe.repeatable reference stored
  · exact safe.repeatable reference stored
  · rcases Keyed.mem_upsert.mp stored with rfl | ⟨old, _⟩
    · exact (safe.answered i job reference saves).2
    · exact safe.repeatable reference old

theorem single_move (j : ι) (observation : Observation) (target : ExternalReference)
    (isCall : calls j = .project observation target) : ((tasks.move i next shared).state j).Single observation target := by
  by_cases moved : j = i
  · subst moved
    rw [Tasks.state_move_self]
    exact projects.single isCall (safe.single j observation target isCall)
  · rw [Tasks.state_move_other moved]
    exact safe.single j observation target isCall

theorem returned_move (j : ι) (observation : Observation) (target : ExternalReference)
    (isCall : calls j = .project observation target) (reference : HumanActivityReference)
    (returned : (tasks.move i next shared).state j = .returned reference) :
    ∃ kept ∈ shared.refs.items, kept.pair = (observation.id, target.provider) := by
  by_cases moved : j = i
  · subst moved
    rw [Tasks.state_move_self] at returned
    subst returned
    have single := safe.single j observation target isCall
    generalize here : tasks.state j = stage at projects single
    generalize there : ProjectionStage.returned reference = stage' at projects
    cases projects with
    | reuses job existing found isSingle =>
      obtain rfl := single
      obtain ⟨stored, isPair⟩ := Keyed.get_eq_some.mp found
      exact ⟨existing, stored, isPair⟩
    | saves job other =>
      obtain rfl := single
      exact ⟨other, Keyed.mem_upsert_self .., (safe.answered j _ other here).1.pair⟩
    | lists limit isCall' => rw [isCall] at isCall'; cases isCall'
    | skips => cases single
    | _ => cases there
  · rw [Tasks.state_move_other moved] at returned
    exact pair_kept projects (safe.returned j observation target isCall reference returned)

include guarded

theorem saving_move (pair : ObservationId × String) :
    Once (fun j => ((tasks.move i next shared).state j).Saves pair) (shared.isPublished pair).toNat := by
  have once := safe.saving pair
  rcases projects.stores with ⟨rfl, silent⟩ | ⟨job, reference, asks, rfl, rfl, rfl⟩ | ⟨job, reference, saves, rfl, rfl⟩
  · refine once.move_drops (fun _ => ProjectionStage.Saves pair) fun again => ?_
    obtain ⟨job, reference, saves, _⟩ := ProjectionStage.job_of_saves again
    exact absurd saves (silent job reference)
  · have allowed := guarded job asks
    obtain ⟨_, isAnswer, answered⟩ := allowed.answered
    obtain rfl := ProjectionAnswer.returns.inj isAnswer
    by_cases own : job.pair = pair
    · subst own
      refine Once.move_takes (fun _ => ProjectionStage.Saves job.pair) ?_ allowed.alone
      show (tasks.shared.isPublished job.pair).toNat = 0
      rw [allowed.unpublished]
      rfl
    · refine once.move_drops (fun _ => ProjectionStage.Saves pair) fun again => ?_
      exact absurd (answered.pair.symm.trans again) own
  · have silent : ¬ (ObservationProjectionService.afterProject reference job.loop).Saves pair := by
      intro again
      obtain ⟨job', reference', saves', _⟩ := ProjectionStage.job_of_saves again
      exact ProjectionStage.afterProject_saves _ _ job' reference' saves'
    rw [ProjectionStores.isPublished_upsert]
    by_cases own : pair = reference.pair
    · subst own
      rw [if_pos rfl]
      rw [unpublished_of_saves safe saves] at once
      by_cases published : reference.status = .published
      · rw [decide_eq_true published]
        exact once.move_does (fun _ => ProjectionStage.Saves reference.pair) (by rw [saves]; rfl) silent
      · rw [decide_eq_false published]
        exact once.move_drops (fun _ => ProjectionStage.Saves reference.pair) fun again => absurd again silent
    · rw [if_neg own]
      exact once.move_drops (fun _ => ProjectionStage.Saves pair) fun again => absurd again silent

theorem answered_move (j : ι) (job : Publishing) (reference : HumanActivityReference)
    (saves : (tasks.move i next shared).state j = .save job reference) :
    job.Answered reference ∧ Repeatable shared reference := by
  have same := projects.observations_same
  have before (old : job.Answered reference ∧ Repeatable tasks.shared reference) :
      job.Answered reference ∧ Repeatable shared reference :=
    ⟨old.1, old.2.provider, old.2.status, by rw [same]; exact old.2.stored⟩
  apply before
  by_cases moved : j = i
  · subst moved
    rw [Tasks.state_move_self] at saves
    rcases projects.stores with ⟨_, silent⟩ | ⟨job', other, asks, rfl, isSave, _⟩ | ⟨job', other, _, isNext, _⟩
    · exact absurd saves (silent job reference)
    · obtain ⟨rfl, rfl⟩ := ProjectionStage.save.inj (isSave.symm.trans saves)
      have allowed := guarded job' asks
      obtain ⟨_, isAnswer, answered⟩ := allowed.answered
      obtain rfl := ProjectionAnswer.returns.inj isAnswer
      refine ⟨answered, ?_, answered.status, ?_⟩
      · rw [answered.provider, answered.target]
      · rw [answered.observation]
        exact allowed.stored
    · exact absurd (isNext.symm.trans saves) (ProjectionStage.afterProject_saves _ _ job reference)
  · rw [Tasks.state_move_other moved] at saves
    exact safe.answered j job reference saves

omit [DecidableEq ι] in
theorem once_move (pair : ObservationId × String) : shared.publications pair ≤ 1 := by
  have once := safe.once pair
  rcases projects.stores with ⟨rfl, _⟩ | ⟨job, reference, asks, rfl, rfl, rfl⟩ | ⟨job, reference, saves, _, rfl⟩
  · exact once
  · have allowed := guarded job asks
    obtain ⟨_, isAnswer, answered⟩ := allowed.answered
    obtain rfl := ProjectionAnswer.returns.inj isAnswer
    rw [ProjectionStores.publications_answer]
    by_cases tells : reference.pair = pair ∧ reference.status = .published
    · have never : tasks.shared.publications pair = 0 := by
        refine Decidable.byContradiction fun before => ?_
        have own : job.pair = pair := answered.pair.symm.trans tells.1
        rcases safe.published pair before with published | ⟨j, _, other, saves, isPair, _⟩
        · rw [← own, allowed.unpublished] at published
          cases published
        · exact allowed.alone j (by rw [saves]; exact isPair.trans own.symm)
      rw [if_pos tells]
      omega
    · rw [if_neg tells]
      exact once
  · exact once

theorem published_move (pair : ObservationId × String) (told : shared.publications pair ≠ 0) :
    shared.isPublished pair = true ∨ ∃ j job reference, (tasks.move i next shared).state j = .save job reference ∧
      reference.pair = pair ∧ reference.status = .published := by
  have before (told : tasks.shared.publications pair ≠ 0) (same : shared.refs = tasks.shared.refs)
      (waits : ∀ job reference, tasks.state i ≠ .save job reference) :
      shared.isPublished pair = true ∨ ∃ j job reference, (tasks.move i next shared).state j = .save job reference ∧
        reference.pair = pair ∧ reference.status = .published := by
    rcases safe.published pair told with published | ⟨j, job, reference, saves, isPublication⟩
    · refine Or.inl ?_
      rwa [ProjectionStores.isPublished, same]
    · have other : j ≠ i := by
        rintro rfl
        exact waits job reference saves
      exact Or.inr ⟨j, job, reference, by rwa [Tasks.state_move_other other], isPublication⟩
  generalize here : tasks.state i = stage at projects
  cases projects with
  | answers job reference =>
    by_cases tells : reference.pair = pair ∧ reference.status = .published
    · exact Or.inr ⟨i, job, reference, Tasks.state_move_self, tells⟩
    · rw [ProjectionStores.publications_answer, if_neg tells] at told
      exact before told rfl fun _ _ saves => by rw [here] at saves; cases saves
  | saves job reference =>
    have told : tasks.shared.publications pair ≠ 0 := told
    rw [ProjectionStores.isPublished_upsert]
    by_cases own : pair = reference.pair
    · subst own
      rw [if_pos rfl]
      refine Or.inl (decide_eq_true ?_)
      rcases safe.published reference.pair told with published | ⟨j, job', other, saves, isPair, isPublished⟩
      · rw [unpublished_of_saves safe here] at published
        cases published
      · have same := (safe.saving reference.pair).one j i (by rw [saves]; exact isPair) (by rw [here]; rfl)
        subst same
        obtain ⟨_, rfl⟩ := ProjectionStage.save.inj (saves.symm.trans here)
        exact isPublished
    · rw [if_neg own]
      rcases safe.published pair told with published | ⟨j, job', other, saves, isPair, isPublished⟩
      · exact Or.inl published
      · have different : j ≠ i := by
          rintro rfl
          obtain ⟨_, rfl⟩ := ProjectionStage.save.inj (saves.symm.trans here)
          exact own isPair.symm
        exact Or.inr ⟨j, job', other, by rwa [Tasks.state_move_other different], isPair, isPublished⟩
  | _ => exact before told rfl fun _ _ saves => by rw [here] at saves; cases saves

theorem safe_move : Safe calls (tasks.move i next shared) where
  saving := saving_move safe guarded projects
  answered := answered_move safe guarded projects
  once := once_move safe guarded projects
  published := published_move safe guarded projects
  repeatable := repeatable_move safe projects
  single := single_move safe projects
  returned := returned_move safe projects

end Move

section Steps
variable [DecidableEq ι]

theorem safe_step (tasks : ProjectionTasks ι) (turn : ι × ProjectionAnswer) (tasks' : ProjectionTasks ι)
    (safe : Safe calls tasks) (guarded : Guarded tasks turn) (taken : step calls tasks turn = some tasks') :
    Safe calls tasks' := by
  obtain ⟨i, answer⟩ := turn
  obtain ⟨next, shared, moved, rfl⟩ := Tasks.turn_eq_some.mp taken
  exact safe_move safe guarded (ObservationProjectionService.resume_projects moved)

theorem keeps_step (tasks : ProjectionTasks ι) (turn : ι × ProjectionAnswer) (tasks' : ProjectionTasks ι)
    (safe : Safe calls tasks) (taken : step calls tasks turn = some tasks') : Keeps tasks tasks' := by
  obtain ⟨i, answer⟩ := turn
  obtain ⟨next, shared, moved, rfl⟩ := Tasks.turn_eq_some.mp taken
  exact keeps_move safe (ObservationProjectionService.resume_projects moved)

end Steps

/-! ### Retries -/

def Pending (reference : HumanActivityReference) : ProjectionStage → Prop
  | .getObservation first loop => reference = first ∨ reference ∈ loop.rest
  | .get job | .publish job | .save job _ => ∃ loop, job.loop = some loop ∧ (job.pair = reference.pair ∨ reference ∈ loop.rest)
  | _ => False

theorem pending_nextReference (retried : List HumanActivityReference) {reference : HumanActivityReference}
    {references : List HumanActivityReference} (member : reference ∈ references) (failed : reference.status = .failed) :
    Pending reference (ObservationProjectionService.nextReference retried references) := by
  induction references with
  | nil => cases member
  | cons first rest ih =>
    unfold ObservationProjectionService.nextReference
    split
    · rename_i other
      rcases List.mem_cons.mp member with rfl | later
      · exact absurd failed other
      · exact ih later
    · exact List.mem_cons.mp member

theorem lastOf_nonempty {α : Type} {limit : Int} (positive : 0 ≤ limit) {entries : List α} (some : entries ≠ []) :
    lastOf limit entries ≠ [] := by
  have length := List.length_pos_iff.mpr some
  apply List.ne_nil_of_length_pos
  unfold lastOf
  split
  · rw [List.length_drop]
    omega
  · rw [List.length_drop]
    omega

theorem mem_of_mem_lastOf {α : Type} {limit : Int} {entries : List α} {a : α} (member : a ∈ lastOf limit entries) :
    a ∈ entries := by
  unfold lastOf at member
  split at member <;> exact List.mem_of_mem_drop member

/-- Nothing but successes wait to be saved. -/
def Working (tasks : ProjectionTasks ι) : Prop :=
  ∀ i job reference, tasks.state i = .save job reference → reference.status = .published

def Publishes (turn : ι × ProjectionAnswer) : Prop :=
  ∀ reference, turn.2 = .returns reference → reference.status = .published

/-- How far call `i` is with a round of retries that began in a state with the
failed references `failed`. -/
structure Underway (failed : List HumanActivityReference) (i : ι) (tasks : ProjectionTasks ι) : Prop where
  working : Working tasks
  fewer : ∀ reference ∈ tasks.shared.failed, reference ∈ failed
  progress : tasks.state i = .started ∨ tasks.state i = .listFailed ∨ tasks.shared.failed = [] ∨
    ∃ reference ∈ failed, tasks.shared.isPublished reference.pair = true ∨
      Pending reference (tasks.state i) ∧ reference.status = .failed ∧ Repeatable tasks.shared reference

section Round
variable {i : ι} {answer : ProjectionAnswer} {next : ProjectionStage} {shared : ProjectionStores}
  (safe : Safe calls tasks) (guarded : Guarded tasks (i, answer)) (working : Working tasks)
  (projects : Projects (calls i) tasks.shared answer (tasks.state i) next shared)

include working projects in
theorem failed_move (reference : HumanActivityReference) (failed : reference ∈ shared.failed) :
    reference ∈ tasks.shared.failed := by
  rcases projects.stores with ⟨rfl, _⟩ | ⟨job, other, _, _, _, rfl⟩ | ⟨job, other, saves, _, rfl⟩
  · exact failed
  · exact failed
  · obtain ⟨stored, isFailed⟩ := List.mem_filter.mp failed
    rcases Keyed.mem_upsert.mp stored with rfl | ⟨old, _⟩
    · have published := working i job reference saves
      simp [published] at isFailed
    · exact List.mem_filter.mpr ⟨old, isFailed⟩

include projects in
theorem working_move [DecidableEq ι] (working : Working tasks) (publishes : Publishes (i, answer)) :
    Working (tasks.move i next shared) := by
  intro j job reference saves
  by_cases moved : j = i
  · rw [moved, Tasks.state_move_self] at saves
    subst saves
    rcases projects.stores with ⟨_, silent⟩ | ⟨job', other, _, rfl, isSave, _⟩ | ⟨job', other, _, isNext, _⟩
    · exact absurd rfl (silent job reference)
    · obtain ⟨_, rfl⟩ := ProjectionStage.save.inj isSave
      exact publishes reference rfl
    · exact absurd isNext.symm (ProjectionStage.afterProject_saves _ _ job reference)
  · rw [Tasks.state_move_other moved] at saves
    exact working j job reference saves

include safe guarded working projects in
theorem pending_move {reference : HumanActivityReference} (pending : Pending reference (tasks.state i))
    (failed : reference.status = .failed) (repeatable : Repeatable tasks.shared reference) :
    shared.isPublished reference.pair = true ∨ Pending reference next := by
  generalize here : tasks.state i = stage at projects pending
  cases projects with
  | projects | retries | lists => cases pending
  | skips first loop absent =>
    rcases pending with rfl | later
    · obtain ⟨o, stored, isId⟩ := repeatable.stored
      exact absurd isId (Keyed.get_eq_none.mp absent o stored)
    · exact Or.inr (pending_nextReference _ later failed)
  | looks first loop observation found =>
    rcases pending with rfl | later
    · refine Or.inr ⟨loop, rfl, Or.inl ?_⟩
      exact Prod.ext (Keyed.get_eq_some.mp found).2 repeatable.provider.symm
    · exact Or.inr ⟨loop, rfl, Or.inr later⟩
  | reuses job existing found single =>
    obtain ⟨loop, isLoop, _⟩ := pending
    rw [single] at isLoop
    cases isLoop
  | asks job => exact Or.inr pending
  | answers job other => exact Or.inr pending
  | raises job exception =>
    obtain ⟨other, isAnswer, _⟩ := (guarded job here).answered
    cases isAnswer
  | saves job other =>
    obtain ⟨loop, isLoop, isNow | later⟩ := pending
    · refine Or.inl ?_
      have own : reference.pair = other.pair := isNow.symm.trans (safe.answered i job other here).1.pair.symm
      rw [ProjectionStores.isPublished_upsert, if_pos own]
      exact decide_eq_true (working i job other here)
    · rw [isLoop]
      exact Or.inr (pending_nextReference _ later failed)

include safe projects in
theorem isPublished_move {pair : ObservationId × String} (published : tasks.shared.isPublished pair = true) :
    shared.isPublished pair = true := by
  obtain ⟨reference, stored, isPair, isPublished⟩ := ProjectionStores.isPublished_iff.mp published
  exact ProjectionStores.isPublished_iff.mpr ⟨reference, keeps_move safe projects reference stored isPublished, isPair, isPublished⟩

include projects in
theorem lists_move {limit : Int} (isCall : calls i = .retryFailed limit) (positive : 0 ≤ limit)
    (lists : tasks.state i = .listFailed) :
    shared.failed = [] ∨ ∃ reference ∈ tasks.shared.failed, Pending reference next := by
  generalize tasks.state i = stage at projects lists
  subst lists
  cases projects with
  | lists other isOther =>
    obtain rfl := ProjectionCall.retryFailed.inj (isOther.symm.trans isCall)
    cases listed : tasks.shared.listFailed other with
    | nil =>
      refine Or.inl (Decidable.byContradiction fun some => ?_)
      exact lastOf_nonempty positive some listed
    | cons first rest =>
      have member : first ∈ tasks.shared.failed := by
        have inList : first ∈ tasks.shared.listFailed other := by
          rw [listed]
          exact List.mem_cons_self ..
        exact mem_of_mem_lastOf inList
      have failed : first.status = .failed := by simpa using (List.mem_filter.mp member).2
      exact Or.inr ⟨first, member, pending_nextReference [] (List.mem_cons_self ..) failed⟩

include safe guarded projects in
theorem progress_move [DecidableEq ι] {j : ι} {limit : Int} {failed : List HumanActivityReference}
    (isCall : calls j = .retryFailed limit) (positive : 0 ≤ limit) (underway : Underway failed j tasks) :
    (tasks.move i next shared).state j = .started ∨ (tasks.move i next shared).state j = .listFailed ∨
      shared.failed = [] ∨ ∃ reference ∈ failed, shared.isPublished reference.pair = true ∨
        Pending reference ((tasks.move i next shared).state j) ∧ reference.status = .failed ∧ Repeatable shared reference := by
  have repeats {reference : HumanActivityReference} (old : Repeatable tasks.shared reference) : Repeatable shared reference :=
    ⟨old.provider, old.status, by rw [projects.observations_same]; exact old.stored⟩
  rcases underway.progress with begins | lists | none | ⟨reference, listed, published | ⟨pending, isFailed, old⟩⟩
  · by_cases moved : j = i
    · subst moved
      rw [Tasks.state_move_self]
      refine Or.inr (Or.inl ?_)
      generalize tasks.state j = stage at projects begins
      subst begins
      cases projects with
      | projects observation target isProject => rw [isCall] at isProject; cases isProject
      | retries => rfl
    · rw [Tasks.state_move_other moved]
      exact Or.inl begins
  · by_cases moved : j = i
    · subst moved
      rw [Tasks.state_move_self]
      rcases lists_move projects isCall positive lists with none | ⟨reference, stored, pending⟩
      · exact Or.inr (Or.inr (Or.inl none))
      · obtain ⟨inRefs, isFailed⟩ := List.mem_filter.mp stored
        exact Or.inr (Or.inr (Or.inr ⟨reference, underway.fewer reference stored,
          Or.inr ⟨pending, of_decide_eq_true isFailed, repeats (safe.repeatable reference inRefs)⟩⟩))
    · rw [Tasks.state_move_other moved]
      exact Or.inr (Or.inl lists)
  · have still : shared.failed = [] := by
      refine List.eq_nil_iff_forall_not_mem.mpr fun reference failed => ?_
      have before := failed_move underway.working projects reference failed
      rw [none] at before
      cases before
    exact Or.inr (Or.inr (Or.inl still))
  · exact Or.inr (Or.inr (Or.inr ⟨reference, listed, Or.inl (isPublished_move safe projects published)⟩))
  · refine Or.inr (Or.inr (Or.inr ⟨reference, listed, ?_⟩))
    by_cases moved : j = i
    · subst moved
      rw [Tasks.state_move_self]
      rcases pending_move safe guarded underway.working projects pending isFailed old with published | still
      · exact Or.inl published
      · exact Or.inr ⟨still, isFailed, repeats old⟩
    · rw [Tasks.state_move_other moved]
      exact Or.inr ⟨pending, isFailed, repeats old⟩

end Round

variable [DecidableEq ι]

variable {turns : List (ι × ProjectionAnswer)}

theorem underway_run {j : ι} {limit : Int} {failed : List HumanActivityReference}
    (isCall : calls j = .retryFailed limit) (positive : 0 ≤ limit) (publishes : ∀ turn ∈ turns, Publishes turn)
    (along : Runs.Along (step calls) Guarded turns tasks) (safe : Safe calls tasks) (underway : Underway failed j tasks)
    (run : Runs.after (step calls) turns tasks = some tasks') : Underway failed j tasks' ∧ Safe calls tasks' := by
  induction turns generalizing tasks with
  | nil =>
    cases run
    exact ⟨underway, safe⟩
  | cons turn turns ih =>
    obtain ⟨mid, taken, onward⟩ := Runs.after_cons.mp run
    obtain ⟨guarded, rest⟩ := along mid taken
    have safe' := safe_step tasks turn mid safe guarded taken
    refine ih (fun other later => publishes other (List.mem_cons_of_mem _ later)) rest safe' ?_ onward
    obtain ⟨i, answer⟩ := turn
    obtain ⟨next, shared, moved, rfl⟩ := Tasks.turn_eq_some.mp taken
    have projects := ObservationProjectionService.resume_projects moved
    refine ⟨?_, ?_, ?_⟩
    · exact working_move projects underway.working (publishes (i, answer) (List.mem_cons_self ..))
    · intro reference stays
      exact underway.fewer reference (failed_move underway.working projects reference stays)
    · exact progress_move safe guarded projects isCall positive underway

/-- A round of a run: a call of `retry_failed` begins and ends in it while the
port publishes what it is asked for. -/
structure Round (calls : ι → ProjectionCall) (turns : List (ι × ProjectionAnswer)) (tasks tasks' : ProjectionTasks ι) :
    Prop where
  run : Runs.after (step calls) turns tasks = some tasks'
  publishes : ∀ turn ∈ turns, Publishes turn
  retry : ∃ i limit references, calls i = .retryFailed limit ∧ 0 ≤ limit ∧ tasks.state i = .started ∧
    tasks'.state i = .retried references

theorem nodup_failed (s : ProjectionStores) : s.failed.Nodup :=
  (List.Nodup.of_map _ s.refs.nodup).filter _

theorem Round.fewer (round : Round calls turns tasks tasks') (along : Runs.Along (step calls) Guarded turns tasks)
    (safe : Safe calls tasks) (working : Working tasks) :
    Working tasks' ∧ (tasks'.shared.failed = [] ∨ tasks'.shared.failed.length < tasks.shared.failed.length) := by
  obtain ⟨j, limit, references, isCall, positive, begins, ends⟩ := round.retry
  have underway : Underway tasks.shared.failed j tasks := ⟨working, fun _ member => member, Or.inl begins⟩
  obtain ⟨after, safe'⟩ := underway_run isCall positive round.publishes along safe underway round.run
  refine ⟨after.working, ?_⟩
  rcases after.progress with starts | lists | none | ⟨reference, listed, published | ⟨pending, _⟩⟩
  · rw [ends] at starts
    cases starts
  · rw [ends] at lists
    cases lists
  · exact Or.inl none
  · have gone : reference ∉ tasks'.shared.failed := by
      intro still
      obtain ⟨stored, isFailed⟩ := List.mem_filter.mp still
      obtain ⟨other, stored', isPair, isPublished⟩ := ProjectionStores.isPublished_iff.mp published
      have same := tasks'.shared.refs.key_injective stored' stored isPair
      subst same
      simp [isPublished] at isFailed
    have subset : reference :: tasks'.shared.failed ⊆ tasks.shared.failed :=
      List.cons_subset.mpr ⟨listed, fun other member => after.fewer other member⟩
    have nodup : (reference :: tasks'.shared.failed).Nodup := List.nodup_cons.mpr ⟨gone, nodup_failed _⟩
    exact Or.inr (List.subperm_of_subset nodup subset).length_le
  · rw [ends] at pending
    cases pending

inductive Rounds (calls : ι → ProjectionCall) :
    List (List (ι × ProjectionAnswer)) → ProjectionTasks ι → ProjectionTasks ι → Prop
  | nil (tasks : ProjectionTasks ι) : Rounds calls [] tasks tasks
  | cons {turns : List (ι × ProjectionAnswer)} {rounds : List (List (ι × ProjectionAnswer))}
      {tasks mid tasks' : ProjectionTasks ι} (round : Round calls turns tasks mid) (rest : Rounds calls rounds mid tasks') :
      Rounds calls (turns :: rounds) tasks tasks'

theorem safe_run (along : Runs.Along (step calls) Guarded turns tasks) (safe : Safe calls tasks)
    (run : Runs.after (step calls) turns tasks = some tasks') : Safe calls tasks' :=
  (along.throughout safe_step safe).last run

theorem Rounds.recovered {rounds : List (List (ι × ProjectionAnswer))} (retries : Rounds calls rounds tasks tasks')
    (along : Runs.Along (step calls) Guarded rounds.flatten tasks) (safe : Safe calls tasks) (working : Working tasks)
    (enough : tasks.shared.failed.length ≤ rounds.length) : tasks'.shared.failed = [] ∧ Safe calls tasks' := by
  induction retries with
  | nil tasks => exact ⟨List.eq_nil_of_length_eq_zero (Nat.le_zero.mp enough), safe⟩
  | cons round rest ih =>
    rw [List.flatten_cons] at along
    obtain ⟨working', less⟩ := round.fewer along.first safe working
    apply ih (along.rest round.run) (safe_run along.first safe round.run) working'
    rw [List.length_cons] at enough
    rcases less with none | less
    · rw [none]
      exact Nat.zero_le _
    · omega

/-- Along a run of guarded steps nothing is published twice, what is published
stays so, and rounds of retries publish what the calls of `project` could not. -/
theorem publications_kept (calls : ι → ProjectionCall) (observations : Keyed Observation.id)
    (turns : List (ι × ProjectionAnswer)) (along : Runs.Along (step calls) Guarded turns (start observations)) :
    Runs.Throughout (step calls) (fun tasks => ∀ pair, tasks.shared.publications pair ≤ 1) turns (start observations) ∧
      Runs.Moving (step calls) Keeps turns (start observations) ∧
      ∀ early rounds tasks tasks', turns = early ++ rounds.flatten →
        Runs.after (step calls) early (start observations) = some tasks → Working tasks → Rounds calls rounds tasks tasks' →
        tasks.shared.failed.length ≤ rounds.length →
          tasks'.shared.failed = [] ∧ ∀ i observation target, calls i = .project observation target → ∀ reference,
            tasks'.state i = .returned reference → tasks'.shared.isPublished (observation.id, target.provider) = true := by
  have start := @safe_start ι calls observations
  refine ⟨?_, ?_, ?_⟩
  · exact (along.throughout safe_step start).mono fun tasks safe => safe.once
  · exact along.moving safe_step (fun tasks turn tasks' safe _ taken => keeps_step tasks turn tasks' safe taken) start
  · intro early rounds tasks tasks' isRun run working retries enough
    subst isRun
    have safe := safe_run along.first start run
    obtain ⟨none, safe'⟩ := retries.recovered (along.rest run) safe working enough
    refine ⟨none, fun i observation target isCall reference returned => ?_⟩
    obtain ⟨kept, stored, isPair⟩ := safe'.returned i observation target isCall reference returned
    refine ProjectionStores.isPublished_iff.mpr ⟨kept, stored, isPair, ?_⟩
    rcases (safe'.repeatable kept stored).status with published | failed
    · exact published
    · have listed : kept ∈ tasks'.shared.failed := List.mem_filter.mpr ⟨stored, decide_eq_true failed⟩
      rw [none] at listed
      cases listed

def finding : Observation := { id := .v4 0, projectId := .v4 1, observationType := .blocker, title := "t" }

def findings : Keyed Observation.id := ⟨[finding], List.nodup_singleton _⟩

def workPackage : ExternalReference := { provider := "openproject", externalId := "42" }

def activity (status : ProjectionStatus) : HumanActivityReference :=
  { id := .v4 2, observationId := .v4 0, provider := "openproject", target := workPackage, status }

def projectAndRetry : Bool → ProjectionCall
  | false => .project finding workPackage
  | true => .retryFailed 100

def failing : List (Bool × ProjectionAnswer) :=
  [(false, .done), (false, .done), (false, .returns (activity .failed)), (false, .done)]

def retrying : List (Bool × ProjectionAnswer) :=
  [(true, .done), (true, .done), (true, .done), (true, .done), (true, .returns (activity .published)), (true, .done)]

/-- A publication fails and a retry publishes it. -/
theorem publications_kept_retried : ∃ tasks tasks' : ProjectionTasks Bool,
    Runs.after (step projectAndRetry) failing (start findings) = some tasks ∧
      Rounds projectAndRetry [retrying] tasks tasks' ∧ tasks'.shared.isPublished (.v4 0, "openproject") = true := by
  have along : Runs.Along (step projectAndRetry) Guarded (failing ++ [retrying].flatten) (start findings) := by
    refine .cons rfl ?_ (.cons rfl ?_ (.cons rfl ?_ (.cons rfl ?_ (.cons rfl ?_ (.cons rfl ?_ (.cons rfl ?_ (.cons rfl ?_
      (.cons rfl ?_ (.cons rfl ?_ trivial)))))))))
    case refine_3 =>
      intro job isPublish
      cases isPublish
      exact ⟨⟨_, rfl, rfl, rfl, rfl, Or.inr rfl⟩, rfl, fun j => by cases j <;> exact id, finding, by decide, rfl⟩
    case refine_9 =>
      intro job isPublish
      cases isPublish
      exact ⟨⟨_, rfl, rfl, rfl, rfl, Or.inl rfl⟩, rfl, fun j => by cases j <;> exact id, finding, by decide, rfl⟩
    all_goals intro job isPublish; cases isPublish
  have runs : ∃ tasks tasks' : ProjectionTasks Bool,
      Runs.after (step projectAndRetry) failing (start findings) = some tasks ∧
        Runs.after (step projectAndRetry) retrying tasks = some tasks' ∧ tasks.state true = .started ∧
        (∀ i, tasks.state i = .started ∨ tasks.state i = .returned (activity .failed)) ∧
        tasks.shared.failed.length = 1 ∧ tasks'.state true = .retried [activity .published] ∧
        tasks'.state false = .returned (activity .failed) :=
    ⟨_, _, rfl, rfl, rfl, fun i => by cases i; exact Or.inr rfl; exact Or.inl rfl, rfl, rfl, rfl⟩
  obtain ⟨tasks, tasks', run, run', begins, quiet, one, ends, returned⟩ := runs
  have publishes : ∀ turn ∈ retrying, Publishes turn := by simp [retrying, Publishes, activity]
  have round : Round projectAndRetry retrying tasks tasks' :=
    ⟨run', publishes, true, 100, _, rfl, by decide, begins, ends⟩
  have working : Working tasks := by
    intro i job reference saves
    rcases quiet i with starts | failed
    · rw [starts] at saves
      cases saves
    · rw [failed] at saves
      cases saves
  have kept := (publications_kept projectAndRetry findings _ along).2.2 failing [retrying] tasks tasks' rfl run working
    (.cons round (.nil _)) (Nat.le_of_eq one)
  exact ⟨tasks, tasks', run, .cons round (.nil _), kept.2 false finding workPackage rfl _ returned⟩

/-- Two calls of `project` for one observation and target. -/
def projectTwice : Bool → ProjectionCall := fun _ => .project finding workPackage

def publishing (i : Bool) : List (Bool × ProjectionAnswer) := [(i, .returns (activity .published)), (i, .done)]

/-- Two calls that both looked before either saved publish twice, and what the
port raised on no retry publishes. -/
theorem publications_broken :
    ¬ Runs.Throughout (step projectTwice) (fun tasks => ∀ pair, tasks.shared.publications pair ≤ 1)
        ([(false, .done), (false, .done), (true, .done), (true, .done)] ++ publishing false ++ publishing true)
        (start findings) ∧
      ∃ tasks : ProjectionTasks Bool,
        Runs.after (step projectAndRetry)
            [(false, .done), (false, .done), (false, .raises ⟨"TimeoutError", ""⟩), (true, .done), (true, .done)]
            (start findings) = some tasks ∧
          tasks.state false = .raised ⟨"TimeoutError", ""⟩ ∧ tasks.state true = .retried [] ∧
          tasks.shared.isPublished (.v4 0, "openproject") = false := by
  constructor
  · intro throughout
    have once := throughout.last rfl (.v4 0, "openproject")
    exact absurd once (by decide)
  · exact ⟨_, rfl, rfl, rfl, rfl⟩

end ProjectionTasks

end Brain
