import Brain.Scheduler.Passes

namespace Brain
open Calls

/-- Some observation was created under the key. -/
def Journal.Holds (journal : Journal) (key : String) : Prop := ∃ kept ∈ journal.observations.items, kept.dedupKey = some key

/-- The deduplication key of `detect_stuck_executions`. -/
def stuckKey (executionId : ExecutionId) : String := "stuck:" ++ executionId.text

def Journal.stuckObservations (journal : Journal) (executionId : ExecutionId) : List Observation :=
  journal.observations.items.filter (·.dedupKey = some (stuckKey executionId))

/-- What `ObservationService.create` leaves: the ids were handed out, and every
key was taken once. -/
structure Journal.Sound (journal : Journal) : Prop where
  below : ∀ kept ∈ journal.observations.items, kept.id.Below journal.nextUuid
  once : ∀ key : String, (journal.observations.items.filter (·.dedupKey = some key)).length ≤ 1

/-- The journal stays sound and forgets no key. -/
def Journal.Grows (before after : Journal) : Prop :=
  before.Sound → after.Sound ∧ ∀ key, before.Holds key → after.Holds key

theorem Journal.Grows.trans {j k l : Journal} (first : j.Grows k) (second : k.Grows l) : j.Grows l := fun sound =>
  ⟨(second (first sound).1).1, fun key held => (second (first sound).1).2 key ((first sound).2 key held)⟩

theorem Journal.grows_nextUuid (journal : Journal) : journal.Grows { journal with nextUuid := journal.nextUuid + 1 } :=
  fun sound => ⟨⟨fun kept stored => (sound.below kept stored).mono (Nat.le_succ _), sound.once⟩, fun _ held => held⟩

theorem Journal.grows_saved {journal : Journal} {args : CreateObservation} {key : String} (keyed : args.dedupKey = some key)
    (unused : journal.findByDedupKey key = none) (published : List Publication) :
    journal.Grows ⟨journal.observations.upsert (args.observation (.v4 journal.nextUuid)), published,
      journal.nextUuid + 1⟩ := by
  intro sound
  have appended : (journal.observations.upsert (args.observation (.v4 journal.nextUuid))).items =
      journal.observations.items ++ [args.observation (.v4 journal.nextUuid)] :=
    Keyed.items_upsert_fresh fun kept stored => (sound.below kept stored).ne_fresh
  refine ⟨⟨?_, ?_⟩, ?_⟩
  · intro kept stored
    rw [appended] at stored
    rcases List.mem_append.mp stored with old | new
    · exact (sound.below kept old).mono (Nat.le_succ _)
    · rw [List.mem_singleton.mp new]
      exact Uuid.fresh_below _
  · intro other
    rw [appended, List.filter_append]
    by_cases same : other = key
    · have none : journal.observations.items.filter (·.dedupKey = some other) = [] := by
        rw [same]
        exact List.filter_eq_nil_iff.mpr (List.find?_eq_none.mp unused)
      rw [none, List.nil_append]
      exact List.length_filter_le _ _
    · have skipped : [args.observation (.v4 journal.nextUuid)].filter (·.dedupKey = some other) = [] := by
        simp [CreateObservation.observation, keyed, Ne.symm same]
      rw [skipped, List.append_nil]
      exact sound.once other
  · rintro other ⟨kept, stored, isKey⟩
    exact ⟨kept, by rw [appended]; exact List.mem_append_left _ stored, isKey⟩

/-- No call fails between the write of a blocked execution and that of its
observation. -/
structure Quiet (o : SchedulerOutside) : Prop where
  update : ∀ n exception, o.outcome n .updateExecution ≠ .raises true exception
  getWorkItem : ∀ n, o.outcome n .getWorkItem = .returns
  findByDedupKey : ∀ n, o.outcome n .findByDedupKey = .returns
  save : ∀ n exception, o.outcome n .saveObservation ≠ .raises false exception

namespace ReconciliationService
variable {self : ReconciliationService} {o : SchedulerOutside} {s t u : ReconciliationStores} {time : Time}
  {ids : List WorkItemId}

theorem createObservation_keyed {args : CreateObservation} {key : String} (keyed : args.dedupKey = some key) :
    Meets o (self.createObservation args) s fun _ t =>
      { t with journal := s.journal } = s ∧ s.journal.Grows t.journal ∧ (Quiet o → t.journal.Holds key) := by
  unfold createObservation
  rw [keyed]
  refine Meets.bind (Meets.query ?_ ?_)
  · simp only [byResult_ok]
    cases found : s.journal.findByDedupKey key with
    | some kept =>
      have passes := List.find?_some found
      exact Meets.pure ⟨rfl, fun sound => ⟨sound, fun _ held => held⟩,
        fun _ => ⟨kept, List.mem_of_find?_eq_some found, by simpa using passes⟩⟩
    | none =>
      have grows := Journal.grows_saved keyed found
      have holds := Keyed.mem_upsert_self s.journal.observations (args.observation (.v4 s.journal.nextUuid))
      refine Meets.bind (Meets.internal ?_)
      dsimp only [byResult_ok]
      refine Meets.bind (Meets.command ?_ ?_ ?_)
      · dsimp only [byResult_ok]
        split
        · refine Meets.command ?_ ?_ ?_ <;> intros <;> exact ⟨rfl, grows _, fun _ => ⟨_, holds, keyed⟩⟩
        · exact Meets.pure ⟨rfl, grows _, fun _ => ⟨_, holds, keyed⟩⟩
      · rintro exception ⟨n, raised⟩
        exact ⟨rfl, s.journal.grows_nextUuid, fun quiet => absurd raised (quiet.save n exception)⟩
      · exact fun _ _ => ⟨rfl, grows _, fun _ => ⟨_, holds, keyed⟩⟩
  · rintro tookEffect exception ⟨n, raised⟩
    refine ⟨rfl, fun sound => ⟨sound, fun _ held => held⟩, fun quiet => ?_⟩
    cases (quiet.findByDedupKey n).symm.trans raised

/-! ### What a pass changes -/

def blocked (execution : StartedExecution) : StartedExecution := { execution with status := .blocked }

/-- Up to here a pass has blocked stuck executions of the work items, and created
their observations unless a call failed in between. -/
structure Swept (service : ReconciliationService) (o : SchedulerOutside) (time : Time) (ids : List WorkItemId)
    (s t : ReconciliationStores) : Prop where
  executions : ∀ id, t.executions.get id = s.executions.get id ∨ ∃ execution, s.executions.get id = some execution ∧
    service.isStuck time execution = true ∧ execution.workItemId ∈ ids ∧ t.executions.get id = some (blocked execution)
  frame : { t with executions := s.executions, journal := s.journal } = s
  idle : (∀ id, t.executions.get id = s.executions.get id) → t = s
  grows : s.journal.Grows t.journal
  told : Quiet o → s.journal.Sound → ∀ id, t.executions.get id ≠ s.executions.get id → t.journal.Holds (stuckKey id)

theorem not_stuck_blocked (execution : StartedExecution) : self.isStuck time (blocked execution) = false := rfl

theorem Swept.refl (s : ReconciliationStores) : Swept self o time ids s s where
  executions _ := Or.inl rfl
  frame := rfl
  idle _ := rfl
  grows sound := ⟨sound, fun _ held => held⟩
  told _ _ _ changed := absurd rfl changed

theorem Swept.stays (swept : Swept self o time ids s t) (further : Swept self o time ids t u) {id : ExecutionId}
    (changed : t.executions.get id ≠ s.executions.get id) : u.executions.get id = t.executions.get id := by
  rcases swept.executions id with same | ⟨execution, _, _, _, isBlocked⟩
  · exact absurd same changed
  · rcases further.executions id with same | ⟨other, was, stuck, _⟩
    · exact same
    · rw [isBlocked] at was
      cases was
      cases stuck

theorem Swept.trans (swept : Swept self o time ids s t) (further : Swept self o time ids t u) :
    Swept self o time ids s u where
  executions id := by
    by_cases same : t.executions.get id = s.executions.get id
    · rw [← same]
      exact further.executions id
    · rw [swept.stays further same]
      exact swept.executions id
  frame :=
    (congrArg (fun x : ReconciliationStores => { x with executions := s.executions, journal := s.journal })
      further.frame).trans swept.frame
  idle unchanged := by
    have early : ∀ id, t.executions.get id = s.executions.get id := by
      intro id
      by_contra changed
      exact changed ((swept.stays further changed).symm.trans (unchanged id))
    exact (further.idle fun id => (unchanged id).trans (early id).symm).trans (swept.idle early)
  grows := swept.grows.trans further.grows
  told quiet sound id changed := by
    have kept := swept.grows sound
    by_cases late : u.executions.get id = t.executions.get id
    · rw [late] at changed
      exact (further.grows kept.1).2 _ (swept.told quiet sound id changed)
    · exact further.told quiet kept.1 id late

theorem Swept.of_blocked {execution : StartedExecution} (stored : s.executions.get execution.id = some execution)
    (stuck : self.isStuck time execution = true) (listed : execution.workItemId ∈ ids)
    (writes : { t with journal := s.journal } = { s with executions := s.executions.upsert (blocked execution) })
    (grows : s.journal.Grows t.journal)
    (told : Quiet o → t.journal.Holds (stuckKey execution.id)) :
    Swept self o time ids s t ∧ t.executions.get execution.id ≠ s.executions.get execution.id ∧
      ∀ id, id ≠ execution.id → t.executions.get id = s.executions.get id := by
  have written : t.executions = s.executions.upsert (blocked execution) :=
    congrArg ReconciliationStores.executions writes
  have own : t.executions.get execution.id = some (blocked execution) := by
    rw [written]
    exact Keyed.get_upsert_self s.executions (blocked execution)
  have changed : t.executions.get execution.id ≠ s.executions.get execution.id := by
    rw [own, stored]
    intro same
    rw [← Option.some.inj same, not_stuck_blocked] at stuck
    cases stuck
  have others : ∀ id, id ≠ execution.id → t.executions.get id = s.executions.get id := by
    intro id other
    rw [written]
    exact Keyed.get_upsert_ne s.executions other
  have frame := congrArg (fun x : ReconciliationStores => { x with executions := s.executions }) writes
  refine ⟨⟨fun id => ?_, frame, fun unchanged => absurd (unchanged _) changed, grows, fun quiet _ id different => ?_⟩, changed, others⟩
  · by_cases same : id = execution.id
    · rw [same]
      exact Or.inr ⟨execution, stored, stuck, listed, own⟩
    · exact Or.inl (others id same)
  · by_cases same : id = execution.id
    · rw [same]
      exact told quiet
    · exact absurd (others id same) different

theorem Swept.changed (swept : Swept self o time ids s t) (further : Swept self o time ids t u) {id : ExecutionId}
    (changed : t.executions.get id ≠ s.executions.get id) : u.executions.get id ≠ s.executions.get id := by
  rw [swept.stays further changed]
  exact changed

theorem blockExecutions_swept {workItemId : WorkItemId} (listed : workItemId ∈ ids) (known : s.world.workItems.get workItemId ≠ none)
    (executions : List StartedExecution) (nodup : (executions.map (·.id)).Nodup)
    (stored : ∀ execution ∈ executions, s.executions.get execution.id = some execution)
    (own : ∀ execution ∈ executions, execution.workItemId = workItemId) (report : ReconciliationReport) :
    Meets o (self.blockExecutions workItemId time executions report) s (byResult
      (fun _ t => Swept self o time ids s t ∧ ∀ execution ∈ executions, self.isStuck time execution = true →
        t.executions.get execution.id ≠ s.executions.get execution.id)
      fun _ t => Swept self o time ids s t) := by
  induction executions generalizing s report with
  | nil => exact Meets.pure ⟨.refl s, by simp⟩
  | cons execution rest ih =>
    simp only [List.map_cons, List.nodup_cons, List.forall_mem_cons] at nodup stored own
    unfold blockExecutions
    split
    · rename_i stuck
      have first := fun t => Swept.of_blocked (o := o) (t := t) stored.1 stuck (own.1 ▸ listed)
      dsimp only
      refine Meets.bind (Meets.command ?_ (fun _ _ => .refl s) ?_)
      · refine Meets.bind (Meets.query ?_ ?_)
        · simp only [byResult_ok]
          cases found : s.world.workItems.get workItemId with
          | none => exact absurd found known
          | some workItem =>
            refine Meets.seq _ (self.createObservation_keyed rfl) ?_ ?_
            · rintro _ t ⟨frame, grows, told⟩
              obtain ⟨swept, changed, others⟩ := first t frame grows told
              have world : t.world = s.world := (congrArg ReconciliationStores.world swept.frame :)
              have same : ∀ other ∈ rest, t.executions.get other.id = s.executions.get other.id := fun other later =>
                others _ fun equal => nodup.1 (equal ▸ List.mem_map_of_mem later)
              refine (ih (world ▸ known) nodup.2 ?_ own.2 _).mono ?_
              · exact fun other later => (same other later).trans (stored.2 other later)
              · rintro (_ | _) u reached
                · exact swept.trans reached
                · refine ⟨swept.trans reached.1, List.forall_mem_cons.mpr ⟨fun _ => swept.changed reached.1 changed, ?_⟩⟩
                  exact fun other later stuckToo => same other later ▸ reached.2 other later stuckToo
            · rintro _ t ⟨frame, grows, told⟩
              exact (first t frame grows told).1
        · rintro tookEffect exception ⟨n, raised⟩
          exact (first { s with executions := s.executions.upsert (blocked execution) } rfl (fun sound => ⟨sound, fun _ held => held⟩)
            fun quiet => by cases (quiet.getWorkItem n).symm.trans raised).1
      · rintro exception ⟨n, raised⟩
        exact (first { s with executions := s.executions.upsert (blocked execution) } rfl (fun sound => ⟨sound, fun _ held => held⟩) fun quiet => absurd raised (quiet.update n exception)).1
    · rename_i idle
      refine (ih known nodup.2 stored.2 own.2 report).mono ?_
      rintro (_ | _) t reached
      · exact reached
      · exact ⟨reached.1, List.forall_mem_cons.mpr ⟨fun stuck => absurd stuck idle, reached.2⟩⟩

theorem blockStuck_swept {workItemId : WorkItemId} (listed : workItemId ∈ ids)
    (known : s.world.workItems.get workItemId ≠ none) (report : ReconciliationReport) :
    Meets o (self.blockStuck time report workItemId) s (byResult
      (fun _ t => Swept self o time ids s t ∧ ∀ execution ∈ s.executions.items, execution.workItemId = workItemId →
        self.isStuck time execution = true → t.executions.get execution.id ≠ s.executions.get execution.id)
      fun _ t => Swept self o time ids s t) := by
  refine Meets.bind (Meets.query ?_ fun _ _ _ => .refl s)
  refine (blockExecutions_swept listed known _ ?_ ?_ ?_ report).mono ?_
  · exact (List.filter_sublist.map _).nodup s.executions.nodup
  · exact fun execution member => Keyed.get_eq_some.mpr ⟨(List.mem_filter.mp member).1, rfl⟩
  · exact fun execution member => by simpa using (List.mem_filter.mp member).2
  · rintro (_ | _) t reached
    · exact reached
    · exact ⟨reached.1, fun execution stored own => reached.2 execution (List.mem_filter.mpr ⟨stored, by simpa using own⟩)⟩

end ReconciliationService

def ReconciliationStores.listed (s : ReconciliationStores) : List (ProjectId × WorkItemId) :=
  s.world.projects.items.flatMap fun project =>
    (s.world.listWorkItemsByProject project.id).map fun workItem => (project.id, workItem.id)

theorem ReconciliationStores.known_of_listed {s : ReconciliationStores} {pair : ProjectId × WorkItemId}
    (listed : pair ∈ s.listed) : s.world.workItems.get pair.2 ≠ none := by
  obtain ⟨project, _, listed⟩ := List.mem_flatMap.mp listed
  obtain ⟨workItem, inProject, rfl⟩ := List.mem_map.mp listed
  rw [Keyed.get_eq_some.mpr ⟨(List.mem_filter.mp inProject).1, rfl⟩]
  exact Option.some_ne_none _

/-- A pass of `detect_stuck_executions`. -/
structure StuckPass where
  outside : SchedulerOutside
  moment : Nat := 0
  report : ReconciliationReport := {}

def StuckPass.time (pass : StuckPass) : Time := pass.outside.clock pass.moment

namespace ReconciliationService
variable {self : ReconciliationService} {o : SchedulerOutside} {s t : ReconciliationStores} {time : Time}

theorem workItemIds_listed : Meets o workItemIds.run s fun r t => t = s ∧ ∀ ids, r = .ok ids → ids = s.listed := by
  unfold workItemIds
  rw [Script.run_bind]
  refine Meets.seq (fun r t => t = s ∧ ∀ projects, r = .ok projects → projects = s.world.projects.items) ?_ ?_ ?_
  · refine Script.meets_act (Meets.query ⟨rfl, fun _ same => (Except.ok.inj same).symm⟩ ?_)
    exact fun _ _ _ => ⟨rfl, fun _ ended => nomatch ended⟩
  · rintro projects t ⟨rfl, isList⟩
    rw [isList projects rfl]
    refine Script.meets_gather _ fun project => Script.meets_act (Meets.query ⟨rfl, ?_⟩ ?_)
    · exact fun _ same => (Except.ok.inj same).symm
    · exact fun _ _ _ => ⟨rfl, fun _ ended => nomatch ended⟩
  · exact fun _ _ stopped => ⟨stopped.1, fun _ ended => nomatch ended⟩

def Due (self : ReconciliationService) (time : Time) (s : ReconciliationStores) (execution : StartedExecution) : Prop :=
  self.isStuck time execution = true ∧ execution.workItemId ∈ s.listed.map Prod.snd

def detect (self : ReconciliationService) (s : ReconciliationStores) (pass : StuckPass) :=
  (self.detectStuckExecutions pass.report).run pass.outside pass.moment s

def Completes (self : ReconciliationService) (s : ReconciliationStores) (pass : StuckPass) : Prop :=
  ∃ report, (self.detect s pass).result = .ok report

def sweep (self : ReconciliationService) (s : ReconciliationStores) (pass : StuckPass) : ReconciliationStores :=
  (self.detect s pass).store

/-- The turns of a pass. -/
def blockListed (self : ReconciliationService) (time : Time) (report : ReconciliationReport)
    (ids : List (ProjectId × WorkItemId)) : SchedulerScript ReconciliationReport :=
  Script.fold (fun report listed => .act ⟨.stuckExecutions, some listed.1⟩ (self.blockStuck time report listed.2))
    report ids

theorem blockListed_swept (report : ReconciliationReport) :
    Meets o (self.blockListed time report s.listed).run s (byResult
        (fun _ t => Swept self o time (s.listed.map Prod.snd) s t ∧ ∀ execution ∈ s.executions.items,
          self.Due time s execution → t.executions.get execution.id ≠ s.executions.get execution.id)
        fun _ t => Swept self o time (s.listed.map Prod.snd) s t) := by
  refine (Script.meets_fold (fun rest t => Swept self o time (s.listed.map Prod.snd) s t ∧ rest ⊆ s.listed ∧
    ∀ execution ∈ s.executions.items, self.Due time s execution → execution.workItemId ∈ rest.map Prod.snd ∨
      t.executions.get execution.id ≠ s.executions.get execution.id) (Swept self o time (s.listed.map Prod.snd) s)
    ?_ ⟨.refl s, List.Subset.refl _, fun _ _ isDue => Or.inl isDue.2⟩ report).mono ?_
  · rintro report pair rest t ⟨swept, within, due⟩
    have listed := within (List.mem_cons_self ..)
    have world : t.world = s.world := (congrArg ReconciliationStores.world swept.frame :)
    refine Script.meets_act ((blockStuck_swept (List.mem_map_of_mem listed)
      (world ▸ ReconciliationStores.known_of_listed listed) report).mono ?_)
    rintro (_ | _) u reached
    · exact swept.trans reached
    · refine ⟨swept.trans reached.1, List.Subset.trans (List.subset_cons_self ..) within, ?_⟩
      intro execution stored isDue
      by_cases early : t.executions.get execution.id = s.executions.get execution.id
      · rcases due execution stored isDue with coming | changed
        · rcases List.mem_cons.mp coming with own | later
          · have there := Keyed.get_eq_some.mp (early.trans (Keyed.get_eq_some.mpr ⟨stored, rfl⟩))
            exact Or.inr (early ▸ reached.2 execution there.1 own isDue.1)
          · exact Or.inl later
        · exact absurd early changed
      · exact Or.inr (swept.changed reached.1 early)
  · rintro (_ | _) t reached
    · exact reached
    · exact ⟨reached.1, fun execution stored isDue => (reached.2.2 execution stored isDue).resolve_left (by simp)⟩

theorem sweep_swept (s : ReconciliationStores) (pass : StuckPass) :
    Swept self pass.outside pass.time (s.listed.map Prod.snd) s (self.sweep s pass) ∧
      (self.Completes s pass → ∀ execution ∈ s.executions.items, self.Due pass.time s execution →
        (self.sweep s pass).executions.get execution.id ≠ s.executions.get execution.id) := by
  have ran : Meets pass.outside (workItemIds >>= self.blockListed pass.time pass.report).run s (byResult
        (fun _ t => Swept self pass.outside pass.time (s.listed.map Prod.snd) s t ∧ ∀ execution ∈ s.executions.items,
          self.Due pass.time s execution → t.executions.get execution.id ≠ s.executions.get execution.id)
        fun _ t => Swept self pass.outside pass.time (s.listed.map Prod.snd) s t) := by
    rw [Script.run_bind]
    refine Meets.seq _ workItemIds_listed ?_ ?_
    · rintro ids t ⟨rfl, isListed⟩
      rw [isListed ids rfl]
      exact blockListed_swept pass.report
    · rintro e t ⟨rfl, _⟩
      exact .refl t
  have here := ran (pass.moment + 1)
  change byResult _ _ (self.detect s pass).result (self.sweep s pass) at here
  generalize self.sweep s pass = t at here ⊢
  unfold Completes
  generalize (self.detect s pass).result = result at here ⊢
  cases result with
  | ok report => exact ⟨here.1, fun _ => here.2⟩
  | error e => exact ⟨here, fun ⟨_, ended⟩ => nomatch ended⟩

def sweeps (self : ReconciliationService) : List StuckPass → ReconciliationStores → ReconciliationStores
  | [], s => s
  | pass :: passes, s => sweeps self passes (self.sweep s pass)

def Marked (self : ReconciliationService) : List StuckPass → ReconciliationStores → ExecutionId → Prop
  | [], _, _ => False
  | pass :: passes, s, id => (self.sweep s pass).executions.get id ≠ s.executions.get id ∨
      Marked self passes (self.sweep s pass) id

theorem sweeps_told {passes : List StuckPass} (quiet : ∀ pass ∈ passes, Quiet pass.outside) {s : ReconciliationStores}
    (sound : s.journal.Sound) :
    (self.sweeps passes s).journal.Sound ∧
      ∀ id, self.Marked passes s id ∨ s.journal.Holds (stuckKey id) → (self.sweeps passes s).journal.Holds (stuckKey id) := by
  induction passes generalizing s with
  | nil => exact ⟨sound, fun _ held => held.resolve_left fun marked => marked⟩
  | cons pass passes ih =>
    simp only [List.forall_mem_cons] at quiet
    have swept := (self.sweep_swept s pass).1
    obtain ⟨after, kept⟩ := swept.grows sound
    obtain ⟨ended, told⟩ := ih quiet.2 after
    refine ⟨ended, ?_⟩
    rintro id ((changed | later) | held)
    · exact told id (Or.inr (swept.told quiet.1 sound id changed))
    · exact told id (Or.inl later)
    · exact told id (Or.inr (kept _ held))

/-- A pass blocks what is due and changes nothing else than the journal, one that
completes all of it, and what it leaves is due no more. Every marked execution
has one observation in every run in which no call fails between the two writes. -/
theorem detectStuckExecutions_recovers (self : ReconciliationService) :
    (∀ (s : ReconciliationStores) (pass : StuckPass),
      (∀ id, (self.sweep s pass).executions.get id = s.executions.get id ∨ ∃ execution,
        s.executions.get id = some execution ∧ self.Due pass.time s execution ∧
        (self.sweep s pass).executions.get id = some { execution with status := .blocked }) ∧
      { self.sweep s pass with executions := s.executions, journal := s.journal } = s ∧
      (self.Completes s pass → ∀ execution ∈ s.executions.items, self.Due pass.time s execution →
        (self.sweep s pass).executions.get execution.id = some { execution with status := .blocked })) ∧
    (∀ (s : ReconciliationStores) (pass next : StuckPass), self.Completes s pass →
      (∀ execution ∈ s.executions.items, self.isStuck next.time execution = true → self.isStuck pass.time execution = true) →
      self.sweep (self.sweep s pass) next = self.sweep s pass) ∧
    ∀ (s : ReconciliationStores) (passes : List StuckPass), s.journal.Sound → (∀ pass ∈ passes, Quiet pass.outside) →
      ∀ id, self.Marked passes s id → ((self.sweeps passes s).journal.stuckObservations id).length = 1 := by
  have completed : ∀ (s : ReconciliationStores) (pass : StuckPass), self.Completes s pass →
      ∀ execution ∈ s.executions.items, self.Due pass.time s execution →
        (self.sweep s pass).executions.get execution.id = some (blocked execution) := by
    intro s pass completes execution stored isDue
    obtain ⟨swept, all⟩ := self.sweep_swept s pass
    rcases swept.executions execution.id with same | ⟨other, was, _, _, isBlocked⟩
    · exact absurd same (all completes execution stored isDue)
    · rw [Keyed.get_eq_some.mpr ⟨stored, rfl⟩] at was
      rw [isBlocked, Option.some.inj was]
  refine ⟨fun s pass => ⟨?_, (self.sweep_swept s pass).1.frame, completed s pass⟩, ?_, ?_⟩
  · intro id
    rcases (self.sweep_swept s pass).1.executions id with same | ⟨execution, was, stuck, listed, isBlocked⟩
    · exact Or.inl same
    · exact Or.inr ⟨execution, was, ⟨stuck, listed⟩, isBlocked⟩
  · intro s pass next completes noneNew
    have first := (self.sweep_swept s pass).1
    have second := (self.sweep_swept (self.sweep s pass) next).1
    have listed : (self.sweep s pass).listed = s.listed :=
      congrArg (fun world => ReconciliationStores.listed { world }) (congrArg ReconciliationStores.world first.frame :)
    refine second.idle fun id => ?_
    rcases second.executions id with same | ⟨execution, isLeft, stuck, member, _⟩
    · exact same
    · rcases first.executions id with same | ⟨other, _, _, _, isBlocked⟩
      · rw [same] at isLeft
        obtain ⟨stored, rfl⟩ := Keyed.get_eq_some.mp isLeft
        have isBlocked := completed s pass completes execution stored ⟨noneNew execution stored stuck, listed ▸ member⟩
        rw [same, isLeft] at isBlocked
        rw [Option.some.inj isBlocked] at stuck
        cases stuck
      · rw [isBlocked] at isLeft
        cases isLeft
        cases stuck
  · intro s passes sound quiet id marked
    obtain ⟨ended, told⟩ := sweeps_told quiet sound
    obtain ⟨kept, stored, isKey⟩ := told id (Or.inl marked)
    have some : kept ∈ (self.sweeps passes s).journal.stuckObservations id :=
      List.mem_filter.mpr ⟨stored, decide_eq_true isKey⟩
    exact Nat.le_antisymm (ended.once _) (List.length_pos_of_mem some)

/-- A pass over a store that waits for two hours. -/
def passUnder (outcome : SchedulerSite → Outcome PyException) : StuckPass := { outside := ⟨fun _ => outcome, fun _ => 7200⟩ }

theorem marked_by {outcome : SchedulerSite → Outcome PyException} {passes : List StuckPass}
    (blocks : ((queueing.sweep twoProjects (passUnder outcome)).executions.get (.v4 6)).map (·.status) = some .blocked) :
    queueing.Marked (passUnder outcome :: passes) twoProjects (.v4 6) := by
  refine Or.inl fun same => ?_
  rw [same] at blocks
  cases blocks

theorem marked_observed :
    ((queueing.sweeps [passUnder fun _ => .returns] twoProjects).journal.stuckObservations (.v4 6)).length = 1 := by
  have sound : twoProjects.journal.Sound := ⟨fun kept stored => (by cases stored), fun _ => Nat.zero_le _⟩
  refine (queueing.detectStuckExecutions_recovers).2.2 twoProjects _ sound ?_ _ (marked_by rfl)
  rintro pass (_ | ⟨_, ⟨⟩⟩)
  exact ⟨fun _ _ => nofun, fun _ => rfl, fun _ => rfl, fun _ _ => nofun⟩

/-- The work item is not found in time: the next pass completes and the marked
execution has no observation. -/
theorem marked_unobserved :
    let fails := passUnder fun site => if site = .getWorkItem then .raises false ⟨"ConnectionError", ""⟩ else .returns
    let completes := passUnder fun _ => .returns
    twoProjects.journal.Sound ∧ queueing.Marked [fails, completes] twoProjects (.v4 6) ∧
      queueing.Completes (queueing.sweep twoProjects fails) completes ∧
      (queueing.sweeps [fails, completes] twoProjects).journal.stuckObservations (.v4 6) = [] :=
  ⟨⟨fun kept stored => (by cases stored), fun _ => Nat.zero_le _⟩, marked_by rfl, ⟨_, rfl⟩, rfl⟩

end ReconciliationService

end Brain
