import Brain.Pull.Cycles

namespace Brain
open Calls

/-- A change of a work package at the provider. The number tells apart changes
of one moment. -/
structure ProviderChange where
  externalId : String
  updatedAt : Time
  number : Nat
  deriving DecidableEq

/-- A `list_changed_work_packages` call, with the changes made before it. -/
structure ListCall where
  since : Time
  known : List ProviderChange

/-- The `updatedAt` of a work package after these changes. -/
def lastUpdate (changes : List ProviderChange) (x : String) : Option Time :=
  ((changes.filter fun change => change.externalId = x).getLast?).map ProviderChange.updatedAt

/-- The call returns the work package as the change left it, or later. -/
def ListCall.contains (call : ListCall) (change : ProviderChange) : Bool :=
  call.known.contains change && (lastUpdate call.known change.externalId).any (call.since ≤ ·)

inductive PullPhase where
  | bootstrapping
  | idle
  /-- A cycle runs, with the watermark it read and the start of its window. -/
  | pulling (watermark : ProviderSyncWatermark) (since : Time)

structure Timeline where
  clock : Time
  changes : List ProviderChange := []
  watermark : ProviderSyncWatermark
  phase : PullPhase := .bootstrapping
  calls : List ListCall := []

inductive TimelineStep where
  | tick (duration : Nat)
  | change (externalId : String)
  | baseline (completedAt : Time) (lastExternalId : Option String)
  | start
  | list
  | save (seen : List String)
  | abort
  deriving DecidableEq

/-- The watermark that `_establish_baseline` saves. -/
def baselineWatermark (watermark : ProviderSyncWatermark) (lastSyncedAt completedAt : Time)
    (lastExternalId : Option String) : ProviderSyncWatermark :=
  { watermark with lastSyncedAt := some lastSyncedAt, bootstrapCompletedAt := some completedAt, lastExternalId }

def pulledWatermark (watermark : ProviderSyncWatermark) (lastSyncedAt : Time) (seen : List String) :
    ProviderSyncWatermark :=
  { watermark with
    lastSyncedAt := some lastSyncedAt
    lastExternalId := seen.getLast?.or watermark.lastExternalId }

namespace Timeline

def Listed (S : Timeline) (change : ProviderChange) : Prop := ∃ call ∈ S.calls, call.contains change = true

/-- How many changes the last list call knew. -/
def read (S : Timeline) : Nat := (S.calls.getLast?.map fun call => call.known.length).getD 0

/-- The changes made after the last list call. -/
def unread (S : Timeline) : List ProviderChange := S.changes.drop S.read

/-- A list call from `since` on would return the work package. -/
def Returned (S : Timeline) (since : Time) (change : ProviderChange) : Prop :=
  (lastUpdate S.changes change.externalId).any (since ≤ ·) = true

instance (S : Timeline) (since : Time) (change : ProviderChange) : Decidable (S.Returned since change) :=
  inferInstanceAs (Decidable (_ = true))

/-- No work package was last changed after the last list call and before the
clock is read for the watermark. -/
def Quiet (S : Timeline) : TimelineStep → Prop
  | .baseline _ _ | .save _ => ∀ change ∈ S.unread, S.Returned S.clock change
  | _ => True

instance (S : Timeline) : (step : TimelineStep) → Decidable (S.Quiet step)
  | .baseline _ _ | .save _ => inferInstanceAs (Decidable (∀ _ ∈ _, _))
  | .tick _ | .change _ | .start | .list | .abort => isTrue trivial

end Timeline

namespace WorkManagementPullSyncService
variable (self : WorkManagementPullSyncService)

/-- The steps of `_establish_baseline` and of `sync_project` that the clock and
the provider's changes come between. A missing provider project lets a cycle
save without a list call. -/
def act (step : TimelineStep) (S : Timeline) : Option Timeline :=
  match step, S.phase with
  | .tick duration, _ => some { S with clock := S.clock + duration }
  | .change x, _ => some { S with changes := S.changes ++ [⟨x, S.clock, S.changes.length⟩] }
  | .baseline completedAt lastExternalId, .bootstrapping => some { S with
      watermark := baselineWatermark S.watermark S.clock completedAt lastExternalId
      phase := .idle }
  | .start, .idle => some { S with phase := .pulling S.watermark (self.sinceAt S.watermark S.clock) }
  | .list, .pulling _ since => some { S with calls := S.calls ++ [⟨since, S.changes⟩] }
  | .save seen, .pulling watermark _ => some { S with
      watermark := pulledWatermark watermark S.clock seen
      phase := .idle }
  | .abort, .pulling _ _ => some { S with phase := .idle }
  | _, _ => none

def acts : List TimelineStep → Timeline → Option Timeline
  | [], S => some S
  | step :: steps, S => (self.act step S).bind (acts steps)

def QuietAlong : List TimelineStep → Timeline → Prop
  | [], _ => True
  | step :: steps, S => S.Quiet step ∧ ∀ T, self.act step S = some T → QuietAlong steps T

end WorkManagementPullSyncService

/-! ### The watermarks that the code saves -/

namespace WorkManagementPullSyncService

end WorkManagementPullSyncService

/-! ### The windows meet -/

theorem lastUpdate_snoc (changes : List ProviderChange) (change : ProviderChange) (x : String) :
    lastUpdate (changes ++ [change]) x =
      if change.externalId = x then some change.updatedAt else lastUpdate changes x := by
  unfold lastUpdate
  by_cases same : change.externalId = x
  · simp [List.filter_append, same]
  · simp [List.filter_append, same]

namespace Timeline
variable {S T : Timeline} {since : Time} {change : ProviderChange}

/-- The next cycle, or the running one, lists from `since` on. -/
def Marked (S : Timeline) (since : Time) : Prop :=
  S.watermark.lastSyncedAt = some since ∧ (S.phase = .idle ∨ S.phase = .pulling S.watermark since)

/-- Every change was listed, or is still to be listed from `since` on. -/
structure Kept (S : Timeline) (since : Time) : Prop where
  past : since ≤ S.clock
  read : S.read ≤ S.changes.length
  listed : ∀ change ∈ S.changes, S.Listed change ∨ change ∈ S.unread ∧ S.Returned since change

def NothingLost (S : Timeline) : Prop :=
  S.phase = .bootstrapping ∧ S.calls = [] ∨ ∃ since, S.Marked since ∧ S.Kept since

theorem listed_list (listed : S.Listed change ∨ S.Returned since change) (member : change ∈ S.changes) :
    Listed { S with calls := S.calls ++ [⟨since, S.changes⟩] } change := by
  rcases listed with ⟨call, made, contains⟩ | returned
  · exact ⟨call, List.mem_append_left _ made, contains⟩
  · have known : S.changes.contains change = true := List.contains_iff_mem.mpr member
    refine ⟨⟨since, S.changes⟩, by simp, ?_⟩
    rw [ListCall.contains, known]
    exact returned

theorem kept_tick (kept : S.Kept since) (duration : Nat) : Kept { S with clock := S.clock + duration } since := by
  exact ⟨Nat.le_trans kept.past (Nat.le_add_right ..), kept.read, kept.listed⟩

theorem kept_change (kept : S.Kept since) (x : String) :
    Kept { S with changes := S.changes ++ [⟨x, S.clock, S.changes.length⟩] } since := by
  have past := kept.past
  have bound := kept.read
  have later : unread { S with changes := S.changes ++ [⟨x, S.clock, S.changes.length⟩] } =
      S.unread ++ [⟨x, S.clock, S.changes.length⟩] := List.drop_append_of_le_length bound
  refine ⟨past, ?_, ?_⟩
  · show S.read ≤ (S.changes ++ [_]).length
    rw [List.length_append]
    omega
  intro change member
  rw [later]
  unfold Returned
  rw [lastUpdate_snoc]
  by_cases same : x = change.externalId
  · rw [if_pos same]
    rcases List.mem_append.mp member with old | new
    · rcases kept.listed change old with listed | ⟨unread, _⟩
      · exact Or.inl listed
      · exact Or.inr ⟨List.mem_append_left _ unread, by simpa using past⟩
    · exact Or.inr ⟨List.mem_append_right _ new, by simpa using past⟩
  · rw [if_neg same]
    rcases List.mem_append.mp member with old | new
    · exact (kept.listed change old).imp_right fun due => ⟨List.mem_append_left _ due.1, due.2⟩
    · rw [List.mem_singleton.mp new] at same
      exact absurd rfl same

theorem kept_list (kept : S.Kept since) : Kept { S with calls := S.calls ++ [⟨since, S.changes⟩] } since := by
  have read : Timeline.read { S with calls := S.calls ++ [⟨since, S.changes⟩] } = S.changes.length := by
    simp [Timeline.read]
  refine ⟨kept.past, Nat.le_of_eq read, fun change member => Or.inl ?_⟩
  exact listed_list ((kept.listed change member).imp_right And.right) member

theorem kept_save (read : S.read ≤ S.changes.length) (listed : ∀ change ∈ S.changes, S.Listed change ∨ change ∈ S.unread)
    (quiet : ∀ change ∈ S.unread, S.Returned S.clock change) (watermark : ProviderSyncWatermark) (phase : PullPhase) :
    Kept { S with watermark, phase } S.clock := by
  refine ⟨Nat.le_refl _, read, fun change member => ?_⟩
  exact (listed change member).imp_right fun unread => ⟨unread, quiet change unread⟩

end Timeline

namespace WorkManagementPullSyncService
open Timeline
variable {self : WorkManagementPullSyncService} {step : TimelineStep} {steps early late : List TimelineStep}
  {S T U V : Timeline} {since : Time} {change : ProviderChange}

theorem act_cases (marked : S.Marked since) (acted : self.act step S = some T) :
    (∃ duration, step = .tick duration ∧ T = { S with clock := S.clock + duration }) ∨
    (∃ x, step = .change x ∧ T = { S with changes := S.changes ++ [⟨x, S.clock, S.changes.length⟩] }) ∨
    (∃ phase, T = { S with phase } ∧ step ≠ .list ∧ T.Marked since) ∨
    (step = .list ∧ T = { S with calls := S.calls ++ [⟨since, S.changes⟩] }) ∨
    ∃ seen watermark, step = .save seen ∧ T = { S with watermark, phase := .idle } ∧ T.Marked S.clock := by
  obtain ⟨synced, idle | pulling⟩ := marked
  · have window : self.sinceAt S.watermark S.clock = since := by simp [sinceAt, synced]
    cases step with
    | tick duration => exact Or.inl ⟨duration, rfl, (Option.some.inj acted).symm⟩
    | change x => exact Or.inr (Or.inl ⟨x, rfl, (Option.some.inj acted).symm⟩)
    | start =>
      simp only [act, idle, window, Option.some.injEq] at acted
      subst acted
      exact Or.inr (Or.inr (Or.inl ⟨_, rfl, by simp, synced, Or.inr rfl⟩))
    | _ => simp [act, idle] at acted
  · cases step with
    | tick duration => exact Or.inl ⟨duration, rfl, (Option.some.inj acted).symm⟩
    | change x => exact Or.inr (Or.inl ⟨x, rfl, (Option.some.inj acted).symm⟩)
    | list =>
      simp only [act, pulling, Option.some.injEq] at acted
      exact Or.inr (Or.inr (Or.inr (Or.inl ⟨rfl, by rw [← acted, pulling]⟩)))
    | save seen =>
      simp only [act, pulling, Option.some.injEq] at acted
      subst acted
      exact Or.inr (Or.inr (Or.inr (Or.inr ⟨seen, _, rfl, rfl, rfl, Or.inl rfl⟩)))
    | abort =>
      simp only [act, pulling, Option.some.injEq] at acted
      subst acted
      exact Or.inr (Or.inr (Or.inl ⟨_, rfl, by simp, synced, Or.inl rfl⟩))
    | _ => simp [act, pulling] at acted

theorem nothingLost_act (kept : S.NothingLost) (acted : self.act step S = some T) (quiet : S.Quiet step) :
    T.NothingLost := by
  rcases kept with ⟨bootstrapping, uncalled⟩ | ⟨since, marked, kept⟩
  · have read : S.read = 0 := by simp [Timeline.read, uncalled]
    have unread : S.unread = S.changes := by rw [Timeline.unread, read, List.drop_zero]
    cases step with
    | tick _ =>
      cases acted
      exact Or.inl ⟨bootstrapping, uncalled⟩
    | change _ =>
      cases acted
      exact Or.inl ⟨bootstrapping, uncalled⟩
    | baseline completedAt lastExternalId =>
      simp only [act, bootstrapping, Option.some.injEq] at acted
      subst acted
      refine Or.inr ⟨S.clock, ⟨rfl, Or.inl rfl⟩, kept_save (by omega) ?_ quiet _ _⟩
      intro change member
      rw [unread]
      exact Or.inr member
    | _ => simp [act, bootstrapping] at acted
  · refine Or.inr ?_
    have synced := marked.1
    rcases act_cases marked acted with ⟨duration, rfl, rfl⟩ | ⟨x, rfl, rfl⟩ | ⟨phase, rfl, _, marked'⟩ | ⟨rfl, rfl⟩ |
      ⟨seen, watermark, rfl, rfl, marked'⟩
    · exact ⟨since, marked, kept_tick kept duration⟩
    · exact ⟨since, marked, kept_change kept x⟩
    · exact ⟨since, marked', kept.past, kept.read, kept.listed⟩
    · exact ⟨since, marked, kept_list kept⟩
    · refine ⟨S.clock, marked', kept_save kept.read ?_ quiet _ _⟩
      exact fun change member => (kept.listed change member).imp_right And.left

theorem acts_cons : self.acts (step :: steps) S = some V ↔
    ∃ T, self.act step S = some T ∧ self.acts steps T = some V := Option.bind_eq_some_iff

theorem nothingLost_acts (kept : S.NothingLost) (acted : self.acts steps S = some T)
    (quiet : self.QuietAlong steps S) : T.NothingLost := by
  induction steps generalizing S with
  | nil =>
    cases acted
    exact kept
  | cons step steps ih =>
    obtain ⟨U, first, rest⟩ := acts_cons.mp acted
    exact ih (nothingLost_act kept first quiet.1) rest (quiet.2 U first)

theorem quietAlong_append (acted : self.acts early S = some U) :
    self.QuietAlong (early ++ late) S ↔ self.QuietAlong early S ∧ self.QuietAlong late U := by
  induction early generalizing S with
  | nil =>
    cases acted
    simp [QuietAlong]
  | cons step steps ih =>
    obtain ⟨T, first, rest⟩ := acts_cons.mp acted
    have next : ∀ {P : Timeline → Prop}, (∀ T', self.act step S = some T' → P T') ↔ P T := by
      intro P
      rw [first]
      simp
    rw [List.cons_append, QuietAlong, QuietAlong, next, next, ih rest, and_assoc]

theorem act_grows (acted : self.act step S = some T) : S.changes <+: T.changes ∧ S.calls <+: T.calls := by
  unfold act at acted
  split at acted <;> cases acted <;> simp

theorem listed_acts (acted : self.acts steps S = some T) (listed : S.Listed change) : T.Listed change := by
  induction steps generalizing S with
  | nil =>
    cases acted
    exact listed
  | cons step steps ih =>
    obtain ⟨U, first, rest⟩ := acts_cons.mp acted
    obtain ⟨call, made, contains⟩ := listed
    exact ih rest ⟨call, (act_grows first).2.subset made, contains⟩

theorem listed_after (kept : S.NothingLost) (acted : self.acts late S = some V) (quiet : self.QuietAlong late S)
    (pulled : TimelineStep.list ∈ late) (member : change ∈ S.changes) : V.Listed change := by
  induction late generalizing S with
  | nil => exact absurd pulled List.not_mem_nil
  | cons step steps ih =>
    obtain ⟨T, first, rest⟩ := acts_cons.mp acted
    have after := nothingLost_act kept first quiet.1
    rcases List.mem_cons.mp pulled with rfl | later
    · refine listed_acts rest ?_
      rcases kept with ⟨bootstrapping, _⟩ | ⟨since, marked, kept⟩
      · simp [act, bootstrapping] at first
      · have listed := (kept.listed change member).imp_right And.right
        rcases act_cases marked first with ⟨_, other, _⟩ | ⟨_, other, _⟩ | ⟨_, _, other, _⟩ | ⟨_, rfl⟩ | ⟨_, _, other, _⟩
        · cases other
        · cases other
        · exact absurd rfl other
        · exact listed_list listed member
        · cases other
    · exact ih after rest (quiet.2 T first) later ((act_grows first).1.subset member)

/-- A change lies before the next window, and no list call returned it. -/
structure Lost (S : Timeline) (change : ProviderChange) : Prop where
  unlisted : ¬ S.Listed change
  marked : ∃ since, S.Marked since ∧ since ≤ S.clock ∧ change.updatedAt < since
  last : lastUpdate S.changes change.externalId = some change.updatedAt

theorem lost_act (lost : Lost S change) (acted : self.act step S = some T)
    (unchanged : step ≠ .change change.externalId) : Lost T change := by
  obtain ⟨unlisted, ⟨since, marked, past, before⟩, last⟩ := lost
  rcases act_cases marked acted with ⟨duration, rfl, rfl⟩ | ⟨x, rfl, rfl⟩ | ⟨phase, rfl, _, marked'⟩ | ⟨rfl, rfl⟩ |
    ⟨seen, watermark, rfl, rfl, marked'⟩
  · exact ⟨unlisted, ⟨since, marked, Nat.le_trans past (Nat.le_add_right ..), before⟩, last⟩
  · refine ⟨unlisted, ⟨since, marked, past, before⟩, ?_⟩
    have other : x ≠ change.externalId := fun same => unchanged (by rw [same])
    rw [lastUpdate_snoc, if_neg other, last]
  · exact ⟨unlisted, ⟨since, marked', past, before⟩, last⟩
  · refine ⟨?_, ⟨since, marked, past, before⟩, last⟩
    rintro ⟨call, made, contains⟩
    rcases List.mem_append.mp made with earlier | new
    · exact unlisted ⟨call, earlier, contains⟩
    · rw [List.mem_singleton.mp new] at contains
      simp only [ListCall.contains, last, Option.any_some, Bool.and_eq_true, decide_eq_true_eq] at contains
      exact absurd contains.2 (Nat.not_le_of_lt before)
  · exact ⟨unlisted, ⟨S.clock, marked', Nat.le_refl _, Nat.lt_of_lt_of_le before past⟩, last⟩

theorem lost_acts (lost : Lost S change) (acted : self.acts steps S = some T)
    (unchanged : TimelineStep.change change.externalId ∉ steps) : Lost T change := by
  induction steps generalizing S with
  | nil =>
    cases acted
    exact lost
  | cons step steps ih =>
    obtain ⟨U, first, rest⟩ := acts_cons.mp acted
    rw [List.mem_cons, not_or] at unchanged
    exact ih (lost_act lost first (Ne.symm unchanged.1)) rest unchanged.2

/-- When nothing changes between the last list call and the reading of the clock
for a watermark, the next list call after a change has returned it. -/
theorem quiet_cycles_miss_nothing (self : WorkManagementPullSyncService) (watermark : ProviderSyncWatermark)
    (clock : Time) {early late : List TimelineStep} {U V : Timeline}
    (first : self.acts early { clock, watermark } = some U) (rest : self.acts late U = some V)
    (quiet : self.QuietAlong (early ++ late) { clock, watermark }) (pulled : TimelineStep.list ∈ late) :
    ∀ change ∈ U.changes, V.Listed change := by
  intro change member
  obtain ⟨quietFirst, quietRest⟩ := (quietAlong_append first).mp quiet
  have begun : NothingLost { clock, watermark } := Or.inl ⟨rfl, rfl⟩
  exact listed_after (nothingLost_acts begun first quietFirst) rest quietRest pulled member

def cycleSteps : Nat → List TimelineStep
  | 0 => []
  | n + 1 => [.start, .list, .save []] ++ cycleSteps n

theorem cycleSteps_act (n : Nat) (idle : S.phase = .idle) : ∃ V, self.acts (cycleSteps n) S = some V := by
  induction n generalizing S with
  | zero => exact ⟨S, rfl⟩
  | succ n ih =>
    simp only [cycleSteps, List.cons_append, List.nil_append, acts, act, idle, Option.bind_some]
    exact ih rfl

theorem cycleSteps_unchanged (n : Nat) (x : String) : TimelineStep.change x ∉ cycleSteps n := by
  induction n with
  | zero => exact List.not_mem_nil
  | succ n ih => simpa [cycleSteps] using ih

/-- After these steps the change was made, and however many cycles follow, none
of their list calls returns it. -/
def NeverListed (steps : List TimelineStep) (change : ProviderChange) : Prop :=
  ∃ U, self.acts steps { clock := 0, watermark := { provider := "openproject", syncKey := "work_items:10" } } = some U ∧
    change ∈ U.changes ∧ ∀ n, ∃ V, self.acts (cycleSteps n) U = some V ∧ ¬ V.Listed change

theorem quiet_cycles_miss_nothing_one :
    let self : WorkManagementPullSyncService := { provider := ⟨{}⟩ }
    let watermark : ProviderSyncWatermark := { provider := "openproject", syncKey := "work_items:10" }
    let early : List TimelineStep := [.tick 10, .baseline 10 none, .start, .list, .change "7"]
    let late : List TimelineStep := [.list, .save ["7"]]
    ∃ U V, self.acts early { clock := 0, watermark } = some U ∧ self.acts late U = some V ∧
      U.changes = [⟨"7", 10, 0⟩] ∧ ∀ change ∈ U.changes, V.Listed change := by
  intro self watermark early late
  refine ⟨_, _, rfl, rfl, rfl, @quiet_cycles_miss_nothing self watermark 0 early late _ _ rfl rfl ?_ ?_⟩
  · simp [QuietAlong, early, late, act, Quiet, unread, Timeline.read]
  · simp [late]

theorem changes_missed :
    let self : WorkManagementPullSyncService := { provider := ⟨{}⟩ }
    self.NeverListed [.tick 10, .change "7", .tick 10, .baseline 20 none] ⟨"7", 10, 0⟩ ∧
      self.NeverListed [.baseline 0 none, .start, .list, .tick 10, .change "7", .tick 10, .save []] ⟨"7", 10, 0⟩ := by
  intro self
  have never : ∀ {U : Timeline}, U.phase = .idle → Lost U ⟨"7", 10, 0⟩ → ∀ n, ∃ V,
      self.acts (cycleSteps n) U = some V ∧ ¬ V.Listed ⟨"7", 10, 0⟩ := by
    intro U idle lost n
    obtain ⟨V, acted⟩ := @cycleSteps_act self _ n idle
    exact ⟨V, acted, (lost_acts lost acted (cycleSteps_unchanged n _)).unlisted⟩
  refine ⟨⟨_, rfl, by simp, never rfl ⟨?_, ⟨20, ⟨rfl, Or.inl rfl⟩, by decide, by decide⟩, by decide⟩⟩,
    ⟨_, rfl, by simp, never rfl ⟨?_, ⟨20, ⟨rfl, Or.inl rfl⟩, by decide, by decide⟩, by decide⟩⟩⟩
  · simp [Listed]
  · simp [Listed, ListCall.contains]

end WorkManagementPullSyncService

end Brain
