import Brain.Context.Accounting
import Brain.Lib.Allowances

namespace Brain.ContextEngineService
variable {σ : Type}

def weightOf (category : ContextCategory) : Nat :=
  ((BudgetAllocator.defaultWeights.find? (·.1 = category)).map Prod.snd).getD 0

/-- `int(self._total * weight)` for a category, where it does not raise. -/
def shareOf (floats : FloatArithmetic) (total : Int) (category : ContextCategory) : Int :=
  (floats.share total (weightOf category)).toOption.getD 0

/-- A category's share of the preferred budget is looked at before a candidate is
estimated, the model's budget after. -/
def allowances (floats : FloatArithmetic) (request : ContextRequest) : Allowances (ContextCandidate σ) ContextCategory where
  kind := ContextCandidate.category
  size c := floats.estimate c.content
  size_pos _ := Int.lt_of_lt_of_le Int.zero_lt_one (Int.le_max_left ..)
  limit := shareOf floats request.preferredTokenBudget
  cap := request.maxTotalTokens

section Settled
variable {floats : FloatArithmetic} {request : ContextRequest} {start : List BudgetAllocation}

structure Shared (floats : FloatArithmetic) (request : ContextRequest) (ranked : List (ContextCandidate σ))
    (start : List BudgetAllocation) : Prop where
  nodup : (start.map (·.category)).Nodup
  covers : ∀ c ∈ ranked, c.category ∈ start.map (·.category)
  share : ∀ a ∈ start, a.allocatedTokens = shareOf floats request.preferredTokenBudget a.category
  unused : ∀ a ∈ start, a.usedTokens = 0

/-- The local variables after the turns of these candidates, of which none stopped
the loop. -/
def settled (floats : FloatArithmetic) (request : ContextRequest) (start : List BudgetAllocation)
    (handled : List (ContextCandidate σ)) : Filling σ where
  included := ((allowances floats request).kept handled).map (priced floats.estimate)
  total := (allowances floats request).room handled
  allocations := start.map fun a =>
    { a with usedTokens := (allowances floats request).demand a.category ((allowances floats request).kept handled) }

theorem settled_nil (unused : ∀ a ∈ start, a.usedTokens = 0) :
    settled floats request start ([] : List (ContextCandidate σ)) = { allocations := start } := by
  have same : start.map (fun a => { a with usedTokens := 0 }) = start := by
    refine (List.map_congr_left fun a member => ?_).trans (List.map_id _)
    show { a with usedTokens := 0 } = a
    rw [← unused a member]
  unfold settled
  congr 1

variable {ranked : List (ContextCandidate σ)}

theorem exhausted_iff (shared : Shared floats request ranked start) {c : ContextCandidate σ} (member : c ∈ ranked)
    (handled : List (ContextCandidate σ)) :
    ((settled floats request start handled).allocations.find? (·.category = c.category)).any (·.remaining ≤ 0) = true ↔
      ¬ (allowances floats request).Open handled c := by
  obtain ⟨a, isStart, own⟩ := List.mem_map.mp (shared.covers c member)
  have charged : { a with usedTokens := (allowances floats request).demand a.category ((allowances floats request).kept handled) } ∈
      (settled floats request start handled).allocations :=
    List.mem_map_of_mem (f := fun a : BudgetAllocation =>
      { a with usedTokens := (allowances floats request).demand a.category ((allowances floats request).kept handled) }) isStart
  cases found : (settled floats request start handled).allocations.find? (·.category = c.category) with
  | none =>
    have other := List.find?_eq_none.mp found _ charged
    exact absurd own (by simpa using other)
  | some b =>
    have isOwn : b.category = c.category := by simpa using List.find?_some found
    obtain ⟨d, isStart', rfl⟩ := List.mem_map.mp (List.mem_of_find?_eq_some found)
    have share := shared.share d isStart'
    have isOwn' : d.category = c.category := isOwn
    rw [(allowances floats request).open_iff, Option.any_some, decide_eq_true_eq, BudgetAllocation.remaining]
    show max 0 (d.allocatedTokens - (allowances floats request).demand d.category _) ≤ 0 ↔
      ¬ (allowances floats request).demand c.category _ < shareOf floats request.preferredTokenBudget c.category
    rw [share, isOwn']
    omega

theorem priced_kept_concat (handled : List (ContextCandidate σ)) {c : ContextCandidate σ}
    (nodup : (start.map (·.category)).Nodup) (isOpen : (allowances floats request).Open handled c) :
    { included := (settled floats request start handled).included ++ [{ c with tokenEstimate := floats.estimate c.content }]
      total := (settled floats request start handled).total + floats.estimate c.content
      allocations := charge c.category (floats.estimate c.content) (settled floats request start handled).allocations } =
      settled floats request start (handled ++ [c]) := by
  have kept := (allowances floats request).kept_concat_of_open isOpen
  have charged := charge_map nodup c.category (floats.estimate c.content) fun category =>
    (allowances floats request).demand category ((allowances floats request).kept handled)
  unfold settled
  rw [(allowances floats request).room_concat_of_open isOpen, kept, List.map_append, charged]
  congr 1
  refine List.map_congr_left fun a _ => ?_
  rw [(allowances floats request).demand_append, (allowances floats request).demand_singleton]
  by_cases own : a.category = c.category
  · rw [if_pos own, if_pos (show (allowances floats request).kind c = a.category from own.symm)]
    rfl
  · rw [if_neg own, if_neg (show ¬ (allowances floats request).kind c = a.category from Ne.symm own), Int.add_zero]

theorem fill_settled {candidates : List (ContextCandidate σ)} (shared : Shared floats request candidates start)
    (handled : List (ContextCandidate σ)) (among : ∀ c ∈ ranked, c ∈ candidates) :
    fill floats.estimate request.maxTotalTokens ranked (settled floats request start handled) =
      settled floats request start (handled ++ (allowances floats request).handledAfter handled ranked) := by
  induction ranked generalizing handled with
  | nil => rw [Allowances.handledAfter, List.append_nil, fill]
  | cons c ranked ih =>
    have exhausted := exhausted_iff shared (among c (List.mem_cons_self ..)) handled
    have tail := ih (handled ++ [c]) fun d later => among d (List.mem_cons_of_mem _ later)
    rw [List.append_assoc] at tail
    rw [Allowances.handledAfter, fill]
    by_cases isOpen : (allowances floats request).Open handled c
    · have remains := mt exhausted.mp (not_not.mpr isOpen)
      refine (if_neg remains).trans ?_
      by_cases exceeds : (settled floats request start handled).total + floats.estimate c.content > request.maxTotalTokens
      · have blocks : (allowances floats request).Blocks handled c := ⟨isOpen, exceeds⟩
        rw [if_pos blocks, List.append_nil]
        exact if_pos exceeds
      · have passes : ¬ (allowances floats request).Blocks handled c := fun blocks => exceeds blocks.2
        rw [if_neg passes]
        refine (if_neg exceeds).trans ?_
        rw [priced_kept_concat handled shared.nodup isOpen]
        exact tail
    · have passes : ¬ (allowances floats request).Blocks handled c := fun blocks => isOpen blocks.1
      have same : settled floats request start (handled ++ [c]) = settled floats request start handled := by
        unfold settled Allowances.room
        rw [(allowances floats request).kept_concat_of_not_open isOpen]
      rw [if_neg passes]
      refine (if_pos (exhausted.mpr isOpen)).trans ?_
      rw [← same]
      exact tail

theorem fill_start {candidates : List (ContextCandidate σ)} (shared : Shared floats request candidates start)
    (among : ∀ c ∈ ranked, c ∈ candidates) :
    fill floats.estimate request.maxTotalTokens ranked { allocations := start } =
      settled floats request start ((allowances floats request).handled ranked) := by
  rw [← settled_nil shared.unused]
  exact fill_settled shared [] among

theorem weightOf_eq {entry : ContextCategory × Nat} (listed : entry ∈ BudgetAllocator.defaultWeights) :
    weightOf entry.1 = entry.2 := by
  revert entry
  decide

theorem shares_of_weights {weights : List (ContextCategory × Nat)} (listed : ∀ entry ∈ weights, entry ∈ BudgetAllocator.defaultWeights)
    (each : List.Forall₂ (fun entry a => BudgetAllocator.allocationFor floats request.preferredTokenBudget entry = .ok a) weights start) :
    ∀ a ∈ start, a.allocatedTokens = shareOf floats request.preferredTokenBudget a.category := by
  induction each with
  | nil => exact fun a member => absurd member List.not_mem_nil
  | @cons entry a weights start first _ ih =>
    refine List.forall_mem_cons.mpr ⟨?_, ih fun other later => listed other (List.mem_cons_of_mem _ later)⟩
    have weight := weightOf_eq (listed entry (List.mem_cons_self ..))
    unfold BudgetAllocator.allocationFor at first
    cases share : floats.share request.preferredTokenBudget entry.2 with
    | error e =>
      rw [share] at first
      cases first
    | ok tokens =>
      rw [share] at first
      cases first
      show tokens = shareOf floats request.preferredTokenBudget entry.1
      rw [shareOf, weight, share]
      rfl

theorem allocate_shared (allocated : BudgetAllocator.allocate floats request.preferredTokenBudget ranked = .ok start) :
    Shared floats request ranked start := by
  obtain ⟨nodup, covers, unused⟩ := allocate_ok allocated
  have share := shares_of_weights (fun entry member => (List.mem_filter.mp member).1) (Checked.forall₂_of_mapM allocated)
  exact { nodup, covers, share, unused }

end Settled

end Brain.ContextEngineService

namespace Brain.ContextEngineService
variable {σ : Type}

/-- No category uses more than what is allocated to it, and all of them together
use no more than the caller prefers. -/
structure WithinBudgets (capsule : ContextCapsule σ) : Prop where
  allocations : ∀ a ∈ capsule.allocations, a.usedTokens ≤ a.allocatedTokens
  total : capsule.totalTokens ≤ capsule.request.preferredTokenBudget

/-- `int(total * weight)` is not above the exact product, as it is while the total
has fewer digits than a float. -/
def SharesWithin (floats : FloatArithmetic) (total : Int) : Prop :=
  ∀ entry ∈ BudgetAllocator.defaultWeights, ∀ tokens, floats.share total entry.2 = .ok tokens →
    0 ≤ tokens ∧ 100 * tokens ≤ total * entry.2

/-- The candidate is included when the loop gets to it with these variables. -/
def KeepsWhatFits (floats : FloatArithmetic) (request : ContextRequest) (ranked : List (ContextCandidate σ))
    (allocations : List BudgetAllocation) (capsule : ContextCapsule σ) : Prop :=
  ∀ earlier c later, ranked = earlier ++ c :: later →
    let before := fill floats.estimate request.maxTotalTokens earlier { allocations }
    (∀ a ∈ before.allocations, a.category = c.category → 0 < a.remaining) →
    before.total + floats.estimate c.content ≤ request.maxTotalTokens →
    ∃ more, capsule.candidates = before.included ++ priced floats.estimate c :: more

def KeepsTask (floats : FloatArithmetic) (request : ContextRequest) (task : ContextCandidate σ) (capsule : ContextCapsule σ) : Prop :=
  floats.estimate task.content ≤ request.maxTotalTokens →
    (∀ a ∈ capsule.allocations, a.category = task.category → 0 < a.allocatedTokens) →
    priced floats.estimate task ∈ capsule.candidates

/-- The task or a copy of it has its turn while its category is open and the
model's budget has room for it. -/
def TaskHasTurn (floats : FloatArithmetic) (request : ContextRequest) (ranked : List (ContextCandidate σ))
    (task : ContextCandidate σ) : Prop :=
  floats.estimate task.content ≤ request.maxTotalTokens → 0 < shareOf floats request.preferredTokenBudget task.category →
    ∃ earlier c later, ranked = earlier ++ c :: later ∧ priced floats.estimate c = priced floats.estimate task ∧
      (allowances floats request).Open earlier c ∧
      (allowances floats request).room earlier + floats.estimate c.content ≤ request.maxTotalTokens

section Built
variable {floats : FloatArithmetic} {request : ContextRequest} {start : List BudgetAllocation} {ranked : List (ContextCandidate σ)}

theorem buildCapsule_candidates (shared : Shared floats request ranked start) :
    (buildCapsule floats.estimate request ranked start).candidates =
      ((allowances floats request).kept ((allowances floats request).handled ranked)).map (priced floats.estimate) :=
  congrArg Filling.included (fill_start shared fun _ member => member)

theorem buildCapsule_total (shared : Shared floats request ranked start) :
    (buildCapsule floats.estimate request ranked start).totalTokens =
      (allowances floats request).room ((allowances floats request).handled ranked) :=
  congrArg Filling.total (fill_start shared fun _ member => member)

theorem buildCapsule_allocations (shared : Shared floats request ranked start) :
    (buildCapsule floats.estimate request ranked start).allocations =
      (settled floats request start ((allowances floats request).handled ranked)).allocations :=
  congrArg Filling.allocations (fill_start shared fun _ member => member)

/-! ### The budgets of the categories -/

theorem spent_priced (category : ContextCategory) (candidates : List (ContextCandidate σ)) :
    spent category (candidates.map (priced floats.estimate)) = (allowances floats request).demand category candidates := by
  induction candidates with
  | nil => rfl
  | cons c candidates ih =>
    have head : spent category [priced floats.estimate c] = (allowances floats request).demand category [c] := by
      rw [spent_singleton, Allowances.demand_singleton]
      rfl
    rw [List.map_cons, ← List.singleton_append, spent_append, head, ih, ← Allowances.demand_append]
    rfl

theorem room_eq_sum (shared : Shared floats request ranked start) {handled : List (ContextCandidate σ)}
    (among : ∀ c ∈ handled, c ∈ ranked) :
    (allowances floats request).room handled =
      (start.map fun a => (allowances floats request).demand a.category ((allowances floats request).kept handled)).sum := by
  have listed : ∀ c ∈ ((allowances floats request).kept handled).map (priced floats.estimate), c.category ∈ start.map (·.category) := by
    intro c member
    obtain ⟨d, isKept, rfl⟩ := List.mem_map.mp member
    obtain ⟨earlier, later, split, -⟩ := (allowances floats request).mem_kept_iff.mp isKept
    exact shared.covers d (among d (split ▸ List.mem_append_right _ (List.mem_cons_self ..)))
  have whole := sum_spent shared.nodup listed
  rw [List.map_map] at whole
  refine Eq.trans ?_ (whole.symm.trans ?_)
  · rfl
  · exact congrArg List.sum (List.map_congr_left fun a _ => spent_priced a.category _)

theorem allocated_sum_le (within : SharesWithin floats request.preferredTokenBudget) {weights : List (ContextCategory × Nat)}
    (listed : ∀ entry ∈ weights, entry ∈ BudgetAllocator.defaultWeights)
    (each : List.Forall₂ (fun entry a => BudgetAllocator.allocationFor floats request.preferredTokenBudget entry = .ok a) weights start) :
    (∀ a ∈ start, 0 ≤ a.allocatedTokens) ∧
      100 * (start.map (·.allocatedTokens)).sum ≤ request.preferredTokenBudget * (((weights.map Prod.snd).sum : Nat) : Int) := by
  induction each with
  | nil => simp
  | @cons entry a weights start first _ ih =>
    obtain ⟨nonneg, bounded⟩ := ih fun other later => listed other (List.mem_cons_of_mem _ later)
    unfold BudgetAllocator.allocationFor at first
    cases share : floats.share request.preferredTokenBudget entry.2 with
    | error e =>
      rw [share] at first
      cases first
    | ok tokens =>
      rw [share] at first
      cases first
      obtain ⟨above, below⟩ := within entry (listed entry (List.mem_cons_self ..)) tokens share
      refine ⟨List.forall_mem_cons.mpr ⟨above, nonneg⟩, ?_⟩
      rw [List.map_cons, List.map_cons, List.sum_cons, List.sum_cons, Nat.cast_add, Int.mul_add, Int.mul_add]
      show 100 * tokens + 100 * _ ≤ _
      omega

theorem allocated_within (within : SharesWithin floats request.preferredTokenBudget) (preferred : 0 ≤ request.preferredTokenBudget)
    (allocated : BudgetAllocator.allocate floats request.preferredTokenBudget ranked = .ok start) :
    (∀ a ∈ start, 0 ≤ a.allocatedTokens) ∧ (start.map (·.allocatedTokens)).sum ≤ request.preferredTokenBudget := by
  obtain ⟨nonneg, bounded⟩ :=
    allocated_sum_le within (fun entry member => (List.mem_filter.mp member).1) (Checked.forall₂_of_mapM allocated)
  have weights : ((BudgetAllocator.defaultWeights.filter fun entry => (ranked.map (·.category)).contains entry.1).map Prod.snd).sum ≤ 100 :=
    (List.filter_sublist.map Prod.snd).sum_le_sum fun _ _ => Nat.zero_le _
  refine ⟨nonneg, ?_⟩
  have scaled := Int.mul_le_mul_of_nonneg_left (Int.ofNat_le.mpr weights) preferred
  push_cast at scaled bounded
  omega

/-! ### What fits -/

theorem remains_iff {c : ContextCandidate σ} (shared : Shared floats request ranked start) (member : c ∈ ranked)
    (handled : List (ContextCandidate σ)) :
    (∀ a ∈ (settled floats request start handled).allocations, a.category = c.category → 0 < a.remaining) ↔
      (allowances floats request).Open handled c := by
  have remains : ∀ a ∈ start, a.category = c.category →
      (0 < max 0 (a.allocatedTokens - (allowances floats request).demand a.category ((allowances floats request).kept handled)) ↔
        (allowances floats request).Open handled c) := by
    intro a isStart own
    rw [(allowances floats request).open_iff, shared.share a isStart, own]
    show _ ↔ (allowances floats request).demand c.category _ < shareOf floats request.preferredTokenBudget c.category
    omega
  constructor
  · intro each
    obtain ⟨a, isStart, own⟩ := List.mem_map.mp (shared.covers c member)
    exact (remains a isStart own).mp (each _ (List.mem_map_of_mem isStart) own)
  · intro isOpen charged isCharged own
    obtain ⟨a, isStart, rfl⟩ := List.mem_map.mp isCharged
    exact (remains a isStart own).mpr isOpen

theorem keepsWhatFits_iff_fair (shared : Shared floats request ranked start) :
    KeepsWhatFits floats request ranked start (buildCapsule floats.estimate request ranked start) ↔
      (allowances floats request).Fair (priced floats.estimate) ranked := by
  refine forall_congr' fun earlier => forall_congr' fun c => forall_congr' fun later => forall_congr' fun split => ?_
  have before : fill floats.estimate request.maxTotalTokens earlier { allocations := start } = _ :=
    fill_start shared fun d member => split ▸ List.mem_append_left _ member
  have member : c ∈ ranked := split ▸ List.mem_append_right _ (List.mem_cons_self ..)
  have turn := remains_iff shared member ((allowances floats request).handled earlier)
  rw [Allowances.open_iff] at turn
  rw [before, buildCapsule_candidates shared]
  exact imp_congr turn Iff.rfl

theorem keepsTask_iff (shared : Shared floats request ranked start) {task : ContextCandidate σ} (member : task ∈ ranked) :
    KeepsTask floats request task (buildCapsule floats.estimate request ranked start) ↔ TaskHasTurn floats request ranked task := by
  have positive : (∀ a ∈ (buildCapsule floats.estimate request ranked start).allocations, a.category = task.category →
      0 < a.allocatedTokens) ↔ 0 < shareOf floats request.preferredTokenBudget task.category := by
    rw [buildCapsule_allocations shared]
    constructor
    · intro each
      obtain ⟨a, isStart, own⟩ := List.mem_map.mp (shared.covers task member)
      have isPositive := each _ (List.mem_map_of_mem isStart) own
      rw [← own, ← shared.share a isStart]
      exact isPositive
    · intro isPositive charged isCharged own
      obtain ⟨a, isStart, rfl⟩ := List.mem_map.mp isCharged
      have own' : a.category = task.category := own
      rw [← own', ← shared.share a isStart] at isPositive
      exact isPositive
  unfold KeepsTask TaskHasTurn
  rw [positive, buildCapsule_candidates shared]
  refine forall_congr' fun _ => forall_congr' fun _ => ?_
  constructor
  · intro isKept
    obtain ⟨c, taken, same⟩ := List.mem_map.mp isKept
    obtain ⟨earlier, later, split, isOpen, fits⟩ := (allowances floats request).mem_kept_handled_iff.mp taken
    exact ⟨earlier, c, later, split, same, isOpen, fits⟩
  · rintro ⟨earlier, c, later, split, same, isOpen, fits⟩
    exact List.mem_map.mpr ⟨c, (allowances floats request).mem_kept_handled_iff.mpr ⟨earlier, later, split, isOpen, fits⟩, same⟩

end Built

variable [LT σ] [DecidableLT σ] [BEq σ]

theorem build_eq_ok {floats : FloatArithmetic} {request : ContextRequest} {gathered : List (ContextCandidate σ)}
    {capsule : ContextCapsule σ} (built : build floats request gathered = .ok capsule) :
    ∃ start, BudgetAllocator.allocate floats request.preferredTokenBudget (ContextRanker.rank gathered) = .ok start ∧
      capsule = buildCapsule floats.estimate request (ContextRanker.rank gathered) start := by
  obtain ⟨start, allocated, isCapsule⟩ := Checked.bind_eq_ok.mp built
  exact ⟨start, allocated, (Except.ok.inj isCapsule).symm⟩

theorem exactArithmetic_within (total : Int) (positive : 0 ≤ total) : SharesWithin exactArithmetic total := by
  intro entry _ tokens share
  obtain rfl : total * entry.2 / 100 = tokens := Except.ok.inj share
  have exact : 0 ≤ total * (entry.2 : Int) := Int.mul_nonneg positive (Int.natCast_nonneg _)
  omega

/-- A document node of the knowledge graph, which the retrieval ranks above the task. -/
def largeHit : ContextCandidate Nat :=
  { entityId := .v4 1, entityType := "DocumentNode", content := "how the login works", relevanceScore := 110, trustScore := 50
    freshness := 50, category := .architecture }

theorem rank_largeHit : ContextRanker.rank [taskCandidate, largeHit] = [largeHit, taskCandidate] := by
  simp [ContextRanker.rank, List.mergeSort, List.MergeSort.Internal.splitInTwo, ContextRanker.below, taskCandidate, largeHit]

end Brain.ContextEngineService
