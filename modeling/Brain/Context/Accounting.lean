import Brain.Application.ContextEngine
import Brain.Lib.Checked
import Mathlib

namespace Brain.ContextEngineService
variable {σ : Type}

def spent (category : ContextCategory) (candidates : List (ContextCandidate σ)) : Int :=
  ((candidates.filter (·.category = category)).map (·.tokenEstimate)).sum

def priced (estimate : String → Int) (candidate : ContextCandidate σ) : ContextCandidate σ :=
  { candidate with tokenEstimate := estimate candidate.content }

def taken (estimate : String → Int) (turns : List (ContextCandidate σ × Bool)) : List (ContextCandidate σ) :=
  (turns.filter (·.2)).map fun turn => priced estimate turn.1

/-- A candidate was passed over because the earlier ones of its category have
used up what was allocated. -/
def PassedOver (estimate : String → Int) (allocations : List BudgetAllocation) (turns : List (ContextCandidate σ × Bool)) : Prop :=
  ∀ earlier candidate later, turns = earlier ++ (candidate, false) :: later →
    ∃ a ∈ allocations, a.category = candidate.category ∧ a.allocatedTokens ≤ spent candidate.category (taken estimate earlier)

/-- The accounts of a capsule. The turns of the loop go over the ranked list up
to the stopping point. -/
structure Accounted (estimate : String → Int) (request : ContextRequest) (ranked : List (ContextCandidate σ))
    (capsule : ContextCapsule σ) : Prop where
  subsequence : ∃ kept : List (ContextCandidate σ), kept.Sublist ranked ∧ capsule.candidates = kept.map (priced estimate)
  used : ∀ a ∈ capsule.allocations, a.usedTokens = spent a.category capsule.candidates
  total : capsule.totalTokens = (capsule.allocations.map (·.usedTokens)).sum
  bounded : capsule.totalTokens ≤ request.maxTotalTokens
  passedOver : ∃ turns rest, ranked = turns.map Prod.fst ++ rest ∧ capsule.candidates = taken estimate turns ∧
    PassedOver estimate capsule.allocations turns ∧
    ∀ next, rest.head? = some next → request.maxTotalTokens < capsule.totalTokens + estimate next.content

/-! ### Charging an allocation -/

variable {allocations : List BudgetAllocation}

theorem charge_map (nodup : (allocations.map (·.category)).Nodup) (category : ContextCategory) (tokens : Int)
    (used : ContextCategory → Int) :
    charge category tokens (allocations.map fun a => { a with usedTokens := used a.category }) =
      allocations.map fun a => { a with usedTokens := if a.category = category then used a.category + tokens else used a.category } := by
  induction allocations with
  | nil => rfl
  | cons a allocations ih =>
    rw [List.map_cons, List.nodup_cons] at nodup
    rw [List.map_cons, List.map_cons, charge]
    split
    · rename_i own
      have others : ∀ b ∈ allocations, b.category ≠ category := by
        intro b member same
        exact nodup.1 (List.mem_map.mpr ⟨b, member, same.trans own.symm⟩)
      refine congrArg _ (List.map_congr_left fun b member => ?_)
      rw [if_neg (others b member)]
    · rw [ih nodup.2]

theorem spent_append (category : ContextCategory) (candidates rest : List (ContextCandidate σ)) :
    spent category (candidates ++ rest) = spent category candidates + spent category rest := by
  rw [spent, List.filter_append, List.map_append, List.sum_append]
  rfl

theorem spent_singleton (category : ContextCategory) (candidate : ContextCandidate σ) :
    spent category [candidate] = if candidate.category = category then candidate.tokenEstimate else 0 := by
  unfold spent
  by_cases own : candidate.category = category <;> simp [own]

theorem sum_spent_singleton (nodup : (allocations.map (·.category)).Nodup) {candidate : ContextCandidate σ}
    (listed : candidate.category ∈ allocations.map (·.category)) :
    (allocations.map fun a => spent a.category [candidate]).sum = candidate.tokenEstimate := by
  induction allocations with
  | nil => cases listed
  | cons a allocations ih =>
    rw [List.map_cons, List.nodup_cons] at nodup
    rw [List.map_cons, List.sum_cons, spent_singleton]
    by_cases own : candidate.category = a.category
    · have nothing : (allocations.map fun b => spent b.category [candidate]).sum = 0 := by
        apply List.sum_eq_zero
        intro tokens member
        obtain ⟨b, isOther, rfl⟩ := List.mem_map.mp member
        have other : candidate.category ≠ b.category := fun same =>
          nodup.1 (List.mem_map.mpr ⟨b, isOther, same.symm.trans own⟩)
        rw [spent_singleton, if_neg other]
      rw [if_pos own, nothing, Int.add_zero]
    · have later : candidate.category ∈ allocations.map (·.category) := (List.mem_cons.mp listed).resolve_left own
      rw [if_neg own, ih nodup.2 later, Int.zero_add]

theorem sum_spent (nodup : (allocations.map (·.category)).Nodup) {candidates : List (ContextCandidate σ)}
    (listed : ∀ c ∈ candidates, c.category ∈ allocations.map (·.category)) :
    (allocations.map fun a => spent a.category candidates).sum = (candidates.map (·.tokenEstimate)).sum := by
  induction candidates with
  | nil => simp [spent]
  | cons c candidates ih =>
    have split : ∀ a : BudgetAllocation, spent a.category (c :: candidates) = spent a.category [c] + spent a.category candidates :=
      fun a => spent_append a.category [c] candidates
    simp only [split, List.sum_map_add]
    rw [sum_spent_singleton nodup (listed c (List.mem_cons_self ..)), ih fun d later => listed d (List.mem_cons_of_mem _ later),
      List.map_cons, List.sum_cons]

/-! ### The loop -/

section Loop
variable {estimate : String → Int} {budget : Int} {start : List BudgetAllocation}

/-- What holds after some turns of the loop. -/
structure Balanced (estimate : String → Int) (budget : Int) (start : List BudgetAllocation)
    (turns : List (ContextCandidate σ × Bool)) (state : Filling σ) : Prop where
  included : state.included = taken estimate turns
  total : state.total = (state.included.map (·.tokenEstimate)).sum
  bounded : state.total ≤ budget
  allocations : state.allocations = start.map fun a => { a with usedTokens := spent a.category state.included }
  passedOver : PassedOver estimate start turns

theorem taken_append (turns rest : List (ContextCandidate σ × Bool)) :
    taken estimate (turns ++ rest) = taken estimate turns ++ taken estimate rest := by
  rw [taken, List.filter_append, List.map_append]
  rfl

variable {turns : List (ContextCandidate σ × Bool)}

theorem passedOver_append {turn : ContextCandidate σ × Bool} (before : PassedOver estimate start turns)
    (last : turn.2 = false → ∃ a ∈ start, a.category = turn.1.category ∧
      a.allocatedTokens ≤ spent turn.1.category (taken estimate turns)) : PassedOver estimate start (turns ++ [turn]) := by
  intro earlier candidate later split
  rcases List.eq_nil_or_concat later with rfl | ⟨later, final, rfl⟩
  · obtain ⟨rfl, same⟩ := List.append_inj' split rfl
    obtain rfl := List.singleton_inj.mp same
    exact last rfl
  · have split' : turns ++ [turn] = (earlier ++ (candidate, false) :: later) ++ [final] := by simpa using split
    exact before earlier candidate later (List.append_inj' split' rfl).1

variable {state : Filling σ}

theorem Balanced.pass (balanced : Balanced estimate budget start turns state) {candidate : ContextCandidate σ}
    (exhausted : (state.allocations.find? (·.category = candidate.category)).any (·.remaining ≤ 0) = true) :
    Balanced estimate budget start (turns ++ [(candidate, false)]) state := by
  have nothing : taken estimate [(candidate, false)] = [] := rfl
  refine { balanced with
    included := by rw [taken_append, nothing, List.append_nil, balanced.included]
    passedOver := passedOver_append balanced.passedOver fun _ => ?_ }
  obtain ⟨a, found, spentUp⟩ := (Option.any_eq_true _ _).mp exhausted
  have own := List.find?_some found
  have member := List.mem_of_find?_eq_some found
  rw [balanced.allocations] at member
  obtain ⟨b, isStart, rfl⟩ := List.mem_map.mp member
  simp only [decide_eq_true_eq, BudgetAllocation.remaining] at own spentUp
  have within := Int.le_trans (Int.le_max_right ..) (of_decide_eq_true spentUp)
  refine ⟨b, isStart, own, ?_⟩
  rw [← balanced.included, ← own]
  omega

theorem Balanced.take (balanced : Balanced estimate budget start turns state)
    (nodup : (start.map (·.category)).Nodup) {candidate : ContextCandidate σ}
    (fits : ¬ state.total + estimate candidate.content > budget) :
    Balanced estimate budget start (turns ++ [(candidate, true)])
      { included := state.included ++ [{ candidate with tokenEstimate := estimate candidate.content }]
        total := state.total + estimate candidate.content
        allocations := charge candidate.category (estimate candidate.content) state.allocations } where
  included := by
    rw [taken_append, balanced.included]
    rfl
  total := by rw [balanced.total, List.map_append, List.sum_append, List.map_singleton, List.sum_singleton]
  bounded := Int.not_lt.mp fits
  allocations := by
    show charge candidate.category (estimate candidate.content) state.allocations = _
    rw [balanced.allocations, charge_map nodup candidate.category _ fun category => spent category state.included]
    refine List.map_congr_left fun a _ => ?_
    rw [spent_append, spent_singleton]
    by_cases own : a.category = candidate.category
    · rw [if_pos own, if_pos own.symm]
    · rw [if_neg own, if_neg (Ne.symm own), Int.add_zero]
  passedOver := passedOver_append balanced.passedOver fun isFalse => absurd isFalse (by simp)

theorem fill_balanced (nodup : (start.map (·.category)).Nodup)
    (balanced : Balanced estimate budget start turns state) (ranked : List (ContextCandidate σ)) :
    ∃ more rest, ranked = more.map Prod.fst ++ rest ∧
      Balanced estimate budget start (turns ++ more) (fill estimate budget ranked state) ∧
      ∀ next, rest.head? = some next → budget < (fill estimate budget ranked state).total + estimate next.content := by
  induction ranked generalizing turns state with
  | nil =>
    refine ⟨[], [], rfl, ?_, fun next isHead => nomatch isHead⟩
    rw [List.append_nil]
    exact balanced
  | cons candidate ranked ih =>
    by_cases exhausted : (state.allocations.find? (·.category = candidate.category)).any (·.remaining ≤ 0) = true
    · have step : fill estimate budget (candidate :: ranked) state = fill estimate budget ranked state := by
        rw [fill]
        exact if_pos exhausted
      rw [step]
      obtain ⟨more, rest, split, after, stops⟩ := ih (balanced.pass exhausted)
      refine ⟨(candidate, false) :: more, rest, by rw [split]; rfl, ?_, stops⟩
      rwa [List.append_assoc] at after
    by_cases tooMuch : state.total + estimate candidate.content > budget
    · have step : fill estimate budget (candidate :: ranked) state = state := by
        rw [fill]
        exact (if_neg exhausted).trans (if_pos tooMuch)
      rw [step]
      refine ⟨[], candidate :: ranked, rfl, ?_, fun next isHead => ?_⟩
      · rw [List.append_nil]
        exact balanced
      · obtain rfl := Option.some.inj isHead
        exact tooMuch
    · have step : fill estimate budget (candidate :: ranked) state = fill estimate budget ranked
          { included := state.included ++ [{ candidate with tokenEstimate := estimate candidate.content }]
            total := state.total + estimate candidate.content
            allocations := charge candidate.category (estimate candidate.content) state.allocations } := by
        rw [fill]
        exact (if_neg exhausted).trans (if_neg tooMuch)
      rw [step]
      obtain ⟨more, rest, split, after, stops⟩ := ih (balanced.take nodup tooMuch)
      refine ⟨(candidate, true) :: more, rest, by rw [split]; rfl, ?_, stops⟩
      rwa [List.append_assoc] at after

end Loop

theorem defaultWeights_all (category : ContextCategory) : category ∈ BudgetAllocator.defaultWeights.map Prod.fst := by
  cases category <;> decide

variable {floats : FloatArithmetic}

theorem allocationFor_ok {total : Int} {entry : ContextCategory × Nat} {a : BudgetAllocation}
    (allocated : BudgetAllocator.allocationFor floats total entry = .ok a) : a.category = entry.1 ∧ a.usedTokens = 0 := by
  unfold BudgetAllocator.allocationFor at allocated
  cases share : floats.share total entry.2 with
  | error e =>
    rw [share] at allocated
    cases allocated
  | ok tokens =>
    rw [share] at allocated
    cases allocated
    exact ⟨rfl, rfl⟩

theorem allocations_of_weights {total : Int} {weights : List (ContextCategory × Nat)}
    (each : List.Forall₂ (fun entry a => BudgetAllocator.allocationFor floats total entry = .ok a) weights allocations) :
    allocations.map (·.category) = weights.map Prod.fst ∧ ∀ a ∈ allocations, a.usedTokens = 0 := by
  induction each with
  | nil => exact ⟨rfl, fun a member => absurd member List.not_mem_nil⟩
  | cons first _ ih =>
    obtain ⟨category, unused⟩ := allocationFor_ok first
    exact ⟨by rw [List.map_cons, List.map_cons, ih.1, category], List.forall_mem_cons.mpr ⟨unused, ih.2⟩⟩

theorem allocate_ok {total : Int} {candidates : List (ContextCandidate σ)}
    (allocated : BudgetAllocator.allocate floats total candidates = .ok allocations) :
    (allocations.map (·.category)).Nodup ∧ (∀ c ∈ candidates, c.category ∈ allocations.map (·.category)) ∧
      ∀ a ∈ allocations, a.usedTokens = 0 := by
  obtain ⟨categories, unused⟩ := allocations_of_weights (Checked.forall₂_of_mapM allocated)
  refine ⟨?_, fun c member => ?_, unused⟩
  · rw [categories]
    exact (List.filter_sublist.map Prod.fst).nodup (by decide)
  · rw [categories]
    obtain ⟨entry, listed, same⟩ := List.mem_map.mp (defaultWeights_all c.category)
    refine List.mem_map.mpr ⟨entry, List.mem_filter.mpr ⟨listed, ?_⟩, same⟩
    rw [same, List.contains_iff_mem]
    exact List.mem_map_of_mem member

theorem buildCapsule_accounted {estimate : String → Int} {request : ContextRequest} {ranked : List (ContextCandidate σ)}
    (nodup : (allocations.map (·.category)).Nodup)
    (listed : ∀ c ∈ ranked, c.category ∈ allocations.map (·.category)) (unused : ∀ a ∈ allocations, a.usedTokens = 0)
    (budget : 0 ≤ request.maxTotalTokens) :
    Accounted estimate request ranked (buildCapsule estimate request ranked allocations) := by
  have start : Balanced estimate request.maxTotalTokens allocations [] ({ allocations } : Filling σ) := {
    included := rfl
    total := rfl
    bounded := budget
    allocations := by
      refine (List.map_id _).symm.trans (List.map_congr_left fun a member => ?_)
      show a = { a with usedTokens := 0 }
      rw [← unused a member]
    passedOver := by
      intro earlier candidate later split
      simp at split }
  obtain ⟨turns, rest, split, after, stops⟩ := fill_balanced nodup start ranked
  rw [List.nil_append] at after
  have among : ∀ turn ∈ turns, turn.1 ∈ ranked := by
    intro turn member
    rw [split]
    exact List.mem_append_left _ (List.mem_map_of_mem member)
  have isAllocated : ∀ c ∈ (fill estimate request.maxTotalTokens ranked { allocations }).included,
      c.category ∈ allocations.map (·.category) := by
    intro c member
    rw [after.included] at member
    obtain ⟨turn, isTurn, rfl⟩ := List.mem_map.mp member
    exact listed turn.1 (among turn (List.mem_filter.mp isTurn).1)
  refine {
    subsequence := ?_
    used := ?_
    total := ?_
    bounded := after.bounded
    passedOver := ⟨turns, rest, split, after.included, ?_, stops⟩ }
  · refine ⟨(turns.filter (·.2)).map Prod.fst, ?_, ?_⟩
    · rw [split]
      exact (List.filter_sublist.map Prod.fst).trans (List.sublist_append_left _ _)
    · rw [List.map_map]
      exact after.included
  · intro a member
    have charged : a ∈ (fill estimate request.maxTotalTokens ranked { allocations }).allocations := member
    rw [after.allocations] at charged
    obtain ⟨b, _, rfl⟩ := List.mem_map.mp charged
    rfl
  · have used := congrArg (List.map fun a : BudgetAllocation => a.usedTokens) after.allocations
    rw [List.map_map] at used
    show (fill estimate request.maxTotalTokens ranked { allocations }).total = _
    rw [after.total, ← sum_spent nodup isAllocated]
    exact congrArg List.sum used.symm
  · intro earlier candidate later isSplit
    obtain ⟨a, member, own, exhausted⟩ := after.passedOver earlier candidate later isSplit
    have charged : { a with usedTokens := spent a.category (fill estimate request.maxTotalTokens ranked { allocations }).included } ∈
        (fill estimate request.maxTotalTokens ranked { allocations }).allocations := by
      rw [after.allocations]
      exact List.mem_map_of_mem (f := fun a : BudgetAllocation =>
        { a with usedTokens := spent a.category (fill estimate request.maxTotalTokens ranked { allocations }).included }) member
    exact ⟨_, charged, own, exhausted⟩

variable [LT σ] [DecidableLT σ] [BEq σ]

def exactArithmetic : FloatArithmetic where
  share total weight := .ok (total * weight / 100)
  tokens chars words := (chars * 25 + words * 13 + 99) / 100

def taskCandidate : ContextCandidate Nat :=
  { entityId := .v4 0, entityType := "WorkItem", content := "fix the login", relevanceScore := 100, trustScore := 100
    freshness := 50, category := .task }

theorem taskCandidate_built :
    build exactArithmetic { workItemId := .v4 0 } [taskCandidate] =
      .ok (buildCapsule exactArithmetic.estimate { workItemId := .v4 0 } [taskCandidate] [{ category := .task, allocatedTokens := 1200 }]) := by
  have ranked : ContextRanker.rank [taskCandidate] = [taskCandidate] := by simp [ContextRanker.rank]
  unfold build
  rw [ranked]
  rfl

end Brain.ContextEngineService
