import Brain.Application.CodeIntelligence
import Brain.Application.Runtime
import Mathlib.Data.Multiset.Basic
import Mathlib.Data.List.Perm.Basic

namespace Brain

/-- A test as it is selected, whatever the order of its reasons. -/
def TargetedTest.view (test : TargetedTest) : String × String × Nat × Multiset String :=
  (test.testName, test.path, test.score, test.reasons)

namespace Selecting
variable {path : String → String} {acc acc' : Selecting}

theorem entry_name (acc : Selecting) (path : String → String) (name : String) : (acc.entry path name).testName = name := by
  unfold entry
  cases found : acc.selected.get name with
  | none => rfl
  | some test => exact (Keyed.get_eq_some.mp found).2

def withHits (test : TargetedTest) (hits : List (String × String)) : TargetedTest :=
  { test with
    reasons := test.reasons ++ hits.map fun hit => callGraphReason hit.1
    score := test.score + 5 * hits.length }

theorem get_addStatic (acc : Selecting) (path : String → String) (hit : String × String) (name : String) :
    (acc.addStatic path hit).selected.get name =
      if hit.2 = name then some (withHits (acc.entry path name) [hit]) else acc.selected.get name := by
  have isName := entry_name acc path hit.2
  unfold addStatic
  rw [Keyed.get_upsert]
  by_cases same : hit.2 = name
  · subst same
    rw [if_pos isName.symm, if_pos rfl]
    rfl
  · rw [if_neg same, if_neg]
    exact fun other => same (isName.symm.trans other.symm)

theorem get_foldl_addStatic (hits : List (String × String)) (acc : Selecting) (path : String → String) (name : String) :
    (hits.foldl (fun acc hit => acc.addStatic path hit) acc).selected.get name =
      if hits.filter (·.2 = name) = [] then acc.selected.get name
      else some (withHits (acc.entry path name) (hits.filter (·.2 = name))) := by
  induction hits generalizing acc with
  | nil => rfl
  | cons hit hits ih =>
    rw [List.foldl_cons, ih]
    have step := get_addStatic acc path hit name
    by_cases same : hit.2 = name
    · rw [if_pos same] at step
      have entered : (acc.addStatic path hit).entry path name = withHits (acc.entry path name) [hit] := by
        unfold entry
        rw [step]
        rfl
      rw [List.filter_cons_of_pos (by simpa using same), step, entered]
      by_cases none : hits.filter (·.2 = name) = []
      · rw [if_pos none, none, if_neg (List.cons_ne_nil _ _)]
      · rw [if_neg none, if_neg (List.cons_ne_nil _ _)]
        simp only [withHits, List.map_cons, List.map_nil, List.length_cons, List.length_nil, List.append_assoc,
          List.singleton_append, Option.some.injEq, TargetedTest.mk.injEq, true_and]
        omega
    · rw [if_neg same] at step
      have entered : (acc.addStatic path hit).entry path name = acc.entry path name := by
        unfold entry
        rw [step]
      rw [List.filter_cons_of_neg (by simpa using same), step, entered]

/-- No reason of a selection stops the loop over the covered tests. -/
def Reasoned (acc : Selecting) : Prop := ∀ test ∈ acc.selected.items, "runtime coverage" ∉ test.reasons

theorem Reasoned.entry (reasoned : acc.Reasoned) (path : String → String) (name : String) :
    "runtime coverage" ∉ (acc.entry path name).reasons := by
  unfold Selecting.entry
  cases found : acc.selected.get name with
  | none => simp
  | some test => exact reasoned test (Keyed.get_eq_some.mp found).1

theorem callGraphReason_ne (changed : String) : callGraphReason changed ≠ "runtime coverage" := by
  intro same
  have first := congrArg (fun reason : String => reason.toList.head?) same
  simp [callGraphReason] at first

theorem Reasoned.addStatic (reasoned : acc.Reasoned) (hit : String × String) : (acc.addStatic path hit).Reasoned := by
  intro test member
  rcases Keyed.mem_upsert.mp member with rfl | ⟨old, _⟩
  · intro inReasons
    rcases List.mem_append.mp inReasons with before | new
    · exact reasoned.entry path hit.2 before
    · exact callGraphReason_ne hit.1 (List.mem_singleton.mp new).symm
  · exact reasoned test old

def withCoverage (test : TargetedTest) : TargetedTest :=
  { test with reasons := test.reasons ++ ["exercised changed symbols at runtime"], score := test.score + 8 }

theorem addCovered_eq (reasoned : acc.Reasoned) (path : String → String) (name : String) :
    acc.addCovered path name =
      { acc with selected := acc.selected.upsert (withCoverage (acc.entry path name)), viaRuntime := acc.viaRuntime + 1 } := by
  unfold addCovered
  rw [if_neg (by simpa using reasoned.entry path name)]
  rfl

theorem Reasoned.addCovered (reasoned : acc.Reasoned) (name : String) : (acc.addCovered path name).Reasoned := by
  rw [addCovered_eq reasoned]
  intro test member
  rcases Keyed.mem_upsert.mp member with rfl | ⟨old, _⟩
  · intro inReasons
    rcases List.mem_append.mp inReasons with before | new
    · exact reasoned.entry path name before
    · exact absurd (List.mem_singleton.mp new) (by decide)
  · exact reasoned test old

theorem foldl_addCovered (names : List String) (acc : Selecting) (path : String → String) (reasoned : acc.Reasoned)
    (nodup : names.Nodup) :
    (∀ name, (names.foldl (fun acc name => acc.addCovered path name) acc).selected.get name =
      if name ∈ names then some (withCoverage (acc.entry path name)) else acc.selected.get name) ∧
    (names.foldl (fun acc name => acc.addCovered path name) acc).viaRuntime = acc.viaRuntime + names.length ∧
    (names.foldl (fun acc name => acc.addCovered path name) acc).viaCallGraph = acc.viaCallGraph ∧
    (names.foldl (fun acc name => acc.addCovered path name) acc).viaHistory = acc.viaHistory := by
  induction names generalizing acc with
  | nil => exact ⟨fun name => by simp, rfl, rfl, rfl⟩
  | cons first names ih =>
    obtain ⟨absent, nodup⟩ := List.nodup_cons.mp nodup
    have step := addCovered_eq reasoned path first
    have reasoned' : (acc.addCovered path first).Reasoned := reasoned.addCovered first
    obtain ⟨gets, runtime, callGraph, history⟩ := ih _ reasoned' nodup
    have isName : (withCoverage (acc.entry path first)).testName = first := entry_name acc path first
    have get : ∀ name, (acc.addCovered path first).selected.get name =
        if name = first then some (withCoverage (acc.entry path first)) else acc.selected.get name := by
      intro name
      rw [step, Keyed.get_upsert, isName]
    refine ⟨?_, ?_, ?_, ?_⟩
    · intro name
      rw [List.foldl_cons, gets name, get name]
      by_cases same : name = first
      · subst same
        simp [absent]
      · have entered : (acc.addCovered path first).entry path name = acc.entry path name := by
          unfold Selecting.entry
          rw [get name, if_neg same]
        rw [entered, if_neg same]
        simp [same]
    · have counted : (acc.addCovered path first).viaRuntime = acc.viaRuntime + 1 := by rw [step]
      rw [List.foldl_cons, runtime, counted, List.length_cons]
      omega
    · rw [List.foldl_cons, callGraph, step]
    · rw [List.foldl_cons, history, step]

theorem get_foldl_addHistorical (names : List String) (acc : Selecting) (path : String → String) (name : String) :
    (names.foldl (fun acc name => acc.addHistorical path name) acc).selected.get name =
      (acc.selected.get name).or (if name ∈ names then
        some { testName := name, path := path name, reasons := ["historical failure"], score := 3 } else none) := by
  induction names generalizing acc with
  | nil => simp
  | cons first names ih =>
    have step : (acc.addHistorical path first).selected.get name = (acc.selected.get name).or (if name = first then
        some { testName := name, path := path name, reasons := ["historical failure"], score := 3 } else none) := by
      unfold addHistorical
      cases found : acc.selected.get first with
      | some test =>
        by_cases same : name = first
        · rw [same, found]
          rfl
        · simp [same]
      | none =>
        by_cases same : name = first
        · subst same
          rw [Keyed.get_upsert]
          simp [found]
        · rw [Keyed.get_upsert]
          simp [same]
    rw [List.foldl_cons, ih, step]
    by_cases same : name = first <;> by_cases later : name ∈ names <;> cases acc.selected.get name <;> simp [same, later]

/-! ### The counters -/

theorem length_upsert (selected : Keyed TargetedTest.testName) (test : TargetedTest) :
    (selected.upsert test).items.length =
      selected.items.length + if (selected.get test.testName).isNone then 1 else 0 := by
  cases found : selected.get test.testName with
  | none =>
    have fresh := Keyed.get_eq_none.mp found
    rw [Keyed.items_upsert_fresh fresh]
    simp
  | some old =>
    obtain ⟨stored, same⟩ := Keyed.get_eq_some.mp found
    have keys := Keyed.map_upsert (a := test) TargetedTest.testName stored same same
    have lengths := congrArg List.length keys
    simpa using lengths

theorem viaCallGraph_foldl (hits : List (String × String)) (acc : Selecting) (path : String → String)
    (counted : acc.viaCallGraph = acc.selected.items.length) :
    (hits.foldl (fun acc hit => acc.addStatic path hit) acc).viaCallGraph =
      (hits.foldl (fun acc hit => acc.addStatic path hit) acc).selected.items.length := by
  induction hits generalizing acc with
  | nil => exact counted
  | cons hit hits ih =>
    refine ih (acc.addStatic path hit) ?_
    have isName := entry_name acc path hit.2
    unfold addStatic
    rw [length_upsert, counted]
    simp only [isName]

theorem viaHistory_foldl (names : List String) (acc : Selecting) (path : String → String) :
    (names.foldl (fun acc name => acc.addHistorical path name) acc).viaHistory + acc.selected.items.length =
      acc.viaHistory + (names.foldl (fun acc name => acc.addHistorical path name) acc).selected.items.length ∧
    (names.foldl (fun acc name => acc.addHistorical path name) acc).viaCallGraph = acc.viaCallGraph ∧
    (names.foldl (fun acc name => acc.addHistorical path name) acc).viaRuntime = acc.viaRuntime := by
  induction names generalizing acc with
  | nil => exact ⟨rfl, rfl, rfl⟩
  | cons first names ih =>
    obtain ⟨history, callGraph, runtime⟩ := ih (acc.addHistorical path first)
    rw [List.foldl_cons]
    have step : (acc.addHistorical path first).viaHistory + acc.selected.items.length =
        acc.viaHistory + (acc.addHistorical path first).selected.items.length ∧
        (acc.addHistorical path first).viaCallGraph = acc.viaCallGraph ∧
        (acc.addHistorical path first).viaRuntime = acc.viaRuntime := by
      unfold addHistorical
      cases found : acc.selected.get first with
      | some test => exact ⟨rfl, rfl, rfl⟩
      | none =>
        refine ⟨?_, rfl, rfl⟩
        show acc.viaHistory + 1 + _ = acc.viaHistory + (acc.selected.upsert _).items.length
        rw [length_upsert, found]
        simp only [Option.isNone_none, if_true]
        omega
    exact ⟨by omega, callGraph.trans step.2.1, runtime.trans step.2.2⟩

/-! ### What does not depend on orders -/

/-- Both selections have the same tests, up to the orders of tests and reasons. -/
def SameViews (acc acc' : Selecting) : Prop :=
  ∀ name, (acc.selected.get name).map TargetedTest.view = (acc'.selected.get name).map TargetedTest.view

theorem SameViews.entry (same : SameViews acc acc') (path : String → String) (name : String) :
    (acc.entry path name).view = (acc'.entry path name).view := by
  have here := same name
  unfold Selecting.entry
  cases found : acc.selected.get name with
  | none =>
    rw [found] at here
    rw [Option.map_eq_none_iff.mp here.symm]
  | some test =>
    rw [found] at here
    obtain ⟨test', found', isView⟩ := Option.map_eq_some_iff.mp here.symm
    rw [found']
    exact isView.symm

theorem view_withHits (test : TargetedTest) {hits hits' : List (String × String)} (perm : hits.Perm hits') :
    (withHits test hits).view = (withHits test hits').view := by
  have reasons : (test.reasons ++ hits.map fun hit => callGraphReason hit.1).Perm
      (test.reasons ++ hits'.map fun hit => callGraphReason hit.1) := (perm.map _).append_left _
  simp only [TargetedTest.view, withHits, Prod.mk.injEq, true_and, perm.length_eq]
  exact Multiset.coe_eq_coe.mpr reasons

theorem view_withCoverage {test test' : TargetedTest} (same : test.view = test'.view) :
    (withCoverage test).view = (withCoverage test').view := by
  simp only [TargetedTest.view, Prod.mk.injEq, Multiset.coe_eq_coe] at same
  obtain ⟨name, path, score, reasons⟩ := same
  simp only [TargetedTest.view, withCoverage, name, path, score, Prod.mk.injEq, Multiset.coe_eq_coe, true_and]
  exact reasons.append_right _

theorem SameViews.perm (same : SameViews acc acc') :
    (acc.selected.items.map TargetedTest.view).Perm (acc'.selected.items.map TargetedTest.view) := by
  have nodup : ∀ acc : Selecting, (acc.selected.items.map TargetedTest.view).Nodup := by
    intro acc
    have names : (acc.selected.items.map TargetedTest.view).map Prod.fst = acc.selected.items.map TargetedTest.testName := by
      rw [List.map_map]
      rfl
    exact List.Nodup.of_map Prod.fst (names ▸ acc.selected.nodup)
  have member : ∀ (acc : Selecting) view, view ∈ acc.selected.items.map TargetedTest.view ↔
      (acc.selected.get view.1).map TargetedTest.view = some view := by
    intro acc view
    rw [List.mem_map, Option.map_eq_some_iff]
    constructor
    · rintro ⟨test, stored, rfl⟩
      exact ⟨test, Keyed.get_eq_some.mpr ⟨stored, rfl⟩, rfl⟩
    · rintro ⟨test, found, isView⟩
      exact ⟨test, (Keyed.get_eq_some.mp found).1, isView⟩
  refine (List.perm_ext_iff_of_nodup (nodup acc) (nodup acc')).mpr fun view => ?_
  rw [member acc, member acc', same]

end Selecting

namespace AdvancedTestSelector
variable (self : AdvancedTestSelector) (repositoryId : RepositoryId) (revision : String)

def hits (changedSymbols : List String) : List (String × String) :=
  changedSymbols.flatMap fun changed =>
    (testsBySymbol (self.codeGraph.listRelations repositoryId revision) changed).map (changed, ·)

theorem static_eq (changedSymbols : List String) :
    self.static repositoryId revision changedSymbols = (self.hits repositoryId revision changedSymbols).foldl
      (fun acc hit => acc.addStatic (testPath (self.codeGraph.listSymbols repositoryId revision)) hit) {} := by
  unfold static hits
  rw [List.foldl_flatMap]
  simp only [List.foldl_map]

theorem static_reasoned (changedSymbols : List String) : (self.static repositoryId revision changedSymbols).Reasoned := by
  have run : ∀ (path : String → String) (hits : List (String × String)) (acc : Selecting), acc.Reasoned →
      (hits.foldl (fun acc hit => acc.addStatic path hit) acc).Reasoned := by
    intro path hits
    induction hits with
    | nil => exact fun acc reasoned => reasoned
    | cons hit hits ih => exact fun acc reasoned => ih _ (Selecting.Reasoned.addStatic reasoned hit)
  rw [static_eq]
  refine run _ _ _ ?_
  intro test member
  cases member

section Orders
variable {changed changed' history history' : List String}

theorem elements_mem (order order' : SetOrder) {texts texts' : List String} (perm : texts.Perm texts') (text : String) :
    text ∈ order.elements texts ↔ text ∈ order'.elements texts' := by
  rw [order.mem_iff, order'.mem_iff, perm.mem_iff]

theorem length_elements (order order' : SetOrder) {texts texts' : List String} (perm : texts.Perm texts') :
    (order.elements texts).length = (order'.elements texts').length :=
  ((List.perm_ext_iff_of_nodup (order.nodup _) (order'.nodup _)).mpr (elements_mem order order' perm)).length_eq

theorem coveredTests_perm (observations : List RuntimeObservation) (perm : changed.Perm changed') :
    coveredTests observations changed = coveredTests observations changed' := by
  have contains : changed.contains = changed'.contains := by
    funext text
    rw [Bool.eq_iff_iff, List.contains_iff_mem, List.contains_iff_mem, perm.mem_iff]
  unfold coveredTests
  rw [contains]

theorem static_views (perm : changed.Perm changed') :
    (self.static repositoryId revision changed).SameViews (self.static repositoryId revision changed') := by
  intro name
  have hits : ((self.hits repositoryId revision changed).filter (·.2 = name)).Perm
      ((self.hits repositoryId revision changed').filter (·.2 = name)) := (perm.flatMap_right _).filter _
  rw [static_eq, static_eq, Selecting.get_foldl_addStatic, Selecting.get_foldl_addStatic]
  by_cases none : (self.hits repositoryId revision changed).filter (·.2 = name) = []
  · rw [none] at hits
    rw [if_pos none, if_pos hits.symm.eq_nil]
  · have some : (self.hits repositoryId revision changed').filter (·.2 = name) ≠ [] := by
      intro empty
      rw [empty] at hits
      exact none hits.eq_nil
    rw [if_neg none, if_neg some]
    exact congrArg Option.some (Selecting.view_withHits _ hits)

theorem covered_spec (changed : List String) :
    (∀ name, (self.covered repositoryId revision changed).selected.get name =
      if name ∈ self.order.elements (coveredTests (self.runtime.listForRevision repositoryId revision) changed) then
        some (Selecting.withCoverage ((self.static repositoryId revision changed).entry
          (testPath (self.codeGraph.listSymbols repositoryId revision)) name))
      else (self.static repositoryId revision changed).selected.get name) ∧
    (self.covered repositoryId revision changed).viaRuntime =
      (self.order.elements (coveredTests (self.runtime.listForRevision repositoryId revision) changed)).length ∧
    (self.covered repositoryId revision changed).viaCallGraph =
      (self.static repositoryId revision changed).selected.items.length ∧
    (self.covered repositoryId revision changed).viaHistory = 0 := by
  have start : ∀ (path : String → String) (hits : List (String × String)) (acc : Selecting),
      (hits.foldl (fun acc hit => acc.addStatic path hit) acc).viaRuntime = acc.viaRuntime ∧
        (hits.foldl (fun acc hit => acc.addStatic path hit) acc).viaHistory = acc.viaHistory := by
    intro path hits
    induction hits with
    | nil => exact fun acc => ⟨rfl, rfl⟩
    | cons hit hits ih => exact fun acc => ih (acc.addStatic path hit)
  obtain ⟨noRuntime, noHistory⟩ := start (testPath (self.codeGraph.listSymbols repositoryId revision))
    (self.hits repositoryId revision changed) {}
  rw [← static_eq] at noRuntime noHistory
  obtain ⟨gets, runtime, callGraph, history⟩ := Selecting.foldl_addCovered
    (self.order.elements (coveredTests (self.runtime.listForRevision repositoryId revision) changed))
    (self.static repositoryId revision changed) (testPath (self.codeGraph.listSymbols repositoryId revision))
    (self.static_reasoned repositoryId revision changed) (self.order.nodup _)
  refine ⟨gets, ?_, ?_, history.trans noHistory⟩
  · unfold covered
    rw [runtime, noRuntime]
    exact Nat.zero_add _
  · unfold covered
    rw [callGraph, static_eq]
    exact Selecting.viaCallGraph_foldl _ _ _ rfl

def reordered (order : SetOrder) : AdvancedTestSelector := { self with order }

theorem covered_views (order : SetOrder) (perm : changed.Perm changed') :
    (self.covered repositoryId revision changed).SameViews
      ((self.reordered order).covered repositoryId revision changed') := by
  intro name
  have static := self.static_views repositoryId revision perm
  have listed : name ∈ self.order.elements (coveredTests (self.runtime.listForRevision repositoryId revision) changed) ↔
      name ∈ (self.reordered order).order.elements
        (coveredTests ((self.reordered order).runtime.listForRevision repositoryId revision) changed') := by
    rw [coveredTests_perm _ perm]
    exact elements_mem self.order order (List.Perm.refl _) name
  have other := ((self.reordered order).covered_spec repositoryId revision changed').1 name
  rw [(self.covered_spec repositoryId revision changed).1 name, other]
  by_cases covers : name ∈ self.order.elements (coveredTests (self.runtime.listForRevision repositoryId revision) changed)
  · rw [if_pos covers, if_pos (listed.mp covers)]
    exact congrArg Option.some (Selecting.view_withCoverage (static.entry _ name))
  · rw [if_neg covers, if_neg fun other => covers (listed.mpr other)]
    exact static name

theorem historical_views (order : SetOrder) (perm : changed.Perm changed') (sameHistory : history.Perm history') :
    (self.historical repositoryId revision changed history).SameViews
      ((self.reordered order).historical repositoryId revision changed' history') := by
  intro name
  have before := self.covered_views repositoryId revision order perm name
  have listed := elements_mem self.order order sameHistory name
  unfold historical
  rw [Selecting.get_foldl_addHistorical, Selecting.get_foldl_addHistorical]
  cases found : (self.covered repositoryId revision changed).selected.get name with
  | none =>
    rw [found] at before
    rw [Option.map_eq_none_iff.mp before.symm]
    simp only [Option.none_or, listed]
    rfl
  | some test =>
    rw [found] at before
    obtain ⟨test', found', isView⟩ := Option.map_eq_some_iff.mp before.symm
    rw [found']
    exact congrArg Option.some isView.symm

end Orders

theorem mem_select {changedSymbols testHistory : List String} {test : String} :
    (∃ t ∈ (self.select repositoryId revision changedSymbols testHistory).selectedTests, t.testName = test) ↔
      (∃ symbol ∈ changedSymbols,
        test ∈ testsBySymbol (self.codeGraph.listRelations repositoryId revision) symbol) ∨
      test ∈ coveredTests (self.runtime.listForRevision repositoryId revision) changedSymbols ∨ test ∈ testHistory := by
  have isSelected : (∃ t ∈ (self.select repositoryId revision changedSymbols testHistory).selectedTests, t.testName = test) ↔
      ((self.historical repositoryId revision changedSymbols testHistory).selected.get test).isSome = true := by
    rw [Option.isSome_iff_exists]
    refine exists_congr fun t => ?_
    rw [Keyed.get_eq_some]
    exact and_congr_left fun _ => List.mem_insertionSort _
  have isHit : (self.hits repositoryId revision changedSymbols).filter (·.2 = test) = [] ↔
      ¬ ∃ symbol ∈ changedSymbols, test ∈ testsBySymbol (self.codeGraph.listRelations repositoryId revision) symbol := by
    rw [List.filter_eq_nil_iff, not_exists]
    simp only [hits, List.mem_flatMap, List.mem_map, decide_eq_true_eq, not_and]
    refine ⟨fun none symbol changed tests => none (symbol, test) ⟨symbol, changed, test, tests, rfl⟩ rfl, ?_⟩
    rintro none hit ⟨symbol, changed, test', tests, rfl⟩ rfl
    exact none symbol changed tests
  have isHistorical : test ∈ self.order.elements testHistory ↔ test ∈ testHistory := self.order.mem_iff _ _
  have isCovered := self.order.mem_iff (coveredTests (self.runtime.listForRevision repositoryId revision) changedSymbols) test
  have startsEmpty : ({} : Selecting).selected.get test = none := rfl
  rw [isSelected]
  unfold historical
  rw [Selecting.get_foldl_addHistorical, (self.covered_spec repositoryId revision changedSymbols).1, static_eq,
    Selecting.get_foldl_addStatic, startsEmpty]
  by_cases hit : ∃ symbol ∈ changedSymbols, test ∈ testsBySymbol (self.codeGraph.listRelations repositoryId revision) symbol
  · have nonempty : (self.hits repositoryId revision changedSymbols).filter (·.2 = test) ≠ [] := fun none => isHit.mp none hit
    rw [if_neg nonempty]
    refine iff_of_true ?_ (Or.inl hit)
    split <;> rfl
  · rw [if_pos (isHit.mpr hit)]
    by_cases covers : test ∈ coveredTests (self.runtime.listForRevision repositoryId revision) changedSymbols
    · rw [if_pos (isCovered.mpr covers)]
      exact iff_of_true rfl (Or.inr (Or.inl covers))
    · rw [if_neg fun listed => covers (isCovered.mp listed)]
      by_cases listed : test ∈ testHistory
      · rw [if_pos (isHistorical.mpr listed)]
        exact iff_of_true rfl (Or.inr (Or.inr listed))
      · rw [if_neg fun other => listed (isHistorical.mp other)]
        simp [hit, covers, listed]

instance : Std.Total ScoresAtLeast := ⟨fun a b => Nat.le_total b.score a.score⟩

instance : IsTrans TargetedTest ScoresAtLeast := ⟨fun _ _ _ first second => Nat.le_trans second first⟩

/-- What `select` promises whatever the order of its arguments and sets. -/
theorem select_spec (changedSymbols testHistory : List String) :
    ((self.select repositoryId revision changedSymbols testHistory).selectedTests.map TargetedTest.testName).Nodup ∧
    (self.select repositoryId revision changedSymbols testHistory).selectedTests.Pairwise ScoresAtLeast ∧
    (∀ test ∈ testHistory, ∃ t ∈ (self.select repositoryId revision changedSymbols testHistory).selectedTests,
      t.testName = test) ∧
    (∀ obs ∈ self.runtime.listForRevision repositoryId revision, obs.kind = .coverage →
      (∃ symbol ∈ obs.symbols, symbol ∈ changedSymbols) →
      ∃ t ∈ (self.select repositoryId revision changedSymbols testHistory).selectedTests, t.testName = obs.source) ∧
    (∀ relation ∈ self.codeGraph.listRelations repositoryId revision, relation.relationType = .tests →
      relation.targetIdentity.qualifiedName ∈ changedSymbols → isTestName relation.sourceIdentity.qualifiedName = true →
      ∃ t ∈ (self.select repositoryId revision changedSymbols testHistory).selectedTests,
        t.testName = relation.sourceIdentity.qualifiedName) ∧
    ∀ (order : SetOrder) (changed history : List String), changedSymbols.Perm changed → testHistory.Perm history →
      let selection := self.select repositoryId revision changedSymbols testHistory
      let other := (self.reordered order).select repositoryId revision changed history
      (selection.selectedTests.map TargetedTest.view).Perm (other.selectedTests.map TargetedTest.view) ∧
        selection.viaRuntimeCoverage = other.viaRuntimeCoverage ∧ selection.viaCallGraph = other.viaCallGraph ∧
        selection.viaChangedSymbols = other.viaChangedSymbols ∧ selection.viaTestHistory = other.viaTestHistory := by
  have sorted := List.perm_insertionSort ScoresAtLeast
  refine ⟨?_, List.pairwise_insertionSort ScoresAtLeast _, ?_, ?_, ?_, ?_⟩
  · exact ((sorted _).map TargetedTest.testName).nodup_iff.mpr (Keyed.nodup _)
  · exact fun test listed => (self.mem_select repositoryId revision).mpr (Or.inr (Or.inr listed))
  · rintro obs listed isCoverage ⟨symbol, executed, changed⟩
    refine (self.mem_select repositoryId revision).mpr (Or.inr (Or.inl (List.mem_map.mpr ⟨obs, ?_, rfl⟩)))
    simpa [listed, isCoverage] using ⟨symbol, executed, changed⟩
  · intro relation listed isTests changed isName
    refine (self.mem_select repositoryId revision).mpr (Or.inl ⟨_, changed, List.mem_map.mpr ⟨relation, ?_, rfl⟩⟩)
    simp [listed, isTests, isName]
  · intro order changed history perm sameHistory
    have static := self.static_views repositoryId revision perm
    have covered := self.covered_views repositoryId revision order perm
    have historical := self.historical_views repositoryId revision order perm sameHistory
    have lengthOf : ∀ {acc acc' : Selecting}, acc.SameViews acc' →
        acc.selected.items.length = acc'.selected.items.length := by
      intro acc acc' same
      simpa using same.perm.length_eq
    have counts : ∀ (service : AdvancedTestSelector) (changed history : List String),
        (service.historical repositoryId revision changed history).viaCallGraph =
            (service.static repositoryId revision changed).selected.items.length ∧
          (service.historical repositoryId revision changed history).viaRuntime =
            (service.order.elements (coveredTests (service.runtime.listForRevision repositoryId revision) changed)).length ∧
          (service.historical repositoryId revision changed history).viaHistory +
              (service.covered repositoryId revision changed).selected.items.length =
            (service.historical repositoryId revision changed history).selected.items.length := by
      intro service changed history
      obtain ⟨_, runtime, callGraph, noHistory⟩ := service.covered_spec repositoryId revision changed
      obtain ⟨viaHistory, sameCallGraph, sameRuntime⟩ := Selecting.viaHistory_foldl (service.order.elements history)
        (service.covered repositoryId revision changed) (testPath (service.codeGraph.listSymbols repositoryId revision))
      rw [noHistory, Nat.zero_add] at viaHistory
      exact ⟨sameCallGraph.trans callGraph, sameRuntime.trans runtime, viaHistory⟩
    obtain ⟨callGraph, runtime, viaHistory⟩ := counts self changedSymbols testHistory
    obtain ⟨callGraph', runtime', viaHistory'⟩ := counts (self.reordered order) changed history
    refine ⟨?_, ?_, ?_, rfl, ?_⟩
    · exact (((sorted _).map _).trans historical.perm).trans ((sorted _).map _).symm
    · refine runtime.trans (Eq.trans ?_ runtime'.symm)
      rw [coveredTests_perm _ perm]
      exact length_elements self.order order (List.Perm.refl _)
    · exact callGraph.trans ((lengthOf static).trans callGraph'.symm)
    · have beforeHistory := lengthOf covered
      have afterHistory := lengthOf historical
      show (self.historical repositoryId revision changedSymbols testHistory).viaHistory =
        ((self.reordered order).historical repositoryId revision changed history).viaHistory
      omega

/-! ### Where the order shows, and what is missed -/

def insertionOrder : SetOrder := ⟨List.dedup, List.nodup_dedup, fun _ _ => List.mem_dedup⟩

def loginName : Identifier := ⟨"login", by decide, Identifier.plain_of_all rfl⟩

def testLoginName : Identifier := ⟨"test_login", by decide, Identifier.plain_of_all rfl⟩

def authModule : DottedName := { first := ⟨"auth", by decide, Identifier.plain_of_all rfl⟩ }

/-- A parser of a module with a function and of a test module that calls it. -/
def loginParser : CodeIntelligenceService where
  parser :=
    { contentHash := id
      astParse := fun content =>
        if content = "def login(): ..." then some { body := [.functionDef { name := loginName }] }
        else if content = "from auth import login; def test_login(): login()" then
          some { body := [.importFrom (some authModule) [.name loginName none] 0 {},
            .functionDef { name := testLoginName, calls := [.name loginName] }] }
        else none }

def loginFiles : Keyed SourceFile.path :=
  (Keyed.empty.upsert ⟨"auth.py", "def login(): ..."⟩).upsert
    ⟨"tests/test_auth.py", "from auth import login; def test_login(): login()"⟩

/-- The test of the built graph that calls the changed function is not selected,
and the selection follows the order of the history. -/
theorem select_misses_and_follows_order :
    ∃ (self : AdvancedTestSelector) (result : CodeIndexResult),
      loginParser.buildRevision (.v5 "repository") "r1" loginFiles true {} = (.ok result, self.codeGraph) ∧
      (∃ relation ∈ self.codeGraph.listRelations (.v5 "repository") "r1", relation.relationType = .calls ∧
        relation.sourceIdentity.qualifiedName = "tests.test_auth.test_login" ∧
        isTestName relation.sourceIdentity.qualifiedName = true ∧
        relation.targetIdentity.qualifiedName = "auth.login" ∧ relation.targetIdentity.kind = .function) ∧
      (self.select (.v5 "repository") "r1" ["auth.login"]).selectedTests = [] ∧
      (self.select (.v5 "repository") "r1" [] ["test_a", "test_b"]).selectedTests ≠
        (self.select (.v5 "repository") "r1" [] ["test_b", "test_a"]).selectedTests := by
  have returns : (loginParser.buildRevision (.v5 "repository") "r1" loginFiles true {}).1.isOk = true := by decide
  have calls : ((loginParser.buildRevision (.v5 "repository") "r1" loginFiles true {}).2.listRelations
      (.v5 "repository") "r1").any (fun relation => relation.relationType = .calls &&
        relation.sourceIdentity.qualifiedName = "tests.test_auth.test_login" &&
        isTestName relation.sourceIdentity.qualifiedName && relation.targetIdentity.qualifiedName = "auth.login" &&
        relation.targetIdentity.kind = .function) = true := by decide
  generalize built : loginParser.buildRevision (.v5 "repository") "r1" loginFiles true {} = build at returns calls
  obtain ⟨_ | result, graph⟩ := build
  · cases returns
  have isGraph : graph = (loginParser.buildRevision (.v5 "repository") "r1" loginFiles true {}).2 := by rw [built]
  refine ⟨{ codeGraph := graph, runtime := {}, order := insertionOrder }, result, rfl, ?_, ?_, ?_⟩
  · obtain ⟨relation, listed, passes⟩ := List.any_eq_true.mp calls
    simp only [Bool.and_eq_true, decide_eq_true_eq] at passes
    obtain ⟨⟨⟨⟨isCalls, source⟩, isName⟩, target⟩, isFunction⟩ := passes
    exact ⟨relation, listed, isCalls, source, isName, target, isFunction⟩
  · rw [isGraph]
    decide
  · rw [isGraph]
    decide

end AdvancedTestSelector

/-! ### From the evidence to the selection -/

/-- What adds evidence: `record` with an observation, or `import_coverage` over the
code graph of that moment. -/
inductive EvidenceCall
  | record (observation : RuntimeObservation)
  | importCoverage (codeGraph : InMemoryCodeGraph) (coverage : CoverageImport)

def InMemoryRuntimeEvidence.hear (runtime : InMemoryRuntimeEvidence) : EvidenceCall → InMemoryRuntimeEvidence
  | .record observation => runtime.saveObservation observation
  | .importCoverage codeGraph coverage => (CoverageImporter.importCoverage codeGraph coverage runtime).2

namespace EvidenceCall
variable (repositoryId : RepositoryId) (revision : String) (changed : List String) (test : String)

/-- The call tells that the test ran a changed symbol of the revision. -/
def Exercises : EvidenceCall → Prop
  | .record obs => obs.repositoryId = some repositoryId ∧ obs.revision = some revision ∧ obs.kind = .coverage ∧
      obs.source = test ∧ ∃ symbol ∈ obs.symbols, symbol ∈ changed
  | .importCoverage codeGraph coverage => coverage.repositoryId = repositoryId ∧ coverage.revision = revision ∧
      coverage.testName = test ∧ ∃ symbol ∈ codeGraph.listSymbols repositoryId revision,
        symbol.path ∈ coverage.executedFiles ∧ symbol.qualifiedName ∈ changed

variable {repositoryId revision changed test}

theorem mem_coveredTests {runtime : InMemoryRuntimeEvidence} :
    test ∈ coveredTests (runtime.listForRevision repositoryId revision) changed ↔
      ∃ obs ∈ runtime.observations, (record obs).Exercises repositoryId revision changed test := by
  simp only [coveredTests, InMemoryRuntimeEvidence.listForRevision, List.mem_map, List.mem_filter, Exercises,
    Bool.and_eq_true, decide_eq_true_eq, List.any_eq_true, List.contains_iff_mem]
  refine exists_congr fun obs => ?_
  tauto

theorem exercises_hear (runtime : InMemoryRuntimeEvidence) (call : EvidenceCall) :
    (∃ obs ∈ (runtime.hear call).observations, (record obs).Exercises repositoryId revision changed test) ↔
      (∃ obs ∈ runtime.observations, (record obs).Exercises repositoryId revision changed test) ∨
        call.Exercises repositoryId revision changed test := by
  cases call with
  | record obs => simp [InMemoryRuntimeEvidence.hear, InMemoryRuntimeEvidence.saveObservation, or_and_right, exists_or]
  | importCoverage codeGraph coverage =>
    simp only [InMemoryRuntimeEvidence.hear, CoverageImporter.importCoverage, List.mem_append, or_and_right, exists_or]
    refine or_congr_right ⟨?_, ?_⟩
    · rintro ⟨_, ran, repository, isRevision, _, isTest, text, named, inChange⟩
      obtain ⟨path, executed, rfl⟩ := List.mem_map.mp ran
      obtain ⟨symbol, onPath, rfl⟩ := List.mem_map.mp named
      obtain ⟨listed, isPath⟩ := List.mem_filter.mp onPath
      obtain rfl := Option.some.inj repository
      obtain rfl := Option.some.inj isRevision
      exact ⟨rfl, rfl, isTest, symbol, listed, of_decide_eq_true isPath ▸ executed, inChange⟩
    · rintro ⟨rfl, rfl, isTest, symbol, listed, executed, inChange⟩
      refine ⟨_, List.mem_map_of_mem executed, rfl, rfl, rfl, isTest, _, ?_, inChange⟩
      exact List.mem_map_of_mem (List.mem_filter.mpr ⟨listed, decide_eq_true rfl⟩)

end EvidenceCall

/-- After any evidence, over a graph that is rebuilt in between, a test is selected
through coverage exactly when a recorded or imported run of it at this revision
exercised a changed symbol. -/
theorem AdvancedTestSelector.mem_select_evidence (codeGraph : InMemoryCodeGraph) (order : SetOrder) (calls : List EvidenceCall)
    (repositoryId : RepositoryId) (revision : String) (changedSymbols testHistory : List String) (test : String) :
    (∃ t ∈ (select { codeGraph, runtime := calls.foldl InMemoryRuntimeEvidence.hear {}, order } repositoryId revision
      changedSymbols testHistory).selectedTests, t.testName = test) ↔
      (∃ symbol ∈ changedSymbols, test ∈ testsBySymbol (codeGraph.listRelations repositoryId revision) symbol) ∨
      (∃ call ∈ calls, call.Exercises repositoryId revision changedSymbols test) ∨ test ∈ testHistory := by
  have heard : ∀ runtime : InMemoryRuntimeEvidence,
      test ∈ coveredTests ((calls.foldl InMemoryRuntimeEvidence.hear runtime).listForRevision repositoryId revision) changedSymbols ↔
        (∃ obs ∈ runtime.observations, (EvidenceCall.record obs).Exercises repositoryId revision changedSymbols test) ∨
          ∃ call ∈ calls, call.Exercises repositoryId revision changedSymbols test := by
    induction calls with
    | nil => simp [EvidenceCall.mem_coveredTests]
    | cons call calls ih =>
      intro runtime
      rw [List.foldl_cons, ih, EvidenceCall.exercises_hear, or_assoc, List.exists_mem_cons_iff]
  rw [mem_select]
  dsimp only
  rw [heard]
  simp
end Brain
