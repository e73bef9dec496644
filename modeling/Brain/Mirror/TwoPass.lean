import Brain.Lib.Writers
import Brain.Mirror.Passes
import Mathlib.Data.List.Nodup
import Mathlib.Data.List.Perm.Basic

namespace Brain
open Override

/-! ### The content a batch leaves -/

namespace Content

/-- A text a snapshot has, unless it is empty. -/
def textOf (text : String) : Option String := if text = "" then none else some text

theorem strOr_eq (left right : String) : strOr left right = (textOf left).getD right := by
  unfold strOr textOf
  split <;> rfl

/-- A work item that nothing was said about yet. -/
def blank (projectId : ProjectId) (x : String) : Content :=
  (newWorkItem default { externalId := x } projectId).content

def applyAll (l : List OpenProjectWorkItemSnapshot) (c : Content) : Content :=
  l.foldl (fun c s => c.apply s) c

theorem applyAll_eq (l : List OpenProjectWorkItemSnapshot) (c : Content) : applyAll l c =
    { c with
      title := overrides (fun s => textOf s.summary) l c.title
      description := overrides (fun s => textOf s.description) l c.description
      type := overrides (fun s => some (mapWorkItemType s.type)) l c.type
      humanWorkStatus := overrides (fun s => some (mapHumanWorkStatus s.state)) l c.humanWorkStatus
      priority := overrides (fun s => some (mapPriority s.priority)) l c.priority
      assignee := overrides (fun s => (snapshotActor s).map some) l c.assignee } := by
  induction l generalizing c with
  | nil => rfl
  | cons s l ih =>
    have assignee : (snapshotActor s).or c.assignee = ((snapshotActor s).map some).getD c.assignee := by
      cases snapshotActor s <;> rfl
    have step : applyAll (s :: l) c = applyAll l (c.apply s) := rfl
    rw [step, ih]
    simp only [apply, overrides_cons, strOr_eq, assignee, Option.getD_some]

theorem applyAll_apply {l : List OpenProjectWorkItemSnapshot} {s : OpenProjectWorkItemSnapshot} (member : s ∈ l)
    (c : Content) : applyAll l (c.apply s) = applyAll l c := by
  have step : applyAll l (c.apply s) = applyAll (s :: l) c := rfl
  rw [step, applyAll_eq, applyAll_eq]
  simp only [overrides_cons, overrides_absorb member]

theorem applyAll_new {l : List OpenProjectWorkItemSnapshot} {s : OpenProjectWorkItemSnapshot} (member : s ∈ l)
    (projectId : ProjectId) : applyAll l (Content.new projectId s) = applyAll l (blank projectId s.externalId) := by
  have new : Content.new projectId s = { blank projectId s.externalId with
      title := (textOf s.summary).getD (blank projectId s.externalId).title
      description := (textOf s.description).getD (blank projectId s.externalId).description } := by
    have description : (textOf s.description).getD "" = s.description := by
      unfold textOf
      split
      · rename_i empty
        rw [empty]
        rfl
      · rfl
    simp only [Content.new, blank, newWorkItem, WorkItem.content, strOr_eq, description]
    rfl
  rw [new, applyAll_eq, applyAll_eq]
  have title := overrides_absorb (f := fun s => textOf s.summary) member (blank projectId s.externalId).title
  have description := overrides_absorb (f := fun s => textOf s.description) member
    (blank projectId s.externalId).description
  simp only [title, description]

end Content

namespace Mirror
variable {projectId : ProjectId} {m m' : Mirror} {batch : List OpenProjectWorkItemSnapshot}

def snapshotsOf (x : String) (batch : List OpenProjectWorkItemSnapshot) : List OpenProjectWorkItemSnapshot :=
  batch.filter fun s => s.externalId = x

variable {x : String}

theorem mem_snapshotsOf {s : OpenProjectWorkItemSnapshot} : s ∈ snapshotsOf x batch ↔ s ∈ batch ∧ s.externalId = x := by
  simp [snapshotsOf]

/-- The first pass over a batch. -/
def ingestAll (projectId : ProjectId) (batch : List OpenProjectWorkItemSnapshot) (m : Mirror) : Mirror :=
  batch.foldl (fun m s => m.ingest projectId s) m

/-- The second pass over a batch. -/
def resolveAll (batch : List OpenProjectWorkItemSnapshot) (m : Mirror) : Mirror :=
  batch.foldl (fun m s => m.resolve s) m

/-- Both passes over a batch. -/
def pass (projectId : ProjectId) (batch : List OpenProjectWorkItemSnapshot) (m : Mirror) : Mirror :=
  (m.ingestAll projectId batch).resolveAll batch

def contentAfter (projectId : ProjectId) (x : String) (batch : List OpenProjectWorkItemSnapshot)
    (c : Option Content) : Option Content :=
  if snapshotsOf x batch = [] then c
  else some (Content.applyAll (snapshotsOf x batch) (c.getD (Content.blank projectId x)))

/-- The last known parent a batch names for a work package, else the one before. -/
def parentAfter (m : Mirror) (x : String) (batch : List OpenProjectWorkItemSnapshot) (p : Option String) : Option String :=
  overrides (fun s => (m.namedParent s).map some) (snapshotsOf x batch) p

theorem ingestAll_reach : Reach projectId batch m (m.ingestAll projectId batch) := by
  unfold ingestAll
  have some' : ∀ l ⊆ batch, ∀ u, Reach projectId batch m u →
      Reach projectId batch m (l.foldl (fun m s => m.ingest projectId s) u) := by
    intro l
    induction l with
    | nil => exact fun _ u reach => reach
    | cons s l ih =>
      intro sub u reach
      exact ih (fun other member => sub (List.mem_cons_of_mem _ member)) _ (reach.ingest (sub (List.mem_cons_self ..)))
  exact some' batch (List.Subset.refl _) m .refl

theorem resolves_resolveAll (projectId : ProjectId) (batch : List OpenProjectWorkItemSnapshot) (m : Mirror) :
    Resolves projectId batch m (m.resolveAll batch) := by
  induction batch generalizing m with
  | nil => exact Resolves.refl m
  | cons s batch ih => exact (ih (m.resolve s)).cons

theorem item_ingestAll (x : String) :
    (m.ingestAll projectId batch).item x = contentAfter projectId x batch (m.item x) := by
  induction batch generalizing m with
  | nil => rfl
  | cons s batch ih =>
    have step : (m.ingestAll projectId (s :: batch)).item x = contentAfter projectId x batch ((m.ingest projectId s).item x) := ih
    rw [step, item_ingest]
    by_cases own : s.externalId = x
    · subst own
      have first : snapshotsOf s.externalId (s :: batch) = s :: snapshotsOf s.externalId batch := by
        simp [snapshotsOf]
      have begun : Content.applyAll (s :: snapshotsOf s.externalId batch)
          ((m.item s.externalId).getD (Content.new projectId s)) =
          Content.applyAll (s :: snapshotsOf s.externalId batch)
            ((m.item s.externalId).getD (Content.blank projectId s.externalId)) := by
        cases m.item s.externalId with
        | none => exact Content.applyAll_new (List.mem_cons_self ..) projectId
        | some c => rfl
      rw [Function.update_self, contentAfter, contentAfter, first, if_neg (List.cons_ne_nil _ _), ← begun]
      split
      · rename_i last
        rw [last]
        rfl
      · rfl
    · have same : snapshotsOf x (s :: batch) = snapshotsOf x batch := by simp [snapshotsOf, own]
      rw [Function.update_of_ne (Ne.symm own), contentAfter, contentAfter, same]

theorem knows_ingestAll : (m.ingestAll projectId batch).Knows x ↔ m.Knows x ∨ ∃ s ∈ batch, s.externalId = x := by
  constructor
  · exact ingestAll_reach.knows_only
  · rintro (known | ⟨s, member, ofX⟩)
    · exact ingestAll_reach.knows known
    · have listed : snapshotsOf x batch ≠ [] := List.ne_nil_of_mem (mem_snapshotsOf.mpr ⟨member, ofX⟩)
      rw [Knows, item_ingestAll, contentAfter, if_neg listed]
      rfl

theorem item_resolveAll : (m.resolveAll batch).item = m.item := by
  induction batch generalizing m with
  | nil => rfl
  | cons s batch ih => exact (ih (m := m.resolve s)).trans item_resolve

theorem knows_resolveAll : (m.resolveAll batch).Knows x ↔ m.Knows x := knows_congr item_resolveAll

theorem knows_pass : (m.pass projectId batch).Knows x ↔ m.Knows x ∨ ∃ s ∈ batch, s.externalId = x :=
  knows_resolveAll.trans knows_ingestAll

theorem parentAfter_congr (same : ∀ x, m'.Knows x ↔ m.Knows x) (x : String) (p : Option String) :
    m'.parentAfter x batch p = m.parentAfter x batch p := by
  simp only [parentAfter, namedParent_congr same]

theorem parent_resolveAll (known : ∀ s ∈ batch, m.Knows s.externalId) (x : String) :
    (m.resolveAll batch).parent x = m.parentAfter x batch (m.parent x) := by
  induction batch generalizing m with
  | nil => rfl
  | cons s batch ih =>
    have first := known s (List.mem_cons_self ..)
    have step : (m.resolveAll (s :: batch)).parent x = (m.resolve s).parentAfter x batch ((m.resolve s).parent x) :=
      ih fun other member => knows_resolve.mpr (known other (List.mem_cons_of_mem _ member))
    rw [step, parentAfter_congr (m := m) (fun _ => knows_resolve), parent_resolve first]
    by_cases own : s.externalId = x
    · subst own
      have named : (m.namedParent s).or (m.parent s.externalId) = ((m.namedParent s).map some).getD (m.parent s.externalId) := by
        cases m.namedParent s <;> rfl
      simp [parentAfter, snapshotsOf, named]
    · simp [parentAfter, snapshotsOf, own, Function.update_of_ne (Ne.symm own)]

theorem relation_resolveAll (known : ∀ s ∈ batch, m.Knows s.externalId) :
    (m.resolveAll batch).relation = m.relation ∪ {e | ∃ s ∈ batch, e ∈ m.foundRelations s} := by
  induction batch generalizing m with
  | nil => simp [resolveAll]
  | cons s batch ih =>
    have first := known s (List.mem_cons_self ..)
    have step : (m.resolveAll (s :: batch)).relation =
        (m.resolve s).relation ∪ {e | ∃ s' ∈ batch, e ∈ (m.resolve s).foundRelations s'} :=
      ih fun other member => knows_resolve.mpr (known other (List.mem_cons_of_mem _ member))
    have same : ∀ s', (m.resolve s).foundRelations s' = m.foundRelations s' := by
      intro s'
      simp only [foundRelations, Resolvable, knows_congr (item_resolve (m := m) (s := s))]
    rw [step, relation_resolve first]
    ext e
    simp only [same, Set.mem_union, Set.mem_ofPred_eq, List.exists_mem_cons_iff, or_assoc]

/-! ### Both passes -/

theorem item_pass (x : String) : (m.pass projectId batch).item x = contentAfter projectId x batch (m.item x) := by
  rw [pass, item_resolveAll, item_ingestAll]

theorem parentAfter_const {s : OpenProjectWorkItemSnapshot} {q : String} (member : s ∈ batch)
    (ofX : s.externalId = x) (named : m.namedParent s = some q) (p p' : Option String) :
    m.parentAfter x batch p = m.parentAfter x batch p' :=
  overrides_const (mem_snapshotsOf.mpr ⟨member, ofX⟩) (by rw [named]; rfl) p p'

theorem parentAfter_of_reach {k : Mirror} (reach : Reach projectId batch m m') (grows : ∀ y, m'.Knows y → k.Knows y) :
    k.parentAfter x batch (m'.parent x) = k.parentAfter x batch (m.parent x) := by
  rcases reach.parent (x := x) with same | ⟨s, member, ofX, p, _, named⟩
  · rw [same]
  · obtain ⟨names, known, differs⟩ := namedParent_eq_some.mp named
    exact parentAfter_const member ofX (namedParent_eq_some.mpr ⟨names, grows p known, differs⟩) _ _

theorem parent_pass (x : String) :
    (m.pass projectId batch).parent x = (m.pass projectId batch).parentAfter x batch (m.parent x) := by
  have known : ∀ s ∈ batch, (m.ingestAll projectId batch).Knows s.externalId :=
    fun s member => knows_ingestAll.mpr (Or.inr ⟨s, member, rfl⟩)
  have same : ∀ y, (m.pass projectId batch).Knows y ↔ (m.ingestAll projectId batch).Knows y := fun _ => knows_resolveAll
  rw [parentAfter_congr same, ← parentAfter_of_reach (ingestAll_reach (m := m)) fun _ => id]
  exact parent_resolveAll known x

theorem relation_pass : (m.pass projectId batch).relation =
    m.relation ∪ {e | ∃ s ∈ batch, e ∈ (m.pass projectId batch).foundRelations s} := by
  have known : ∀ s ∈ batch, (m.ingestAll projectId batch).Knows s.externalId :=
    fun s member => knows_ingestAll.mpr (Or.inr ⟨s, member, rfl⟩)
  have same : ∀ s, (m.pass projectId batch).foundRelations s = (m.ingestAll projectId batch).foundRelations s := by
    intro s
    simp only [foundRelations, Resolvable, pass, knows_resolveAll]
  have written := (@ingestAll_reach projectId m batch).relation_subset
  simp only [same]
  rw [pass, relation_resolveAll known]
  refine Set.Subset.antisymm ?_ ?_
  · exact Set.union_subset written.2 Set.subset_union_right
  · exact Set.union_subset_union_left _ written.1

theorem contentAfter_of_reach (reach : Reach projectId batch m m') (x : String) :
    contentAfter projectId x batch (m'.item x) = contentAfter projectId x batch (m.item x) := by
  induction reach with
  | refl => rfl
  | @tail u v _ step ih =>
    rw [← ih]
    obtain ⟨s, member, rfl | rfl | rfl | ⟨raw, _, rfl⟩⟩ := step
    · by_cases own : s.externalId = x
      · subst own
        have listed := mem_snapshotsOf.mpr ⟨member, rfl⟩
        cases found : u.item s.externalId with
        | some c => rw [create_of_knows projectId (by rw [Knows, found]; rfl), found]
        | none =>
          rw [create_of_unknown projectId found]
          simp only [Function.update_self, contentAfter, if_neg (List.ne_nil_of_mem listed), Option.getD_some,
            Option.getD_none]
          rw [Content.applyAll_new listed]
      · simp only [create, Function.update_of_ne (Ne.symm own)]
    · by_cases own : s.externalId = x
      · subst own
        have listed := mem_snapshotsOf.mpr ⟨member, rfl⟩
        simp only [Mirror.apply, Function.update_self]
        cases found : u.item s.externalId with
        | none => rfl
        | some c =>
          simp only [contentAfter, if_neg (List.ne_nil_of_mem listed), Option.map_some, Option.getD_some]
          rw [Content.applyAll_apply listed]
      · simp only [Mirror.apply, Function.update_of_ne (Ne.symm own)]
    · rw [item_resolveParent]
    · rw [item_resolveRelation]

theorem pass_of_reach (reach : Reach projectId batch m m') : m'.pass projectId batch = m.pass projectId batch := by
  have knows : ∀ x, (m'.pass projectId batch).Knows x ↔ (m.pass projectId batch).Knows x := by
    intro x
    rw [knows_pass, knows_pass]
    constructor
    · rintro (known | listed)
      · exact reach.knows_only known
      · exact Or.inr listed
    · rintro (known | listed)
      · exact Or.inl (reach.knows known)
      · exact Or.inr listed
  have found : ∀ s, (m'.pass projectId batch).foundRelations s = (m.pass projectId batch).foundRelations s := by
    intro s
    simp only [foundRelations, Resolvable, knows]
  have later : ∀ x, m'.Knows x → (m'.pass projectId batch).Knows x := fun _ known => knows_pass.mpr (Or.inl known)
  ext1
  · funext x
    rw [item_pass, item_pass, contentAfter_of_reach reach]
  · funext x
    rw [parent_pass, parent_pass, parentAfter_of_reach reach later, parentAfter_congr knows]
  · rw [relation_pass, relation_pass]
    simp only [found]
    obtain ⟨kept, named⟩ := reach.relation_subset
    have within : m'.relation ⊆ m.relation ∪ {e | ∃ s ∈ batch, e ∈ (m.pass projectId batch).foundRelations s} := by
      intro e member
      rcases named member with old | ⟨s, listed, resolvable⟩
      · exact Or.inl old
      · exact Or.inr ⟨s, listed, found s ▸ foundRelations_mono later s resolvable⟩
    refine Set.Subset.antisymm ?_ ?_
    · exact Set.union_subset within Set.subset_union_right
    · exact Set.union_subset_union_left _ kept

/-! ### Starting over -/

theorem resolveAll_knownOf : m.resolveAll (m.knownOf batch) = m.resolveAll batch := by
  induction batch generalizing m with
  | nil => rfl
  | cons s batch ih =>
    have rest : m.knownOf batch = (m.resolve s).knownOf batch := (knownOf_congr item_resolve batch).symm
    have whole : m.resolveAll (s :: batch) = (m.resolve s).resolveAll batch := rfl
    by_cases known : m.Knows s.externalId
    · have first : m.knownOf (s :: batch) = s :: m.knownOf batch := by simp [knownOf, known]
      have step : m.resolveAll (s :: m.knownOf batch) = (m.resolve s).resolveAll (m.knownOf batch) := rfl
      rw [first, step, rest, ih, whole]
    · have first : m.knownOf (s :: batch) = m.knownOf batch := by simp [knownOf, known]
      have unchanged : m.resolve s = m := by rw [resolve, if_neg known]
      rw [first, whole, unchanged, ih]

theorem resolveAll_of_resolves (resolves : Resolves projectId batch m m') : m'.resolveAll batch = m.resolveAll batch := by
  obtain ⟨reach, items⟩ := resolves
  have known : ∀ s ∈ m.knownOf batch, m.Knows s.externalId := fun _ member => (mem_knownOf.mp member).2
  have known' : ∀ s ∈ m.knownOf batch, m'.Knows s.externalId := fun s member => (knows_congr items).mpr (known s member)
  have found : ∀ s, m'.foundRelations s = m.foundRelations s := by
    intro s
    simp only [foundRelations, Resolvable, knows_congr items]
  rw [← resolveAll_knownOf, ← resolveAll_knownOf (m := m), knownOf_congr items]
  ext1
  · rw [item_resolveAll, item_resolveAll, items]
  · funext x
    rw [parent_resolveAll known', parent_resolveAll known, parentAfter_of_reach reach fun _ => id,
      parentAfter_congr fun _ => knows_congr items]
  · rw [relation_resolveAll known', relation_resolveAll known]
    obtain ⟨kept, named⟩ := reach.relation_subset
    simp only [found] at named ⊢
    refine Set.Subset.antisymm ?_ ?_
    · exact Set.union_subset named Set.subset_union_right
    · exact Set.union_subset_union_left _ kept

/-- What an import of a batch leaves. Where its project is not stored it creates
no work items. -/
def imported (stored : Bool) (projectId : ProjectId) (batch : List OpenProjectWorkItemSnapshot) (m : Mirror) : Mirror :=
  if stored then m.pass projectId batch else m.resolveAll batch

def Importing (stored : Bool) (projectId : ProjectId) (batch : List OpenProjectWorkItemSnapshot) (m m' : Mirror) : Prop :=
  if stored then Reach projectId batch m m' else Resolves projectId batch m m'

theorem imported_of_importing {stored : Bool} (importing : Importing stored projectId batch m m') :
    m'.imported stored projectId batch = m.imported stored projectId batch := by
  cases stored with
  | true => exact pass_of_reach importing
  | false => exact @resolveAll_of_resolves projectId _ _ _ importing

theorem importing_refl (stored : Bool) : Importing stored projectId batch m m := by
  cases stored with
  | true => exact Relation.ReflTransGen.refl
  | false => exact Resolves.refl m

/-! ### The order of a batch -/

theorem snapshotsOf_perm {l l' : List OpenProjectWorkItemSnapshot}
    (distinct : (l.map OpenProjectWorkItemSnapshot.externalId).Nodup) (perm : l'.Perm l) (x : String) :
    snapshotsOf x l' = snapshotsOf x l := by
  have filtered : (snapshotsOf x l').Perm (snapshotsOf x l) := perm.filter _
  cases only : snapshotsOf x l with
  | nil => rw [only] at filtered; exact List.perm_nil.mp filtered
  | cons s rest =>
    have alone : ∀ s' ∈ rest, False := by
      have nodup : ((s :: rest).map OpenProjectWorkItemSnapshot.externalId).Nodup := by
        rw [← only]
        exact distinct.sublist (List.Sublist.map _ List.filter_sublist)
      rw [List.map_cons, List.nodup_cons] at nodup
      intro s' member
      have first : s ∈ snapshotsOf x l := only ▸ List.mem_cons_self ..
      have later : s' ∈ snapshotsOf x l := only ▸ List.mem_cons_of_mem _ member
      have same := (mem_snapshotsOf.mp later).2.trans (mem_snapshotsOf.mp first).2.symm
      exact nodup.1 (List.mem_map.mpr ⟨s', member, same⟩)
    have nil : rest = [] := List.eq_nil_iff_forall_not_mem.mpr alone
    rw [only, nil] at filtered
    rw [nil]
    exact List.perm_singleton.mp filtered

section Order
variable {l l' r : List OpenProjectWorkItemSnapshot}
  (distinct : (l.map OpenProjectWorkItemSnapshot.externalId).Nodup)
include distinct

theorem resolveAll_perm (whole : r.Perm l) : (m.ingestAll projectId l).resolveAll r = m.pass projectId l := by
  have known : ∀ s ∈ l, (m.ingestAll projectId l).Knows s.externalId :=
    fun s member => knows_ingestAll.mpr (Or.inr ⟨s, member, rfl⟩)
  have known' : ∀ s ∈ r, (m.ingestAll projectId l).Knows s.externalId :=
    fun s member => known s (whole.mem_iff.mp member)
  ext1
  · rw [pass, item_resolveAll, item_resolveAll]
  · funext x
    rw [pass, parent_resolveAll known', parent_resolveAll known, parentAfter, parentAfter,
      snapshotsOf_perm distinct whole]
  · rw [pass, relation_resolveAll known', relation_resolveAll known]
    simp only [whole.mem_iff]

theorem pass_perm (perm : l'.Perm l) : m.pass projectId l' = m.pass projectId l := by
  have knows : ∀ x, (m.pass projectId l').Knows x ↔ (m.pass projectId l).Knows x := by
    intro x
    simp only [knows_pass, perm.mem_iff]
  have found : ∀ s, (m.pass projectId l').foundRelations s = (m.pass projectId l).foundRelations s := by
    intro s
    simp only [foundRelations, Resolvable, knows]
  ext1
  · funext x
    rw [item_pass, item_pass, contentAfter, contentAfter, snapshotsOf_perm distinct perm]
  · funext x
    rw [parent_pass, parent_pass, parentAfter_congr knows, parentAfter, parentAfter, snapshotsOf_perm distinct perm]
  · rw [relation_pass, relation_pass]
    simp only [found, perm.mem_iff]

theorem parent_pass_orphan {s : OpenProjectWorkItemSnapshot} (member : s ∈ l) (orphan : m.parent s.externalId = none) :
    (m.pass projectId l).parent s.externalId = (m.pass projectId l).namedParent s := by
  have only : snapshotsOf s.externalId l = [s] := by
    obtain ⟨early, late, whole⟩ := List.append_of_mem member
    have perm : (s :: (early ++ late)).Perm l := by
      rw [whole]
      exact List.perm_middle.symm
    have first : snapshotsOf s.externalId (s :: (early ++ late)) = s :: snapshotsOf s.externalId (early ++ late) := by
      simp [snapshotsOf]
    have nodup : ((s :: (early ++ late)).map OpenProjectWorkItemSnapshot.externalId).Nodup :=
      ((perm.map _).nodup_iff).mpr distinct
    rw [List.map_cons, List.nodup_cons] at nodup
    have rest : snapshotsOf s.externalId (early ++ late) = [] := by
      refine List.eq_nil_iff_forall_not_mem.mpr ?_
      intro s' later
      obtain ⟨listed, same⟩ := mem_snapshotsOf.mp later
      exact nodup.1 (List.mem_map.mpr ⟨s', listed, same⟩)
    rw [← snapshotsOf_perm distinct perm, first, rest]
  rw [parent_pass, parentAfter, only, orphan, Override.overrides_cons, Override.overrides_nil]
  cases (m.pass projectId l).namedParent s <;> rfl

end Order

end Mirror

end Brain
