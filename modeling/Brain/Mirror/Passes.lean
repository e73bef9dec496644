import Brain.Mirror.Model

namespace Brain
namespace Mirror
variable {projectId : ProjectId} {s : OpenProjectWorkItemSnapshot} {m m' : Mirror}
  {batch : List OpenProjectWorkItemSnapshot}

/-! ### One snapshot -/

/-- The relations of `s` whose ends are known. -/
def foundRelations (m : Mirror) (s : OpenProjectWorkItemSnapshot) : Set (String × String × WorkItemRelationType) :=
  {e | ∃ raw ∈ s.relations, namedRelation s raw = some e ∧ m.Resolvable e}

/-- The parent `s` names, when it is known and not the work package itself. -/
def namedParent (m : Mirror) (s : OpenProjectWorkItemSnapshot) : Option String :=
  (parentExternalId s).filter fun p => m.Knows p ∧ p ≠ s.externalId

theorem namedParent_eq_some {p : String} :
    m.namedParent s = some p ↔ parentExternalId s = some p ∧ m.Knows p ∧ p ≠ s.externalId := by
  simp [namedParent, Option.filter_eq_some_iff]

theorem namedParent_congr (same : ∀ x, m'.Knows x ↔ m.Knows x) (s : OpenProjectWorkItemSnapshot) :
    m'.namedParent s = m.namedParent s := by
  simp only [namedParent, same]

theorem resolvable_mono {e : String × String × WorkItemRelationType} (grows : ∀ x, m.Knows x → m'.Knows x)
    (resolvable : m.Resolvable e) : m'.Resolvable e :=
  ⟨grows _ resolvable.1, grows _ resolvable.2.1, resolvable.2.2⟩

theorem foundRelations_mono (grows : ∀ x, m.Knows x → m'.Knows x) (s : OpenProjectWorkItemSnapshot) :
    m.foundRelations s ⊆ m'.foundRelations s := by
  rintro e ⟨raw, member, named, resolvable⟩
  exact ⟨raw, member, named, resolvable_mono grows resolvable⟩

theorem parent_resolveParent (known : m.Knows s.externalId) :
    (m.resolveParent s).parent = Function.update m.parent s.externalId ((m.namedParent s).or (m.parent s.externalId)) := by
  have unnamed : m.namedParent s = none →
      m.parent = Function.update m.parent s.externalId ((m.namedParent s).or (m.parent s.externalId)) := by
    intro none
    rw [none, Option.none_or, Function.update_eq_self]
  unfold resolveParent
  split
  · rename_i missing
    exact unnamed (by simp [namedParent, missing])
  · rename_i p names
    by_cases resolvable : m.Knows p ∧ p ≠ s.externalId
    · have named : m.namedParent s = some p := namedParent_eq_some.mpr ⟨names, resolvable⟩
      rw [if_pos ⟨known, resolvable⟩, named]
      rfl
    · rw [if_neg fun all => resolvable all.2]
      refine unnamed ?_
      simp only [namedParent, names, Option.filter_some, decide_eq_true_eq, resolvable, if_false]

theorem resolveParent_of_unknown (unknown : ¬ m.Knows s.externalId) : m.resolveParent s = m := by
  unfold resolveParent
  split
  · rfl
  · rw [if_neg fun all => unknown all.1]

variable {x : String}

theorem parent_resolveParent_ne (other : s.externalId ≠ x) : (m.resolveParent s).parent x = m.parent x := by
  unfold resolveParent
  split
  · rfl
  · split
    · exact Function.update_of_ne (Ne.symm other) _ _
    · rfl

theorem relation_resolveSome (raws : List RawDict) :
    (raws.foldl (fun m raw => m.resolveRelation s raw) m).relation =
      m.relation ∪ {e | ∃ raw ∈ raws, namedRelation s raw = some e ∧ m.Resolvable e} := by
  induction raws generalizing m with
  | nil => simp
  | cons raw raws ih =>
    have items := item_resolveRelation m s raw
    have resolvable : ∀ e, (m.resolveRelation s raw).Resolvable e ↔ m.Resolvable e := by
      intro e
      simp only [Resolvable, knows_congr items]
    have first : (m.resolveRelation s raw).relation =
        m.relation ∪ {e | namedRelation s raw = some e ∧ m.Resolvable e} := by
      unfold resolveRelation
      cases named : namedRelation s raw with
      | none => simp
      | some e =>
        dsimp only
        split
        · rename_i holds
          ext e'
          simp only [addRelation, Set.mem_insert_iff, Set.mem_union, Set.mem_ofPred_eq, Option.some.injEq]
          constructor
          · rintro (rfl | old)
            · exact Or.inr ⟨rfl, holds⟩
            · exact Or.inl old
          · rintro (old | ⟨rfl, _⟩)
            · exact Or.inr old
            · exact Or.inl rfl
        · rename_i fails
          ext e'
          simp only [Set.mem_union, Set.mem_ofPred_eq, Option.some.injEq]
          constructor
          · exact Or.inl
          · rintro (old | ⟨rfl, holds⟩)
            · exact old
            · exact absurd holds fails
    rw [List.foldl_cons, ih, first]
    ext e
    simp only [Set.mem_union, Set.mem_ofPred_eq, resolvable, List.exists_mem_cons_iff, or_assoc]

theorem relation_resolveRelations : (m.resolveRelations s).relation = m.relation ∪ m.foundRelations s :=
  relation_resolveSome s.relations

theorem item_resolveSome (raws : List RawDict) :
    (raws.foldl (fun m raw => m.resolveRelation s raw) m).item = m.item := by
  induction raws generalizing m with
  | nil => rfl
  | cons raw raws ih => rw [List.foldl_cons, ih, item_resolveRelation]

theorem parent_resolveSome (raws : List RawDict) :
    (raws.foldl (fun m raw => m.resolveRelation s raw) m).parent = m.parent := by
  induction raws generalizing m with
  | nil => rfl
  | cons raw raws ih => rw [List.foldl_cons, ih, parent_resolveRelation]

@[simp] theorem item_resolveRelations : (m.resolveRelations s).item = m.item := item_resolveSome s.relations

@[simp] theorem parent_resolveRelations : (m.resolveRelations s).parent = m.parent := parent_resolveSome s.relations

/-- The content of the work item of `s` after its ingestion. -/
def ingested (projectId : ProjectId) (s : OpenProjectWorkItemSnapshot) (c : Option Content) : Content :=
  Content.apply s (c.getD (Content.new projectId s))

theorem item_ingest : (m.ingest projectId s).item =
    Function.update m.item s.externalId (some (ingested projectId s (m.item s.externalId))) := by
  rw [ingest, item_resolveRelations, item_resolveParent]
  funext y
  by_cases own : y = s.externalId
  · subst own
    simp [apply, create, ingested]
  · simp [apply, create, own]

theorem parent_ingest : (m.ingest projectId s).parent =
    Function.update m.parent s.externalId
      (((m.create projectId s).namedParent s).or (m.parent s.externalId)) := by
  have known : ((m.create projectId s).apply s).Knows s.externalId := knows_apply.mpr (knows_create.mpr (Or.inl rfl))
  rw [ingest, parent_resolveRelations, parent_resolveParent known,
    namedParent_congr (m := m.create projectId s) fun x => knows_apply]
  rfl

theorem relation_ingest : (m.ingest projectId s).relation =
    m.relation ∪ (m.create projectId s).foundRelations s := by
  rw [ingest, relation_resolveRelations, relation_resolveParent]
  have same : ∀ x, (((m.create projectId s).apply s).resolveParent s).Knows x ↔ (m.create projectId s).Knows x :=
    fun x => (knows_congr (item_resolveParent _ s)).trans knows_apply
  have found : (((m.create projectId s).apply s).resolveParent s).foundRelations s =
      (m.create projectId s).foundRelations s := by
    simp only [foundRelations, Resolvable, same]
  rw [found]
  rfl

@[simp] theorem item_resolve : (m.resolve s).item = m.item := by
  unfold resolve
  split
  · rw [item_resolveRelations, item_resolveParent]
  · rfl

theorem knows_resolve : (m.resolve s).Knows x ↔ m.Knows x := knows_congr item_resolve

theorem parent_resolve (known : m.Knows s.externalId) : (m.resolve s).parent =
    Function.update m.parent s.externalId ((m.namedParent s).or (m.parent s.externalId)) := by
  rw [resolve, if_pos known, parent_resolveRelations, parent_resolveParent known]

theorem relation_resolve (known : m.Knows s.externalId) :
    (m.resolve s).relation = m.relation ∪ m.foundRelations s := by
  have same : (m.resolveParent s).foundRelations s = m.foundRelations s := by
    simp only [foundRelations, Resolvable, knows_congr (item_resolveParent m s)]
  rw [resolve, if_pos known, relation_resolveRelations, relation_resolveParent, same]

/-! ### Writes of a second pass -/

def knownOf (m : Mirror) (batch : List OpenProjectWorkItemSnapshot) : List OpenProjectWorkItemSnapshot :=
  batch.filter fun s => m.Knows s.externalId

theorem knownOf_congr (same : m'.item = m.item) (batch : List OpenProjectWorkItemSnapshot) :
    m'.knownOf batch = m.knownOf batch := by
  simp only [knownOf, knows_congr same]

theorem mem_knownOf : s ∈ m.knownOf batch ↔ s ∈ batch ∧ m.Knows s.externalId := by
  simp [knownOf]

/-- Some writes of a second pass over a batch: they leave the contents alone. -/
def Resolves (projectId : ProjectId) (batch : List OpenProjectWorkItemSnapshot) (m m' : Mirror) : Prop :=
  Reach projectId (m.knownOf batch) m m' ∧ m'.item = m.item

theorem Resolves.reach (resolves : Resolves projectId batch m m') : Reach projectId batch m m' :=
  resolves.1.mono List.filter_sublist.subset

theorem Resolves.refl (m : Mirror) : Resolves projectId batch m m := ⟨.refl, rfl⟩

theorem Resolves.cons (resolves : Resolves projectId batch (m.resolve s) m') : Resolves projectId (s :: batch) m m' := by
  obtain ⟨reach, items⟩ := resolves
  rw [knownOf_congr item_resolve] at reach
  have later : Reach projectId (m.knownOf (s :: batch)) (m.resolve s) m' :=
    reach.mono fun _ member => mem_knownOf.mpr ⟨List.mem_cons_of_mem _ (mem_knownOf.mp member).1, (mem_knownOf.mp member).2⟩
  refine ⟨?_, items.trans item_resolve⟩
  by_cases known : m.Knows s.externalId
  · have first := Reach.resolve (mem_knownOf.mpr ⟨List.mem_cons_self .., known⟩)
      (Relation.ReflTransGen.refl : Reach projectId (m.knownOf (s :: batch)) m m)
    exact first.trans later
  · rw [resolve, if_neg known] at later
    exact later

theorem Resolves.mono {larger : List OpenProjectWorkItemSnapshot} (resolves : Resolves projectId batch m m')
    (sub : batch ⊆ larger) : Resolves projectId larger m m' :=
  ⟨resolves.1.mono fun _ member => mem_knownOf.mpr ⟨sub (mem_knownOf.mp member).1, (mem_knownOf.mp member).2⟩,
    resolves.2⟩

/-! ### What any writes of a batch can reach -/

theorem Reach.others (reach : Reach projectId batch m m') (other : ∀ s ∈ batch, s.externalId ≠ x) :
    m'.item x = m.item x ∧ m'.parent x = m.parent x := by
  induction reach with
  | refl => exact ⟨rfl, rfl⟩
  | tail _ step ih =>
    obtain ⟨s, member, rfl | rfl | rfl | ⟨raw, _, rfl⟩⟩ := step
    · exact ⟨(Function.update_of_ne (Ne.symm (other s member)) _ _).trans ih.1, ih.2⟩
    · exact ⟨(Function.update_of_ne (Ne.symm (other s member)) _ _).trans ih.1, ih.2⟩
    · exact ⟨by rw [item_resolveParent]; exact ih.1, (parent_resolveParent_ne (other s member)).trans ih.2⟩
    · exact ⟨by rw [item_resolveRelation]; exact ih.1, by rw [parent_resolveRelation]; exact ih.2⟩

theorem Reach.relation_subset (reach : Reach projectId batch m m') :
    m.relation ⊆ m'.relation ∧ m'.relation ⊆ m.relation ∪ {e | ∃ s ∈ batch, e ∈ m'.foundRelations s} := by
  induction reach with
  | refl => exact ⟨subset_rfl, Set.subset_union_left⟩
  | @tail u v _ step ih =>
    have stepped : Reach projectId batch u v := .single step
    have grows : ∀ x, u.Knows x → v.Knows x := fun _ known => stepped.knows known
    have old : u.relation ⊆ m.relation ∪ {e | ∃ s ∈ batch, e ∈ v.foundRelations s} := by
      intro e member
      rcases ih.2 member with before | ⟨s, listed, found⟩
      · exact Or.inl before
      · exact Or.inr ⟨s, listed, foundRelations_mono grows s found⟩
    obtain ⟨s, member, rfl | rfl | rfl | ⟨raw, listed, rfl⟩⟩ := step
    · exact ⟨ih.1, old⟩
    · exact ⟨ih.1, old⟩
    · rw [relation_resolveParent]
      exact ⟨ih.1, old⟩
    · have added := relation_resolveSome (m := u) (s := s) [raw]
      simp only [List.foldl_cons, List.foldl_nil, List.mem_singleton, exists_eq_left] at added
      constructor
      · rw [added]
        exact ih.1.trans Set.subset_union_left
      · intro e new
        rw [added] at new
        rcases new with before | ⟨named, resolvable⟩
        · exact old before
        · exact Or.inr ⟨s, member, raw, listed, named, resolvable_mono grows resolvable⟩

theorem Reach.parent (reach : Reach projectId batch m m') : m'.parent x = m.parent x ∨
      ∃ s ∈ batch, s.externalId = x ∧ ∃ p, m'.parent x = some p ∧ m'.namedParent s = some p := by
  induction reach with
  | refl => exact Or.inl rfl
  | @tail u v _ step ih =>
    have stepped : Reach projectId batch u v := .single step
    have grows : ∀ x, u.Knows x → v.Knows x := fun _ known => stepped.knows known
    have old : v.parent x = u.parent x → v.parent x = m.parent x ∨
        ∃ s ∈ batch, s.externalId = x ∧ ∃ p, v.parent x = some p ∧ v.namedParent s = some p := by
      intro same
      rcases ih with before | ⟨s, member, ofX, p, parent, named⟩
      · exact Or.inl (same.trans before)
      · obtain ⟨names, known, differs⟩ := namedParent_eq_some.mp named
        exact Or.inr ⟨s, member, ofX, p, same.trans parent, namedParent_eq_some.mpr ⟨names, grows p known, differs⟩⟩
    obtain ⟨s, member, rfl | rfl | rfl | ⟨raw, listed, rfl⟩⟩ := step
    · exact old rfl
    · exact old rfl
    · by_cases own : s.externalId = x
      · by_cases known : u.Knows s.externalId
        · cases named : u.namedParent s with
          | none => exact old (by rw [parent_resolveParent known, named, Option.none_or, Function.update_eq_self])
          | some p =>
            refine Or.inr ⟨s, member, own, p, ?_, ?_⟩
            · rw [parent_resolveParent known, named, ← own, Function.update_self]
              rfl
            · rw [namedParent_congr (m := u) fun y => knows_congr (item_resolveParent u s)]
              exact named
        · exact old (by rw [resolveParent_of_unknown known])
      · exact old (parent_resolveParent_ne own)
    · exact old (by rw [parent_resolveRelation])

end Mirror

end Brain
