import Brain.Adapters.KnowledgeGraph
import Mathlib.Data.List.Find

namespace Brain
open FirstWriter LastWriter

/-! ### The tables hold what was written -/

def written (calls : List GraphCall) : List GraphEdge := calls.flatMap GraphCall.relations

namespace InMemoryKnowledgeGraph
variable {graph : InMemoryKnowledgeGraph} {edges : List GraphEdge}

structure Wrote (graph : InMemoryKnowledgeGraph) (edges : List GraphEdge) : Prop where
  out : graph.relationsOut = edges.foldl (fun groups e => Groups.append groups e.subjectId e) Keyed.empty
  into : graph.relationsIn = edges.foldl (fun groups e => Groups.append groups e.objectId e) Keyed.empty

theorem upsertRelations_tables (graph : InMemoryKnowledgeGraph) (relations : List GraphEdge) :
    (graph.upsertRelations relations).entities = graph.entities ∧
      (graph.upsertRelations relations).relationsOut =
        relations.foldl (fun groups e => Groups.append groups e.subjectId e) graph.relationsOut ∧
      (graph.upsertRelations relations).relationsIn =
        relations.foldl (fun groups e => Groups.append groups e.objectId e) graph.relationsIn := by
  unfold upsertRelations
  induction relations generalizing graph with
  | nil => exact ⟨rfl, rfl, rfl⟩
  | cons relation relations ih => exact ih (graph.upsertRelation relation)

theorem wrote_empty : Wrote {} [] := ⟨rfl, rfl⟩

theorem wrote_apply (wrote : Wrote graph edges) (call : GraphCall) : Wrote (graph.apply call) (edges ++ call.relations) := by
  cases call with
  | upsertEntities entities =>
    rw [GraphCall.relations, List.append_nil]
    exact ⟨wrote.out, wrote.into⟩
  | upsertRelations relations =>
    obtain ⟨_, out, into⟩ := graph.upsertRelations_tables relations
    refine ⟨out.trans ?_, into.trans ?_⟩
    · rw [wrote.out, GraphCall.relations, List.foldl_append]
    · rw [wrote.into, GraphCall.relations, List.foldl_append]

theorem wrote_applyAll (wrote : Wrote graph edges) (calls : List GraphCall) :
    Wrote (graph.applyAll calls) (edges ++ written calls) := by
  induction calls generalizing graph edges with
  | nil =>
    rw [written, List.flatMap_nil, List.append_nil]
    exact wrote
  | cons call calls ih =>
    have rest := ih (wrote_apply wrote call)
    rw [List.append_assoc] at rest
    exact rest

theorem under_out (wrote : Wrote graph edges) (id : Uuid) :
    Groups.under graph.relationsOut id = edges.filter fun e => e.subjectId = id := by
  rw [wrote.out, Groups.under_foldl (fun e : GraphEdge => e.subjectId), Groups.under_empty, List.nil_append]

theorem under_in (wrote : Wrote graph edges) (id : Uuid) :
    Groups.under graph.relationsIn id = edges.filter fun e => e.objectId = id := by
  rw [wrote.into, Groups.under_foldl (fun e : GraphEdge => e.objectId), Groups.under_empty, List.nil_append]

theorem filter_all_out (wrote : Wrote graph edges) (id : Uuid) :
    (Groups.all graph.relationsOut).filter (fun e => e.subjectId = id) = edges.filter fun e => e.subjectId = id := by
  have sorted : Groups.Sorted (fun e : GraphEdge => e.subjectId) graph.relationsOut := by
    rw [wrote.out]
    exact Groups.sorted_foldl Groups.sorted_empty edges
  rw [← under_out wrote]
  exact Groups.filter_all sorted id

/-! ### What find_relations returns -/

abbrev endsOf (e : GraphEdge) : Uuid × RelationType × Uuid := e.ends

theorem first_all_out (wrote : Wrote graph edges) (p : GraphEdge → Bool) (k : Uuid × RelationType × Uuid) :
    first endsOf ((Groups.all graph.relationsOut).filter p) k = first endsOf (edges.filter p) k := by
  have narrow : ∀ es : List GraphEdge, first endsOf (es.filter p) k =
      first endsOf ((es.filter fun e => e.subjectId = k.1).filter p) k := by
    intro es
    unfold first
    rw [List.find?_filter, List.find?_filter, List.find?_filter]
    refine congrArg (List.find? · es) (funext fun e => ?_)
    by_cases same : e.ends = k
    · have subject : e.subjectId = k.1 := congrArg Prod.fst same
      simp [same, subject]
    · simp [same]
  rw [narrow, filter_all_out wrote, ← narrow]

theorem mem_findRelations (wrote : Wrote graph edges) (query : RelationQuery) (e : GraphEdge) :
    e ∈ graph.findRelations query ↔
      first endsOf (edges.filter fun other => query.passes other.toGraphRelation) e.ends = some e := by
  unfold findRelations
  rw [mem_firsts, first_all_out wrote]

theorem nodup_findRelations (query : RelationQuery) : ((graph.findRelations query).map endsOf).Nodup :=
  nodup_firsts _

theorem filter_findRelations (wrote : Wrote graph edges) (query : RelationQuery) (identity : GraphRelation) :
    (graph.findRelations query).filter (fun e => e.toGraphRelation = identity) =
      ((first endsOf (edges.filter fun e => query.passes e.toGraphRelation) identity.ends).filter fun e =>
        e.toGraphRelation = identity).toList := by
  rw [← first_all_out wrote, ← first_firsts]
  refine filter_of_nodup (nodup_findRelations query) fun e passes => ?_
  rw [decide_eq_true_eq] at passes
  rw [← passes]

/-! ### Upserts that replace nothing -/

structure OneVersion (edges : List GraphEdge) : Prop where
  revision : ∀ e ∈ edges, ∀ other ∈ edges, e.ends = other.ends → e.revision = other.revision
  unchanged : ∀ ends, first endsOf edges ends = last endsOf edges ends

/-- Of each identity the last write is found, by the queries that match it. -/
def FindsLast (graph : InMemoryKnowledgeGraph) (edges : List GraphEdge) : Prop :=
  ∀ (query : RelationQuery) (identity : GraphRelation),
    (graph.findRelations query).filter (fun e => e.toGraphRelation = identity) =
      if query.passes identity then (last GraphEdge.toGraphRelation edges identity).toList else []

theorem identity_of_ends {e other : GraphEdge} (ends : e.ends = other.ends) (revision : e.revision = other.revision) :
    e.toGraphRelation = other.toGraphRelation := by
  obtain ⟨⟨s, t, o, r⟩, _, _, _⟩ := e
  obtain ⟨⟨s', t', o', r'⟩, _, _, _⟩ := other
  simp only [GraphRelation.ends, Prod.mk.injEq] at ends
  obtain ⟨rfl, rfl, rfl⟩ := ends
  obtain rfl : r = r' := revision
  rfl

theorem last_ends {e : GraphEdge} (same : ∀ other ∈ edges, other.ends = e.ends → other.toGraphRelation = e.toGraphRelation) :
    last endsOf edges e.ends = last GraphEdge.toGraphRelation edges e.toGraphRelation := by
  unfold last
  refine congrArg List.getLast? (List.filter_congr fun other member => ?_)
  rw [decide_eq_decide]
  exact ⟨same other member, fun equal => congrArg GraphRelation.ends equal⟩

theorem oneVersion_of_findsLast (wrote : Wrote graph edges) (finds : FindsLast graph edges) : OneVersion edges := by
  have plain : ∀ e ∈ edges, (first endsOf edges e.ends).filter (fun other => other.toGraphRelation = e.toGraphRelation) =
      last GraphEdge.toGraphRelation edges e.toGraphRelation := by
    intro e member
    have found := finds {} e.toGraphRelation
    rw [filter_findRelations wrote] at found
    have all : edges.filter (fun other => RelationQuery.passes {} other.toGraphRelation) = edges :=
      List.filter_eq_self.mpr fun _ _ => rfl
    have matched : RelationQuery.passes {} e.toGraphRelation = true := rfl
    rw [all, matched, if_pos rfl] at found
    simpa only [Option.head?_toList] using congrArg List.head? found
  have isFirst : ∀ e ∈ edges, ∃ f, first endsOf edges e.ends = some f ∧ f.toGraphRelation = e.toGraphRelation ∧
      last GraphEdge.toGraphRelation edges e.toGraphRelation = some f := by
    intro e member
    obtain ⟨f, atEnd⟩ := exists_last GraphEdge.toGraphRelation member
    have found := plain e member
    rw [atEnd, Option.filter_eq_some_iff, decide_eq_true_eq] at found
    exact ⟨f, found.1, found.2, atEnd⟩
  have revision : ∀ e ∈ edges, ∀ other ∈ edges, e.ends = other.ends → e.revision = other.revision := by
    intro e member other member' ends
    obtain ⟨f, atFirst, same, _⟩ := isFirst e member
    obtain ⟨f', atFirst', same', _⟩ := isFirst other member'
    obtain rfl : f = f' := Option.some.inj (atFirst.symm.trans (ends ▸ atFirst'))
    exact congrArg GraphRelation.revision (same.symm.trans same')
  refine ⟨revision, fun ends => ?_⟩
  cases isWritten : first endsOf edges ends with
  | none =>
    cases isLast : last endsOf edges ends with
    | none => rfl
    | some e =>
      obtain ⟨member, rfl⟩ := last_eq_some isLast
      exact absurd (List.mem_map_of_mem member) (first_eq_none.mp isWritten)
  | some e =>
    obtain ⟨member, rfl⟩ := first_eq_some isWritten
    obtain ⟨f, atFirst, _, atLast⟩ := isFirst e member
    rw [last_ends fun other member' equal => identity_of_ends equal (revision other member' e member equal), atLast]
    exact isWritten.symm.trans atFirst

theorem findsLast_of_oneVersion (wrote : Wrote graph edges) (one : OneVersion edges) : FindsLast graph edges := by
  intro query identity
  rw [filter_findRelations wrote]
  cases isWritten : first endsOf edges identity.ends with
  | none =>
    have unwritten := first_eq_none.mp isWritten
    have nothing : first endsOf (edges.filter fun e => query.passes e.toGraphRelation) identity.ends = none := by
      refine first_eq_none.mpr fun listed => unwritten ?_
      exact (List.filter_sublist.map endsOf).subset listed
    have never : last GraphEdge.toGraphRelation edges identity = none := by
      cases isLast : last GraphEdge.toGraphRelation edges identity with
      | none => rfl
      | some e =>
        obtain ⟨member, rfl⟩ := last_eq_some isLast
        exact absurd (List.mem_map_of_mem member) unwritten
    rw [nothing, never]
    simp
  | some f =>
    obtain ⟨member, atEnds⟩ := first_eq_some isWritten
    have ends : f.ends = identity.ends := atEnds
    have alike : ∀ e ∈ edges, e.ends = identity.ends → e.toGraphRelation = f.toGraphRelation := by
      intro e member' equal
      have same : e.ends = f.ends := equal.trans ends.symm
      exact identity_of_ends same (one.revision e member' f member same)
    -- the filters see only the identity, which the writes between these ends share
    have passing : first endsOf (edges.filter fun e => query.passes e.toGraphRelation) identity.ends =
        if query.passes f.toGraphRelation then some f else none := by
      by_cases passes : query.passes f.toGraphRelation
      · rw [if_pos passes, ← isWritten, first, List.find?_filter, first]
        refine List.find?_congr fun e member' => ?_
        by_cases equal : e.ends = identity.ends
        · simp [equal, alike e member' equal, passes]
        · simp [equal]
      · rw [if_neg passes, first_eq_none]
        intro listed
        obtain ⟨e, kept, equal⟩ := List.mem_map.mp listed
        rw [List.mem_filter] at kept
        exact passes (alike e kept.1 equal ▸ kept.2)
    have isLast : last GraphEdge.toGraphRelation edges f.toGraphRelation = some f := by
      rw [← last_ends fun e member' equal => alike e member' (equal.trans ends), ← one.unchanged, ends, isWritten]
    rw [passing]
    by_cases own : f.toGraphRelation = identity
    · rw [← own, isLast]
      split <;> simp [Option.filter]
    · have never : last GraphEdge.toGraphRelation edges identity = none := by
        cases atEnd : last GraphEdge.toGraphRelation edges identity with
        | none => rfl
        | some e =>
          obtain ⟨member', same⟩ := last_eq_some atEnd
          exact absurd ((alike e member' (congrArg GraphRelation.ends same)).symm.trans same) own
      rw [never]
      split <;> simp [Option.filter, own]

/-! ### Repeating a call -/

theorem mem_bfs_congr {other : InMemoryKnowledgeGraph} {direction : Direction} {relationTypes : Option (List RelationType)}
    {revision : Option String} (next : ∀ id x, x ∈ graph.neighbors direction relationTypes revision id ↔
      x ∈ other.neighbors direction relationTypes revision id) {depth : Nat} {reached reached' frontier frontier' : List Uuid}
    (seen : ∀ x, x ∈ reached ↔ x ∈ reached') (border : ∀ x, x ∈ frontier ↔ x ∈ frontier') (x : Uuid) :
    x ∈ graph.bfs direction relationTypes revision depth reached frontier ↔
      x ∈ other.bfs direction relationTypes revision depth reached' frontier' := by
  induction depth generalizing reached reached' frontier frontier' with
  | zero => simp only [bfs, List.mem_append, seen, border]
  | succ depth ih =>
    have empty : frontier.isEmpty = frontier'.isEmpty := by
      rw [Bool.eq_iff_iff, List.isEmpty_iff, List.isEmpty_iff, List.eq_nil_iff_forall_not_mem, List.eq_nil_iff_forall_not_mem]
      simp only [border]
    have seenNext : ∀ y, y ∈ reached ++ frontier ↔ y ∈ reached' ++ frontier' := by
      intro y
      simp only [List.mem_append, seen, border]
    unfold bfs
    rw [empty]
    split
    · exact seen x
    · refine ih seenNext fun y => ?_
      have skipped : ((reached ++ frontier).contains y) = ((reached' ++ frontier').contains y) := by
        rw [Bool.eq_iff_iff, List.contains_iff_mem, List.contains_iff_mem]
        exact seenNext y
      simp only [List.mem_filter, List.mem_flatMap, border, next, skipped]

/-- Every query has the same answer on both graphs; of a list of relations only
the order may differ. -/
structure SameAnswers (graph other : InMemoryKnowledgeGraph) : Prop where
  entities : ∀ query, graph.findEntities query = other.findEntities query
  relations : ∀ query, (graph.findRelations query).Perm (other.findRelations query)
  traversals : ∀ startIds relationTypes depth direction revision,
    graph.traverseFrom startIds relationTypes depth direction revision =
      other.traverseFrom startIds relationTypes depth direction revision

theorem sameAnswers_of_wrote {other : InMemoryKnowledgeGraph} {edges' : List GraphEdge} (wrote : Wrote graph edges)
    (wrote' : Wrote other edges') (entities : graph.entities = other.entities) (members : ∀ e, e ∈ edges ↔ e ∈ edges')
    (firsts : ∀ p ends, first endsOf (edges.filter p) ends = first endsOf (edges'.filter p) ends) :
    SameAnswers graph other where
  entities query := by rw [findEntities, findEntities, entities]
  relations query := by
    refine (List.perm_ext_iff_of_nodup (nodup_findRelations query).of_map (nodup_findRelations query).of_map).mpr fun e => ?_
    rw [mem_findRelations wrote, mem_findRelations wrote', firsts]
  traversals startIds relationTypes depth direction revision := by
    have out : ∀ id x, x ∈ graph.outNeighbors relationTypes revision id ↔ x ∈ other.outNeighbors relationTypes revision id := by
      intro id x
      simp only [outNeighbors, under_out wrote, under_out wrote', List.mem_map, List.mem_filter, members]
    have into : ∀ id x, x ∈ graph.inNeighbors relationTypes revision id ↔ x ∈ other.inNeighbors relationTypes revision id := by
      intro id x
      simp only [inNeighbors, under_in wrote, under_in wrote', List.mem_map, List.mem_filter, members]
    have next : ∀ id x, x ∈ graph.neighbors direction relationTypes revision id ↔
        x ∈ other.neighbors direction relationTypes revision id := by
      intro id x
      cases direction with
      | forward => exact out id x
      | reverse => exact into id x
      | both => simp only [neighbors, List.mem_append, out, into]
    unfold traverseFrom
    rw [entities]
    refine List.filter_congr fun entity _ => ?_
    rw [Bool.eq_iff_iff, List.contains_iff_mem, List.contains_iff_mem]
    exact mem_bfs_congr next (fun _ => Iff.rfl) (fun _ => Iff.rfl) entity.id

theorem apply_apply (graph : InMemoryKnowledgeGraph) (call : GraphCall) :
    ((graph.apply call).apply call).entities = (graph.apply call).entities := by
  cases call with
  | upsertEntities entities => exact Keyed.foldl_upsert_twice entities graph.entities
  | upsertRelations relations =>
    exact (upsertRelations_tables (graph.upsertRelations relations) relations).1

theorem sameAnswers_repeat (wrote : Wrote graph edges) (call : GraphCall) :
    SameAnswers ((graph.apply call).apply call) (graph.apply call) := by
  refine sameAnswers_of_wrote (wrote_apply (wrote_apply wrote call) call) (wrote_apply wrote call)
    (apply_apply graph call) ?_ ?_
  · intro e
    simp only [List.mem_append, or_assoc, or_self]
  · intro p ends
    rw [List.filter_append, first_append, List.filter_append, first_append, Option.or_assoc, Option.or_self]

structure Upserts (calls : List GraphCall) : Prop where
  findsLast : FindsLast (applyAll {} calls) (written calls)
  repeatable : ∀ call, SameAnswers (((applyAll {} calls).apply call).apply call) ((applyAll {} calls).apply call)

/-- Upserts are upserts exactly when between two ends only one revision was
written, and last as it was first. -/
theorem upserts_iff (calls : List GraphCall) : Upserts calls ↔ OneVersion (written calls) := by
  have wrote := wrote_applyAll wrote_empty calls
  rw [List.nil_append] at wrote
  constructor
  · intro upserts
    exact oneVersion_of_findsLast wrote upserts.findsLast
  · intro one
    exact ⟨findsLast_of_oneVersion wrote one, sameAnswers_repeat wrote⟩

def twoRevisions : List GraphCall :=
  [.upsertRelations
    [{ subjectId := .v5 "a", relationType := .calls, objectId := .v5 "b", revision := some "abc" },
      { subjectId := .v5 "a", relationType := .calls, objectId := .v5 "b", revision := some "def" }]]

theorem second_revision_not_found : ¬ Upserts twoRevisions := by
  intro upserts
  have found := upserts.findsLast {} { subjectId := .v5 "a", relationType := .calls, objectId := .v5 "b", revision := some "def" }
  have lengths := congrArg List.length found
  revert lengths
  decide

end InMemoryKnowledgeGraph

end Brain
