import Mathlib.Data.List.Nodup
import Mathlib.Logic.Relation

/-! Lists of nodes that name their parent and their children by keys. -/

section Forest
variable {α κ : Type} [DecidableEq κ]

/-- Every node has a key of its own, names an earlier node as its parent, or
none, and lists as its children those that name it, in their order. -/
structure Forest (key : α → κ) (parent : α → Option κ) (children : α → List κ) (nodes : List α) : Prop where
  nodup : (nodes.map key).Nodup
  earlier : ∀ i node, nodes[i]? = some node → ∀ p ∈ parent node, p ∈ (nodes.take i).map key
  children : ∀ node ∈ nodes, children node = (nodes.filter fun child => parent child = some (key node)).map key

/-- The laws of parents and children, which a part of a forest keeps when it is
cut after some node. -/
structure ParentChildLaws (key : α → κ) (parent : α → Option κ) (children : α → List κ) (nodes : List α) : Prop where
  distinct : (nodes.map key).Nodup
  earlier : ∀ (i : Nat) node, nodes[i]? = some node → ∀ p, parent node = some p →
    ∃ (j : Nat) (other : α), j < i ∧ nodes[j]? = some other ∧ key other = p
  once : ∀ child ∈ nodes, ∀ node ∈ nodes, (children node).count (key child) = if parent child = some (key node) then 1 else 0
  acyclic : ∀ node, ¬ Relation.TransGen (fun a b => a ∈ nodes ∧ b ∈ nodes ∧ parent a = some (key b)) node node

def ChildrenListed (key : α → κ) (children : α → List κ) (nodes : List α) : Prop :=
  ∀ node ∈ nodes, ∀ k ∈ children node, k ∈ nodes.map key

/-- The first nodes of a list that keeps the laws keep them. -/
theorem ParentChildLaws.of_prefix {key : α → κ} {parent : α → Option κ} {children : α → List κ} {nodes part : List α}
    (laws : ParentChildLaws key parent children nodes) (first : part <+: nodes) :
    ParentChildLaws key parent children part := by
  have within := first.subset
  have same : ∀ i, i < part.length → part[i]? = nodes[i]? := by
    obtain ⟨rest, rfl⟩ := first
    exact fun i bound => (List.getElem?_append_left bound).symm
  refine ⟨(first.sublist.map key).nodup laws.distinct, ?_, ?_, ?_⟩
  · intro i node found p isParent
    obtain ⟨bound, _⟩ := List.getElem?_eq_some_iff.mp found
    rw [same i bound] at found
    obtain ⟨j, other, before, isOther, isKey⟩ := laws.earlier i node found p isParent
    exact ⟨j, other, before, by rw [same j (by omega), isOther], isKey⟩
  · exact fun child listed node listed' => laws.once child (within listed) node (within listed')
  · intro node cycle
    refine laws.acyclic node (Relation.TransGen.mono ?_ node node cycle)
    exact fun a b edge => ⟨within edge.1, within edge.2.1, edge.2.2⟩

namespace Forest
variable {key : α → κ} {parent : α → Option κ} {children : α → List κ} {nodes : List α}

theorem nil : Forest key parent children [] := by
  refine ⟨List.nodup_nil, ?_, ?_⟩
  · intro i node found
    simp at found
  · intro node member
    cases member

section Reading
variable (forest : Forest key parent children nodes)
include forest

variable {node : α}

theorem parent_earlier {i : Nat} (found : nodes[i]? = some node) {p : κ} (isParent : parent node = some p) :
    ∃ j other, j < i ∧ nodes[j]? = some other ∧ key other = p := by
  obtain ⟨other, taken, isKey⟩ := List.mem_map.mp (forest.earlier i node found p isParent)
  obtain ⟨j, bound, isOther⟩ := List.mem_take_iff_getElem.mp taken
  exact ⟨j, other, by omega, by rw [← isOther]; exact List.getElem?_eq_getElem _, isKey⟩

theorem parent_mem (isNode : node ∈ nodes) {p : κ} (isParent : parent node = some p) : p ∈ nodes.map key := by
  obtain ⟨i, found⟩ := List.mem_iff_getElem?.mp isNode
  obtain ⟨other, taken, same⟩ := List.mem_map.mp (forest.earlier i node found p isParent)
  exact List.mem_map.mpr ⟨other, List.mem_of_mem_take taken, same⟩

/-- A node is a child of its parent and of no other node. -/
theorem mem_children {child : α} (isNode : node ∈ nodes) (isChild : child ∈ nodes) :
    key child ∈ children node ↔ parent child = some (key node) := by
  rw [forest.children node isNode]
  simp only [List.mem_map, List.mem_filter, decide_eq_true_eq]
  constructor
  · rintro ⟨other, ⟨listed, named⟩, same⟩
    rw [← List.inj_on_of_nodup_map forest.nodup listed isChild same]
    exact named
  · exact fun named => ⟨child, ⟨isChild, named⟩, rfl⟩

theorem nodup_children (isNode : node ∈ nodes) : (children node).Nodup := by
  rw [forest.children node isNode]
  exact (List.filter_sublist.map key).nodup forest.nodup

theorem children_listed (isNode : node ∈ nodes) {k : κ} (isChild : k ∈ children node) :
    ∃ child ∈ nodes, key child = k ∧ parent child = some (key node) := by
  rw [forest.children node isNode] at isChild
  obtain ⟨child, passes, isKey⟩ := List.mem_map.mp isChild
  obtain ⟨listed, named⟩ := List.mem_filter.mp passes
  exact ⟨child, listed, isKey, by simpa using named⟩

/-- No node is above itself. -/
theorem acyclic (node : α) :
    ¬ Relation.TransGen (fun a b => a ∈ nodes ∧ b ∈ nodes ∧ parent a = some (key b)) node node := by
  have climbs : ∀ a b, Relation.TransGen (fun a b => a ∈ nodes ∧ b ∈ nodes ∧ parent a = some (key b)) a b →
      ∀ i : Nat, nodes[i]? = some a → ∃ j, j < i ∧ nodes[j]? = some b := by
    intro a b path
    induction path with
    | single edge =>
      intro i found
      obtain ⟨j, other, before, isOther, same⟩ := forest.parent_earlier found edge.2.2
      have inList : other ∈ nodes := List.mem_of_getElem? isOther
      exact ⟨j, before, by rw [isOther, List.inj_on_of_nodup_map forest.nodup inList edge.2.1 same]⟩
    | tail _ edge ih =>
      intro i found
      obtain ⟨k, first, middle⟩ := ih i found
      obtain ⟨j, other, before, isOther, same⟩ := forest.parent_earlier middle edge.2.2
      have inList : other ∈ nodes := List.mem_of_getElem? isOther
      exact ⟨j, by omega, by rw [isOther, List.inj_on_of_nodup_map forest.nodup inList edge.2.1 same]⟩
  intro cycle
  have inList : node ∈ nodes := by
    cases cycle with
    | single edge => exact edge.1
    | tail _ edge => exact edge.2.1
  have descends : ∀ i : Nat, nodes[i]? ≠ some node := by
    intro i
    induction i using Nat.strongRecOn with
    | ind i ih =>
      intro found
      obtain ⟨j, before, again⟩ := climbs node node cycle i found
      exact ih j before again
  obtain ⟨i, found⟩ := List.mem_iff_getElem?.mp inList
  exact descends i found

theorem laws : ParentChildLaws key parent children nodes := by
  refine ⟨forest.nodup, fun i node found p isParent => forest.parent_earlier found isParent, ?_, forest.acyclic⟩
  intro child listed node listed'
  have isChild := forest.mem_children listed' listed
  split
  · rename_i named
    exact List.count_eq_one_of_mem (forest.nodup_children listed') (isChild.mpr named)
  · rename_i foreign
    exact List.count_eq_zero.mpr fun member => foreign (isChild.mp member)

theorem childrenListed : ChildrenListed key children nodes := by
  intro node listed k isChild
  obtain ⟨child, inList, isKey, _⟩ := forest.children_listed listed isChild
  exact List.mem_map.mpr ⟨child, inList, isKey⟩

/-- The first nodes of a forest keep the laws. -/
theorem laws_of_prefix {part : List α} (first : part <+: nodes) : ParentChildLaws key parent children part :=
  forest.laws.of_prefix first

end Reading

/-- Nodes that name no parent and no children. -/
theorem of_roots (nodup : (nodes.map key).Nodup) (roots : ∀ node ∈ nodes, parent node = none)
    (childless : ∀ node ∈ nodes, children node = []) : Forest key parent children nodes := by
  refine ⟨nodup, ?_, ?_⟩
  · intro i node found p isParent
    rw [roots node (List.mem_of_getElem? found)] at isParent
    cases isParent
  · intro node listed
    rw [childless node listed, List.filter_eq_nil_iff.mpr fun child inList => by simp [roots child inList]]
    rfl

/-- A change of the nodes that keeps what they name keeps the forest. -/
theorem map {β : Type} {key' : β → κ} {parent' : β → Option κ} {children' : β → List κ} (f : α → β)
    (keys : ∀ node ∈ nodes, key' (f node) = key node) (parents : ∀ node ∈ nodes, parent' (f node) = parent node)
    (childs : ∀ node ∈ nodes, children' (f node) = children node) (forest : Forest key parent children nodes) :
    Forest key' parent' children' (nodes.map f) := by
  have allKeys : ∀ part : List α, (∀ node ∈ part, node ∈ nodes) → (part.map f).map key' = part.map key := by
    intro part within
    rw [List.map_map]
    exact List.map_congr_left fun node member => keys node (within node member)
  refine ⟨?_, ?_, ?_⟩
  · rw [allKeys nodes fun _ member => member]
    exact forest.nodup
  · intro i node found p isParent
    rw [List.getElem?_map] at found
    obtain ⟨old, place, rfl⟩ := Option.map_eq_some_iff.mp found
    rw [parents old (List.mem_of_getElem? place)] at isParent
    rw [← List.map_take, allKeys _ fun _ member => List.mem_of_mem_take member]
    exact forest.earlier i old place p isParent
  · intro node member
    obtain ⟨old, listed, rfl⟩ := List.mem_map.mp member
    rw [childs old listed, forest.children old listed, keys old listed, List.filter_map,
      allKeys _ fun _ member => (List.mem_filter.mp member).1]
    refine congrArg (List.map key) (List.filter_congr fun child inList => ?_)
    rw [Function.comp_apply, parents child inList]

/-- A root without children in front. -/
theorem cons {root : α} (fresh : key root ∉ nodes.map key) (isRoot : parent root = none) (childless : children root = [])
    (forest : Forest key parent children nodes) : Forest key parent children (root :: nodes) := by
  refine ⟨List.nodup_cons.mpr ⟨fresh, forest.nodup⟩, ?_, ?_⟩
  · intro i node found p isParent
    cases i with
    | zero =>
      rw [List.getElem?_cons_zero, Option.some.injEq] at found
      rw [← found, isRoot] at isParent
      cases isParent
    | succ i => exact List.mem_cons_of_mem _ (forest.earlier i node found p isParent)
  · have notRoot : ∀ child ∈ nodes, parent child ≠ some (key root) := fun child listed named =>
      fresh (forest.parent_mem listed named)
    intro node member
    rw [List.filter_cons_of_neg (by simp [isRoot])]
    rcases List.mem_cons.mp member with rfl | listed
    · rw [childless, List.filter_eq_nil_iff.mpr fun child inList => by simpa using notRoot child inList]
      rfl
    · exact forest.children node listed

/-- A new last node, which its parent takes among its children. -/
theorem attach {node : α} {adopt : α → α} (fresh : key node ∉ nodes.map key) (childless : children node = [])
    (names : ∀ p ∈ parent node, p ∈ nodes.map key) (keys : ∀ other, key (adopt other) = key other)
    (parents : ∀ other, parent (adopt other) = parent other)
    (adopts : ∀ other, children (adopt other) = children other ++ [key node])
    (forest : Forest key parent children nodes) :
    Forest key parent children
      (nodes.map (fun other => if parent node = some (key other) then adopt other else other) ++ [node]) := by
  let g := fun other => if parent node = some (key other) then adopt other else other
  have keys' : ∀ other, key (g other) = key other := by
    intro other
    simp only [g]
    split
    · exact keys other
    · rfl
  have parents' : ∀ other, parent (g other) = parent other := by
    intro other
    simp only [g]
    split
    · exact parents other
    · rfl
  have sameKeys : ∀ part : List α, (part.map g).map key = part.map key := fun part => by
    rw [List.map_map]
    exact List.map_congr_left fun other _ => keys' other
  have filtered : ∀ k, ((nodes.map g ++ [node]).filter fun child => parent child = some k).map key =
      (nodes.filter fun child => parent child = some k).map key ++ if parent node = some k then [key node] else [] := by
    intro k
    rw [List.filter_append, List.map_append, List.filter_map, sameKeys]
    congr 1
    · refine congrArg (List.map key) (List.filter_congr fun child _ => ?_)
      rw [Function.comp_apply, parents']
    · by_cases own : parent node = some k <;> simp [own]
  refine ⟨?_, ?_, ?_⟩
  · rw [List.map_append, sameKeys, List.map_singleton]
    exact List.nodup_append.mpr ⟨forest.nodup, List.nodup_singleton _, fun k old k' new => by
      rw [List.mem_singleton.mp new]
      exact fun same => fresh (same ▸ old)⟩
  · intro i other found p isParent
    rcases Nat.lt_or_ge i nodes.length with within | last
    · rw [List.getElem?_append_left (by rwa [List.length_map]), List.getElem?_map] at found
      obtain ⟨old, place, rfl⟩ := Option.map_eq_some_iff.mp found
      rw [parents'] at isParent
      rw [List.take_append_of_le_length (by rw [List.length_map]; omega), ← List.map_take, sameKeys]
      exact forest.earlier i old place p isParent
    · rw [List.getElem?_append_right (by rwa [List.length_map]), List.length_map] at found
      obtain ⟨here, rfl⟩ := List.getElem?_eq_some_iff.mp found
      have isLast : i = (nodes.map g).length := by
        rw [List.length_singleton] at here
        rw [List.length_map]
        omega
      rw [List.getElem_singleton] at isParent
      rw [isLast, List.take_left, sameKeys]
      exact names p isParent
  · intro other member
    rw [filtered]
    rcases List.mem_append.mp member with old | new
    · obtain ⟨before, listed, rfl⟩ := List.mem_map.mp old
      rw [keys', ← forest.children before listed]
      show children (if parent node = some (key before) then adopt before else before) = _
      split
      · exact adopts before
      · rw [List.append_nil]
    · obtain rfl := List.mem_singleton.mp new
      have unnamed : ∀ child ∈ nodes, parent child ≠ some (key other) := fun child listed named =>
        fresh (forest.parent_mem listed named)
      have notOwn : parent other ≠ some (key other) := fun own => fresh (names _ own)
      rw [childless, if_neg notOwn, List.filter_eq_nil_iff.mpr fun child inList => by simpa using unnamed child inList]
      rfl

end Forest
end Forest
