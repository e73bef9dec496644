import Brain.Lib.Forest
import Brain.Parsing.Builder

namespace Brain

def BlockNode.ownPath (node : BlockNode) : List String := if node.nodeType = .section then node.title.toList else []

structure ExtendsPaths (nodes : List BlockNode) : Prop where
  roots : ∀ node ∈ nodes, node.parentId = none → node.headingPath = node.ownPath
  below : ∀ node ∈ nodes, ∀ parent ∈ nodes, node.parentId = some parent.id →
    node.headingPath = parent.headingPath ++ node.ownPath

structure BlockNode.Fills (node : BlockNode) : Prop where
  titled : node.title.isSome ↔ node.nodeType = .section
  empty : node.nodeType = .section → node.content = ""
  written : node.nodeType = .paragraph → strip node.content = node.content ∧ node.content ≠ ""

abbrev ParsedForest (nodes : List BlockNode) : Prop :=
  Forest (fun node : BlockNode => node.id) (fun node => node.parentId) (fun node => node.childIds) nodes

theorem modify_eq_map {nodes : List BlockNode} (nodup : (nodes.map fun node => node.id).Nodup) {place : Nat}
    {parent : BlockNode} (isParent : nodes[place]? = some parent) (child : Uuid) :
    nodes.modify place (BlockNode.adopt child) =
      nodes.map fun other => if some parent.id = some other.id then other.adopt child else other := by
  apply List.ext_getElem?
  intro i
  rw [List.getElem?_modify, List.getElem?_map]
  cases found : nodes[i]? with
  | none => rfl
  | some other =>
    by_cases here : place = i
    · subst here
      obtain rfl : parent = other := Option.some.inj (isParent.symm.trans found)
      simp
    · have apart : parent.id ≠ other.id := by
        intro same
        obtain ⟨left, _⟩ := List.getElem?_eq_some_iff.mp isParent
        have ids : (nodes.map fun node => node.id)[place]? = (nodes.map fun node => node.id)[i]? := by
          rw [List.getElem?_map, List.getElem?_map, isParent, found, Option.map_some, Option.map_some, same]
        exact here ((List.getElem?_inj (by rwa [List.length_map]) nodup).mp ids)
      simp [here, apart]

namespace DocumentBuilder
variable (calls : List BuilderCall)

structure Rooted (nextUuid : Nat) (b : DocumentBuilder) : Prop extends Numbered nextUuid b where
  forest : ParsedForest b.nodes
  stack : ∀ place ∈ b.stack, place < b.nodes.length
  paths : ExtendsPaths b.nodes

namespace Rooted
variable {b : DocumentBuilder} {nextUuid : Nat}

theorem parent_mem (rooted : Rooted nextUuid b) {place : Nat} (top : b.stack.getLast? = some place) :
    ∃ parent, b.nodes[place]? = some parent ∧ b.parent = some parent := by
  have within := rooted.stack place (List.mem_of_getLast? top)
  refine ⟨b.nodes[place], List.getElem?_eq_getElem within, ?_⟩
  rw [DocumentBuilder.parent, top, Option.bind_some, List.getElem?_eq_getElem within]

def adopting (node other : BlockNode) : BlockNode := if node.parentId = some other.id then other.adopt node.id else other

theorem adopting_eq (node other : BlockNode) :
    (adopting node other).id = other.id ∧ (adopting node other).parentId = other.parentId ∧
      (adopting node other).headingPath = other.headingPath ∧ (adopting node other).ownPath = other.ownPath := by
  unfold adopting
  split
  · exact ⟨rfl, rfl, rfl, rfl⟩
  · exact ⟨rfl, rfl, rfl, rfl⟩

theorem nodes_attach (rooted : Rooted nextUuid b) (block : Block) (path : List String) :
    (b.attach block path).nodes = b.nodes.map (adopting (b.nodeOf block path)) ++ [b.nodeOf block path] := by
  unfold attach
  cases top : b.stack.getLast? with
  | none =>
    have isRoot : (b.nodeOf block path).parentId = none := by
      show b.parent.map _ = none
      rw [DocumentBuilder.parent, top]
      rfl
    have same : b.nodes.map (adopting (b.nodeOf block path)) = b.nodes := by
      refine (List.map_congr_left fun other _ => ?_).trans (List.map_id _)
      exact if_neg (by rw [isRoot]; simp)
    rw [same]
  | some place =>
    obtain ⟨parent, isParent, top'⟩ := rooted.parent_mem top
    have named : (b.nodeOf block path).parentId = some parent.id := by
      show b.parent.map _ = some parent.id
      rw [top', Option.map_some]
    have adopted := modify_eq_map rooted.forest.nodup isParent (b.nodeOf block path).id
    rw [← named] at adopted
    exact congrArg (· ++ [b.nodeOf block path]) adopted

theorem attach (rooted : Rooted nextUuid b) (block : Block) (path : List String)
    (extends_ : path = b.parentPath ++ (b.nodeOf block path).ownPath) : Rooted nextUuid (b.attach block path) := by
  let node := b.nodeOf block path
  have nodes : (b.attach block path).nodes = b.nodes.map (adopting node) ++ [node] := rooted.nodes_attach block path
  have length : (b.attach block path).nodes.length = b.nodes.length + 1 := b.length_attach block path
  have fresh : node.id ∉ b.nodes.map fun node => node.id := by
    rw [rooted.ids]
    intro old
    obtain ⟨n, inRange, same⟩ := List.mem_map.mp old
    have isNext : n = b.nextUuid := Uuid.v4.inj same
    rw [List.mem_range'_1, isNext, rooted.next] at inRange
    omega
  have parentOf : ∀ p, node.parentId = some p → ∃ parent ∈ b.nodes, parent.id = p ∧ b.parentPath = parent.headingPath := by
    intro p isParent
    obtain ⟨parent, isTop, rfl⟩ := Option.map_eq_some_iff.mp (show b.parent.map _ = some p from isParent)
    obtain ⟨place, top, found⟩ := Option.bind_eq_some_iff.mp isTop
    exact ⟨parent, List.mem_of_getElem? found, rfl, by rw [parentPath, isTop]; rfl⟩
  refine ⟨rooted.toNumbered.attach block path, ?_, ?_, ⟨?_, ?_⟩⟩
  · rw [nodes]
    refine Forest.attach fresh rfl ?_ (fun _ => rfl) (fun _ => rfl) (fun _ => rfl) rooted.forest
    intro p isParent
    obtain ⟨parent, listed, rfl, _⟩ := parentOf p isParent
    exact List.mem_map_of_mem listed
  · intro place onStack
    rw [length]
    exact Nat.lt_succ_of_lt (rooted.stack place onStack)
  · intro other member isRoot
    rw [nodes] at member
    rcases List.mem_append.mp member with old | new
    · obtain ⟨before, listed, rfl⟩ := List.mem_map.mp old
      obtain ⟨_, parents, paths, own⟩ := adopting_eq node before
      rw [paths, own]
      exact rooted.paths.roots before listed (parents ▸ isRoot)
    · obtain rfl := List.mem_singleton.mp new
      have top : b.parent = none := Option.map_eq_none_iff.mp isRoot
      show path = _
      rw [extends_, parentPath, top]
      rfl
  · intro other member parent isNode isParent
    rw [nodes] at member isNode
    rcases List.mem_append.mp member with old | new
    · obtain ⟨before, listed, rfl⟩ := List.mem_map.mp old
      obtain ⟨_, parents, paths, own⟩ := adopting_eq node before
      rw [paths, own]
      rw [parents] at isParent
      rcases List.mem_append.mp isNode with old' | new'
      · obtain ⟨before', listed', rfl⟩ := List.mem_map.mp old'
        obtain ⟨ids, _, paths', _⟩ := adopting_eq node before'
        rw [paths']
        exact rooted.paths.below before listed before' listed' (ids ▸ isParent)
      · obtain rfl := List.mem_singleton.mp new'
        exact absurd (rooted.forest.parent_mem listed isParent) fresh
    · obtain rfl := List.mem_singleton.mp new
      obtain ⟨top, listed, sameId, isPath⟩ := parentOf _ isParent
      rcases List.mem_append.mp isNode with old' | new'
      · obtain ⟨before', listed', rfl⟩ := List.mem_map.mp old'
        obtain ⟨ids, _, paths', _⟩ := adopting_eq node before'
        obtain rfl : top = before' := List.inj_on_of_nodup_map rooted.forest.nodup listed listed' (sameId.trans ids)
        show path = _
        rw [paths', ← isPath]
        exact extends_
      · obtain rfl := List.mem_singleton.mp new'
        exact absurd (List.mem_map.mpr ⟨top, listed, sameId⟩) fresh

end Rooted

theorem rooted (nextUuid : Nat) : Rooted nextUuid (built calls nextUuid) := by
  apply @built_induction fun _ b => Rooted nextUuid b
  · refine ⟨⟨rfl, rfl, rfl⟩, Forest.nil, ?_, ⟨?_, ?_⟩⟩
    · intro place onStack
      cases onStack
    all_goals
      intro node listed
      cases listed
  · intro _ b block plain holds
    refine holds.attach block b.parentPath ?_
    have own : (b.nodeOf block b.parentPath).ownPath = [] := if_neg plain.notSection
    rw [own, List.append_nil]
  · intro _ b level text links holds
    let popped : DocumentBuilder := { b with stack := Outline.popped level b.stack }
    have holds' : Rooted nextUuid popped := ⟨⟨holds.ids, holds.next, holds.order⟩, holds.forest,
      fun place onStack => holds.stack place (List.mem_of_mem_take onStack), holds.paths⟩
    have attached := holds'.attach { nodeType := .section, title := some text, links } (popped.parentPath ++ [text]) rfl
    have length := popped.length_attach { nodeType := .section, title := some text, links } (popped.parentPath ++ [text])
    refine ⟨⟨attached.ids, attached.next, attached.order⟩, attached.forest, ?_, attached.paths⟩
    intro place onStack
    rcases List.mem_append.mp onStack with kept | new
    · exact attached.stack place kept
    · obtain rfl := List.eq_of_mem_replicate new
      show popped.nodes.length < (popped.attach _ _).nodes.length
      rw [length]
      exact Nat.lt_succ_self _
  · exact fun _ b _ _ holds => ⟨⟨holds.ids, holds.next, holds.order⟩, holds.forest, holds.stack, holds.paths⟩

structure Filled (levels : List Nat) (b : DocumentBuilder) : Prop where
  fills : ∀ node ∈ b.nodes.map BlockNode.bare, node.Fills
  orders : (b.nodes.map BlockNode.bare).map (fun node => node.order) = List.range b.nodes.length
  order : b.order = b.nodes.length
  sections : (b.nodes.filter fun node => node.nodeType = .section).length = levels.length

theorem Filled.attach {b : DocumentBuilder} {levels : List Nat} (filled : Filled levels b) (block : Block)
    (path : List String) (fills : (b.nodeOf block path).Fills) {more : List Nat}
    (level : more.length = if block.nodeType = .section then 1 else 0) : Filled (levels ++ more) (b.attach block path) := by
  refine ⟨?_, ?_, ?_, ?_⟩
  · rw [nodes_attach]
    intro node listed
    rcases List.mem_append.mp listed with old | new
    · exact filled.fills node old
    · rw [List.mem_singleton.mp new]
      exact fills
  · rw [nodes_attach, List.map_append, filled.orders, length_attach, List.range_succ, ← filled.order]
    rfl
  · rw [order_attach, length_attach, filled.order]
  · rw [sections_attach, filled.sections, List.length_append, level]

theorem filled (nextUuid : Nat) : Filled (BuilderCall.levels calls) (built calls nextUuid) := by
  apply @built_induction Filled
  · refine ⟨?_, rfl, rfl, rfl⟩
    intro node listed
    cases listed
  · intro levels b block plain holds
    rw [← List.append_nil levels]
    refine holds.attach block b.parentPath ⟨?_, fun absurd_ => absurd absurd_ plain.notSection, plain.written⟩
      (if_neg plain.notSection).symm
    show block.title.isSome ↔ block.nodeType = .section
    rw [plain.untitled]
    simp [plain.notSection]
  · intro levels b level text links holds
    let popped : DocumentBuilder := { b with stack := Outline.popped level b.stack }
    have holds' : Filled levels popped := ⟨holds.fills, holds.orders, holds.order, holds.sections⟩
    have fills : (popped.nodeOf { nodeType := .section, title := some text, links } (popped.parentPath ++ [text])).Fills :=
      ⟨by simp [nodeOf], fun _ => rfl, by simp [nodeOf]⟩
    have attached := @Filled.attach popped levels holds' _ _ fills [level] rfl
    exact ⟨attached.fills, attached.orders, attached.order, attached.sections⟩
  · exact fun _ b _ _ holds => ⟨holds.fills, holds.orders, holds.order, holds.sections⟩

theorem fills (nextUuid : Nat) : ∀ node ∈ (built calls nextUuid).nodes, node.Fills := by
  intro node listed
  have bare := (filled calls nextUuid).fills node.bare (List.mem_map_of_mem listed)
  exact ⟨bare.titled, bare.empty, bare.written⟩

theorem order_eq (nextUuid : Nat) {i : Nat} {node : BlockNode}
    (found : (built calls nextUuid).nodes[i]? = some node) : node.order = i := by
  have orders := (filled calls nextUuid).orders
  rw [List.map_map] at orders
  have here := congrArg (·[i]?) orders
  obtain ⟨within, _⟩ := List.getElem?_eq_some_iff.mp found
  rw [List.getElem?_map, found, List.getElem?_range within] at here
  exact Option.some.inj here

end DocumentBuilder

end Brain
