import Brain.Parsing.Builder

namespace Brain

/-- The nodes of a document, where those of headings have the levels that were
given to the headings in this order. -/
def withLevels : List Nat → List BlockNode → List (Option Nat × BlockNode)
  | _, [] => []
  | levels, node :: nodes =>
    if node.nodeType = .section then (levels.head?, node) :: withLevels levels.tail nodes
    else (none, node) :: withLevels levels nodes

structure Heading where
  level : Nat
  id : Uuid
  headingPath : List String
  deriving DecidableEq

def Heading.of? (entry : Option Nat × BlockNode) : Option Heading :=
  entry.1.map fun level => { level, id := entry.2.id, headingPath := entry.2.headingPath }

def headings (entries : List (Option Nat × BlockNode)) : List Heading := entries.reverse.filterMap Heading.of?

/-- The heading that a node comes under: the nearest of a smaller level for a
heading, the nearest of all for anything else. -/
def headingOf (earlier : List (Option Nat × BlockNode)) : Option Nat → Option Heading
  | some level => Outline.enclosing Heading.level (headings earlier) level
  | none => (headings earlier).head?

/-- A node has its heading as its parent, and the path of its heading, which a
section continues with its title. -/
def Belongs (earlier : List (Option Nat × BlockNode)) (entry : Option Nat × BlockNode) : Prop :=
  entry.2.parentId = (headingOf earlier entry.1).map Heading.id ∧
    entry.2.headingPath = (headingOf earlier entry.1).elim [] Heading.headingPath ++ entry.2.title.toList

def FollowsOutline (levels : List Nat) (nodes : List BlockNode) : Prop :=
  Outline.EachAfter Belongs (withLevels levels nodes)

/-- Each heading comes first, follows the nearest one of a smaller level directly,
or is exactly one level below it; without such a one it is of level 1. -/
def Regular (levels : List Nat) : Prop :=
  Outline.EachAfter (fun before level => Outline.Stepwise id before.reverse level) levels

/-! ### Levels of nodes -/

theorem withLevels_bare (levels : List Nat) (nodes : List BlockNode) :
    withLevels levels (nodes.map BlockNode.bare) = (withLevels levels nodes).map fun entry => (entry.1, entry.2.bare) := by
  induction nodes generalizing levels with
  | nil => rfl
  | cons node nodes ih =>
    rw [List.map_cons, withLevels, withLevels]
    by_cases isSection : node.nodeType = .section
    · rw [if_pos (show node.bare.nodeType = .section from isSection), if_pos isSection, ih]
      rfl
    · rw [if_neg (show node.bare.nodeType ≠ .section from isSection), if_neg isSection, ih]
      rfl

theorem headings_bare (earlier : List (Option Nat × BlockNode)) :
    headings (earlier.map fun entry => (entry.1, entry.2.bare)) = headings earlier := by
  rw [headings, ← List.map_reverse, List.filterMap_map]
  rfl

theorem followsOutline_bare (levels : List Nat) (nodes : List BlockNode) :
    FollowsOutline levels (nodes.map BlockNode.bare) ↔ FollowsOutline levels nodes := by
  rw [FollowsOutline, withLevels_bare, Outline.eachAfter_map]
  simp only [Belongs, headingOf, headings_bare]
  exact Iff.rfl

variable {levels : List Nat} {nodes : List BlockNode}

theorem withLevels_append (sections : (nodes.filter fun node => node.nodeType = .section).length = levels.length)
    (more : List Nat)
    (rest : List BlockNode) : withLevels (levels ++ more) (nodes ++ rest) = withLevels levels nodes ++ withLevels more rest := by
  induction nodes generalizing levels with
  | nil =>
    obtain rfl := List.eq_nil_of_length_eq_zero sections.symm
    rfl
  | cons node nodes ih =>
    rw [List.cons_append, withLevels, withLevels]
    by_cases isSection : node.nodeType = .section
    · rw [List.filter_cons_of_pos (by simpa using isSection)] at sections
      cases levels with
      | nil => cases sections
      | cons level levels =>
        rw [if_pos isSection, if_pos isSection, List.cons_append, List.head?_cons, List.tail_cons, List.tail_cons,
          ih (Nat.succ.inj sections), List.head?_cons, List.cons_append]
    · rw [List.filter_cons_of_neg (by simpa using isSection)] at sections
      rw [if_neg isSection, if_neg isSection, ih sections, List.cons_append]

theorem map_snd_withLevels (levels : List Nat) (nodes : List BlockNode) : (withLevels levels nodes).map Prod.snd = nodes := by
  induction nodes generalizing levels with
  | nil => rfl
  | cons node nodes ih =>
    rw [withLevels]
    split
    · rw [List.map_cons, ih]
    · rw [List.map_cons, ih]

theorem headings_concat (entries : List (Option Nat × BlockNode)) (entry : Option Nat × BlockNode) :
    headings (entries ++ [entry]) = (Heading.of? entry).toList ++ headings entries := by
  rw [headings, List.reverse_append, List.filterMap_append, List.reverse_singleton, headings]
  cases found : Heading.of? entry <;> simp [found]

theorem headings_injective (nodup : (nodes.map fun node => node.id).Nodup) {a b : Heading}
    (left : a ∈ headings (withLevels levels nodes)) (right : b ∈ headings (withLevels levels nodes))
    (same : a.id = b.id) : a = b := by
  have ids : (withLevels levels nodes).map (fun entry => entry.2.id) = nodes.map fun node => node.id := by
    rw [← map_snd_withLevels levels nodes, List.map_map, map_snd_withLevels]
    rfl
  rw [← ids] at nodup
  obtain ⟨e, inLeft, isLeft⟩ := List.mem_filterMap.mp left
  obtain ⟨f, inRight, isRight⟩ := List.mem_filterMap.mp right
  have leftId : e.2.id = a.id := by
    obtain ⟨_, _, rfl⟩ := Option.map_eq_some_iff.mp isLeft
    rfl
  have rightId : f.2.id = b.id := by
    obtain ⟨_, _, rfl⟩ := Option.map_eq_some_iff.mp isRight
    rfl
  have sameEntry := List.inj_on_of_nodup_map nodup (List.mem_reverse.mp inLeft) (List.mem_reverse.mp inRight)
    (leftId.trans (same.trans rightId.symm))
  exact Option.some.inj (isLeft.symm.trans (sameEntry ▸ isRight))

theorem same_of_ids (nodup : (nodes.map fun node => node.id).Nodup) {l : Nat}
    (same : (Outline.popped l (Outline.stack Heading.level (headings (withLevels levels nodes)))).getLast?.map Heading.id =
      (Outline.enclosing Heading.level (headings (withLevels levels nodes)) l).map Heading.id) :
    (Outline.popped l (Outline.stack Heading.level (headings (withLevels levels nodes)))).getLast? =
      Outline.enclosing Heading.level (headings (withLevels levels nodes)) l := by
  cases top : (Outline.popped l (Outline.stack Heading.level (headings (withLevels levels nodes)))).getLast? with
  | none =>
    rw [top, Option.map_none] at same
    exact (Option.map_eq_none_iff.mp same.symm).symm
  | some a =>
    rw [top, Option.map_some] at same
    obtain ⟨b, found, sameId⟩ := Option.map_eq_some_iff.mp same.symm
    have left := Outline.mem_stack (List.mem_of_mem_take (List.mem_of_getLast? top))
    rw [found, headings_injective nodup left (List.mem_of_find?_eq_some found) sameId.symm]

/-! ### What a builder keeps -/

namespace DocumentBuilder

/-- What a node gives to those below it. -/
def heads (self : DocumentBuilder) : List (Uuid × List String) := self.nodes.map fun node => (node.id, node.headingPath)

theorem heads_bare (self : DocumentBuilder) :
    (self.nodes.map BlockNode.bare).map (fun node => (node.id, node.headingPath)) = self.heads := List.map_map ..

theorem heads_attach (self : DocumentBuilder) (block : Block) (path : List String) :
    (self.attach block path).heads = self.heads ++ [(.v4 self.nextUuid, path)] := by
  rw [← heads_bare, nodes_attach, List.map_append, heads_bare]
  rfl

theorem parent_heads (self : DocumentBuilder) :
    self.parent.map (fun node => (node.id, node.headingPath)) = self.stack.getLast?.bind fun place => self.heads[place]? := by
  unfold parent heads
  cases self.stack.getLast? with
  | none => rfl
  | some place => exact (List.getElem?_map ..).symm

theorem grown {self : DocumentBuilder} {levels more : List Nat} {level : Option Nat} {block : Block} {path : List String}
    (sections : (self.nodes.filter fun node => node.nodeType = .section).length = levels.length)
    (entry : withLevels more [self.nodeOf block path] = [(level, self.nodeOf block path)]) :
    headings (withLevels (levels ++ more) (self.attach block path).nodes) =
        (Heading.of? (level, self.nodeOf block path)).toList ++ headings (withLevels levels self.nodes) ∧
      (FollowsOutline (levels ++ more) (self.attach block path).nodes ↔
        FollowsOutline levels self.nodes ∧ Belongs (withLevels levels self.nodes) (level, self.nodeOf block path)) := by
  have bareSections : ((self.nodes.map BlockNode.bare).filter fun node => node.nodeType = .section).length = levels.length := by
    rw [← sections, List.filter_map, List.length_map]
    rfl
  have bareEntries : withLevels (levels ++ more) ((self.attach block path).nodes.map BlockNode.bare) =
      withLevels levels (self.nodes.map BlockNode.bare) ++ [(level, self.nodeOf block path)] := by
    rw [nodes_attach, withLevels_append bareSections, entry]
  have sameHeadings : headings (withLevels levels (self.nodes.map BlockNode.bare)) = headings (withLevels levels self.nodes) := by
    rw [withLevels_bare, headings_bare]
  constructor
  · rw [← headings_bare, ← withLevels_bare, bareEntries, headings_concat, sameHeadings]
  · rw [← followsOutline_bare, FollowsOutline, bareEntries, Outline.eachAfter_concat]
    refine and_congr (followsOutline_bare levels self.nodes) ?_
    simp only [Belongs, headingOf, sameHeadings]

/-- The nodes on the stack are those of the headings `above`. -/
def Shows (self : DocumentBuilder) (above : List Heading) : Prop :=
  self.stack.map (fun place => self.heads[place]?) = above.map fun heading => some (heading.id, heading.headingPath)

section Shows
variable {self : DocumentBuilder} {above : List Heading}

theorem Shows.parent (shows : self.Shows above) :
    self.parent.map (fun node => (node.id, node.headingPath)) =
      above.getLast?.map fun heading => (heading.id, heading.headingPath) := by
  have last := congrArg List.getLast? shows
  rw [List.getLast?_map, List.getLast?_map] at last
  rw [parent_heads]
  cases top : self.stack.getLast? with
  | none =>
    rw [top] at last
    cases final : above.getLast? with
    | none => rfl
    | some heading =>
      rw [final] at last
      cases last
  | some place =>
    rw [top] at last
    cases final : above.getLast? with
    | none =>
      rw [final] at last
      cases last
    | some heading =>
      rw [final, Option.map_some, Option.map_some] at last
      exact Option.some.inj last

theorem Shows.parentId (shows : self.Shows above) (block : Block) (path : List String) :
    (self.nodeOf block path).parentId = above.getLast?.map Heading.id := by
  have ids := congrArg (Option.map Prod.fst) shows.parent
  rwa [Option.map_map, Option.map_map] at ids

theorem Shows.parentPath (shows : self.Shows above) :
    self.parentPath = above.getLast?.elim [] Heading.headingPath := by
  have parents := shows.parent
  unfold DocumentBuilder.parentPath
  cases isParent : self.parent with
  | none =>
    rw [isParent] at parents
    cases final : above.getLast? with
    | none => rfl
    | some heading =>
      rw [final] at parents
      cases parents
  | some node =>
    rw [isParent] at parents
    cases final : above.getLast? with
    | none =>
      rw [final] at parents
      cases parents
    | some heading =>
      rw [final] at parents
      exact congrArg Prod.snd (Option.some.inj parents)

theorem Shows.popped (shows : self.Shows above) (level : Nat) :
    ({ self with stack := Outline.popped level self.stack } : DocumentBuilder).Shows (Outline.popped level above) := by
  show (Outline.popped level self.stack).map (fun place => self.heads[place]?) = _
  rw [Outline.map_popped, shows, ← Outline.map_popped]

theorem Shows.attach (shows : self.Shows above) (block : Block) (path : List String) : (self.attach block path).Shows above := by
  unfold Shows
  rw [← shows, stack_attach, heads_attach]
  apply List.map_congr_left
  intro place onStack
  have shown : self.heads[place]? ∈ self.stack.map fun place => self.heads[place]? := List.mem_map_of_mem onStack
  rw [shows] at shown
  obtain ⟨heading, _, found⟩ := List.mem_map.mp shown
  exact List.getElem?_append_left (List.getElem?_eq_some_iff.mp found.symm).1

theorem Shows.pushed (shows : self.Shows above) (level : Nat) {place : Nat} {heading : Heading}
    (found : self.heads[place]? = some (heading.id, heading.headingPath)) :
    ({ self with stack := Outline.pushed level place self.stack } : DocumentBuilder).Shows
      (Outline.pushed level heading above) := by
  show (Outline.pushed level place self.stack).map (fun place => self.heads[place]?) = _
  rw [Outline.map_pushed, shows, found]
  exact (Outline.map_pushed (fun heading => some (heading.id, heading.headingPath)) level heading above).symm

end Shows

/-- The stack of a builder is that of the headings so far. -/
structure Outlined (nextUuid : Nat) (levels : List Nat) (b : DocumentBuilder) : Prop where
  numbered : Numbered nextUuid b
  sections : (b.nodes.filter fun node => node.nodeType = .section).length = levels.length
  leveled : (headings (withLevels levels b.nodes)).map Heading.level = levels.reverse
  onStack : b.Shows (Outline.stack Heading.level (headings (withLevels levels b.nodes)))
  followsOutline : FollowsOutline levels b.nodes ↔ Regular levels

section Outlined
variable {nextUuid : Nat} {levels : List Nat} {b : DocumentBuilder}

theorem Outlined.positive (outlined : Outlined nextUuid levels b) (positive : ∀ level ∈ levels, 1 ≤ level) :
    ∀ heading ∈ headings (withLevels levels b.nodes), 1 ≤ heading.level := by
  intro heading member
  apply positive
  rw [← List.mem_reverse, ← outlined.leveled]
  exact List.mem_map_of_mem member

theorem Outlined.place (outlined : Outlined nextUuid levels b) (positive : ∀ level ∈ levels, 1 ≤ level) {block : Block}
    (other : block.nodeType ≠ .section) (untitled : block.title = none) : Outlined nextUuid levels (b.place block) := by
  have entry : withLevels [] [b.nodeOf block b.parentPath] = [(none, b.nodeOf block b.parentPath)] := by
    rw [withLevels, if_neg (show (b.nodeOf block b.parentPath).nodeType ≠ .section from other)]
    rfl
  obtain ⟨sameHeadings, followsOutline⟩ := grown outlined.sections entry
  rw [List.append_nil] at sameHeadings followsOutline
  have last := Outline.getLast?_stack _ (outlined.positive positive)
  have belongs : Belongs (withLevels levels b.nodes) (none, b.nodeOf block b.parentPath) := by
    refine ⟨?_, ?_⟩
    · rw [outlined.onStack.parentId, last]
      rfl
    · show b.parentPath = _ ++ block.title.toList
      rw [untitled, Option.toList_none, List.append_nil, outlined.onStack.parentPath, last]
      rfl
  refine ⟨outlined.numbered.attach _ _, ?_, ?_, ?_, ?_⟩
  · show ((b.attach block b.parentPath).nodes.filter _).length = _
    rw [sections_attach, if_neg other, outlined.sections]
    rfl
  · exact sameHeadings ▸ outlined.leveled
  · show (b.attach block b.parentPath).Shows (Outline.stack _ (headings (withLevels levels (b.attach block _).nodes)))
    rw [sameHeadings]
    exact outlined.onStack.attach _ _
  · rw [← outlined.followsOutline]
    exact followsOutline.trans (and_iff_left belongs)

theorem Outlined.enter (outlined : Outlined nextUuid levels b) (positive : ∀ level ∈ levels, 1 ≤ level) {level : Nat}
    (isLevel : 1 ≤ level) (text : String) (links : List String) :
    Outlined nextUuid (levels ++ [level]) (b.enter level text links) := by
  let popped : DocumentBuilder := { b with stack := Outline.popped level b.stack }
  let block : Block := { nodeType := .section, title := some text, links }
  let path := popped.parentPath ++ [text]
  let node := popped.nodeOf block path
  have poppedShows := outlined.onStack.popped level
  have entry : withLevels [level] [node] = [(some level, node)] := rfl
  obtain ⟨newHeadings, followsOutline⟩ := @grown popped levels [level] (some level) block path outlined.sections entry
  have numbered : Numbered nextUuid popped := ⟨outlined.numbered.ids, outlined.numbered.next, outlined.numbered.order⟩
  have attached := numbered.attach block path
  refine ⟨⟨attached.ids, attached.next, attached.order⟩, ?_, ?_, ?_, ?_⟩
  · show ((popped.attach block path).nodes.filter _).length = _
    rw [sections_attach, if_pos rfl, List.length_append]
    exact congrArg (· + 1) outlined.sections
  · show (headings (withLevels (levels ++ [level]) (popped.attach block path).nodes)).map _ = _
    rw [newHeadings, List.map_append, outlined.leveled, List.reverse_append]
    rfl
  · have found : (popped.attach block path).heads[popped.nodes.length]? = some (node.id, path) := by
      have length : popped.heads.length = popped.nodes.length := List.length_map ..
      rw [heads_attach, ← length, List.getElem?_concat_length]
      rfl
    show Shows _ (Outline.stack Heading.level (headings (withLevels (levels ++ [level]) (popped.attach block path).nodes)))
    rw [newHeadings]
    exact @Shows.pushed _ _ (poppedShows.attach block path) level _ ⟨level, node.id, path⟩ found
  · show FollowsOutline (levels ++ [level]) (popped.attach block path).nodes ↔ _
    rw [followsOutline, Regular, Outline.eachAfter_concat]
    refine and_congr outlined.followsOutline ?_
    rw [← outlined.leveled, Outline.stepwise_map, ← Outline.getLast?_popped _ (outlined.positive positive) isLevel]
    have parentId : node.parentId = _ := poppedShows.parentId block path
    have parentPath : popped.parentPath = _ := poppedShows.parentPath
    constructor
    · rintro ⟨sameId, _⟩
      rw [parentId] at sameId
      exact same_of_ids outlined.numbered.nodup sameId
    · intro same
      refine ⟨?_, ?_⟩
      · rw [parentId, same]
        rfl
      · show popped.parentPath ++ [text] = _ ++ [text]
        rw [parentPath, same]
        rfl

end Outlined

/-- After any calls, the nodes stand under the headings that the levels give
them exactly when the levels are regular. -/
theorem followsOutline_iff (calls : List BuilderCall) (nextUuid : Nat)
    (positive : ∀ level ∈ BuilderCall.levels calls, 1 ≤ level) :
    FollowsOutline (BuilderCall.levels calls) (built calls nextUuid).nodes ↔ Regular (BuilderCall.levels calls) := by
  have outlined : (∀ level ∈ BuilderCall.levels calls, 1 ≤ level) →
      Outlined nextUuid (BuilderCall.levels calls) (built calls nextUuid) := by
    apply @built_induction fun levels b => (∀ level ∈ levels, 1 ≤ level) → Outlined nextUuid levels b
    · intro _
      exact ⟨⟨rfl, rfl, rfl⟩, rfl, rfl, rfl, iff_of_true (Outline.eachAfter_nil _) (Outline.eachAfter_nil _)⟩
    · exact fun levels b block plain holds positive => (holds positive).place positive plain.notSection plain.untitled
    · intro levels b level text links holds positive
      have before : ∀ l ∈ levels, 1 ≤ l := fun l member => positive l (List.mem_append_left _ member)
      exact (holds before).enter before (positive level (by simp)) text links
    · intro levels b content links holds positive
      obtain ⟨numbered, sections, leveled, onStack, followsOutline⟩ := holds positive
      exact ⟨⟨numbered.ids, numbered.next, numbered.order⟩, sections, leveled, onStack, followsOutline⟩
  exact (outlined positive).followsOutline

def secondLevelPage : List BuilderCall :=
  [.heading 2 "Setup" [], .paragraph "Install it." [], .heading 2 "Usage" [], .heading 3 "Options" [], .finish]

theorem followsOutline_iff_secondLevelPage :
    (∀ level ∈ BuilderCall.levels secondLevelPage, 1 ≤ level) ∧
      (FollowsOutline (BuilderCall.levels secondLevelPage) (built secondLevelPage).nodes ↔ Regular [2, 2, 3]) :=
  ⟨by decide, followsOutline_iff secondLevelPage 0 (by decide)⟩

/-- The second of two sections of one level comes under the first. -/
theorem second_section_nested :
    ¬ FollowsOutline (BuilderCall.levels secondLevelPage) (built secondLevelPage).nodes := by
  intro followsOutline
  have entries : withLevels (BuilderCall.levels secondLevelPage) (built secondLevelPage).nodes =
      (withLevels [2, 2, 3] (built secondLevelPage).nodes).take 2 ++
        (some 2, { id := .v4 2, nodeType := .section, title := some "Usage", headingPath := ["Setup", "Usage"]
                   parentId := some (.v4 0), childIds := [.v4 3], order := 2 }) ::
          (withLevels [2, 2, 3] (built secondLevelPage).nodes).drop 3 := by decide
  have belongs := (followsOutline _ _ _ entries).1
  exact absurd belongs (by decide)

end DocumentBuilder

end Brain
