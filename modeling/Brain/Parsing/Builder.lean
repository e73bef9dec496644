import Brain.Adapters.DocumentBuilder
import Brain.Parsing.Text
import Mathlib.Data.List.Induction
import Mathlib.Data.List.Nodup

namespace Brain

def BuilderCall.level? : BuilderCall → Option Int
  | .heading level _ _ => some level
  | _ => none

def BuilderCall.levels (calls : List BuilderCall) : List Nat := calls.filterMap fun call => call.level?.map Int.toNat

def BlockNode.bare (node : BlockNode) : BlockNode := { node with childIds := [] }

def BlockNode.block (node : BlockNode) : Block :=
  { nodeType := node.nodeType, title := node.title, content := node.content, links := node.links
    codeBlocks := node.codeBlocks, tables := node.tables }

@[simp] theorem BlockNode.bare_adopt (child : Uuid) (node : BlockNode) : (node.adopt child).bare = node.bare := rfl

theorem map_bare_modify (place : Nat) (child : Uuid) (nodes : List BlockNode) :
    (nodes.modify place (BlockNode.adopt child)).map BlockNode.bare = nodes.map BlockNode.bare := by
  apply List.ext_getElem?
  intro i
  rw [List.getElem?_map, List.getElem?_map, List.getElem?_modify]
  cases nodes[i]? with
  | none => rfl
  | some node =>
    by_cases here : place = i
    · simp [here]
    · simp [here]

/-- A block of anything but a heading; a paragraph is stripped and has a text. -/
structure Block.Plain (block : Block) : Prop where
  notSection : block.nodeType ≠ .section
  untitled : block.title = none
  written : block.nodeType = .paragraph → strip block.content = block.content ∧ block.content ≠ ""

namespace DocumentBuilder
variable (self : DocumentBuilder)
variable (block : Block) (path : List String)

/-- A heading when nothing is pending. -/
def enter (level : Nat) (text : String) (links : List String) : DocumentBuilder :=
  let popped := { self with stack := Outline.popped level self.stack }
  let attached := popped.attach { nodeType := .section, title := some text, links } (popped.parentPath ++ [text])
  { attached with stack := Outline.pushed level popped.nodes.length attached.stack }

/-- Any other block when nothing is pending. -/
def place (block : Block) : DocumentBuilder := self.attach block self.parentPath

def pend (content links : List String) : DocumentBuilder := { self with currentContent := content, currentLinks := links }

@[simp] theorem nodes_attach :
    (self.attach block path).nodes.map BlockNode.bare = self.nodes.map BlockNode.bare ++ [self.nodeOf block path] := by
  unfold attach
  cases self.stack.getLast? with
  | none => exact List.map_append
  | some place =>
    show (self.nodes.modify place _ ++ [_]).map BlockNode.bare = _
    rw [List.map_append, map_bare_modify]
    rfl

@[simp] theorem stack_attach : (self.attach block path).stack = self.stack := rfl

@[simp] theorem order_attach : (self.attach block path).order = self.order + 1 := rfl

@[simp] theorem nextUuid_attach : (self.attach block path).nextUuid = self.nextUuid + 1 := rfl

theorem length_attach : (self.attach block path).nodes.length = self.nodes.length + 1 := by
  have lengths := congrArg List.length (self.nodes_attach block path)
  rwa [List.length_map, List.length_append, List.length_map] at lengths

def pendingBlock : Block :=
  { nodeType := .paragraph, content := strip (joinLines self.currentContent), links := self.currentLinks }

theorem flushContent_cases : self.flushContent = self.pend [] [] ∨
    self.flushContent = (self.pend [] []).place self.pendingBlock ∧ self.pendingBlock.Plain := by
  unfold flushContent
  by_cases blank : strip (joinLines self.currentContent) = ""
  · exact Or.inl (if_pos blank)
  · exact Or.inr ⟨if_neg blank, by simp [pendingBlock], rfl, fun _ => ⟨strip_strip _, blank⟩⟩

theorem sections_attach : ((self.attach block path).nodes.filter fun node => node.nodeType = .section).length =
      (self.nodes.filter fun node => node.nodeType = .section).length + if block.nodeType = .section then 1 else 0 := by
  have bare : ∀ nodes : List BlockNode, (nodes.filter fun node => node.nodeType = .section).length =
      ((nodes.map BlockNode.bare).filter fun node => node.nodeType = .section).length := by
    intro nodes
    rw [List.filter_map, List.length_map]
    rfl
  rw [bare, nodes_attach, List.filter_append, List.length_append, ← bare]
  by_cases isSection : block.nodeType = .section
  · simp [nodeOf, isSection]
  · simp [nodeOf, isSection]

theorem heading_eq (level : Int) (text : String) (links : List String) :
    self.heading level text links = self.flushContent.enter level.toNat text links := rfl

theorem built_induction {P : List Nat → DocumentBuilder → Prop} {nextUuid : Nat} (start : P [] { nextUuid })
    (places : ∀ levels b block, block.Plain → P levels b → P levels (b.place block))
    (enters : ∀ levels b level text links, P levels b → P (levels ++ [level]) (b.enter level text links))
    (pends : ∀ levels b content links, P levels b → P levels (b.pend content links)) (calls : List BuilderCall) :
    P (BuilderCall.levels calls) (built calls nextUuid) := by
  have flushes : ∀ levels b, P levels b → P levels b.flushContent := by
    intro levels b holds
    rcases b.flushContent_cases with flushed | ⟨flushed, plain⟩
    · rw [flushed]
      exact pends levels b [] [] holds
    · rw [flushed]
      exact places levels _ _ plain (pends levels b [] [] holds)
  induction calls using List.reverseRecOn with
  | nil => exact start
  | append_singleton calls call ih =>
    have run : built (calls ++ [call]) nextUuid = (built calls nextUuid).handle call := by
      rw [built, List.foldl_append]
      rfl
    have levels : BuilderCall.levels (calls ++ [call]) = BuilderCall.levels calls ++ (call.level?.map Int.toNat).toList := by
      rw [BuilderCall.levels, List.filterMap_append]
      cases call <;> rfl
    have other : call.level? = none → BuilderCall.levels (calls ++ [call]) = BuilderCall.levels calls := by
      intro noLevel
      rw [levels, noLevel]
      exact List.append_nil _
    rw [run]
    generalize built calls nextUuid = b at ih
    cases call with
    | heading level text links =>
      rw [levels]
      exact enters _ _ _ _ _ (flushes _ b ih)
    | paragraph text links =>
      rw [other rfl]
      show P _ (b.paragraph text links)
      unfold paragraph
      split
      · exact ih
      · exact pends _ b _ _ ih
    | codeBlock language content =>
      rw [other rfl]
      exact places _ _ _ ⟨by simp, rfl, by simp⟩ (flushes _ b ih)
    | table table =>
      rw [other rfl]
      exact places _ _ _ ⟨by simp, rfl, by simp⟩ (flushes _ b ih)
    | addList content =>
      rw [other rfl]
      exact places _ b _ ⟨by simp, rfl, by simp⟩ ih
    | finish =>
      rw [other rfl]
      exact flushes _ b ih

structure Numbered (nextUuid : Nat) (b : DocumentBuilder) : Prop where
  ids : b.nodes.map (fun node => node.id) = (List.range' nextUuid b.nodes.length).map Uuid.v4
  next : b.nextUuid = nextUuid + b.nodes.length
  order : b.order = b.nodes.length

theorem ids_bare (nodes : List BlockNode) : (nodes.map BlockNode.bare).map (fun node => node.id) = nodes.map fun node => node.id :=
  List.map_map ..

theorem Numbered.attach {self : DocumentBuilder} {nextUuid : Nat} (numbered : Numbered nextUuid self) (block : Block)
    (path : List String) : Numbered nextUuid (self.attach block path) := by
  have length := self.length_attach block path
  refine ⟨?_, ?_, ?_⟩
  · rw [← ids_bare, nodes_attach, List.map_append, ids_bare, numbered.ids, length, List.range'_1_concat, List.map_append,
      ← numbered.next]
    rfl
  · rw [nextUuid_attach, numbered.next, length]
    omega
  · rw [order_attach, numbered.order, length]

theorem Numbered.nodup {b : DocumentBuilder} {nextUuid : Nat} (numbered : Numbered nextUuid b) :
    (b.nodes.map fun node => node.id).Nodup := by
  rw [numbered.ids]
  exact List.Nodup.map (fun _ _ same => Uuid.v4.inj same) List.nodup_range'

/-! ### What the nodes are made of -/

/-- The paragraph of the pending texts, if there is one. -/
def pendingBlocks (content links : List String) : List Block :=
  if strip (joinLines content) = "" then []
  else [{ nodeType := .paragraph, content := strip (joinLines content), links }]

theorem blocks_attach :
    (self.attach block path).nodes.map BlockNode.block = self.nodes.map BlockNode.block ++ [block] := by
  have bare := congrArg (List.map BlockNode.block) (self.nodes_attach block path)
  rw [List.map_append, List.map_map, List.map_map] at bare
  exact bare

theorem blocks_enter (level : Nat) (text : String) (links : List String) :
    (self.enter level text links).nodes.map BlockNode.block =
      self.nodes.map BlockNode.block ++ [{ nodeType := .section, title := some text, links }] :=
  blocks_attach { self with stack := Outline.popped level self.stack } _ _

theorem pending_enter (level : Nat) (text : String) (links : List String) :
    (self.enter level text links).currentContent = self.currentContent ∧
      (self.enter level text links).currentLinks = self.currentLinks := ⟨rfl, rfl⟩

theorem pending_attach : (self.attach block path).currentContent = self.currentContent ∧
      (self.attach block path).currentLinks = self.currentLinks := ⟨rfl, rfl⟩

theorem blocks_flushContent : self.flushContent.nodes.map BlockNode.block =
    self.nodes.map BlockNode.block ++ pendingBlocks self.currentContent self.currentLinks := by
  unfold flushContent pendingBlocks
  dsimp only
  split
  · exact (List.append_nil _).symm
  · exact blocks_attach _ _ _

theorem pending_flushContent : self.flushContent.currentContent = [] ∧ self.flushContent.currentLinks = [] := by
  rcases self.flushContent_cases with flushed | ⟨flushed, _⟩
  · rw [flushed]
    exact ⟨rfl, rfl⟩
  · rw [flushed]
    exact ⟨rfl, rfl⟩

end DocumentBuilder

def BuilderCall.blocks (content links : List String) : List BuilderCall → List Block
  | [] => []
  | .heading _ text links' :: calls =>
    DocumentBuilder.pendingBlocks content links ++ { nodeType := .section, title := some text, links := links' } ::
      blocks [] [] calls
  | .paragraph text links' :: calls =>
    if strip text = "" then blocks content links calls
    else blocks (content ++ [strip text]) (links ++ links') calls
  | .codeBlock language text :: calls =>
    DocumentBuilder.pendingBlocks content links ++
      { nodeType := .codeBlock, content := text, codeBlocks := [{ language, content := text }] } :: blocks [] [] calls
  | .table made :: calls =>
    DocumentBuilder.pendingBlocks content links ++
      { nodeType := .table, content := made.render, tables := [made] } :: blocks [] [] calls
  | .addList text :: calls => { nodeType := .list, content := text } :: blocks content links calls
  | .finish :: calls => DocumentBuilder.pendingBlocks content links ++ blocks [] [] calls

namespace DocumentBuilder

theorem blocks_foldl (calls : List BuilderCall) (b : DocumentBuilder) : (calls.foldl handle b).nodes.map BlockNode.block =
    b.nodes.map BlockNode.block ++ BuilderCall.blocks b.currentContent b.currentLinks calls := by
  induction calls generalizing b with
  | nil => exact (List.append_nil _).symm
  | cons call calls ih =>
    have flushed := b.blocks_flushContent
    obtain ⟨content, links⟩ := b.pending_flushContent
    rw [List.foldl_cons, ih]
    cases call with
    | heading level text links' =>
      rw [handle, heading_eq, blocks_enter, (pending_enter ..).1, (pending_enter ..).2, flushed, content, links,
        BuilderCall.blocks]
      simp only [List.append_assoc, List.singleton_append]
    | paragraph text links' =>
      rw [handle, BuilderCall.blocks]
      unfold paragraph
      split
      · rfl
      · rfl
    | codeBlock language text =>
      rw [handle, codeBlock, blocks_attach, (pending_attach ..).1, (pending_attach ..).2, flushed, content, links,
        BuilderCall.blocks]
      simp only [List.append_assoc, List.singleton_append]
    | table made =>
      rw [handle, table, blocks_attach, (pending_attach ..).1, (pending_attach ..).2, flushed, content, links,
        BuilderCall.blocks]
      simp only [List.append_assoc, List.singleton_append]
    | addList text =>
      rw [handle, addList, blocks_attach, (pending_attach ..).1, (pending_attach ..).2, BuilderCall.blocks]
      simp only [List.append_assoc, List.singleton_append]
    | finish =>
      rw [handle, DocumentBuilder.finish, flushed, content, links, BuilderCall.blocks, List.append_assoc]

theorem blocks_built (calls : List BuilderCall) (nextUuid : Nat) :
    (built calls nextUuid).nodes.map BlockNode.block = BuilderCall.blocks [] [] calls := blocks_foldl calls { nextUuid }

/-! ### Where texts and links go -/

theorem joinLines_cons (line : String) {lines : List String} (more : lines ≠ []) :
    (joinLines (line :: lines)).toList = line.toList ++ '\n' :: (joinLines lines).toList := by
  obtain ⟨next, lines, rfl⟩ := List.exists_cons_of_ne_nil more
  rw [joinLines, String.intercalate_cons_cons, String.toList_append, String.toList_append, List.append_assoc]
  rfl

theorem infix_joinLines {lines : List String} {line : String} (listed : line ∈ lines) :
    line.toList <:+: (joinLines lines).toList := by
  induction lines with
  | nil => cases listed
  | cons first lines ih =>
    by_cases last : lines = []
    · rw [last] at listed ⊢
      have whole : joinLines [first] = line := by rw [joinLines, String.intercalate_singleton, List.mem_singleton.mp listed]
      simp only [whole, List.infix_refl]
    · rw [joinLines_cons first last]
      rcases List.mem_cons.mp listed with rfl | later
      · exact List.infix_append_left
      · exact List.infix_append_of_infix_right (List.infix_cons (ih later))

/-- A text of a pending paragraph: stripped, and not empty. -/
def Pends (text : String) : Prop := strip text = text ∧ text ≠ ""

theorem infix_pending {content : List String} {text : String} (pends : Pends text) (listed : text ∈ content) :
    text.toList <:+: (strip (joinLines content)).toList := by
  have trimmed := strip_trimmed text
  rw [pends.1] at trimmed
  have some : text.toList ≠ [] := fun empty => pends.2 (String.toList_inj.mp empty)
  have within := infix_strip some trimmed (infix_joinLines listed)
  rwa [String.ofList_toList] at within

theorem pendingBlocks_of_mem {content : List String} {text : String} (pends : Pends text) (listed : text ∈ content)
    (links : List String) : pendingBlocks content links =
      [{ nodeType := .paragraph, content := strip (joinLines content), links }] := by
  refine if_neg fun blank => ?_
  have within := infix_pending pends listed
  rw [blank] at within
  exact pends.2 (String.toList_inj.mp (List.infix_nil.mp within))

end DocumentBuilder

def BuilderCall.links : BuilderCall → List String
  | .heading _ _ links => links
  | .paragraph text links => if strip text = "" then [] else links
  | _ => []

namespace DocumentBuilder

theorem links_pendingBlocks {content links : List String} (pends : ∀ text ∈ content, Pends text)
    (owned : content = [] → links = []) : (pendingBlocks content links).flatMap (fun block => block.links) = links := by
  cases content with
  | nil =>
    rw [owned rfl]
    rfl
  | cons text content =>
    rw [pendingBlocks_of_mem (pends text (List.mem_cons_self ..)) (List.mem_cons_self ..)]
    exact List.append_nil _

theorem pends_strip {text : String} (some : strip text ≠ "") : Pends (strip text) := ⟨strip_strip text, some⟩

theorem links_blocks (calls : List BuilderCall) {content links : List String} (pends : ∀ text ∈ content, Pends text)
    (owned : content = [] → links = []) : (BuilderCall.blocks content links (calls ++ [.finish])).flatMap (fun block => block.links) =
      links ++ calls.flatMap BuilderCall.links := by
  have none : ∀ text ∈ ([] : List String), Pends text := fun text listed => by cases listed
  induction calls generalizing content links with
  | nil =>
    show (pendingBlocks content links ++ []).flatMap _ = _
    rw [List.append_nil, links_pendingBlocks pends owned]
    exact (List.append_nil _).symm
  | cons call calls ih =>
    have flushed := links_pendingBlocks pends owned
    have fresh := @ih [] [] none fun _ => rfl
    rw [List.cons_append, List.flatMap_cons]
    cases call with
    | heading level text links' =>
      rw [BuilderCall.blocks, List.flatMap_append, List.flatMap_cons, flushed, fresh]
      rfl
    | paragraph text links' =>
      rw [BuilderCall.blocks, BuilderCall.links]
      split
      · exact ih pends owned
      · rename_i some
        rw [@ih (content ++ [strip text]) (links ++ links') ?_ (by simp), List.append_assoc]
        intro other listed
        rcases List.mem_append.mp listed with old | new
        · exact pends other old
        · rw [List.mem_singleton.mp new]
          exact pends_strip some
    | codeBlock language text =>
      rw [BuilderCall.blocks, List.flatMap_append, List.flatMap_cons, flushed, fresh]
      rfl
    | table made =>
      rw [BuilderCall.blocks, List.flatMap_append, List.flatMap_cons, flushed, fresh]
      rfl
    | addList text =>
      rw [BuilderCall.blocks, List.flatMap_cons, ih pends owned]
      rfl
    | finish =>
      rw [BuilderCall.blocks, List.flatMap_append, flushed, fresh]
      rfl

structure HoldsText (text : String) (links : List String) (block : Block) : Prop where
  text : text.toList <:+: (block.title.getD block.content).toList
  links : links <:+: block.links

theorem pendingBlocks_held {content links links' : List String} {text : String} (pends : Pends text)
    (listed : text ∈ content) (within : links' <:+: links) (rest : List Block) :
    ∃ block ∈ pendingBlocks content links ++ rest, HoldsText text links' block := by
  rw [pendingBlocks_of_mem pends listed]
  exact ⟨_, List.mem_append_left _ (List.mem_singleton.mpr rfl), infix_pending pends listed, within⟩

theorem pending_held (calls : List BuilderCall) {content links links' : List String} {text : String} (pends : Pends text)
    (listed : text ∈ content) (within : links' <:+: links) :
    ∃ block ∈ BuilderCall.blocks content links (calls ++ [.finish]), HoldsText text links' block := by
  induction calls generalizing content links with
  | nil => exact pendingBlocks_held pends listed within _
  | cons call calls ih =>
    rw [List.cons_append]
    cases call with
    | heading level text links' => exact pendingBlocks_held pends listed within _
    | paragraph text links' =>
      rw [BuilderCall.blocks]
      split
      · exact ih listed within
      · exact ih (List.mem_append_left _ listed) (List.infix_append_of_infix_left within)
    | codeBlock language text => exact pendingBlocks_held pends listed within _
    | table made => exact pendingBlocks_held pends listed within _
    | addList text =>
      obtain ⟨block, later, holds⟩ := ih listed within
      exact ⟨block, List.mem_cons_of_mem _ later, holds⟩
    | finish => exact pendingBlocks_held pends listed within _

theorem blocks_suffix (before after : List BuilderCall) (content links : List String) :
    ∃ content' links', BuilderCall.blocks content' links' after <:+ BuilderCall.blocks content links (before ++ after) := by
  induction before generalizing content links with
  | nil => exact ⟨content, links, List.suffix_refl _⟩
  | cons call before ih =>
    rw [List.cons_append]
    cases call with
    | heading level text links' =>
      obtain ⟨content', links', later⟩ := ih [] []
      exact ⟨content', links', later.trans ((List.suffix_cons _ _).trans (List.suffix_append _ _))⟩
    | paragraph text links' =>
      rw [BuilderCall.blocks]
      split
      · exact ih content links
      · exact ih _ _
    | codeBlock language text =>
      obtain ⟨content', links', later⟩ := ih [] []
      exact ⟨content', links', later.trans ((List.suffix_cons _ _).trans (List.suffix_append _ _))⟩
    | table made =>
      obtain ⟨content', links', later⟩ := ih [] []
      exact ⟨content', links', later.trans ((List.suffix_cons _ _).trans (List.suffix_append _ _))⟩
    | addList text =>
      obtain ⟨content', links', later⟩ := ih content links
      exact ⟨content', links', later.trans (List.suffix_cons _ _)⟩
    | finish =>
      obtain ⟨content', links', later⟩ := ih [] []
      exact ⟨content', links', later.trans (List.suffix_append _ _)⟩

theorem call_held {calls : List BuilderCall} {call : BuilderCall} (listed : call ∈ calls) {text : String} {links : List String}
    (brings : (∃ level, call = .heading level text links) ∨ call = .paragraph text links ∧ Pends text) :
    ∃ block ∈ BuilderCall.blocks [] [] (calls ++ [.finish]), HoldsText text links block := by
  obtain ⟨before, after, rfl⟩ := List.append_of_mem listed
  obtain ⟨content', links', later⟩ := blocks_suffix before (call :: after ++ [.finish]) [] []
  rw [List.append_assoc]
  have held : ∃ block ∈ BuilderCall.blocks content' links' (call :: after ++ [.finish]), HoldsText text links block := by
    rcases brings with ⟨level, rfl⟩ | ⟨rfl, pends⟩
    · exact ⟨_, List.mem_append_right _ (List.mem_cons_self ..), List.infix_refl _, List.infix_refl _⟩
    · rw [List.cons_append, BuilderCall.blocks, if_neg (by rw [pends.1]; exact pends.2), pends.1]
      exact pending_held after pends (List.mem_append_right _ (List.mem_singleton.mpr rfl)) List.infix_append_right
  obtain ⟨block, member, holds⟩ := held
  exact ⟨block, later.subset member, holds⟩

end DocumentBuilder

end Brain
