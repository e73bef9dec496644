import Brain.Adapters.HtmlParser
import Brain.Parsing.Builder

namespace Brain

/-- A heading, table, pre or list, with its level when it is a heading. -/
structure HtmlLeaf where
  level : Option Nat := none
  block : Block
  deriving DecidableEq

def HtmlLeaf.heading (leaf : HtmlLeaf) : Option (Nat × String) := leaf.level.map (·, leaf.block.title.getD "")

namespace HtmlContents

/-- The headings and the outermost tables, pres and lists that are reached through
wrappers, in document order. -/
def leaves : HtmlContents → List HtmlLeaf
  | nil => []
  | text _ rest => rest.leaves
  | comment _ rest => rest.leaves
  | tag name _ contents rest =>
    match htmlKind name with
    | .heading level => ⟨some level, headingBlock contents⟩ :: rest.leaves
    | .table => ⟨none, tableBlock contents⟩ :: rest.leaves
    | .pre => ⟨none, preBlock contents⟩ :: rest.leaves
    | .list => ⟨none, listBlock contents⟩ :: rest.leaves
    | .paragraph => rest.leaves
    | .wrapper => contents.leaves ++ rest.leaves
    | .other => rest.leaves

/-- The walk makes a node of it. -/
def yields : HtmlContents → Bool
  | nil => false
  | text _ rest => rest.yields
  | comment _ rest => rest.yields
  | tag name _ contents rest =>
    match htmlKind name with
    | .heading _ | .table | .pre | .list => true
    | .paragraph => !contents.strings.isEmpty || rest.yields
    | .wrapper => !contents.strings.isEmpty || contents.yields || rest.yields
    | .other => rest.yields

/-- Nothing that makes a node comes after a wrapper without a text that makes one. -/
def Counted : HtmlContents → Prop
  | nil => True
  | text _ rest => rest.Counted
  | comment _ rest => rest.Counted
  | tag name _ contents rest =>
    (htmlKind name = .wrapper → contents.strings = [] →
      contents.Counted ∧ (contents.yields = true → rest.yields = false)) ∧ rest.Counted

end HtmlContents

def enclosingTitles (history : List (Nat × String)) (level : Option Nat) : List String :=
  ((level.elim (Outline.enclosers Prod.fst history) (Outline.enclosersAt Prod.fst history)).map Prod.snd).reverse

/-- Each leaf with the path of its enclosing headings, which a heading ends. The
headings that came before are given, the last one first. -/
def outlined (history : List (Nat × String)) : List HtmlLeaf → List (Block × List String)
  | [] => []
  | leaf :: rest =>
    (leaf.block, enclosingTitles history leaf.level ++ leaf.heading.toList.map Prod.snd) ::
      outlined (leaf.heading.toList ++ history) rest

/-- One node for each heading, table, pre and list, on the path of its enclosing
headings, and all nodes in their order. -/
structure KeepsStructure (contents : HtmlContents) (nodes : List BlockNode) : Prop where
  leaves : (nodes.filter (·.nodeType ≠ .paragraph)).map (fun node => (node.block, node.headingPath)) =
    outlined [] contents.leaves
  orders : (nodes.map fun node => node.order).Pairwise (· < ·)

/-- Of the headings around it, a heading of level `l` is below as many as there
are, or below `l - 1`. -/
def StepsDown (history : List (Nat × String)) : List HtmlLeaf → Prop
  | [] => True
  | leaf :: rest =>
    (∀ level ∈ leaf.level, (Outline.enclosersAt Prod.fst history level).length =
      min (level - 1) (Outline.enclosers Prod.fst history).length) ∧
      StepsDown (leaf.heading.toList ++ history) rest

/-- No wrapper with a text holds a heading, table, pre or list, wrappers without a
text come last, and headings step down. -/
structure PlainlyNested (contents : HtmlContents) : Prop where
  wrappers : ∀ child ∈ contents.children, htmlKind child.name = .wrapper → child.contents.strings ≠ [] →
    child.contents.leaves = []
  counted : contents.Counted
  headings : StepsDown [] contents.leaves

/-! ### Paths -/

def HtmlLeaf.pathAfter (path : List String) (leaf : HtmlLeaf) : List String :=
  leaf.heading.elim path fun heading => path.take (heading.1 - 1) ++ [heading.2]

def tracked (path : List String) : List HtmlLeaf → List (Block × List String)
  | [] => []
  | leaf :: rest => (leaf.block, leaf.pathAfter path) :: tracked (leaf.pathAfter path) rest

theorem length_tracked (path : List String) (leaves : List HtmlLeaf) : (tracked path leaves).length = leaves.length := by
  induction leaves generalizing path with
  | nil => rfl
  | cons leaf leaves ih => rw [tracked, List.length_cons, ih, List.length_cons]

theorem length_outlined (history : List (Nat × String)) (leaves : List HtmlLeaf) :
    (outlined history leaves).length = leaves.length := by
  induction leaves generalizing history with
  | nil => rfl
  | cons leaf leaves ih => rw [outlined, List.length_cons, ih, List.length_cons]

theorem tracked_append (path : List String) (first rest : List HtmlLeaf) :
    tracked path (first ++ rest) = tracked path first ++ tracked (first.foldl HtmlLeaf.pathAfter path) rest := by
  induction first generalizing path with
  | nil => rfl
  | cons leaf first ih => rw [List.cons_append, tracked, ih, tracked, List.foldl_cons, List.cons_append]

theorem tracked_eq_outlined_iff (history : List (Nat × String)) (leaves : List HtmlLeaf) :
    tracked (enclosingTitles history none) leaves = outlined history leaves ↔ StepsDown history leaves := by
  induction leaves generalizing history with
  | nil => exact iff_of_true rfl trivial
  | cons leaf leaves ih =>
    rw [tracked, outlined, StepsDown, List.cons.injEq, Prod.mk.injEq]
    obtain ⟨level, block⟩ := leaf
    cases level with
    | none =>
      have same : HtmlLeaf.pathAfter (enclosingTitles history none) ⟨none, block⟩ = enclosingTitles history none := rfl
      rw [same]
      have onward := ih history
      simp [HtmlLeaf.heading, onward]
    | some level =>
      let title := block.title.getD ""
      have after : HtmlLeaf.pathAfter (enclosingTitles history none) ⟨some level, block⟩ =
          (enclosingTitles history none).take (level - 1) ++ [title] := rfl
      have outer : enclosingTitles history (some level) <+: enclosingTitles history none := by
        obtain ⟨inner, split⟩ := @Outline.enclosersAt_suffix _ Prod.fst history level
        refine ⟨(inner.map Prod.snd).reverse, ?_⟩
        show ((Outline.enclosersAt Prod.fst history level).map Prod.snd).reverse ++ _ =
          ((Outline.enclosers Prod.fst history).map Prod.snd).reverse
        rw [← split, List.map_append, List.reverse_append]
      have lengths : (enclosingTitles history (some level)).length = (Outline.enclosersAt Prod.fst history level).length ∧
          (enclosingTitles history none).length = (Outline.enclosers Prod.fst history).length := by
        refine ⟨?_, ?_⟩
        · rw [enclosingTitles, List.length_reverse, List.length_map]
          rfl
        · rw [enclosingTitles, List.length_reverse, List.length_map]
          rfl
      -- two beginnings of one path are the same when they are of one length
      have cut : (enclosingTitles history none).take (level - 1) = enclosingTitles history (some level) ↔
          (Outline.enclosersAt Prod.fst history level).length = min (level - 1) (Outline.enclosers Prod.fst history).length := by
        rw [← lengths.1, ← lengths.2, ← List.length_take]
        constructor
        · intro same
          rw [same]
        · intro same
          exact (List.prefix_of_prefix_length_le (List.take_prefix _ _) outer (Nat.le_of_eq same.symm)).eq_of_length same.symm
      rw [after]
      show (_ ∧ (_ : List String) = enclosingTitles history (some level) ++ [title]) ∧ _ ↔ _
      rw [List.append_left_inj, cut]
      simp only [true_and, Option.mem_some_iff, forall_eq']
      refine and_congr_right fun counted => ?_
      have path : (enclosingTitles history none).take (level - 1) ++ [title] =
          enclosingTitles ((level, title) :: history) none := by
        rw [cut.mpr counted]
        show _ = (((level, title) :: Outline.enclosersAt Prod.fst history level).map Prod.snd).reverse
        rw [List.map_cons, List.reverse_cons]
        rfl
      rw [path]
      exact ih ((level, title) :: history)

/-! ### What the walk comes to -/

theorem HtmlContents.getText_eq_empty {contents : HtmlContents} {separator : String} :
    contents.getText separator = "" ↔ contents.strings = [] := by
  have nonempty : ∀ text ∈ contents.strings, text ≠ "" := by
    induction contents with
    | nil =>
      intro text listed
      cases listed
    | text content rest ih =>
      intro text listed
      rcases List.mem_append.mp listed with here | later
      · split at here
        · cases here
        · rename_i visible
          rw [List.mem_singleton.mp here]
          exact visible
      · exact ih text later
    | comment _ rest ih => exact ih
    | tag _ _ contents rest inside ih =>
      intro text listed
      rcases List.mem_append.mp listed with here | later
      · exact inside text here
      · exact ih text later
  unfold HtmlContents.getText
  cases strings : contents.strings with
  | nil => exact iff_of_true String.intercalate_nil rfl
  | cons first rest =>
    refine iff_of_false ?_ (List.cons_ne_nil _ _)
    have visible := nonempty first (by rw [strings]; exact List.mem_cons_self ..)
    cases rest with
    | nil =>
      rw [String.intercalate_singleton]
      exact visible
    | cons second rest =>
      rw [String.intercalate_cons_cons]
      simp [visible]

namespace HtmlContents

/-- The leaves that the walk comes to: it does not look into a wrapper with a text. -/
def visited : HtmlContents → List HtmlLeaf
  | nil => []
  | text _ rest => rest.visited
  | comment _ rest => rest.visited
  | tag name _ contents rest =>
    match htmlKind name with
    | .heading level => ⟨some level, headingBlock contents⟩ :: rest.visited
    | .table => ⟨none, tableBlock contents⟩ :: rest.visited
    | .pre => ⟨none, preBlock contents⟩ :: rest.visited
    | .list => ⟨none, listBlock contents⟩ :: rest.visited
    | .paragraph => rest.visited
    | .wrapper => if contents.strings = [] then contents.visited ++ rest.visited else rest.visited
    | .other => rest.visited

/-- The order values of the nodes that the walk makes. -/
def orders (order : Nat) : HtmlContents → List Nat
  | nil => []
  | text _ rest => rest.orders order
  | comment _ rest => rest.orders order
  | tag name _ contents rest =>
    match htmlKind name with
    | .heading _ | .table | .pre | .list => order :: rest.orders (order + 1)
    | .paragraph => if contents.strings = [] then rest.orders order else order :: rest.orders (order + 1)
    | .wrapper =>
      if contents.strings = [] then contents.orders order ++ rest.orders order else order :: rest.orders (order + 1)
    | .other => rest.orders order

theorem visited_of_textless {contents : HtmlContents} (textless : contents.strings = []) : contents.visited = contents.leaves := by
  induction contents with
  | nil => rfl
  | text _ rest ih => exact ih (List.append_eq_nil_iff.mp textless).2
  | comment _ rest ih => exact ih textless
  | tag name _ contents rest inside ih =>
    obtain ⟨first, second⟩ := List.append_eq_nil_iff.mp textless
    unfold visited leaves
    cases htmlKind name <;> simp [ih second, inside first, first]

theorem visited_sublist (contents : HtmlContents) : contents.visited.Sublist contents.leaves := by
  induction contents with
  | nil => exact List.Sublist.refl _
  | text _ rest ih => exact ih
  | comment _ rest ih => exact ih
  | tag name _ contents rest inside ih =>
    unfold visited leaves
    cases htmlKind name with
    | wrapper =>
      dsimp only
      split
      · exact inside.append ih
      · exact ih.trans (List.sublist_append_right _ _)
    | heading level => exact ih.cons_cons _
    | table => exact ih.cons_cons _
    | pre => exact ih.cons_cons _
    | list => exact ih.cons_cons _
    | paragraph => exact ih
    | other => exact ih

theorem visited_eq_leaves_iff (contents : HtmlContents) :
    contents.visited = contents.leaves ↔ ∀ child ∈ contents.children, htmlKind child.name = .wrapper →
      child.contents.strings ≠ [] → child.contents.leaves = [] := by
  induction contents with
  | nil => simp [visited, leaves, children]
  | text _ rest ih => exact ih
  | comment _ rest ih => exact ih
  | tag name attributes contents rest inside ih =>
    rw [children, List.forall_mem_cons, ← ih, visited, leaves]
    cases kind : htmlKind name with
    | wrapper =>
      dsimp only
      by_cases textless : contents.strings = []
      · rw [if_pos textless, visited_of_textless textless, List.append_right_inj]
        simp [textless]
      · rw [if_neg textless]
        simp only [true_implies, ne_eq, textless, not_false_eq_true]
        constructor
        · intro same
          have lengths := congrArg List.length same
          have fewer := rest.visited_sublist.length_le
          rw [List.length_append] at lengths
          have none : contents.leaves = [] := List.eq_nil_of_length_eq_zero (by omega)
          rw [none, List.nil_append] at same
          exact ⟨none, same⟩
        · rintro ⟨none, same⟩
          rw [none, same]
          rfl
    | heading level => simp
    | table => simp
    | pre => simp
    | list => simp
    | paragraph => simp
    | other => simp

end HtmlContents

namespace HtmlWalk

def structured (self : HtmlWalk) : List (Block × List String) :=
  (self.nodes.filter (·.nodeType ≠ .paragraph)).map fun node => (node.block, node.headingPath)

theorem structured_add {self : HtmlWalk} {block : Block} (other : block.nodeType ≠ .paragraph) (order : Nat) :
    (self.add block order).structured = self.structured ++ [(block, self.headingPath)] := by
  unfold structured add
  rw [List.filter_append, List.map_append]
  simp [other, BlockNode.block]

theorem structured_addParagraph (self : HtmlWalk) (contents : HtmlContents) (order : Nat) :
    (self.add (paragraphBlock contents) order).structured = self.structured := by
  unfold structured add
  rw [List.filter_append, List.map_append]
  simp [paragraphBlock]

theorem walk_visited (self : HtmlWalk) (order : Nat) (contents : HtmlContents) :
    (self.walk order contents).headingPath = contents.visited.foldl HtmlLeaf.pathAfter self.headingPath ∧
      (self.walk order contents).structured = self.structured ++ tracked self.headingPath contents.visited := by
  induction contents generalizing self order with
  | nil => exact ⟨rfl, (List.append_nil _).symm⟩
  | text _ rest ih => exact ih self order
  | comment _ rest ih => exact ih self order
  | tag name _ contents rest inside ih =>
    -- a leaf, after which the walk goes on
    have leaf : ∀ (entered : HtmlWalk) (block : Block) (level : Option Nat), block.nodeType ≠ .paragraph →
        entered.structured = self.structured → entered.headingPath = HtmlLeaf.pathAfter self.headingPath ⟨level, block⟩ →
        ((entered.add block order).walk (order + 1) rest).headingPath =
            (⟨level, block⟩ :: rest.visited).foldl HtmlLeaf.pathAfter self.headingPath ∧
          ((entered.add block order).walk (order + 1) rest).structured =
            self.structured ++ tracked self.headingPath (⟨level, block⟩ :: rest.visited) := by
      intro entered block level other same path
      obtain ⟨paths, nodes⟩ := ih (entered.add block order) (order + 1)
      have path' : (entered.add block order).headingPath = HtmlLeaf.pathAfter self.headingPath ⟨level, block⟩ := path
      rw [path'] at paths nodes
      refine ⟨paths, ?_⟩
      rw [nodes, structured_add other, same, path, tracked, List.append_assoc]
      rfl
    have paragraph : ((self.add (paragraphBlock contents) order).walk (order + 1) rest).headingPath =
          rest.visited.foldl HtmlLeaf.pathAfter self.headingPath ∧
        ((self.add (paragraphBlock contents) order).walk (order + 1) rest).structured =
          self.structured ++ tracked self.headingPath rest.visited := by
      obtain ⟨paths, nodes⟩ := ih (self.add (paragraphBlock contents) order) (order + 1)
      rw [structured_addParagraph] at nodes
      exact ⟨paths, nodes⟩
    unfold walk HtmlContents.visited
    cases htmlKind name with
    | heading level => exact leaf (self.enter level (contents.getText " ")) _ (some level) (by simp [headingBlock]) rfl rfl
    | table => exact leaf self _ none (by simp [tableBlock]) rfl rfl
    | pre => exact leaf self _ none (by simp [preBlock]) rfl rfl
    | list => exact leaf self _ none (by simp [listBlock]) rfl rfl
    | paragraph =>
      dsimp only
      split
      · exact paragraph
      · exact ih self order
    | wrapper =>
      dsimp only
      by_cases textless : contents.strings = []
      · rw [if_neg (not_not.mpr (HtmlContents.getText_eq_empty.mpr textless)), if_pos textless]
        obtain ⟨paths, nodes⟩ := inside self order
        obtain ⟨paths', nodes'⟩ := ih (self.walk order contents) order
        rw [paths', nodes', paths, nodes, List.foldl_append, tracked_append, List.append_assoc]
        exact ⟨rfl, rfl⟩
      · rw [if_pos (mt HtmlContents.getText_eq_empty.mp textless), if_neg textless]
        exact paragraph
    | other => exact ih self order

theorem orders_walk (self : HtmlWalk) (order : Nat) (contents : HtmlContents) :
    (self.walk order contents).nodes.map (fun node => node.order) =
      self.nodes.map (fun node => node.order) ++ contents.orders order := by
  induction contents generalizing self order with
  | nil => exact (List.append_nil _).symm
  | text _ rest ih => exact ih self order
  | comment _ rest ih => exact ih self order
  | tag name _ contents rest inside ih =>
    have made : ∀ (before : HtmlWalk) (block : Block), before.nodes = self.nodes →
        ((before.add block order).walk (order + 1) rest).nodes.map (fun node => node.order) =
          self.nodes.map (fun node => node.order) ++ order :: rest.orders (order + 1) := by
      intro before block same
      rw [ih, add, List.map_append, same, List.append_assoc]
      rfl
    rw [walk, HtmlContents.orders]
    cases htmlKind name with
    | heading level => exact made (self.enter level _) _ rfl
    | table => exact made self _ rfl
    | pre => exact made self _ rfl
    | list => exact made self _ rfl
    | paragraph =>
      dsimp only
      by_cases textless : contents.strings = []
      · rw [if_neg (not_not.mpr (HtmlContents.getText_eq_empty.mpr textless)), if_pos textless]
        exact ih self order
      · rw [if_pos (mt HtmlContents.getText_eq_empty.mp textless), if_neg textless]
        exact made self _ rfl
    | wrapper =>
      dsimp only
      by_cases textless : contents.strings = []
      · rw [if_neg (not_not.mpr (HtmlContents.getText_eq_empty.mpr textless)), if_pos textless, ih, inside,
          List.append_assoc]
      · rw [if_pos (mt HtmlContents.getText_eq_empty.mp textless), if_neg textless]
        exact made self _ rfl
    | other => exact ih self order

end HtmlWalk

/-! ### Order values -/

namespace HtmlContents

variable {contents : HtmlContents} {order : Nat}

theorem orders_eq_nil : contents.orders order = [] ↔ contents.yields = false := by
  induction contents generalizing order with
  | nil => exact iff_of_true rfl rfl
  | text _ rest ih => exact ih
  | comment _ rest ih => exact ih
  | tag name _ contents rest inside ih =>
    rw [orders, yields]
    cases htmlKind name with
    | paragraph => by_cases textless : contents.strings = [] <;> simp [textless, ih]
    | wrapper => by_cases textless : contents.strings = [] <;> simp [textless, inside, ih]
    | other => exact ih
    | _ => simp

theorem mem_orders (makes : contents.yields = true) : order ∈ contents.orders order := by
  induction contents generalizing order with
  | nil => cases makes
  | text _ rest ih => exact ih makes
  | comment _ rest ih => exact ih makes
  | tag name _ contents rest inside ih =>
    rw [orders]
    rw [yields] at makes
    cases kind : htmlKind name with
    | paragraph =>
      rw [kind] at makes
      by_cases textless : contents.strings = []
      · simp [textless, ih (by simpa [textless] using makes)]
      · simp [textless]
    | wrapper =>
      rw [kind] at makes
      by_cases textless : contents.strings = []
      · have either : contents.yields = true ∨ rest.yields = true := by simpa [textless] using makes
        rcases either with here | later
        · simp [textless, inside here]
        · simp [textless, ih later]
      · simp [textless]
    | other =>
      rw [kind] at makes
      exact ih makes
    | _ => simp

theorem le_orders {value : Nat} (made : value ∈ contents.orders order) : order ≤ value := by
  induction contents generalizing order with
  | nil => cases made
  | text _ rest ih => exact ih made
  | comment _ rest ih => exact ih made
  | tag name _ contents rest inside ih =>
    have leaf : value ∈ order :: rest.orders (order + 1) → order ≤ value := by
      intro made
      rcases List.mem_cons.mp made with rfl | later
      · exact Nat.le_refl _
      · exact Nat.le_of_succ_le (ih later)
    rw [orders] at made
    cases kind : htmlKind name with
    | paragraph =>
      rw [kind] at made
      dsimp only at made
      split at made
      · exact ih made
      · exact leaf made
    | wrapper =>
      rw [kind] at made
      dsimp only at made
      split at made
      · rcases List.mem_append.mp made with here | later
        · exact inside here
        · exact ih later
      · exact leaf made
    | other =>
      rw [kind] at made
      exact ih made
    | _ =>
      rw [kind] at made
      exact leaf made

theorem pairwise_orders : (contents.orders order).Pairwise (· < ·) ↔ contents.Counted := by
  induction contents generalizing order with
  | nil => exact iff_of_true List.Pairwise.nil trivial
  | text _ rest ih => exact ih
  | comment _ rest ih => exact ih
  | tag name _ contents rest inside ih =>
    have leaf : (order :: rest.orders (order + 1)).Pairwise (· < ·) ↔ rest.Counted := by
      rw [List.pairwise_cons, ih]
      exact and_iff_right fun value made => le_orders made
    rw [orders, Counted]
    cases kind : htmlKind name with
    | paragraph =>
      by_cases textless : contents.strings = []
      · simp [textless, ih]
      · simp [textless, leaf]
    | wrapper =>
      by_cases textless : contents.strings = []
      · simp only [textless, if_true, true_implies]
        rw [List.pairwise_append, inside, ih, and_assoc]
        refine and_congr_right fun _ => ?_
        rw [and_comm]
        refine and_congr_left fun _ => ?_
        constructor
        · intro before makes
          rw [← @orders_eq_nil rest order, List.eq_nil_iff_forall_not_mem]
          intro value made
          -- what comes later starts from the same value again
          have again : rest.yields = true := by
            by_contra none
            rw [orders_eq_nil.mpr (by simpa using none)] at made
            cases made
          exact absurd (before order (mem_orders makes) order (mem_orders again)) (Nat.lt_irrefl _)
        · intro last value made later comes
          cases makes : contents.yields with
          | true =>
            rw [orders_eq_nil.mpr (last makes)] at comes
            cases comes
          | false =>
            rw [orders_eq_nil.mpr makes] at made
            cases made
      · simp [textless, leaf]
    | other => simpa using ih
    | _ => simpa using leaf

end HtmlContents

/-- The walk keeps the structure of an element exactly when it is plainly nested. -/
theorem HtmlWalk.keepsStructure_iff (contents : HtmlContents) (nextUuid : Nat) :
    KeepsStructure contents (HtmlWalk.walk { nextUuid } 0 contents).nodes ↔ PlainlyNested contents := by
  have walked := (walk_visited { nextUuid } 0 contents).2
  have counted := orders_walk { nextUuid } 0 contents
  have structured : (HtmlWalk.walk { nextUuid } 0 contents).structured = tracked (enclosingTitles [] none) contents.visited :=
    walked
  have leaves : tracked (enclosingTitles [] none) contents.visited = outlined [] contents.leaves ↔
      contents.visited = contents.leaves ∧ StepsDown [] contents.leaves := by
    constructor
    · intro same
      have lengths := congrArg List.length same
      rw [length_tracked, length_outlined] at lengths
      have all := contents.visited_sublist.eq_of_length lengths
      rw [all] at same
      exact ⟨all, (tracked_eq_outlined_iff [] _).mp same⟩
    · rintro ⟨all, steps⟩
      rw [all]
      exact (tracked_eq_outlined_iff [] _).mpr steps
  constructor
  · rintro ⟨same, increasing⟩
    obtain ⟨all, steps⟩ := leaves.mp (structured.symm.trans same)
    refine ⟨contents.visited_eq_leaves_iff.mp all, ?_, steps⟩
    rw [counted] at increasing
    exact HtmlContents.pairwise_orders.mp increasing
  · rintro ⟨wrappers, ordered, steps⟩
    refine ⟨structured.trans (leaves.mpr ⟨contents.visited_eq_leaves_iff.mpr wrappers, steps⟩), ?_⟩
    rw [counted]
    exact HtmlContents.pairwise_orders.mpr ordered

/-- A heading and a text in a wrapper. -/
def wrappedPage : HtmlContents :=
  .tag "div" {} (.tag "h1" {} (.text "Setup" .nil) (.tag "p" {} (.text "Install it." .nil) .nil)) .nil

/-- The heading of the page is no section of its document. -/
theorem HtmlWalk.wrapped_heading_lost : ¬ KeepsStructure wrappedPage (HtmlWalk.walk {} 0 wrappedPage).nodes := by
  intro keeps
  have lengths := congrArg List.length keeps.leaves
  exact absurd lengths (by decide)

end Brain
