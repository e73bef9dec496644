import Brain.Adapters.AdrParser
import Brain.Parsing.Hierarchy
import Brain.Parsing.Tree

namespace Brain

def withFrontMatter (frontMatter : RawDict) (b : DocumentBuilder) : List BlockNode :=
  if frontMatter.isEmpty then b.nodes
  else { id := .v4 b.nextUuid, nodeType := .frontMatter, title := some "Front Matter"
         content := dumpFrontMatter frontMatter } :: b.nodes

/-- The headings among the entries with their levels, the last one first. -/
def headingEntries (before : List (Option Nat × BlockNode)) : List (Nat × BlockNode) :=
  before.reverse.filterMap fun entry => entry.1.map (·, entry.2)

/-- The section of the nearest recognised heading that encloses an entry of this level. -/
def sectionAt (before : List (Option Nat × BlockNode)) (level : Option Nat) : Option AdrSection :=
  (level.elim (Outline.enclosers Prod.fst (headingEntries before))
    (Outline.enclosersAt Prod.fst (headingEntries before))).findSome? fun heading => heading.2.classifySection

def lastSection (before : List (Option Nat × BlockNode)) : Option AdrSection :=
  before.reverse.findSome? fun entry => entry.2.classifySection

def BlockNode.isText (node : BlockNode) : Bool := node.classifySection.isNone && node.ownText ≠ ""

def statusParagraph (levels : List Nat) (nodes : List BlockNode) : Option BlockNode :=
  ((Outline.selected (fun before entry => entry.2.nodeType = .paragraph && sectionAt before entry.1 = some .status) []
    (withLevels levels nodes)).head?).map Prod.snd

/-- Each section is the texts of the nodes whose nearest enclosing recognised
heading is its own, and the status is the first paragraph under a Status heading. -/
structure HoldOwnTexts (levels : List Nat) (nodes : List BlockNode) : Prop where
  sections : ∀ section_ ≠ .status, (AdrScan.scan {} nodes).takenFor section_ =
    (Outline.selected (fun before entry => entry.2.isText && sectionAt before entry.1 = some section_) []
      (withLevels levels nodes)).map Prod.snd
  status : given (extractSections nodes).1.status =
    (statusParagraph levels nodes).map fun paragraph => paragraph.content

/-- The section whose list takes a text, if one does. -/
def collected (section_ : Option AdrSection) : Option AdrSection := section_.filter (· ≠ .status)

def followingLast {α : Type} (p : α → Bool) : List α → Option α
  | [] => none
  | a :: rest => if rest.any p then followingLast p rest else if p a then rest.head? else none

def BlockNode.isStatus (node : BlockNode) : Bool := node.classifySection = some .status

/-- An unrecognised heading with a text, or with one right below it, comes under
the last recognised heading or under one that is collected with it; the block
after the last Status heading is the first paragraph under one. -/
structure EndsSections (levels : List Nat) (nodes : List BlockNode) : Prop where
  headings : ∀ before level heading after, withLevels levels nodes = before ++ (some level, heading) :: after →
    heading.classifySection = none →
    (heading.ownText ≠ "" ∨ ∃ entry ∈ after.takeWhile (·.1 = none), entry.2.ownText ≠ "") →
    collected (lastSection before) = collected (sectionAt before (some level))
  status : ∀ paragraph, statusParagraph levels nodes = some paragraph →
    ∃ next, followingLast BlockNode.isStatus nodes = some next ∧ next.nodeType = .paragraph ∧
      next.content = paragraph.content

/-! ### What the scan takes -/

theorem lookup_eq_some {α β : Type} [BEq α] [LawfulBEq α] {a : α} {b : β} {l : List (α × β)} (found : l.lookup a = some b) :
    a ∈ l.map Prod.fst := by
  obtain ⟨before, after, rfl, _⟩ := List.lookup_eq_some_iff.mp found
  simp

theorem lookup_strip {title : String} {section_ : AdrSection}
    (found : sectionHeadings.lookup (stripColons (lower title)) = some section_) :
    sectionHeadings.lookup (stripColons (lower (strip title))) = some section_ := by
  have key := lookup_eq_some found
  have trimmedKeys : ∀ text ∈ sectionHeadings.map Prod.fst, text.toList ≠ [] ∧ Trimmed text.toList := by
    have all : ((sectionHeadings.map Prod.fst).all fun text => !text.toList.isEmpty &&
        (text.toList.head?.all (!isSpace ·) && text.toList.getLast?.all (!isSpace ·))) = true := by rfl
    intro text listed
    have passes := List.all_eq_true.mp all text listed
    rw [Bool.and_eq_true, Bool.and_eq_true, Option.all_eq_true, Option.all_eq_true] at passes
    simpa [Trimmed] using passes
  obtain ⟨nonempty, trimmed⟩ := trimmedKeys _ key
  rw [stripColons, String.toList_ofList] at nonempty trimmed
  have whole : Trimmed (lower title).toList := by
    refine trimmed_of_stripRight (fun c colon => ?_) nonempty trimmed
    obtain rfl : c = ':' := by simpa using colon
    decide
  rw [← strip_lower, strip_eq_self whole]
  exact found

def lastClassified (before : List BlockNode) : Option AdrSection := before.reverse.findSome? BlockNode.classifySection

theorem lastClassified_concat (before : List BlockNode) (node : BlockNode) :
    lastClassified (before ++ [node]) = node.classifySection.or (lastClassified before) := by
  rw [lastClassified, List.reverse_append, List.reverse_singleton, List.singleton_append, List.findSome?_cons]
  cases node.classifySection <;> rfl

theorem lastClassified_eq_none {before : List BlockNode} :
    lastClassified before = none ↔ ∀ node ∈ before, node.classifySection = none := by
  rw [lastClassified, List.findSome?_eq_none_iff]
  exact forall_congr' fun node => imp_congr_left List.mem_reverse

theorem lastSection_eq (before : List (Option Nat × BlockNode)) :
    lastSection before = lastClassified (before.map Prod.snd) := by
  rw [lastSection, lastClassified, ← List.map_reverse, List.findSome?_map]
  rfl

/-- Where no heading was recognised, the path of a node names none either. -/
def TitlesOfHeadings (nodes : List BlockNode) : Prop :=
  ∀ first node after, nodes = first ++ node :: after → ∀ title ∈ node.headingPath.getLast?,
    ∃ heading ∈ first ++ [node], heading.nodeType = .section ∧ heading.title = some title

namespace AdrScan

theorem takenFor_of_taken {self : AdrScan} {more : List (AdrSection × BlockNode)} {section_ : AdrSection} {next : AdrScan}
    (taken : next.taken = self.taken ++ more) :
    next.takenFor section_ = self.takenFor section_ ++ (more.filter (·.1 = section_)).map Prod.snd := by
  rw [takenFor, taken, List.filter_append, List.map_append]
  rfl

theorem takenFor_scan {section_ : AdrSection} (other : section_ ≠ .status) {nodes : List BlockNode}
    (titles : TitlesOfHeadings nodes) {before rest : List BlockNode} (split : nodes = before ++ rest) {self : AdrScan}
    (current : self.current = lastClassified before) :
    (self.scan rest).takenFor section_ = self.takenFor section_ ++
      Outline.selected (fun before node => node.isText && lastClassified before = some section_) before rest := by
  induction rest generalizing before self with
  | nil => exact (List.append_nil _).symm
  | cons node rest ih =>
    have onward : nodes = before ++ [node] ++ rest := by rw [split, List.append_assoc, List.singleton_append]
    rw [scan, Outline.selected]
    cases recognised : node.classifySection with
    | some here =>
      have turned : self.turn node rest = { self with
          current := some here
          status := if here = .status then some (sectionContent node rest) else self.status
          nodes := self.nodes ++ [node.retag here] } := by
        rw [turn, recognised]
      have notText : node.isText = false := by
        rw [BlockNode.isText, recognised]
        rfl
      rw [ih onward (by rw [turned, lastClassified_concat, recognised]; rfl), turned, notText]
      rfl
    | none =>
      by_cases blank : node.ownText = ""
      · have turned : self.turn node rest = { self with nodes := self.nodes ++ [node] } := by
          rw [turn, recognised]
          exact if_pos blank
        have notText : node.isText = false := by
          rw [BlockNode.isText, recognised, blank]
          rfl
        rw [ih onward (by rw [turned, lastClassified_concat, recognised]; exact current), turned, notText]
        rfl
      · -- the path of the node names no section
        have stays : self.currentAt node = lastClassified before := by
          rw [currentAt, current]
          cases last : lastClassified before with
          | some here => rfl
          | none =>
            rw [Option.none_or, Option.bind_eq_none_iff]
            intro title isLast
            obtain ⟨heading, listed, isSection, isTitle⟩ := titles before node rest split title isLast
            have unrecognised : heading.classifySection = none := by
              rcases List.mem_append.mp listed with earlier | here
              · exact lastClassified_eq_none.mp last heading earlier
              · rw [List.mem_singleton.mp here]
                exact recognised
            cases found : sectionHeadings.lookup (stripColons (lower title)) with
            | none => rfl
            | some here =>
              rw [BlockNode.classifySection, if_neg (by simpa using isSection), isTitle, Option.getD_some,
                lookup_strip found] at unrecognised
              cases unrecognised
        have turned : self.turn node rest = { self with
            current := lastClassified before
            taken := self.taken ++ ((lastClassified before).filter (· ≠ .status)).toList.map (·, node)
            nodes := self.nodes ++ [node] } := by
          rw [turn, recognised]
          dsimp only
          rw [if_neg blank, stays]
        have isText : node.isText = true := by
          rw [BlockNode.isText, recognised]
          simpa using blank
        rw [ih onward (by rw [turned, lastClassified_concat, recognised]; rfl), isText, Bool.true_and,
          takenFor_of_taken (show (self.turn node rest).taken = self.taken ++ _ by rw [turned]), List.append_assoc]
        congr 2
        cases last : lastClassified before with
        | none => simp
        | some here =>
          by_cases same : here = section_
          · subst same
            simp [Option.filter, other]
          · by_cases status : here = .status <;> simp [Option.filter, same, status, Ne.symm other]

end AdrScan

/-! ### Headings by level -/

def Leveled (entries : List (Option Nat × BlockNode)) : Prop :=
  ∀ entry ∈ entries, entry.1 = none ↔ entry.2.nodeType ≠ .section

theorem leveled_withLevels {levels : List Nat} {nodes : List BlockNode}
    (sections : (nodes.filter fun node => node.nodeType = .section).length = levels.length) :
    Leveled (withLevels levels nodes) := by
  induction nodes generalizing levels with
  | nil =>
    intro entry listed
    cases listed
  | cons node nodes ih =>
    intro entry listed
    rw [withLevels] at listed
    by_cases isSection : node.nodeType = .section
    · rw [List.filter_cons_of_pos (by simpa using isSection)] at sections
      cases levels with
      | nil => cases sections
      | cons level levels =>
        rw [if_pos isSection] at listed
        rcases List.mem_cons.mp listed with rfl | later
        · simp [isSection]
        · exact ih (Nat.succ.inj sections) entry later
    · rw [List.filter_cons_of_neg (by simpa using isSection)] at sections
      rw [if_neg isSection] at listed
      rcases List.mem_cons.mp listed with rfl | later
      · simp [isSection]
      · exact ih sections entry later

theorem classifySection_eq_none {node : BlockNode} (other : node.nodeType ≠ .section) : node.classifySection = none :=
  if_pos other

theorem headingEntries_below {before between : List (Option Nat × BlockNode)} {level : Nat} {heading : BlockNode}
    (plain : ∀ entry ∈ between, entry.1 = none) :
    headingEntries (before ++ (some level, heading) :: between) = (level, heading) :: headingEntries before := by
  have none : between.reverse.filterMap (fun entry => entry.1.map (·, entry.2)) = [] := by
    rw [List.filterMap_eq_nil_iff]
    intro entry listed
    rw [plain entry (List.mem_reverse.mp listed)]
    rfl
  rw [headingEntries, List.reverse_append, List.reverse_cons, List.filterMap_append, List.filterMap_append, none]
  rfl

theorem sectionAt_below {before between : List (Option Nat × BlockNode)} {level : Nat} {heading : BlockNode}
    (plain : ∀ entry ∈ between, entry.1 = none) :
    sectionAt (before ++ (some level, heading) :: between) none =
      heading.classifySection.or (sectionAt before (some level)) := by
  show (Outline.enclosers Prod.fst (headingEntries _)).findSome? _ = _
  rw [headingEntries_below plain, Outline.enclosers, List.findSome?_cons]
  cases heading.classifySection <;> rfl

theorem lastSection_below {before between : List (Option Nat × BlockNode)} {level : Nat} {heading : BlockNode}
    (plain : ∀ entry ∈ between, entry.1 = none) (leveled : Leveled between) :
    lastSection (before ++ (some level, heading) :: between) = heading.classifySection.or (lastSection before) := by
  have none : between.reverse.findSome? (fun entry => entry.2.classifySection) = Option.none := by
    rw [List.findSome?_eq_none_iff]
    intro entry listed
    have inList := List.mem_reverse.mp listed
    exact classifySection_eq_none ((leveled entry inList).mp (plain entry inList))
  rw [lastSection, List.reverse_append, List.reverse_cons, List.findSome?_append, List.findSome?_append, none,
    List.findSome?_singleton, Option.none_or]
  rfl

theorem exists_last_heading (before : List (Option Nat × BlockNode)) :
    (∀ entry ∈ before, entry.1 = none) ∨ ∃ first level heading between,
      before = first ++ (some level, heading) :: between ∧ ∀ entry ∈ between, entry.1 = none := by
  induction before using List.reverseRecOn with
  | nil => exact Or.inl fun entry listed => by cases listed
  | append_singleton before entry ih =>
    obtain ⟨level, node⟩ := entry
    cases level with
    | some level =>
      refine Or.inr ⟨before, level, node, [], rfl, ?_⟩
      intro entry listed
      cases listed
    | none =>
      rcases ih with plain | ⟨first, level, heading, between, rfl, plain⟩
      · refine Or.inl fun entry listed => ?_
        rcases List.mem_append.mp listed with earlier | here
        · exact plain entry earlier
        · rw [List.mem_singleton.mp here]
      · refine Or.inr ⟨first, level, heading, between ++ [(none, node)], by simp, ?_⟩
        intro entry listed
        rcases List.mem_append.mp listed with earlier | here
        · exact plain entry earlier
        · rw [List.mem_singleton.mp here]

theorem collected_eq_iff {left right : Option AdrSection} :
    collected left = collected right ↔ ∀ section_ ≠ .status, left = some section_ ↔ right = some section_ := by
  have reads : ∀ (option : Option AdrSection) section_, collected option = some section_ ↔
      option = some section_ ∧ section_ ≠ .status := by
    intro option section_
    rw [collected, Option.filter_eq_some_iff]
    simp
  constructor
  · intro same section_ other
    have both := reads left section_
    rw [same, reads right] at both
    simpa [other] using both.symm
  · intro same
    refine Option.ext fun section_ => ?_
    rw [reads, reads]
    exact and_congr_left fun other => same section_ other

theorem collected_or {section_ left right : Option AdrSection} (same : section_ = none → collected left = collected right) :
    collected (section_.or left) = collected (section_.or right) := by
  cases section_ with
  | none => simpa using same rfl
  | some here => rfl

/-- Every text is collected with the heading above it exactly when each
unrecognised heading that matters is. -/
theorem collected_texts_iff {entries : List (Option Nat × BlockNode)} (leveled : Leveled entries) :
    (∀ before entry after, entries = before ++ entry :: after → entry.2.isText = true →
        collected (lastSection before) = collected (sectionAt before entry.1)) ↔
      ∀ before level heading after, entries = before ++ (some level, heading) :: after → heading.classifySection = none →
        (heading.ownText ≠ "" ∨ ∃ entry ∈ after.takeWhile (·.1 = none), entry.2.ownText ≠ "") →
        collected (lastSection before) = collected (sectionAt before (some level)) := by
  constructor
  · intro texts before level heading after split unrecognised text
    rcases text with own | ⟨entry, below, text⟩
    · exact texts before (some level, heading) after split (by simp [BlockNode.isText, unrecognised, own])
    · obtain ⟨between, rest, cut⟩ := List.append_of_mem below
      have plain : ∀ entry ∈ after.takeWhile (·.1 = none), entry.1 = none := by
        intro entry listed
        simpa using List.mem_takeWhile_imp listed
      have plain' : ∀ entry ∈ between, entry.1 = none := fun entry listed => plain entry (by rw [cut]; simp [listed])
      have whole : entries = (before ++ (some level, heading) :: between) ++ entry ::
          (rest ++ after.dropWhile (·.1 = none)) := by
        have cutAfter : after = between ++ entry :: rest ++ after.dropWhile (·.1 = none) := by
          rw [← cut, List.takeWhile_append_dropWhile]
        rw [split]
        exact (congrArg (fun rest => before ++ (some level, heading) :: rest) cutAfter).trans (by simp)
      have leveled' : Leveled between := fun entry listed => leveled entry (by rw [whole]; simp [listed])
      have isPlain : entry.1 = none := plain entry below
      have other := (leveled entry (by rw [whole]; simp)).mp isPlain
      have same := texts _ entry _ whole (by simp [BlockNode.isText, classifySection_eq_none other, text])
      rw [isPlain, sectionAt_below plain', lastSection_below plain' leveled', unrecognised] at same
      exact same
  · intro headings before entry after split isText
    obtain ⟨level, node⟩ := entry
    obtain ⟨unrecognised, text⟩ : node.classifySection = none ∧ node.ownText ≠ "" := by
      simpa [BlockNode.isText] using isText
    cases level with
    | some level => exact headings before level node after split unrecognised (Or.inl text)
    | none =>
      rcases exists_last_heading before with plain | ⟨first, level, heading, between, rfl, plain⟩
      · have noHeading : headingEntries before = [] := by
          rw [headingEntries, List.filterMap_eq_nil_iff]
          intro entry listed
          rw [plain entry (List.mem_reverse.mp listed)]
          rfl
        have noSection : lastSection before = none := by
          rw [lastSection, List.findSome?_eq_none_iff]
          intro entry listed
          have inList := List.mem_reverse.mp listed
          have other := (leveled entry (by rw [split]; simp [inList])).mp (plain entry inList)
          exact classifySection_eq_none other
        rw [noSection]
        show collected none = collected ((Outline.enclosers Prod.fst (headingEntries before)).findSome? _)
        rw [noHeading]
        rfl
      · have leveled' : Leveled between := fun entry listed => leveled entry (by rw [split]; simp [listed])
        show collected (lastSection _) = collected (sectionAt _ none)
        rw [sectionAt_below plain, lastSection_below plain leveled']
        refine collected_or fun above => ?_
        refine headings first level heading (between ++ (none, node) :: after) (by rw [split]; simp) above (Or.inr ?_)
        refine ⟨(none, node), ?_, text⟩
        rw [List.takeWhile_append_of_pos (by simpa using plain)]
        simp

/-! ### The status -/

structure PlainContents (nodes : List BlockNode) : Prop where
  empty : ∀ node ∈ nodes, node.nodeType = .section → node.content = ""
  written : ∀ node ∈ nodes, node.nodeType = .paragraph → strip node.content = node.content ∧ node.content ≠ ""

theorem PlainContents.tail {node : BlockNode} {nodes : List BlockNode} (plain : PlainContents (node :: nodes)) :
    PlainContents nodes :=
  ⟨fun other listed => plain.empty other (List.mem_cons_of_mem _ listed),
    fun other listed => plain.written other (List.mem_cons_of_mem _ listed)⟩

theorem followingText_eq {following : List BlockNode} (plain : PlainContents following) :
    given (some (followingText following)) =
      (following.head?.filter (·.nodeType = .paragraph)).map fun paragraph => paragraph.content := by
  cases following with
  | nil => rfl
  | cons node rest =>
    rw [followingText, List.head?_cons]
    by_cases isParagraph : node.nodeType = .paragraph
    · obtain ⟨stripped, text⟩ := plain.written node (List.mem_cons_self ..) isParagraph
      rw [if_neg (by simpa using isParagraph), stripped, if_neg text]
      simp [given, Option.filter, isParagraph, text]
    · rw [if_pos isParagraph]
      simp [given, Option.filter, isParagraph]

theorem status_scan {rest : List BlockNode} (plain : PlainContents rest) (self : AdrScan) :
    given (self.scan rest).status =
      if rest.any BlockNode.isStatus then
        ((followingLast BlockNode.isStatus rest).filter (·.nodeType = .paragraph)).map fun paragraph => paragraph.content
      else given self.status := by
  induction rest generalizing self with
  | nil => rfl
  | cons node rest ih =>
    have turned : given (self.turn node rest).status =
        if node.isStatus then (rest.head?.filter (·.nodeType = .paragraph)).map fun paragraph => paragraph.content
        else given self.status := by
      unfold AdrScan.turn BlockNode.isStatus
      cases recognised : node.classifySection with
      | none =>
        by_cases blank : node.ownText = "" <;> simp [blank]
      | some here =>
        by_cases isStatus : here = .status
        · subst isStatus
          have isSection : node.nodeType = .section := by
            by_contra other
            rw [classifySection_eq_none other] at recognised
            cases recognised
          have content : sectionContent node rest = followingText rest := by
            rw [sectionContent, plain.empty node (List.mem_cons_self ..) isSection]
            rfl
          simp only [if_true, decide_true, content]
          exact followingText_eq plain.tail
        · simp [isStatus]
    rw [AdrScan.scan, ih plain.tail, turned, followingLast, List.any_cons]
    cases rest.any BlockNode.isStatus with
    | true => simp
    | false => cases node.isStatus <;> simp

theorem exists_followingLast {α : Type} {p : α → Bool} {l : List α} {next : α} (found : followingLast p l = some next) :
    ∃ before last after, l = before ++ last :: next :: after ∧ p last = true := by
  induction l with
  | nil => cases found
  | cons a l ih =>
    rw [followingLast] at found
    split at found
    · obtain ⟨before, last, after, rfl, passes⟩ := ih found
      exact ⟨a :: before, last, after, rfl, passes⟩
    · split at found
      · rename_i passes
        obtain ⟨rest, rfl⟩ := List.head?_eq_some_iff.mp found
        exact ⟨[], a, rest, rfl, passes⟩
      · cases found

theorem statusParagraph_isSome {levels : List Nat} {nodes : List BlockNode} (leveled : Leveled (withLevels levels nodes))
    {next : BlockNode} (found : followingLast BlockNode.isStatus nodes = some next) (isParagraph : next.nodeType = .paragraph) :
    ∃ paragraph, statusParagraph levels nodes = some paragraph := by
  obtain ⟨before, last, after, split, isStatus⟩ := exists_followingLast found
  rw [← map_snd_withLevels levels nodes, List.map_eq_append_iff] at split
  obtain ⟨first, others, cut, _, isLast⟩ := split
  rw [List.map_eq_cons_iff] at isLast
  obtain ⟨heading, others, rfl, rfl, isNext⟩ := isLast
  rw [List.map_eq_cons_iff] at isNext
  obtain ⟨entry, rest, rfl, rfl, _⟩ := isNext
  have recognised : heading.2.classifySection = some .status := by simpa [BlockNode.isStatus] using isStatus
  have isPlain : entry.1 = none := (leveled entry (by rw [cut]; simp)).mpr (by rw [isParagraph]; decide)
  have isHeading : heading.1 ≠ none := by
    intro plain
    rw [classifySection_eq_none ((leveled heading (by rw [cut]; simp)).mp plain)] at recognised
    cases recognised
  obtain ⟨level, isLevel⟩ := Option.ne_none_iff_exists'.mp isHeading
  have inStatus : sectionAt (first ++ [heading]) entry.1 = some .status := by
    have below := @sectionAt_below first [] level heading.2 (fun entry listed => by cases listed)
    rw [← isLevel] at below
    rw [isPlain, below, recognised]
    rfl
  have selected : entry ∈ Outline.selected
      (fun before entry => entry.2.nodeType = .paragraph && sectionAt before entry.1 = some .status) []
      (withLevels levels nodes) := by
    refine Outline.mem_selected.mpr ⟨first ++ [heading], rest, by rw [cut]; simp, ?_⟩
    rw [List.nil_append, isParagraph, inStatus]
    rfl
  unfold statusParagraph
  cases isFirst : (Outline.selected _ [] (withLevels levels nodes)).head? with
  | none =>
    rw [List.head?_eq_none_iff.mp isFirst] at selected
    cases selected
  | some entry => exact ⟨entry.2, rfl⟩

/-! ### Sections and their texts -/

/-- What the extraction relies on in the nodes of a document. -/
structure Readable (levels : List Nat) (nodes : List BlockNode) : Prop where
  nodup : (nodes.map fun node => node.id).Nodup
  sections : (nodes.filter fun node => node.nodeType = .section).length = levels.length
  titles : TitlesOfHeadings nodes
  plain : PlainContents nodes

theorem Readable.ownTexts_iff {levels : List Nat} {nodes : List BlockNode} (readable : Readable levels nodes) :
    HoldOwnTexts levels nodes ↔ EndsSections levels nodes := by
  have leveled := leveled_withLevels readable.sections
  have taken : ∀ section_ ≠ .status, (AdrScan.scan {} nodes).takenFor section_ =
      (Outline.selected (fun before entry => entry.2.isText && lastSection before = some section_) []
        (withLevels levels nodes)).map Prod.snd := by
    intro section_ other
    have entries := @Outline.selected_map _ _ Prod.snd
      (fun before node => node.isText && lastClassified before = some section_) [] (withLevels levels nodes)
    rw [map_snd_withLevels levels nodes] at entries
    simp only [lastSection_eq]
    rw [entries]
    exact @AdrScan.takenFor_scan section_ other nodes readable.titles [] nodes rfl {} rfl
  have ids : ((withLevels levels nodes).map fun entry => entry.2.id).Nodup := by
    have mapped := congrArg (List.map fun node : BlockNode => node.id) (map_snd_withLevels levels nodes)
    rw [List.map_map] at mapped
    rw [show (fun entry : Option Nat × BlockNode => entry.2.id) = (fun node : BlockNode => node.id) ∘ Prod.snd from rfl, mapped]
    exact readable.nodup
  have sections : (∀ section_ ≠ .status, (AdrScan.scan {} nodes).takenFor section_ =
        (Outline.selected (fun before entry => entry.2.isText && sectionAt before entry.1 = some section_) []
          (withLevels levels nodes)).map Prod.snd) ↔
      ∀ before entry after, withLevels levels nodes = before ++ entry :: after → entry.2.isText = true →
        collected (lastSection before) = collected (sectionAt before entry.1) := by
    have each : ∀ section_ ≠ .status, ((AdrScan.scan {} nodes).takenFor section_ =
        (Outline.selected (fun before entry => entry.2.isText && sectionAt before entry.1 = some section_) []
          (withLevels levels nodes)).map Prod.snd ↔
        ∀ before entry after, withLevels levels nodes = before ++ entry :: after →
          (entry.2.isText && lastSection before = some section_) = (entry.2.isText && sectionAt before entry.1 = some section_)) := by
      intro section_ other
      rw [taken section_ other]
      exact Outline.selected_map_eq_iff ids fun a _ b _ same => congrArg (fun node : BlockNode => node.id) same
    constructor
    · intro holds before entry after split isText
      rw [collected_eq_iff]
      intro section_ other
      have same := (each section_ other).mp (holds section_ other) before entry after split
      rw [isText, Bool.true_and, Bool.true_and] at same
      exact decide_eq_decide.mp same
    · intro holds section_ other
      refine (each section_ other).mpr fun before entry after split => ?_
      cases isText : entry.2.isText with
      | false => rfl
      | true =>
        rw [Bool.true_and, Bool.true_and]
        exact decide_eq_decide.mpr (collected_eq_iff.mp (holds before entry after split isText) section_ other)
  have status : given (extractSections nodes).1.status =
      ((followingLast BlockNode.isStatus nodes).filter (·.nodeType = .paragraph)).map fun paragraph => paragraph.content := by
    show given (AdrScan.scan {} nodes).status = _
    rw [status_scan readable.plain]
    split
    · rfl
    · rename_i none
      have absent : followingLast BlockNode.isStatus nodes = Option.none := by
        cases found : followingLast BlockNode.isStatus nodes with
        | none => rfl
        | some next =>
          obtain ⟨before, last, after, split, isStatus⟩ := exists_followingLast found
          exact absurd (List.any_eq_true.mpr ⟨last, by rw [split]; simp, isStatus⟩) none
      rw [absent]
      rfl
  constructor
  · intro holds
    refine ⟨(collected_texts_iff leveled).mp (sections.mp holds.sections), ?_⟩
    intro paragraph isFirst
    have content := holds.status
    rw [status, isFirst, Option.map_some, Option.map_eq_some_iff] at content
    obtain ⟨next, found, same⟩ := content
    obtain ⟨found, isParagraph⟩ := Option.filter_eq_some_iff.mp found
    exact ⟨next, found, by simpa using isParagraph, same⟩
  · intro ends
    refine ⟨sections.mpr ((collected_texts_iff leveled).mpr ends.headings), ?_⟩
    rw [status]
    cases isFirst : statusParagraph levels nodes with
    | some paragraph =>
      obtain ⟨next, found, isParagraph, same⟩ := ends.status paragraph isFirst
      rw [found, Option.filter_some, if_pos (by simpa using isParagraph), Option.map_some, same, Option.map_some]
    | none =>
      cases found : (followingLast BlockNode.isStatus nodes).filter (·.nodeType = .paragraph) with
      | none => rfl
      | some next =>
        obtain ⟨found, isParagraph⟩ := Option.filter_eq_some_iff.mp found
        obtain ⟨paragraph, isSome⟩ := statusParagraph_isSome leveled found (by simpa using isParagraph)
        rw [isFirst] at isSome
        cases isSome

namespace DocumentBuilder

theorem titlesOfHeadings (calls : List BuilderCall) (nextUuid : Nat) : TitlesOfHeadings (built calls nextUuid).nodes := by
  have rooted := rooted calls nextUuid
  have fills := fills calls nextUuid
  intro first
  induction hlen : first.length using Nat.strongRecOn generalizing first with
  | ind n ih =>
    intro node after split title isLast
    have listed : node ∈ (built calls nextUuid).nodes := by rw [split]; simp
    have found : (built calls nextUuid).nodes[first.length]? = some node := by
      rw [split, List.getElem?_append_right (Nat.le_refl _), Nat.sub_self]
      rfl
    by_cases isSection : node.nodeType = .section
    · -- the path of a heading ends in its own title
      obtain ⟨own, isOwn⟩ := Option.isSome_iff_exists.mp ((fills node listed).titled.mpr isSection)
      have path : ∃ above, node.headingPath = above ++ [own] := by
        have ownPath : node.ownPath = [own] := by rw [BlockNode.ownPath, if_pos isSection, isOwn]; rfl
        cases isParent : node.parentId with
        | none => exact ⟨[], by rw [rooted.paths.roots node listed isParent, ownPath]; rfl⟩
        | some p =>
          obtain ⟨parent, inList, rfl⟩ := List.mem_map.mp (rooted.forest.parent_mem listed isParent)
          exact ⟨parent.headingPath, by rw [rooted.paths.below node listed parent inList isParent, ownPath]⟩
      obtain ⟨above, isPath⟩ := path
      rw [isPath, List.getLast?_concat] at isLast
      cases isLast
      exact ⟨node, by simp, isSection, isOwn⟩
    · have ownPath : node.ownPath = [] := if_neg isSection
      cases isParent : node.parentId with
      | none =>
        rw [rooted.paths.roots node listed isParent, ownPath] at isLast
        cases isLast
      | some p =>
        obtain ⟨j, parent, earlier, atParent, rfl⟩ := rooted.forest.parent_earlier found isParent
        have inList : parent ∈ (built calls nextUuid).nodes := List.mem_of_getElem? atParent
        rw [rooted.paths.below node listed parent inList isParent, ownPath, List.append_nil] at isLast
        have inFirst : first[j]? = some parent := by
          rw [split, List.getElem?_append_left earlier] at atParent
          exact atParent
        obtain ⟨within, isElement⟩ := List.getElem?_eq_some_iff.mp inFirst
        have cut : first = first.take j ++ parent :: first.drop (j + 1) := by
          rw [← isElement, List.getElem_cons_drop, List.take_append_drop]
        have split' : (built calls nextUuid).nodes = first.take j ++ parent :: (first.drop (j + 1) ++ node :: after) := by
          rw [split]
          exact (congrArg (· ++ node :: after) cut).trans (by simp)
        obtain ⟨heading, member, isHeading, isTitle⟩ := ih j (by omega) (first.take j) (by rw [List.length_take]; omega) parent _
          split' title isLast
        refine ⟨heading, ?_, isHeading, isTitle⟩
        rw [cut]
        rcases List.mem_append.mp member with before | here
        · simp [before]
        · simp [List.mem_singleton.mp here]

theorem readable (calls : List BuilderCall) (nextUuid : Nat) (frontMatter : RawDict) :
    Readable (BuilderCall.levels calls) (withFrontMatter frontMatter (built calls nextUuid)) := by
  have rooted := rooted calls nextUuid
  have fills := fills calls nextUuid
  have body : Readable (BuilderCall.levels calls) (built calls nextUuid).nodes :=
    ⟨rooted.forest.nodup, (filled calls nextUuid).sections, titlesOfHeadings calls nextUuid,
      fun node listed => (fills node listed).empty, fun node listed => (fills node listed).written⟩
  unfold withFrontMatter
  split
  · exact body
  · let front : BlockNode :=
      { id := .v4 (built calls nextUuid).nextUuid, nodeType := .frontMatter, title := some "Front Matter"
        content := dumpFrontMatter frontMatter }
    refine ⟨?_, ?_, ?_, ?_, ?_⟩
    · refine List.nodup_cons.mpr ⟨?_, rooted.forest.nodup⟩
      rw [rooted.ids, rooted.next]
      intro old
      obtain ⟨n, inRange, same⟩ := List.mem_map.mp old
      have isNext : n = nextUuid + (built calls nextUuid).nodes.length := Uuid.v4.inj same
      rw [List.mem_range'_1] at inRange
      omega
    · rw [List.filter_cons_of_neg (by simp)]
      exact body.sections
    · intro first node after split title isLast
      cases first with
      | nil =>
        obtain ⟨rfl, _⟩ := List.cons.inj split
        cases isLast
      | cons other first =>
        obtain ⟨rfl, inBody⟩ := List.cons.inj split
        obtain ⟨heading, member, isHeading⟩ := body.titles first node after inBody title isLast
        exact ⟨heading, List.mem_cons_of_mem _ member, isHeading⟩
    · intro node listed isSection
      rcases List.mem_cons.mp listed with rfl | inBody
      · cases isSection
      · exact body.plain.empty node inBody isSection
    · intro node listed isParagraph
      rcases List.mem_cons.mp listed with rfl | inBody
      · cases isParagraph
      · exact body.plain.written node inBody isParagraph

/-- The sections of a Markdown ADR hold their own texts exactly when they end
where the levels of the headings say. -/
theorem holdOwnTexts_iff (calls : List BuilderCall) (nextUuid : Nat) (frontMatter : RawDict) :
    HoldOwnTexts (BuilderCall.levels calls) (withFrontMatter frontMatter (built calls nextUuid)) ↔
      EndsSections (BuilderCall.levels calls) (withFrontMatter frontMatter (built calls nextUuid)) :=
  (readable calls nextUuid frontMatter).ownTexts_iff

/-- The consequences of a decision, and references on the level of its sections. -/
def referencesAfterConsequences : List BuilderCall :=
  [.heading 1 "Use a queue" [], .heading 2 "Consequences" [], .paragraph "One more service." [],
    .heading 2 "References" [], .paragraph "RFC 9000" [], .finish]

/-- What stands below the references is taken for a consequence. -/
theorem references_are_consequences :
    ¬ HoldOwnTexts (BuilderCall.levels referencesAfterConsequences)
      (withFrontMatter [] (built referencesAfterConsequences)) := by
  intro holds
  have taken := congrArg (List.map fun node : BlockNode => node.ownText) (holds.sections .consequences (by decide))
  exact absurd taken (by decide)

end DocumentBuilder

end Brain
