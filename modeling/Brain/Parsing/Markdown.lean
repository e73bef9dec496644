import Brain.Application.StructuredParsers
import Brain.Parsing.Blocks

namespace Brain

/-! ### Words of a text -/

theorem filter_splitOnP_eq_nil {α : Type} (p : α → Bool) (xs : List α) :
    ((xs.splitOnP p).filter fun part => !part.isEmpty) = [] ↔ ∀ x ∈ xs, p x = true := by
  induction xs with
  | nil => simp
  | cons x xs ih =>
    rw [List.splitOnP_cons_eq_if_modifyHead]
    by_cases separates : p x = true
    · rw [if_pos separates, List.filter_cons_of_neg (by simp), ih]
      simp [separates]
    · rw [if_neg separates]
      cases parts : xs.splitOnP p with
      | nil => exact absurd parts (List.splitOnP_ne_nil p xs)
      | cons first rest => simp [separates]

theorem mem_strip {c : Char} (visible : isSpace c = false) (text : String) : c ∈ (strip text).toList ↔ c ∈ text.toList := by
  have drops : ∀ cs : List Char, c ∈ cs.dropWhile isSpace ↔ c ∈ cs := by
    intro cs
    constructor
    · exact fun member => (List.dropWhile_sublist isSpace).subset member
    · intro member
      rw [← List.takeWhile_append_dropWhile (p := isSpace) (l := cs), List.mem_append] at member
      rcases member with early | late
      · rw [List.mem_takeWhile_imp early] at visible
        cases visible
      · exact late
  rw [strip, String.toList_ofList, stripRight, stripLeft, List.mem_reverse, drops, List.mem_reverse, drops]

theorem words_strip_eq_nil (text : String) : words (strip text) = [] ↔ ∀ c ∈ text.toList, isSpace c = true := by
  rw [words, List.map_eq_nil_iff, filter_splitOnP_eq_nil]
  constructor
  · intro all c member
    by_contra visible
    have isVisible : isSpace c = false := by simpa using visible
    exact visible (all c ((mem_strip isVisible text).mpr member))
  · intro all c member
    by_contra visible
    have isVisible : isSpace c = false := by simpa using visible
    exact visible (all c ((mem_strip isVisible text).mp member))

/-! ### Which texts are parsed -/

mutual
/-- The info strings of the fences that the loop comes to: the first block of an
item it goes past. -/
def Blocks.infos (goesPast : Bool) : Blocks → List String
  | .nil => []
  | .paragraph _ rest => rest.infos false
  | .heading _ _ rest => rest.infos false
  | .fence info _ rest => if goesPast then rest.infos false else info :: rest.infos false
  | .codeBlock _ rest => rest.infos false
  | .htmlBlock _ rest => rest.infos false
  | .hr rest => rest.infos false
  | .blockquote inside rest => inside.infos false ++ rest.infos false
  | .list _ items rest => items.infos ++ rest.infos false
  | .table _ _ rest => rest.infos false

def Items.infos : Items → List String
  | .nil => []
  | .item inside rest => inside.infos true ++ rest.infos
end

def Worded (infos : List String) : Prop := ∀ info ∈ infos, ∃ c ∈ info.toList, isSpace c = false

theorem worded_append {left right : List String} : Worded (left ++ right) ↔ Worded left ∧ Worded right :=
  List.forall_mem_append

theorem firstItem_words (info : String) :
    (∃ language, firstItem (words (strip info)) = .ok language) ↔ ∃ c ∈ info.toList, isSpace c = false := by
  have blank := words_strip_eq_nil info
  cases found : words (strip info) with
  | nil =>
    have all := blank.mp found
    constructor
    · rintro ⟨language, returned⟩
      cases returned
    · rintro ⟨c, member, visible⟩
      rw [all c member] at visible
      cases visible
  | cons word rest =>
    refine iff_of_true ⟨word, rfl⟩ ?_
    by_contra none
    have all : ∀ c ∈ info.toList, isSpace c = true := by
      intro c member
      by_contra visible
      exact none ⟨c, member, by simpa using visible⟩
    rw [blank.mpr all] at found
    cases found

theorem bind_returns {ε α β : Type} {x : Except ε α} {f : α → Except ε β} {P : Prop} (each : ∀ a, (∃ b, f a = .ok b) ↔ P) :
    (∃ b, x.bind f = .ok b) ↔ (∃ a, x = .ok a) ∧ P := by
  cases x with
  | error e =>
    constructor
    · rintro ⟨b, returned⟩
      cases returned
    · rintro ⟨⟨a, returned⟩, _⟩
      cases returned
  | ok a =>
    constructor
    · exact fun returns => ⟨⟨a, rfl⟩, (each a).mp returns⟩
    · exact fun holds => (each a).mpr holds.2

mutual
theorem Blocks.walk_returns (b : Blocks) (s : MarkdownWalk) : (∃ t, b.walk s = .ok t) ↔ Worded (b.infos false) := by
  cases b with
  | nil => exact iff_of_true ⟨s, rfl⟩ (List.forall_mem_nil _)
  | paragraph inline next => exact next.walk_returns _
  | heading level inline next => exact next.walk_returns _
  | fence info content next =>
    rw [Blocks.walk, Blocks.infos, if_neg Bool.false_ne_true, Worded, List.forall_mem_cons, ← firstItem_words]
    exact bind_returns fun language => next.walk_returns _
  | codeBlock content next => exact next.walk_returns _
  | htmlBlock content next => exact next.walk_returns _
  | hr next => exact next.walk_returns _
  | blockquote inside next =>
    rw [Blocks.infos, worded_append, ← inside.walk_returns s]
    exact bind_returns fun t => next.walk_returns t
  | list ordered items next =>
    rw [Blocks.infos, worded_append, ← items.walk_returns s.flushList]
    exact bind_returns fun t => next.walk_returns t.flushList
  | table header rows next => exact next.walk_returns _

theorem Blocks.walkInside_returns (b : Blocks) (s : MarkdownWalk) :
    (∃ t, b.walkInside s = .ok t) ↔ Worded (b.infos true) := by
  cases b with
  | nil => exact iff_of_true ⟨s, rfl⟩ (List.forall_mem_nil _)
  | paragraph inline next => exact next.walk_returns _
  | heading level inline next => exact next.walk_returns _
  | fence info content next =>
    rw [Blocks.infos, if_pos rfl]
    exact next.walk_returns _
  | codeBlock content next => exact next.walk_returns _
  | htmlBlock content next => exact next.walk_returns _
  | hr next => exact next.walk_returns _
  | blockquote inside next =>
    rw [Blocks.infos, worded_append, ← inside.walk_returns s]
    exact bind_returns fun t => next.walk_returns t
  | list ordered items next =>
    rw [Blocks.infos, worded_append, ← items.walk_returns s]
    exact bind_returns fun t => next.walk_returns t.flushList
  | table header rows next => exact next.walk_returns _

theorem Items.walk_returns (items : Items) (s : MarkdownWalk) : (∃ t, items.walk s = .ok t) ↔ Worded items.infos := by
  cases items with
  | nil => exact iff_of_true ⟨s, rfl⟩ (List.forall_mem_nil _)
  | item inside next =>
    rw [Items.infos, worded_append, ← inside.walkInside_returns (s.addItem inside.leadText)]
    exact bind_returns fun t => next.walk_returns t
end

theorem walk_stream (b : Blocks) (s : MarkdownWalk) : MarkdownWalk.walk 0 b.tokens s = b.walk s := by
  have whole := @Blocks.walk_tokens b [] (by simp [Begins]) s
  rw [List.append_nil] at whole
  rw [whole]
  cases b.walk s <;> rfl

namespace ParserLibraries
variable (libraries : ParserLibraries)

theorem parseMarkdown_of_decoded {mdParse : String → List Token} {artifact : SourceArtifact} {text : String}
    (decoded : libraries.decode artifact = .ok text) (nextUuid : Nat) :
    libraries.parseMarkdown mdParse artifact nextUuid = markdownParse mdParse text nextUuid := by
  rw [parseMarkdown, decoded]
  rfl

theorem extractFrontMatter_plain {text : String} (plain : "---".toList.isPrefixOf text.toList = false) :
    extractFrontMatter text = ([], text) := by
  unfold extractFrontMatter
  rw [plain]
  rfl

/-- A document is returned exactly for an artifact that carries a text, in which
every fence has an info string, those that an item starts with apart. -/
theorem parseMarkdown_returns_iff (blocks : String → Blocks) (artifact : SourceArtifact) (nextUuid : Nat) :
    (∃ parsed, libraries.parseMarkdown (fun body => (blocks body).tokens) artifact nextUuid = .ok parsed) ↔
      ∃ text, libraries.decode artifact = .ok text ∧ Worded ((blocks (extractFrontMatter text).2).infos false) := by
  have ofText : ∀ text, (∃ parsed, markdownParse (fun body => (blocks body).tokens) text nextUuid = .ok parsed) ↔
      Worded ((blocks (extractFrontMatter text).2).infos false) := by
    intro text
    rw [← Blocks.walk_returns _ { builder := { nextUuid } }, ← walk_stream]
    unfold markdownParse
    generalize extractFrontMatter text = front
    obtain ⟨frontMatter, body⟩ := front
    show (∃ parsed, Except.bind (MarkdownWalk.walk 0 (blocks body).tokens { builder := { nextUuid } }) _ = .ok parsed) ↔ _
    cases MarkdownWalk.walk 0 (blocks body).tokens { builder := { nextUuid } } with
    | error e => simp [Except.bind]
    | ok walked => exact iff_of_true ⟨_, rfl⟩ ⟨walked, rfl⟩
  cases decoded : libraries.decode artifact with
  | error e =>
    have raises : libraries.parseMarkdown (fun body => (blocks body).tokens) artifact nextUuid = .error e := by
      rw [parseMarkdown, decoded]
      rfl
    rw [raises]
    constructor
    · rintro ⟨parsed, returned⟩
      cases returned
    · rintro ⟨text, returned, _⟩
      cases returned
  | ok text =>
    rw [libraries.parseMarkdown_of_decoded decoded, ofText]
    constructor
    · exact fun worded => ⟨text, rfl, worded⟩
    · rintro ⟨other, same, worded⟩
      cases same
      exact worded

/-- A page whose only block is a fence without a language. -/
def bareFencePage : SourceArtifact :=
  { sourceUri := "docs/install.md", provider := "git", content := some "```\nmake install\n```" }

def emptyLibraries : ParserLibraries where
  b64decode _ := .ok ""
  markdown _ _ _ := ({}, 0)
  adrSections _ parsed := parsed
  html _ _ _ := ({}, 0)
  pdf _ _ := .ok fun _ => ({}, 0)
  xwiki _ _ _ := ({}, 0)

theorem bare_fence_raises :
    ¬ ∃ parsed, emptyLibraries.parseMarkdown (fun _ => (Blocks.fence "" "make install\n" .nil).tokens) bareFencePage 0 =
      .ok parsed := by
  have raises : emptyLibraries.parseMarkdown (fun _ => (Blocks.fence "" "make install\n" .nil).tokens) bareFencePage 0 =
      .error ⟨"IndexError", "list index out of range"⟩ := by
    rw [parseMarkdown_of_decoded _ (show emptyLibraries.decode bareFencePage = .ok "```\nmake install\n```" from rfl),
      markdownParse, extractFrontMatter_plain (by decide)]
    show Except.bind (MarkdownWalk.walk 0 (Blocks.fence "" "make install\n" .nil).tokens _) _ = _
    rw [walk_stream, Blocks.walk]
    rfl
  rw [raises]
  rintro ⟨parsed, returned⟩
  cases returned

end ParserLibraries

end Brain
