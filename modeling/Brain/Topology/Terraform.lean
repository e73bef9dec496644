import Brain.Adapters.DeploymentDetector
import Brain.Topology.Pyproject

namespace Brain

/-! ### Terraform texts -/

structure TerraformLabel where
  gap : List Char
  quoted : Bool := true
  name : List Char
  spaced : gap ≠ [] ∧ Blank gap
  plain : name ≠ [] ∧ ∀ c ∈ name, isSpace c = false ∧ isQuote c = false ∧ c ≠ '{' ∧ c ≠ '}'

def TerraformLabel.written (label : TerraformLabel) : List Char :=
  label.gap ++ (if label.quoted then '"' :: label.name ++ ['"'] else label.name)

inductive TerraformValue
  | text (cs : List Char)
  | expression (cs : List Char)

namespace TerraformValue

def written : TerraformValue → List Char
  | text cs => '"' :: cs ++ ['"']
  | expression cs => cs

def text? : TerraformValue → Option (List Char)
  | text cs => some cs
  | expression _ => none

def WellFormed : TerraformValue → Prop
  | text cs => ∀ c ∈ cs, c ≠ '"' ∧ c ≠ '\n'
  | expression cs => cs ≠ [] ∧ ∀ c ∈ cs, c ≠ '"' ∧ c ≠ '{' ∧ c ≠ '}' ∧ c ≠ '#' ∧ c ≠ '\n'

end TerraformValue

/-- What stands between two braces: blanks, comments, assignments of values or of objects in braces, and nested
blocks, in any layout. -/
inductive TerraformBody
  | done
  | space (c : Char) (rest : TerraformBody)
  | comment (cs : List Char) (rest : TerraformBody)
  | assignment (key left right : List Char) (value : TerraformValue) (rest : TerraformBody)
  | object (key left right : List Char) (inner rest : TerraformBody)
  | nested (word : List Char) (labels : List TerraformLabel) (gap : List Char) (inner rest : TerraformBody)

namespace TerraformBody

def written : TerraformBody → List Char
  | done => []
  | space c rest => c :: rest.written
  | comment cs rest => '#' :: cs ++ '\n' :: rest.written
  | assignment key left right value rest => key ++ (left ++ '=' :: (right ++ (value.written ++ rest.written)))
  | object key left right inner rest => key ++ (left ++ '=' :: (right ++ '{' :: (inner.written ++ '}' :: rest.written)))
  | nested word labels gap inner rest =>
    word ++ (labels.flatMap TerraformLabel.written ++ (gap ++ '{' :: (inner.written ++ '}' :: rest.written)))

/-- The literal text that the block itself assigns to an attribute. -/
def assigned (wanted : String) : TerraformBody → Option (List Char)
  | done => none
  | space _ rest => rest.assigned wanted
  | comment _ rest => rest.assigned wanted
  | assignment key _ _ value rest => if key = wanted.toList then value.text? else rest.assigned wanted
  | object key _ _ _ rest => if key = wanted.toList then none else rest.assigned wanted
  | nested _ _ _ _ rest => rest.assigned wanted

def EndsLine : TerraformBody → Prop
  | done => True
  | space c rest => c = '\n' ∨ rest.EndsLine
  | comment _ _ => True
  | _ => False

def Identifier (cs : List Char) : Prop := cs ≠ [] ∧ ∀ c ∈ cs, isNameChar c = true

def WellFormed : TerraformBody → Prop
  | done => True
  | space c rest => isSpace c = true ∧ rest.WellFormed
  | comment cs rest => '\n' ∉ cs ∧ rest.WellFormed
  | assignment key left right value rest =>
    Identifier key ∧ Blank left ∧ Blank right ∧ value.WellFormed ∧ rest.EndsLine ∧ rest.WellFormed
  | object key left right inner rest =>
    Identifier key ∧ Blank left ∧ Blank right ∧ inner.WellFormed ∧ rest.EndsLine ∧ rest.WellFormed
  | nested word _ gap inner rest => Identifier word ∧ Blank gap ∧ inner.WellFormed ∧ rest.EndsLine ∧ rest.WellFormed

end TerraformBody

inductive TerraformLabels
  | resource (type name : TerraformLabel)
  | module_ (name : TerraformLabel)

namespace TerraformLabels

def word : TerraformLabels → String
  | resource _ _ => "resource"
  | module_ _ => "module"

def list : TerraformLabels → List TerraformLabel
  | resource type name => [type, name]
  | module_ name => [name]

end TerraformLabels

/-- A block on lines of its own, after blank lines or none. -/
structure TerraformBlock where
  lead : List Char := []
  labels : TerraformLabels
  gap : List Char := [' ']
  body : TerraformBody
  trailing : List Char := []
  blanks : (∀ c ∈ lead, isSpace c = true) ∧ Blank gap ∧ Blank trailing
  wellFormed : body.WellFormed

/-- What is known of a block: its word, its labels and the texts it assigns. -/
structure TerraformEntry where
  kind : String
  labels : List String
  engine : Option String
  source : Option String
  deriving DecidableEq

namespace TerraformBlock

/-- What stands before the opening brace, but for blank lines. -/
def opening (block : TerraformBlock) : List Char :=
  block.labels.word.toList ++ (block.labels.list.flatMap TerraformLabel.written ++ block.gap)

def behind (block : TerraformBlock) (text : List Char) : List Char :=
  block.body.written ++ '}' :: (block.trailing ++ '\n' :: text)

def entry (block : TerraformBlock) : TerraformEntry where
  kind := block.labels.word
  labels := block.labels.list.map fun label => String.ofList label.name
  engine := (block.body.assigned "engine").map String.ofList
  source := (block.body.assigned "source").map String.ofList

end TerraformBlock

def terraformText : List TerraformBlock → List Char
  | [] => []
  | block :: blocks => block.lead ++ (block.opening ++ '{' :: block.behind (terraformText blocks))

/-- What an entry of `_terraform_blocks` says. -/
def TerraformEntry.ofRead (read : String × String × RawDict) : TerraformEntry where
  kind := read.1
  labels := [read.2.1, ((read.2.2.lookup "name").getD (.str "")).text]
  engine := (read.2.2.lookup "engine").map PyValue.text
  source := (read.2.2.lookup "source").map PyValue.text

/-! ### The pattern of a header -/

theorem dropQuote_quote {quote : Char} (isMark : isQuote quote = true) (cs : List Char) : dropQuote (quote :: cs) = cs := by
  simp [dropQuote, isMark]

theorem dropQuote_other {cs : List Char} (other : ∀ c ∈ cs.head?, isQuote c = false) : dropQuote cs = cs := by
  cases cs with
  | nil => rfl
  | cons c cs => simp [dropQuote, other c rfl]

theorem Blank.head?_any {gap : List Char} (some_ : gap ≠ []) (blank : Blank gap) (cs : List Char) :
    (gap ++ cs).head?.any isSpace = true := by
  cases gap with
  | nil => exact absurd rfl some_
  | cons c gap => exact isSpace_of_blank blank c (List.mem_cons_self ..)

namespace TerraformLabel
variable (label : TerraformLabel)

theorem opened (rest : List Char) :
    dropQuote ((label.written ++ rest).dropWhile isSpace) =
      label.name ++ ((if label.quoted then ['"'] else []) ++ rest) := by
  obtain ⟨some_, plain⟩ := label.plain
  rw [written, List.append_assoc, List.dropWhile_append_of_pos (isSpace_of_blank label.spaced.2)]
  cases label.quoted with
  | true =>
    have stays : ∀ cs : List Char, ('"' :: cs).dropWhile isSpace = '"' :: cs :=
      fun cs => List.dropWhile_cons_of_neg (by decide)
    simp only [if_true, List.cons_append, List.append_assoc, stays]
    exact dropQuote_quote rfl _
  | false =>
    obtain ⟨c, name, split⟩ := List.exists_cons_of_ne_nil some_
    obtain ⟨visible, noQuote, _, _⟩ := plain c (by rw [split]; exact List.mem_cons_self ..)
    rw [if_neg (by simp), if_neg (by simp), split, List.cons_append, List.dropWhile_cons_of_neg (by simp [visible])]
    exact dropQuote_other (by rintro d ⟨⟩; exact noQuote)

theorem spacedLabel_written (named : ∀ c ∈ label.name, isNameChar c = true) {rest : List Char}
    (ends : ∀ c ∈ rest.head?, isNameChar c = false ∧ isQuote c = false) :
    spacedLabel (label.written ++ rest) = some (label.name, rest) := by
  have begins : (label.written ++ rest).head?.any isSpace = true := by
    rw [written, List.append_assoc]
    exact label.spaced.2.head?_any label.spaced.1 _
  have name : (label.name ++ ((if label.quoted then ['"'] else []) ++ rest)).takeWhile isNameChar = label.name := by
    rw [List.takeWhile_append_of_pos named]
    have stops : ((if label.quoted then ['"'] else []) ++ rest).takeWhile isNameChar = [] := by
      cases label.quoted with
      | true => exact List.takeWhile_cons_of_neg (by decide)
      | false =>
        cases rest with
        | nil => rfl
        | cons c rest => exact List.takeWhile_cons_of_neg (by simp [(ends c rfl).1])
    rw [stops, List.append_nil]
  have after : dropQuote ((if label.quoted then ['"'] else []) ++ rest) = rest := by
    cases label.quoted with
    | true => exact dropQuote_quote rfl _
    | false => exact dropQuote_other fun c first => (ends c first).2
  rw [spacedLabel, label.opened, name, begins, List.drop_left, after]
  simp [label.plain.1]

theorem spacedLabel_unnamed (unnamed : ¬ ∀ c ∈ label.name, isNameChar c = true) (rest : List Char) :
    spacedLabel (label.written ++ rest) = none ∨ ∃ part c back, spacedLabel (label.written ++ rest) = some (part, c :: back) ∧
      isSpace c = false ∧ c ≠ '{' := by
  cases behind : label.name.dropWhile isNameChar with
  | nil => exact absurd (List.dropWhile_eq_nil_iff.mp behind) unnamed
  | cons c back =>
    have split : label.name = label.name.takeWhile isNameChar ++ c :: back := by
      rw [← behind, List.takeWhile_append_dropWhile]
    obtain ⟨visible, noQuote, noBrace, _⟩ := label.plain.2 c (by rw [split]; simp)
    have foreign : isNameChar c = false := head?_dropWhile_false label.name c (by rw [behind]; rfl)
    have part : ∀ d ∈ label.name.takeWhile isNameChar, isNameChar d = true := fun d member => List.mem_takeWhile_imp member
    have opened := label.opened rest
    rw [split, List.append_assoc, List.cons_append] at opened
    generalize label.name.takeWhile isNameChar = front at part opened
    have name : (front ++ c :: (back ++ ((if label.quoted then ['"'] else []) ++ rest))).takeWhile isNameChar = front := by
      rw [List.takeWhile_append_of_pos part, List.takeWhile_cons_of_neg (by simp [foreign]), List.append_nil]
    rw [spacedLabel, opened, name, List.drop_left, dropQuote_other (by rintro d ⟨⟩; exact noQuote)]
    split
    · exact .inr ⟨front, c, _, rfl, visible, noBrace⟩
    · exact .inl rfl

end TerraformLabel

theorem spacedLabel_visible {c : Char} (visible : isSpace c = false) (cs : List Char) : spacedLabel (c :: cs) = none := by
  simp [spacedLabel, visible]

theorem spacedLabel_brace {gap : List Char} (blank : Blank gap) (cs : List Char) : spacedLabel (gap ++ '{' :: cs) = none := by
  have brace : (gap ++ '{' :: cs).dropWhile isSpace = '{' :: cs := by
    rw [List.dropWhile_append_of_pos (isSpace_of_blank blank)]
    exact List.dropWhile_cons_of_neg (by decide)
  have nothing : (dropQuote ('{' :: cs)).takeWhile isNameChar = [] := by
    rw [dropQuote_other (by rintro c ⟨⟩; decide)]
    exact List.takeWhile_cons_of_neg (by decide)
  simp [spacedLabel, brace, nothing]

theorem terraformHeader_line (cs : List Char) : terraformHeader '\n' cs =
    (blockWord (cs.dropWhile isSpace)).bind fun word => (spacedLabel word.2).bind fun label =>
      (spacedLabel label.2).bind fun name => (afterLiteral ['{'] (name.2.dropWhile isSpace)).map
        ({ kind := word.1, label := label.1, name := name.1 }, ·) := rfl

theorem terraformHeader_brace (before : Char) (cs : List Char) : terraformHeader before ('}' :: cs) = none := by
  by_cases line : before = '\n'
  · have stays : ('}' :: cs).dropWhile isSpace = '}' :: cs := List.dropWhile_cons_of_neg (by decide)
    have noWord : blockWord ('}' :: cs) = none := rfl
    rw [line, terraformHeader_line, stays, noWord, Option.bind_none]
  · exact if_neg line

theorem terraformHeader_within {before : Char} (within : before ≠ '\n') (cs : List Char) : terraformHeader before cs = none :=
  if_neg within

/-! No header goes past a closing brace. -/

theorem afterLiteral_local {stop : Char} {literal : List Char} (absent : stop ∉ literal) {β : Type} (b : β) :
    Readers.Local stop fun cs => (afterLiteral literal cs).map (b, ·) := by
  induction literal with
  | nil => exact Readers.Local.value b
  | cons d literal ih =>
    rw [List.mem_cons, not_or] at absent
    have step (c : Char) (cs : List Char) : afterLiteral (d :: literal) (c :: cs) = if d = c then afterLiteral literal cs else none := by
      by_cases same : d = c <;> simp [afterLiteral, List.isPrefixOf, same]
    intro front
    cases front with
    | nil => exact .inl fun back => by simp only [List.nil_append, step, if_neg (Ne.symm absent.1), Option.map_none]
    | cons c front =>
      by_cases same : d = c
      · rcases ih absent.2 front with fails | ⟨value, rest, within, reads⟩
        · exact .inl fun back => by simpa only [List.cons_append, step, if_pos same] using fails back
        · exact .inr ⟨value, rest, within.trans (List.suffix_cons ..), fun back => by
            simpa only [List.cons_append, step, if_pos same] using reads back⟩
      · exact .inl fun back => by simp only [List.cons_append, step, if_neg same, Option.map_none]

theorem dropQuote_stop (front : List Char) :
    ∃ rest, rest <:+ front ∧ ∀ back, dropQuote (front ++ '}' :: back) = rest ++ '}' :: back := by
  cases front with
  | nil => exact ⟨[], List.suffix_rfl, fun back => rfl⟩
  | cons c front =>
    cases mark : isQuote c with
    | true => exact ⟨front, List.suffix_cons .., fun back => dropQuote_quote mark _⟩
    | false => exact ⟨c :: front, List.suffix_rfl, fun back => dropQuote_other fun d first => Option.some.inj first ▸ mark⟩

theorem spacedLabel_local : Readers.Local '}' spacedLabel := by
  intro front
  obtain ⟨opened, within, opens⟩ := dropQuote_stop (front.dropWhile isSpace)
  obtain ⟨rest, within', closes⟩ := dropQuote_stop (opened.drop (opened.takeWhile isNameChar).length)
  have suffix : rest <:+ front :=
    within'.trans ((List.drop_suffix ..).trans (within.trans (List.dropWhile_suffix _)))
  have short : (opened.takeWhile isNameChar).length ≤ opened.length := (List.takeWhile_prefix _).length_le
  have reads (back : List Char) : spacedLabel (front ++ '}' :: back) =
      if front.head?.any isSpace && opened.takeWhile isNameChar ≠ [] then
        some (opened.takeWhile isNameChar, rest ++ '}' :: back)
      else none := by
    have first : (front ++ '}' :: back).head?.any isSpace = front.head?.any isSpace := by
      cases front <;> rfl
    rw [spacedLabel, Readers.dropWhile_stop (by decide), opens, Readers.takeWhile_stop (by decide),
      List.drop_append_of_le_length short, closes, first]
  by_cases some_ : (front.head?.any isSpace && opened.takeWhile isNameChar ≠ []) = true
  · exact .inr ⟨_, rest, suffix, fun back => by rw [reads, if_pos some_]⟩
  · exact .inl fun back => by rw [reads, if_neg some_]

theorem blockWord_local : Readers.Local '}' blockWord :=
  (afterLiteral_local (by decide) "resource").orElse (afterLiteral_local (by decide) "module")

theorem terraformHeader_local (before : Char) : Readers.Local '}' (terraformHeader before) := by
  by_cases line : before = '\n'
  · subst line
    have brace (kind : String) (label name : List Char) : Readers.Local '}' fun cs =>
        (afterLiteral ['{'] (cs.dropWhile isSpace)).map (({ kind, label, name } : TerraformHeader), ·) :=
      (afterLiteral_local (by decide) _).dropWhile (by decide)
    have name (kind : String) (label : List Char) := spacedLabel_local.bind (brace kind label)
    have labels (kind : String) := spacedLabel_local.bind (name kind)
    exact (blockWord_local.bind labels).dropWhile (by decide)
  · intro front
    exact .inl fun back => terraformHeader_within line _

namespace TerraformBlock
variable (block : TerraformBlock)

/-- What the pattern reads of the block's header: nothing where it has one label, or one
with other characters. -/
def header : Option TerraformHeader :=
  match block.labels with
  | .resource type name =>
    if type.name.all isNameChar && name.name.all isNameChar then
      some { kind := "resource", label := type.name, name := name.name }
    else none
  | .module_ _ => none

theorem blockWord_word (rest : List Char) : blockWord (block.labels.word.toList ++ rest) = some (block.labels.word, rest) := by
  cases block.labels with
  | resource type name =>
    rw [blockWord, TerraformLabels.word, afterLiteral_append]
    rfl
  | module_ name =>
    have other : afterLiteral "resource".toList ("module".toList ++ rest) = none := rfl
    rw [blockWord, TerraformLabels.word, other, afterLiteral_append]
    rfl

theorem written_head?_ends (label : TerraformLabel) (rest : List Char) :
    ∀ c ∈ (label.written ++ rest).head?, isNameChar c = false ∧ isQuote c = false := by
  intro c first
  have space : c = ' ' ∨ c = '\t' := by
    rw [TerraformLabel.written, List.append_assoc] at first
    cases gap : label.gap with
    | nil => exact absurd gap label.spaced.1
    | cons d gap' =>
      rw [gap] at first
      obtain rfl : d = c := Option.some.inj first
      exact label.spaced.2 d (by rw [gap]; exact List.mem_cons_self ..)
  rcases space with rfl | rfl <;> decide

theorem gap_head?_ends {gap : List Char} (blank : Blank gap) (rest : List Char) :
    ∀ c ∈ (gap ++ '{' :: rest).head?, isNameChar c = false ∧ isQuote c = false := by
  intro c first
  cases gap with
  | nil =>
    cases first
    decide
  | cons d gap =>
    obtain rfl : d = c := Option.some.inj first
    rcases blank d (List.mem_cons_self ..) with rfl | rfl <;> decide

theorem opening_cons : ∃ c tail, block.opening = c :: tail ∧ isSpace c = false := by
  have word : ∃ c tail, block.labels.word.toList = c :: tail ∧ isSpace c = false := by
    cases block.labels with
    | resource type name => exact ⟨'r', "esource".toList, by rw [TerraformLabels.word]; decide, by decide⟩
    | module_ name => exact ⟨'m', "odule".toList, by rw [TerraformLabels.word]; decide, by decide⟩
  obtain ⟨c, tail, first, visible⟩ := word
  exact ⟨c, _, by rw [opening, first, List.cons_append], visible⟩

theorem dropWhile_opening {lead : List Char} (blank : ∀ c ∈ lead, isSpace c = true) (rest : List Char) :
    (lead ++ (block.opening ++ rest)).dropWhile isSpace = block.opening ++ rest := by
  obtain ⟨c, tail, first, visible⟩ := block.opening_cons
  rw [List.dropWhile_append_of_pos blank, first, List.cons_append]
  exact List.dropWhile_cons_of_neg (by simp [visible])

theorem terraformHeader_opening {lead : List Char} (blank : ∀ c ∈ lead, isSpace c = true) (rest : List Char) :
    terraformHeader '\n' (lead ++ (block.opening ++ '{' :: rest)) = block.header.map (·, rest) := by
  rw [terraformHeader_line, block.dropWhile_opening blank, opening, List.append_assoc, block.blockWord_word,
    Option.bind_some, List.append_assoc]
  have gap : (block.gap ++ '{' :: rest).dropWhile isSpace = '{' :: rest := by
    rw [List.dropWhile_append_of_pos (isSpace_of_blank block.blanks.2.1)]
    exact List.dropWhile_cons_of_neg (by decide)
  have brace : afterLiteral ['{'] ('{' :: rest) = some rest := afterLiteral_append ['{'] rest
  cases labels : block.labels with
  | module_ name =>
    have list : (TerraformLabels.module_ name).list.flatMap TerraformLabel.written = name.written := by
      simp [TerraformLabels.list]
    have none_ : block.header = none := by rw [header, labels]
    rw [list, none_, Option.map_none]
    by_cases named : ∀ c ∈ name.name, isNameChar c = true
    · rw [name.spacedLabel_written named (gap_head?_ends block.blanks.2.1 rest), Option.bind_some,
        spacedLabel_brace block.blanks.2.1, Option.bind_none]
    · rcases name.spacedLabel_unnamed named (block.gap ++ '{' :: rest) with fails | ⟨part, c, back, reads, visible, _⟩
      · rw [fails, Option.bind_none]
      · rw [reads, Option.bind_some, spacedLabel_visible visible, Option.bind_none]
  | resource type name =>
    have list : (TerraformLabels.resource type name).list.flatMap TerraformLabel.written = type.written ++ name.written := by
      simp [TerraformLabels.list]
    have header : block.header = if (∀ c ∈ type.name, isNameChar c = true) ∧ ∀ c ∈ name.name, isNameChar c = true then
        some { kind := "resource", label := type.name, name := name.name } else none := by
      rw [TerraformBlock.header, labels]
      simp only [Bool.and_eq_true, List.all_eq_true]
    rw [list, header, List.append_assoc]
    by_cases typed : ∀ c ∈ type.name, isNameChar c = true
    · rw [type.spacedLabel_written typed (written_head?_ends name _), Option.bind_some]
      by_cases named : ∀ c ∈ name.name, isNameChar c = true
      · rw [name.spacedLabel_written named (gap_head?_ends block.blanks.2.1 rest), Option.bind_some, gap, brace,
          if_pos ⟨typed, named⟩]
        rfl
      · rw [if_neg fun both => named both.2, Option.map_none]
        rcases name.spacedLabel_unnamed named (block.gap ++ '{' :: rest) with fails | ⟨part, c, back, reads, visible, other⟩
        · rw [fails, Option.bind_none]
        · have stays : (c :: back).dropWhile isSpace = c :: back := List.dropWhile_cons_of_neg (by simp [visible])
          have noBrace : afterLiteral ['{'] (c :: back) = none := by
            rw [afterLiteral, if_neg (by simpa [List.isPrefixOf] using Ne.symm other)]
          rw [reads, Option.bind_some, stays, noBrace, Option.map_none]
    · rw [if_neg fun both => typed both.1, Option.map_none]
      rcases type.spacedLabel_unnamed typed (name.written ++ (block.gap ++ '{' :: rest)) with fails | ⟨part, c, back, reads, visible, _⟩
      · rw [fails, Option.bind_none]
      · rw [reads, Option.bind_some, spacedLabel_visible visible, Option.bind_none]

theorem not_mem_opening : '\n' ∉ block.opening := by
  have blank {gap : List Char} (isBlank : Blank gap) : '\n' ∉ gap := by
    intro member
    rcases isBlank _ member with h | h <;> cases h
  have label (label : TerraformLabel) : '\n' ∉ label.written := by
    have name : '\n' ∉ label.name := by
      intro member
      have visible := (label.plain.2 _ member).1
      exact absurd visible (by decide)
    rw [TerraformLabel.written, List.mem_append]
    rintro (member | member)
    · exact blank label.spaced.2 member
    · cases quoted : label.quoted with
      | true => simp [quoted, name] at member
      | false => simp [quoted, name] at member
  have word : '\n' ∉ block.labels.word.toList := by
    cases block.labels with
    | resource type name =>
      show '\n' ∉ "resource".toList
      decide
    | module_ name =>
      show '\n' ∉ "module".toList
      decide
  rw [opening, List.mem_append, List.mem_append, List.mem_flatMap]
  rintro (member | ⟨one, _, member⟩ | member)
  · exact word member
  · exact label one member
  · exact blank block.blanks.2.1 member

theorem allMatches_header (rest : List Char) :
    Readers.allMatches terraformHeader '\n' 0 (block.lead ++ (block.opening ++ '{' :: rest)) =
      block.header.toList.map (·, rest) ++ Readers.allMatches terraformHeader '{' 0 rest := by
  cases header : block.header with
  | some own =>
    have found := block.terraformHeader_opening block.blanks.1 rest
    rw [header, Option.map_some, ← List.append_assoc] at found
    rw [← List.append_assoc, Readers.allMatches_found found]
    rfl
  | none =>
    show _ = Readers.allMatches terraformHeader '{' 0 rest
    suffices anywhere : ∀ (before : Char) (lead : List Char), (∀ c ∈ lead, isSpace c = true) →
        Readers.allMatches terraformHeader before 0 (lead ++ (block.opening ++ '{' :: rest)) =
          Readers.allMatches terraformHeader '{' 0 rest from anywhere _ _ block.blanks.1
    intro before lead blank
    have absent (before : Char) {lead : List Char} (blank : ∀ c ∈ lead, isSpace c = true) :
        terraformHeader before (lead ++ (block.opening ++ '{' :: rest)) = none := by
      by_cases line : before = '\n'
      · rw [line, block.terraformHeader_opening blank, header, Option.map_none]
      · exact terraformHeader_within line _
    induction lead generalizing before with
    | nil =>
      obtain ⟨c, tail, first, _⟩ := block.opening_cons
      have noLine := block.not_mem_opening
      have here := @absent before [] blank
      rw [List.nil_append, first, List.cons_append] at here ⊢
      rw [Readers.allMatches_none here]
      refine Readers.allMatches_quiet fun b member cs => terraformHeader_within ?_ cs
      rintro rfl
      exact noLine (by rw [first]; exact member)
    | cons c lead ih =>
      have here := absent before blank
      rw [List.cons_append] at here ⊢
      rw [Readers.allMatches_none here]
      exact ih c fun d member => blank d (List.mem_cons_of_mem _ member)

theorem allMatches_behind (text : List Char) :
    Readers.allMatches terraformHeader '{' 0 (block.behind text) =
      (Readers.allMatches terraformHeader '{' 0 (block.body.written ++ ['}'])).map
          (fun found => (found.1, found.2 ++ (block.trailing ++ '\n' :: text))) ++
        Readers.allMatches terraformHeader '\n' 0 text := by
  have later : Readers.allMatches terraformHeader '}' 0 (block.trailing ++ '\n' :: text) =
      Readers.allMatches terraformHeader '\n' 0 text := by
    refine Readers.allMatches_quiet fun b member cs => terraformHeader_within ?_ cs
    rintro rfl
    rcases List.mem_cons.mp member with h | member
    · cases h
    · rcases block.blanks.2.2 _ member with h | h <;> cases h
  rw [behind, Readers.allMatches_local terraformHeader_local terraformHeader_brace (Nat.zero_le _), later]

/-- No header begins on a line within the block. -/
def NoHeader : Prop := ∀ front back, block.body.written ++ ['}'] = front ++ '\n' :: back → terraformHeader '\n' back = none

theorem noHeader_iff :
    block.NoHeader ↔ Readers.allMatches terraformHeader '{' 0 (block.body.written ++ ['}']) = [] := by
  rw [Readers.allMatches_eq_nil_iff]
  constructor
  · intro noHeader front c back split
    rcases List.eq_nil_or_concat' front with rfl | ⟨front, d, rfl⟩
    · exact terraformHeader_within (by decide) _
    · rw [List.getLast?_append, List.getLast?_singleton, Option.some_or, Option.getD_some]
      by_cases line : d = '\n'
      · subst line
        exact noHeader front (c :: back) (by rw [split, List.append_assoc]; rfl)
      · exact terraformHeader_within line _
  · intro nowhere front back split
    cases back with
    | nil => rfl
    | cons c back =>
      have absent := nowhere (front ++ ['\n']) c back (by rw [split, List.append_assoc]; rfl)
      rwa [List.getLast?_append, List.getLast?_singleton, Option.some_or, Option.getD_some] at absent

/-- A resource block whose labels have characters of names only. -/
def Named : Prop :=
  ∃ type name, block.labels = .resource type name ∧ (∀ c ∈ type.name, isNameChar c = true) ∧ ∀ c ∈ name.name, isNameChar c = true

variable {block}

theorem header_isSome_iff : block.header.isSome = true ↔ block.Named := by
  rw [header, Named]
  cases block.labels with
  | module_ name => simp
  | resource type name => simp

end TerraformBlock

/-! ### Entries for blocks -/

theorem terraformHeader_named {before : Char} {cs rest : List Char} {header : TerraformHeader}
    (found : terraformHeader before cs = some (header, rest)) :
    (∀ c ∈ header.label, isNameChar c = true) ∧ ∀ c ∈ header.name, isNameChar c = true := by
  have label {cs : List Char} {read : List Char × List Char} (reads : spacedLabel cs = some read) :
      ∀ c ∈ read.1, isNameChar c = true := by
    rw [spacedLabel] at reads
    split at reads
    · cases reads
      exact fun c member => List.mem_takeWhile_imp member
    · cases reads
  by_cases line : before = '\n'
  · rw [line, terraformHeader_line] at found
    obtain ⟨word, _, found⟩ := Option.bind_eq_some_iff.mp found
    obtain ⟨first, firstRead, found⟩ := Option.bind_eq_some_iff.mp found
    obtain ⟨second, secondRead, found⟩ := Option.bind_eq_some_iff.mp found
    obtain ⟨_, _, same⟩ := Option.map_eq_some_iff.mp found
    cases same
    exact ⟨label firstRead, label secondRead⟩
  · rw [terraformHeader_within line] at found
    cases found

namespace DeploymentTopologyDetector
variable (detector : DeploymentTopologyDetector)

/-- The first engine that the pattern reads in the 2000 characters after a brace is the one
given, or it reads none where none is given. -/
def FirstEngine (rest : List Char) : Option (List Char) → Prop
  | some engine => ∃ place, Readers.MatchAt detector.engineAt none (rest.take 2000) place engine ∧
      ∀ earlier < place, ∀ other, ¬ Readers.MatchAt detector.engineAt none (rest.take 2000) earlier other
  | none => ∀ place other, ¬ Readers.MatchAt detector.engineAt none (rest.take 2000) place other

/-- What `_terraform_blocks` says of the text of blocks. -/
def terraformReads (blocks : List TerraformBlock) : List TerraformEntry :=
  (detector.terraformBlocks (String.ofList (terraformText blocks))).map TerraformEntry.ofRead

variable {detector}

theorem firstEngine_iff {rest : List Char} {own : Option (List Char)} :
    detector.FirstEngine rest own ↔ Readers.firstMatch detector.engineAt none (rest.take 2000) = own := by
  cases own with
  | some engine => exact Readers.firstMatch_eq_some_iff.symm
  | none => exact Readers.firstMatch_eq_none_iff.symm

theorem ofRead_terraformBlock (header : TerraformHeader) (rest : List Char) :
    TerraformEntry.ofRead (detector.terraformBlock header rest) =
      { kind := header.kind, labels := [String.ofList header.label, String.ofList header.name]
        engine := (Readers.firstMatch detector.engineAt none (rest.take 2000)).map String.ofList
        source := none } := by
  rw [terraformBlock, TerraformEntry.ofRead]
  cases Readers.firstMatch detector.engineAt none (rest.take 2000) <;> rfl

theorem terraformReads_eq (blocks : List TerraformBlock) : detector.terraformReads blocks =
    (Readers.allMatches terraformHeader '\n' 0 (terraformText blocks)).map fun found =>
      TerraformEntry.ofRead (detector.terraformBlock found.1 found.2) := by
  rw [terraformReads, terraformBlocks, String.toList_ofList, List.map_map]
  rfl

theorem map_ofList_injective : Function.Injective (Option.map String.ofList) :=
  Option.map_injective fun _ _ same => String.ofList_injective same

theorem ofRead_eq_entry_iff {block : TerraformBlock} {header : TerraformHeader} (own : block.header = some header)
    (text : List Char) :
    TerraformEntry.ofRead (detector.terraformBlock header (block.behind text)) = block.entry ↔
      detector.FirstEngine (block.behind text) (block.body.assigned "engine") ∧ block.body.assigned "source" = none := by
  obtain ⟨type, name, labels, typed, named⟩ := TerraformBlock.header_isSome_iff.mp (by rw [own]; rfl)
  rw [TerraformBlock.header, labels] at own
  simp only [List.all_eq_true.mpr typed, List.all_eq_true.mpr named, Bool.and_self, if_true] at own
  cases own
  rw [ofRead_terraformBlock, TerraformBlock.entry, labels, firstEngine_iff, TerraformEntry.mk.injEq,
    map_ofList_injective.eq_iff, eq_comm (a := none), Option.map_eq_none_iff]
  simp [TerraformLabels.word, TerraformLabels.list]

variable {blocks : List TerraformBlock}

theorem named_of_entry {block : TerraformBlock} (read : block.entry ∈ detector.terraformReads blocks)
    : block.Named := by
  rw [terraformReads_eq] at read
  obtain ⟨found, member, same⟩ := List.mem_map.mp read
  obtain ⟨before, place, _, here⟩ := Readers.exists_of_mem_allMatches member
  obtain ⟨header, rest⟩ := found
  obtain ⟨labelled, named⟩ := terraformHeader_named here
  rw [ofRead_terraformBlock] at same
  have labels := congrArg TerraformEntry.labels same
  rw [TerraformBlock.entry] at labels
  cases isOf : block.labels with
  | module_ name =>
    rw [isOf] at labels
    simp [TerraformLabels.list] at labels
  | resource type name =>
    rw [isOf] at labels
    simp only [TerraformLabels.list, List.map_cons, List.map_nil, List.cons.injEq, String.ofList_inj, and_true] at labels
    exact ⟨type, name, isOf, labels.1 ▸ labelled, labels.2 ▸ named⟩

theorem terraformReads_cons (block : TerraformBlock) (blocks : List TerraformBlock) :
    detector.terraformReads (block :: blocks) =
      block.header.toList.map (fun header =>
          TerraformEntry.ofRead (detector.terraformBlock header (block.behind (terraformText blocks)))) ++
        ((Readers.allMatches terraformHeader '{' 0 (block.body.written ++ ['}'])).map (fun found =>
            TerraformEntry.ofRead (detector.terraformBlock found.1
              (found.2 ++ (block.trailing ++ '\n' :: terraformText blocks)))) ++
          detector.terraformReads blocks) := by
  rw [terraformReads_eq, terraformReads_eq, terraformText, block.allMatches_header, block.allMatches_behind, List.map_append,
    List.map_append, List.map_map, List.map_map]
  rfl

theorem length_le_terraformReads (named : ∀ block ∈ blocks, block.Named) :
    blocks.length ≤ (detector.terraformReads blocks).length := by
  induction blocks with
  | nil => exact Nat.zero_le _
  | cons block blocks ih =>
    have rest := ih fun other member => named other (List.mem_cons_of_mem _ member)
    obtain ⟨header, own⟩ := Option.isSome_iff_exists.mp
      (TerraformBlock.header_isSome_iff.mpr (named block (List.mem_cons_self ..)))
    rw [terraformReads_cons, own]
    simp only [Option.toList_some, List.map_cons, List.map_nil, List.length_append, List.length_cons, List.length_nil]
    omega

/-- A text of blocks is read block by block exactly where no header begins within a block, no
source is assigned and each block is followed by its own engine. -/
theorem terraformReads_eq_entries_iff (named : ∀ block ∈ blocks, block.Named) :
    detector.terraformReads blocks = blocks.map TerraformBlock.entry ↔
      ∀ block rest, block :: rest <:+ blocks → block.NoHeader ∧ block.body.assigned "source" = none ∧
        detector.FirstEngine (block.behind (terraformText rest)) (block.body.assigned "engine") := by
  induction blocks with
  | nil => simp [terraformReads_eq, terraformText, Readers.allMatches]
  | cons block blocks ih =>
    have namedRest : ∀ other ∈ blocks, other.Named := fun other member => named other (List.mem_cons_of_mem _ member)
    obtain ⟨header, own⟩ := Option.isSome_iff_exists.mp
      (TerraformBlock.header_isSome_iff.mpr (named block (List.mem_cons_self ..)))
    have read := @ofRead_eq_entry_iff detector _ _ own (terraformText blocks)
    have suffixes (P : TerraformBlock → List TerraformBlock → Prop) :
        (∀ first rest, first :: rest <:+ block :: blocks → P first rest) ↔
          P block blocks ∧ ∀ first rest, first :: rest <:+ blocks → P first rest := by
      simp only [List.suffix_cons_iff, List.cons.injEq]
      constructor
      · exact fun all => ⟨all _ _ (.inl ⟨rfl, rfl⟩), fun first rest within => all _ _ (.inr within)⟩
      · rintro ⟨here, later⟩ first rest (⟨rfl, rfl⟩ | within)
        · exact here
        · exact later first rest within
    rw [suffixes, ← ih namedRest, terraformReads_cons, own, List.map_cons,
      TerraformBlock.noHeader_iff]
    generalize Readers.allMatches terraformHeader '{' 0 (block.body.written ++ ['}']) = inner
    show _ :: (_ ++ _) = _ ↔ _
    rw [List.cons.injEq, read]
    constructor
    · rintro ⟨⟨engine, source⟩, rest⟩
      -- there are as many entries as blocks, and so none from within this one
      have many := congrArg List.length rest
      have enough := @length_le_terraformReads detector _ namedRest
      simp only [List.length_append, List.length_map] at many
      obtain rfl : inner = [] := List.eq_nil_of_length_eq_zero (by omega)
      exact ⟨⟨rfl, source, engine⟩, rest⟩
    · rintro ⟨⟨rfl, source, engine⟩, rest⟩
      exact ⟨⟨engine, source⟩, rest⟩

/-! The resources do not depend on the order of the entries. -/

def recorded (entry : TerraformEntry) : Option (ResourceType × String) :=
  if entry.kind = "resource" then terraformResource (entry.labels.headD "") (entry.engine.getD "")
  else if entry.kind = "module" then moduleResource (entry.source.getD "")
  else none

def terraformKinds : List (ResourceType × String) :=
  [(.postgresql, "PostgreSQL"), (.redis, "Redis"), (.kafka, "Kafka"), (.s3, "S3/MinIO")]

theorem mem_terraformKinds {entry : TerraformEntry} {kind : ResourceType × String} (isRecorded : recorded entry = some kind) :
    kind ∈ terraformKinds := by
  have resource {type engine : String} (found : terraformResource type engine = some kind) : kind ∈ terraformKinds := by
    unfold terraformResource at found
    dsimp only at found
    split_ifs at found <;> cases found <;> simp [terraformKinds]
  have module_ {source : String} (found : moduleResource source = some kind) : kind ∈ terraformKinds := by
    unfold moduleResource at found
    dsimp only at found
    split_ifs at found <;> cases found <;> simp [terraformKinds]
  rw [recorded] at isRecorded
  split_ifs at isRecorded with isResource isModule
  · exact resource isRecorded
  · exact module_ isRecorded

theorem terraformKinds_named : ∀ kind ∈ terraformKinds, ∀ other ∈ terraformKinds, kind.2 = other.2 → kind = other := by
  decide

def terraformCandidate (file : DeploymentFile) (kind : ResourceType × String) : ResourceCandidate where
  name := kind.2
  resourceType := kind.1
  repositoryId := file.repositoryId
  revision := file.revision
  sourcePaths := [file.path]
  provenance := deploymentEvidence file.now file.revision file.path .medium

theorem terraform_eq (file : DeploymentFile) (content : String) (topology : DiscoveredTopology) :
    detector.terraform file content topology =
      (((detector.terraformBlocks content).map TerraformEntry.ofRead).map recorded).foldl (addFound file) topology := by
  rw [terraform, List.map_map, List.foldl_map]
  congr 1
  funext topology read
  obtain ⟨kind, label, body⟩ := read
  have text (key : String) : ((body.lookup key).map PyValue.text).getD "" = ((body.lookup key).getD (.str "")).text := by
    cases body.lookup key <;> rfl
  show _ = addFound file topology (recorded (TerraformEntry.ofRead (kind, label, body)))
  rw [recorded, TerraformEntry.ofRead]
  dsimp only
  rw [text, text]
  split_ifs <;> rfl

theorem mem_foldl_addFound {file : DeploymentFile} {found : List (Option (ResourceType × String))}
    {topology : DiscoveredTopology} {resource : ResourceCandidate} (kinds : ∀ kind, some kind ∈ found → kind ∈ terraformKinds) :
    resource ∈ (found.foldl (addFound file) topology).resources ↔ resource ∈ topology.resources ∨
      ∃ kind, some kind ∈ found ∧ resource = terraformCandidate file kind ∧ ∀ other ∈ topology.resources, other.name ≠ kind.2 := by
  induction found generalizing topology with
  | nil => simp
  | cons first found ih =>
    have later : ∀ kind, some kind ∈ found → kind ∈ terraformKinds := fun kind member => kinds kind (List.mem_cons_of_mem _ member)
    rw [List.foldl_cons, ih later]
    cases first with
    | none => simp [addFound]
    | some kind =>
      by_cases known : topology.resources.any (·.name = kind.2)
      · have same : addFound file topology (some kind) = topology := if_pos known
        obtain ⟨other, listed, isNamed⟩ := List.any_eq_true.mp known
        have taken : ¬ ∀ other ∈ topology.resources, other.name ≠ kind.2 :=
          fun free => free other listed (of_decide_eq_true isNamed)
        rw [same]
        refine or_congr_right (exists_congr fun one => ?_)
        rw [List.mem_cons, Option.some.injEq]
        constructor
        · exact fun ⟨member, isOf, free⟩ => ⟨.inr member, isOf, free⟩
        · rintro ⟨rfl | member, isOf, free⟩
          · exact absurd free taken
          · exact ⟨member, isOf, free⟩
      · have added : (addFound file topology (some kind)).resources = topology.resources ++ [terraformCandidate file kind] :=
          congrArg DiscoveredTopology.resources (if_neg known)
        have free : ∀ other ∈ topology.resources, other.name ≠ kind.2 :=
          fun other listed isNamed => known (List.any_eq_true.mpr ⟨other, listed, decide_eq_true isNamed⟩)
        rw [added, List.mem_append, List.mem_singleton, or_assoc]
        refine or_congr_right ?_
        constructor
        · rintro (rfl | ⟨one, member, isOf, freeOne⟩)
          · exact ⟨kind, List.mem_cons_self .., rfl, free⟩
          · exact ⟨one, List.mem_cons_of_mem _ member, isOf, fun other listed => freeOne other (List.mem_append_left _ listed)⟩
        · rintro ⟨one, member, isOf, freeOne⟩
          by_cases sameName : one.2 = kind.2
          · have same := terraformKinds_named one (kinds one member) kind (kinds kind (List.mem_cons_self ..)) sameName
            exact .inl (same ▸ isOf)
          · rcases List.mem_cons.mp member with same | member
            · exact absurd (congrArg Prod.snd (Option.some.inj same)) sameName
            · refine .inr ⟨one, member, isOf, fun other listed => ?_⟩
              rcases List.mem_append.mp listed with listed | listed
              · exact freeOne other listed
              · rw [List.mem_singleton.mp listed]
                exact Ne.symm sameName

theorem mem_terraform_of_perm {file : DeploymentFile} {content content' : String} {topology : DiscoveredTopology}
    (same : ((detector.terraformBlocks content).map TerraformEntry.ofRead).Perm
      ((detector.terraformBlocks content').map TerraformEntry.ofRead)) (resource : ResourceCandidate) :
    resource ∈ (detector.terraform file content topology).resources ↔
      resource ∈ (detector.terraform file content' topology).resources := by
  have kinds (entries : List TerraformEntry) : ∀ kind, some kind ∈ entries.map recorded → kind ∈ terraformKinds := by
    intro kind member
    obtain ⟨entry, _, isRecorded⟩ := List.mem_map.mp member
    exact mem_terraformKinds isRecorded
  have members (kind : ResourceType × String) := (same.map recorded).mem_iff (a := some kind)
  rw [terraform_eq, terraform_eq, mem_foldl_addFound (kinds _), mem_foldl_addFound (kinds _)]
  simp only [members]

variable (detector)

/-- The blocks of a text are read within their braces in every order, and so the same
resources are recorded. -/
structure ReadsBlocks (blocks : List TerraformBlock) : Prop where
  entries : ∀ order, order.Perm blocks → detector.terraformReads order = order.map TerraformBlock.entry
  resources : ∀ file topology order, order.Perm blocks → ∀ resource,
    resource ∈ (detector.terraform file (String.ofList (terraformText order)) topology).resources ↔
      resource ∈ (detector.terraform file (String.ofList (terraformText blocks)) topology).resources

/-- There are resource blocks only, with labels of name characters; no header begins
within one and none assigns a source; and in every order the first engine in the 2000 characters
after a brace is the one that the block assigns. -/
structure ReadAlone (blocks : List TerraformBlock) : Prop where
  named : ∀ block ∈ blocks, block.Named
  noHeader : ∀ block ∈ blocks, block.NoHeader
  noSource : ∀ block ∈ blocks, block.body.assigned "source" = none
  ownEngine : ∀ order, order.Perm blocks → ∀ block rest, block :: rest <:+ order →
    detector.FirstEngine (block.behind (terraformText rest)) (block.body.assigned "engine")

/-- Blocks are read within their braces exactly where each can be read alone. -/
theorem readsBlocks_iff (blocks : List TerraformBlock) : detector.ReadsBlocks blocks ↔ detector.ReadAlone blocks := by
  constructor
  · intro reads
    have named : ∀ block ∈ blocks, block.Named := by
      intro block member
      have read := @List.mem_map_of_mem _ _ _ _ TerraformBlock.entry member
      rw [← reads.entries blocks (List.Perm.refl _)] at read
      exact named_of_entry read
    have apart (order : List TerraformBlock) (perm : order.Perm blocks) :=
      (terraformReads_eq_entries_iff fun block member => named block (perm.mem_iff.mp member)).mp (reads.entries order perm)
    have own (block : TerraformBlock) (member : block ∈ blocks) : block.NoHeader ∧ block.body.assigned "source" = none := by
      obtain ⟨front, rest, rfl⟩ := List.append_of_mem member
      obtain ⟨noHeader, noSource, _⟩ := apart _ (List.Perm.refl _) block rest (List.suffix_append ..)
      exact ⟨noHeader, noSource⟩
    exact ⟨named, fun block member => (own block member).1, fun block member => (own block member).2,
      fun order perm block rest suffix => (apart order perm block rest suffix).2.2⟩
  · intro alone
    have entries (order : List TerraformBlock) (perm : order.Perm blocks) :
        detector.terraformReads order = order.map TerraformBlock.entry := by
      rw [terraformReads_eq_entries_iff fun block member => alone.named block (perm.mem_iff.mp member)]
      intro block rest suffix
      have member : block ∈ blocks := perm.mem_iff.mp (suffix.subset (List.mem_cons_self ..))
      exact ⟨alone.noHeader block member, alone.noSource block member, alone.ownEngine order perm block rest suffix⟩
    refine ⟨entries, fun file topology order perm resource => mem_terraform_of_perm ?_ resource⟩
    show (detector.terraformReads order).Perm (detector.terraformReads blocks)
    rw [entries order perm, entries blocks (List.Perm.refl _)]
    exact perm.map _

def labelOf (name : String)
    (plain : name.toList ≠ [] ∧ (name.toList.all fun c => !isSpace c && !isQuote c && c ≠ '{' && c ≠ '}') = true) :
    TerraformLabel where
  gap := [' ']
  name := name.toList
  spaced := ⟨by decide, by decide⟩
  plain := by simpa [and_assoc] using plain

/-- A machine without an engine, and a database with one. -/
def machine : TerraformBlock where
  labels := .resource (labelOf "aws_instance" (by decide +kernel)) (labelOf "web" (by decide +kernel))
  body := .space '\n' .done
  blanks := ⟨List.forall_mem_nil _, by decide, by decide⟩
  wellFormed := ⟨rfl, trivial⟩

def database : TerraformBlock where
  labels := .resource (labelOf "aws_db_instance" (by decide +kernel)) (labelOf "main" (by decide +kernel))
  body := .space '\n' (.assignment "engine".toList [' '] [' '] (.text "postgres".toList) (.space '\n' .done))
  blanks := ⟨List.forall_mem_nil _, by decide, by decide⟩
  wellFormed := ⟨rfl, ⟨by decide, List.all_eq_true.mp rfl⟩, by decide, by decide, by simp [TerraformValue.WellFormed],
    .inl rfl, rfl, trivial⟩

/-- The machine is read with the engine of the database. -/
theorem engine_of_next_block :
    ¬ ∀ (detector : DeploymentTopologyDetector) (blocks : List TerraformBlock), detector.ReadsBlocks blocks := by
  intro reads
  have entries := (reads { safeLoad := fun _ => none, isWord := fun c => c.isAlphanum || c = '_' } [machine, database]).entries
    [machine, database] (List.Perm.refl _)
  exact absurd entries (by decide +kernel)

end DeploymentTopologyDetector

end Brain
