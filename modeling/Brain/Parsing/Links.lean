import Brain.Parsing.Stored

namespace Brain

/-! ### Formatting marks -/

variable {mark : Char} {cs after : List Char}

theorem splitMarks_some {before : List Char} (found : splitMarks mark cs = some (before, after)) :
    cs = before ++ mark :: mark :: after := by
  induction cs generalizing before with
  | nil => cases found
  | cons c rest ih =>
    unfold splitMarks at found
    split at found
    · rename_i starts
      obtain ⟨more, isText⟩ := List.isPrefixOf_iff_prefix.mp starts
      obtain ⟨isFirst, isRest⟩ := List.cons.inj isText
      obtain ⟨isBefore, isAfter⟩ := Prod.mk.inj (Option.some.inj found)
      have isMore : more = after := by
        rw [← isAfter, ← isRest]
        rfl
      rw [← isBefore, ← isMore, ← isText]
      rfl
    · obtain ⟨⟨before', after'⟩, inRest, same⟩ := Option.map_eq_some_iff.mp found
      obtain ⟨rfl, rfl⟩ := Prod.mk.inj same
      rw [ih inRest, List.cons_append]

theorem styleMatch_some {inside : List Char} (found : styleMatch mark cs = some (inside, after)) :
    cs = mark :: mark :: (inside ++ mark :: mark :: after) ∧ inside ≠ [] := by
  unfold styleMatch at found
  split at found
  · rename_i a b c rest
    split at found
    · rename_i marks
      rw [Bool.and_eq_true, decide_eq_true_eq, decide_eq_true_eq] at marks
      obtain ⟨rfl, rfl⟩ := marks
      obtain ⟨⟨before', after'⟩, inRest, same⟩ := Option.map_eq_some_iff.mp found
      obtain ⟨rfl, rfl⟩ := Prod.mk.inj same
      rw [splitMarks_some inRest]
      exact ⟨rfl, List.cons_ne_nil _ _⟩
    · cases found
  · cases found

theorem subStyle_skip (mark : Char) (skip : Nat) (cs : List Char) : subStyle mark skip cs = subStyle mark 0 (cs.drop skip) := by
  induction cs generalizing skip with
  | nil => cases skip <;> rfl
  | cons c rest ih =>
    cases skip with
    | zero => rfl
    | succ skip => exact ih skip

theorem subStyle_styled {inside : List Char} (found : styleMatch mark cs = some (inside, after)) :
    subStyle mark 0 cs = inside ++ subStyle mark 0 after := by
  obtain ⟨isText, _⟩ := styleMatch_some found
  cases cs with
  | nil => cases isText
  | cons c rest =>
    obtain ⟨rfl, isRest⟩ := List.cons.inj isText
    have taken : rest.drop (rest.length - after.length) = after := by
      have split : rest = (c :: (inside ++ [c, c])) ++ after := by simpa using isRest
      rw [split, List.length_append, Nat.add_sub_cancel, List.drop_left]
    rw [subStyle, found]
    dsimp only
    rw [subStyle_skip, taken]

theorem subStyle_plain {c : Char} {rest : List Char} (plain : styleMatch mark (c :: rest) = none) :
    subStyle mark 0 (c :: rest) = c :: subStyle mark 0 rest := by
  rw [subStyle, plain]

theorem subStyle_induction {P : List Char → List Char → Prop} (nil : P [] [])
    (plain : ∀ c rest, P rest (subStyle mark 0 rest) → P (c :: rest) (c :: subStyle mark 0 rest))
    (styled : ∀ inside after, inside ≠ [] → P after (subStyle mark 0 after) →
      P (mark :: mark :: (inside ++ mark :: mark :: after)) (inside ++ subStyle mark 0 after)) (cs : List Char) :
    P cs (subStyle mark 0 cs) := by
  induction hlen : cs.length using Nat.strongRecOn generalizing cs with
  | ind n ih =>
    cases cs with
    | nil => exact nil
    | cons c rest =>
      cases found : styleMatch mark (c :: rest) with
      | none =>
        rw [subStyle_plain found]
        exact plain c rest (ih rest.length (by rw [← hlen, List.length_cons]; omega) rest rfl)
      | some matched =>
        obtain ⟨inside, after⟩ := matched
        obtain ⟨isText, some_⟩ := styleMatch_some found
        rw [subStyle_styled found, isText]
        refine styled inside after some_ (ih after.length ?_ after rfl)
        rw [← hlen, isText]
        simp only [List.length_cons, List.length_append]
        omega

/-- A text with no two marks in a row, and with none at its ends. -/
structure Unmarked (mark : Char) (label : List Char) : Prop where
  doubled : ¬ [mark, mark] <:+: label
  first : label.head? ≠ some mark
  last : label.getLast? ≠ some mark

theorem prefix_subStyle (cs : List Char) : ∀ label : List Char, ¬ [mark, mark] <:+: label →
    label.getLast? ≠ some mark → label <+: cs → label <+: subStyle mark 0 cs := by
  refine @subStyle_induction mark (fun cs out => ∀ label : List Char, ¬ [mark, mark] <:+: label →
    label.getLast? ≠ some mark → label <+: cs → label <+: out) ?_ ?_ ?_ cs
  · exact fun label _ _ starts => starts
  · intro c rest ih label doubled last starts
    cases label with
    | nil => exact List.nil_prefix
    | cons d label =>
      obtain ⟨rfl, onward⟩ := List.cons_prefix_cons.mp starts
      refine List.cons_prefix_cons.mpr ⟨rfl, ih label (fun within => doubled (List.infix_cons within)) ?_ onward⟩
      intro isLast
      exact last (by rw [List.getLast?_cons, isLast]; rfl)
  · intro inside after _ _ label doubled last starts
    cases label with
    | nil => exact List.nil_prefix
    | cons d label =>
      obtain ⟨rfl, starts⟩ := List.cons_prefix_cons.mp starts
      cases label with
      | nil => exact absurd rfl last
      | cons e label =>
        obtain ⟨rfl, _⟩ := List.cons_prefix_cons.mp starts
        exact absurd ⟨[], label, rfl⟩ doubled

theorem infix_subStyle {label : List Char} (some : label ≠ []) (unmarked : Unmarked mark label) (cs : List Char) :
    label <:+: cs → label <:+: subStyle mark 0 cs := by
  -- the marks that are stripped lie before or after it
  have beyond : ∀ rest, label <:+: mark :: mark :: rest → label <:+: rest := by
    have step : ∀ rest, label <:+: mark :: rest → label <:+: rest := by
      intro rest within
      refine (List.infix_cons_iff.mp within).resolve_left fun starts => ?_
      obtain ⟨d, label, rfl⟩ := List.exists_cons_of_ne_nil some
      exact unmarked.first (congrArg Option.some (List.cons_prefix_cons.mp starts).1)
    exact fun rest within => step rest (step (mark :: rest) within)
  refine @subStyle_induction mark (fun cs out => label <:+: cs → label <:+: out) ?_ ?_ ?_ cs
  · exact id
  · intro c rest ih within
    rcases List.infix_cons_iff.mp within with starts | later
    · obtain ⟨d, label, rfl⟩ := List.exists_cons_of_ne_nil some
      obtain ⟨rfl, onward⟩ := List.cons_prefix_cons.mp starts
      have kept := prefix_subStyle rest label (fun inside => unmarked.doubled (List.infix_cons inside)) (fun isLast =>
        unmarked.last (by rw [List.getLast?_cons, isLast]; rfl)) onward
      exact (List.cons_prefix_cons.mpr ⟨rfl, kept⟩).isInfix
    · exact List.infix_cons (ih later)
  · intro inside after _ ih within
    rcases List.infix_append_iff_ne_nil.mp (beyond _ within) with early | late | across
    · exact List.infix_append_of_infix_left early
    · exact List.infix_append_of_infix_right (ih (beyond after late))
    · obtain ⟨first, second, _, someSecond, rfl, _, starts⟩ := across
      obtain ⟨d, second, rfl⟩ := List.exists_cons_of_ne_nil someSecond
      obtain ⟨rfl, starts⟩ := List.cons_prefix_cons.mp starts
      cases second with
      | nil => exact absurd (by simp) unmarked.last
      | cons e second =>
        obtain ⟨rfl, _⟩ := List.cons_prefix_cons.mp starts
        exact absurd ⟨first, second, by simp⟩ unmarked.doubled

variable {p : Char → Bool}

theorem filter_subStyle (hidden : p mark = false) (cs : List Char) : (subStyle mark 0 cs).filter p = cs.filter p := by
  refine @subStyle_induction mark (fun cs out => out.filter p = cs.filter p) rfl ?_ ?_ cs
  · intro c rest ih
    rw [List.filter_cons, ih, ← List.filter_cons]
  · intro inside after _ ih
    simp [List.filter_cons_of_neg, hidden, ih]

/-- The marks of `_INLINE_STYLES`. -/
def styleMarks : List Char := ['*', '/', '_', '#', '~']

/-- A text without its formatting marks. -/
def unformatted (cs : List Char) : List Char := styleMarks.foldl (fun cs mark => subStyle mark 0 cs) cs

theorem stripInline_eq (text : String) :
    stripInline text = (strip (String.ofList (unformatted (subLinks 0 text.toList).1)), (subLinks 0 text.toList).2) := rfl

theorem infix_unformatted {label : List Char} (some : label ≠ []) (unmarked : ∀ mark ∈ styleMarks, Unmarked mark label)
    (within : label <:+: cs) : label <:+: unformatted cs := by
  unfold unformatted
  generalize styleMarks = marks at unmarked
  induction marks generalizing cs with
  | nil => exact within
  | cons mark marks ih =>
    have kept := infix_subStyle some (unmarked mark (List.mem_cons_self ..)) cs within
    exact ih kept fun other listed => unmarked other (List.mem_cons_of_mem _ listed)

theorem filter_unformatted (hidden : ∀ mark ∈ styleMarks, p mark = false) (cs : List Char) :
    (unformatted cs).filter p = cs.filter p := by
  unfold unformatted
  generalize styleMarks = marks at hidden
  induction marks generalizing cs with
  | nil => rfl
  | cons mark marks ih =>
    rw [List.foldl_cons, ih _ fun other listed => hidden other (List.mem_cons_of_mem _ listed)]
    exact filter_subStyle (hidden mark (List.mem_cons_self ..)) cs

/-! ### Links -/

/-- A link of one of the documented forms: `[[page]]`, `[[label|page]]` and `[[label>>page]]`. -/
inductive XWikiLink
  | bare (page : List Char)
  | piped (label page : List Char)
  | arrowed (label page : List Char)

namespace XWikiLink

def target : XWikiLink → List Char
  | bare page => page
  | piped _ page => page
  | arrowed _ page => page

def label : XWikiLink → Option (List Char)
  | bare _ => none
  | piped label _ => some label
  | arrowed label _ => some label

def markup : XWikiLink → List Char
  | bare page => '[' :: '[' :: (page ++ [']', ']'])
  | piped label page => '[' :: '[' :: (label ++ '|' :: (page ++ [']', ']']))
  | arrowed label page => '[' :: '[' :: (label ++ '>' :: '>' :: (page ++ [']', ']']))

def shown (link : XWikiLink) : List Char := link.label.getD link.target

/-- No bracket, bar or arrow. -/
def isLinkText (c : Char) : Bool := c ≠ '[' && c ≠ ']' && c ≠ '|' && c ≠ '>'

/-- A page or a label: of such characters, and not blank. -/
def IsPart (part : List Char) : Prop := (∀ c ∈ part, isLinkText c = true) ∧ strip (String.ofList part) ≠ ""

def Written (link : XWikiLink) : Prop := IsPart link.target ∧ ∀ label ∈ link.label, IsPart label

/-- What the parser takes for the page of a link. -/
def taken (link : XWikiLink) : Option String := link.label.map fun label => strip (String.ofList label)

/-- What the parser puts in the place of a link. -/
def replaced (link : XWikiLink) : List Char :=
  link.label.elim link.markup fun _ => (strip (String.ofList link.target)).toList

end XWikiLink

theorem afterPrefix_append (start : String) (cs : List Char) : afterPrefix start (start.toList ++ cs) = some cs := by
  rw [afterPrefix, if_pos (by simp), ← String.length_toList, List.drop_left]

theorem subLinks_skip (skip : Nat) (cs : List Char) : subLinks skip cs = subLinks 0 (cs.drop skip) := by
  induction cs generalizing skip with
  | nil => cases skip <;> rfl
  | cons c rest ih =>
    cases skip with
    | zero => rfl
    | succ skip => exact ih skip

theorem linkMatch_none {c : Char} {rest : List Char} (other : c = '[' → rest.head? ≠ some '[') :
    linkMatch (c :: rest) = none := by
  have refused : afterPrefix "[[" (c :: rest) = none := by
    refine if_neg fun starts => ?_
    obtain ⟨more, isText⟩ := List.isPrefixOf_iff_prefix.mp starts
    obtain ⟨rfl, rfl⟩ := List.cons.inj isText
    exact other rfl rfl
  rw [linkMatch, refused]
  rfl

theorem subLinks_plain {plain rest : List Char} (single : ¬ ['[', '['] <:+: plain)
    (apart : plain.getLast? = some '[' → rest.head? ≠ some '[') :
    subLinks 0 (plain ++ rest) = (plain ++ (subLinks 0 rest).1, (subLinks 0 rest).2) := by
  induction plain with
  | nil => rfl
  | cons c plain ih =>
    have none : linkMatch (c :: (plain ++ rest)) = none := by
      apply linkMatch_none
      intro isBracket
      cases plain with
      | nil => exact apart (by rw [isBracket]; rfl)
      | cons d plain =>
        intro again
        obtain rfl : d = '[' := Option.some.inj again
        exact single ⟨[], plain, by rw [isBracket]; rfl⟩
    have onward := ih (fun within => single (List.infix_cons within)) (fun isLast =>
      apart (by rw [List.getLast?_cons, isLast]; rfl))
    rw [List.cons_append, subLinks, none]
    dsimp only
    rw [onward, List.cons_append]

theorem subLinks_match {page : List Char} {label : Option (List Char)} (found : linkMatch cs = some (page, label, after))
    (ends : after <:+ cs.drop 1) :
    subLinks 0 cs = ((strip ((label.map String.ofList).getD (strip (String.ofList page)))).toList ++ (subLinks 0 after).1,
      strip (String.ofList page) :: (subLinks 0 after).2) := by
  cases cs with
  | nil => cases found
  | cons c rest =>
    obtain ⟨link, split⟩ := ends
    have isRest : rest = link ++ after := split.symm
    have dropped : rest.drop (rest.length - after.length) = after := by
      rw [isRest, List.length_append, Nat.add_sub_cancel, List.drop_left]
    rw [subLinks, found]
    dsimp only
    rw [subLinks_skip, dropped]

namespace XWikiLink
variable {part : List Char}

theorem IsPart.nonempty (isPart : IsPart part) : part ≠ [] := by
  rintro rfl
  exact isPart.2 rfl

theorem IsPart.single (isPart : IsPart part) : '[' ∉ part := fun listed => by
  have free := isPart.1 '[' listed
  exact absurd free (by decide)

theorem IsPart.takeWhile (isPart : IsPart part) {c : Char} {rest : List Char} (stops : c = ']' ∨ c = '|' ∨ c = '>') :
    (part ++ c :: rest).takeWhile (fun c => c ≠ ']' && c ≠ '|' && c ≠ '>') = part := by
  rw [List.takeWhile_append_of_pos, List.takeWhile_cons_of_neg, List.append_nil]
  · rcases stops with rfl | rfl | rfl <;> decide
  · intro d listed
    have free := isPart.1 d listed
    simp only [isLinkText, Bool.and_eq_true] at free ⊢
    exact ⟨⟨free.1.1.2, free.1.2⟩, free.2⟩

theorem IsPart.takeWhile_close (isPart : IsPart part) (rest : List Char) :
    (part ++ ']' :: rest).takeWhile (fun c => c ≠ ']') = part := by
  rw [List.takeWhile_append_of_pos, List.takeWhile_cons_of_neg (by simp), List.append_nil]
  intro d listed
  have free := isPart.1 d listed
  simp only [isLinkText, Bool.and_eq_true] at free
  exact free.1.1.2

theorem linkMatch_separated {label page separator after : List Char} (isLabel : IsPart label) (isPage : IsPart page)
    (separates : separator = ['|'] ∨ separator = ['>', '>']) :
    linkMatch ('[' :: '[' :: (label ++ (separator ++ (page ++ ']' :: ']' :: after)))) = some (label, some page, after) := by
  have inside : afterPrefix "[[" ('[' :: '[' :: (label ++ (separator ++ (page ++ ']' :: ']' :: after)))) =
      some (label ++ (separator ++ (page ++ ']' :: ']' :: after))) := afterPrefix_append "[[" _
  have taken : (label ++ (separator ++ (page ++ ']' :: ']' :: after))).takeWhile
      (fun c => c ≠ ']' && c ≠ '|' && c ≠ '>') = label := by
    rcases separates with rfl | rfl
    · exact isLabel.takeWhile (Or.inr (Or.inl rfl))
    · exact isLabel.takeWhile (Or.inr (Or.inr rfl))
  have separated : (afterPrefix "|" (separator ++ (page ++ ']' :: ']' :: after))).or
      (afterPrefix ">>" (separator ++ (page ++ ']' :: ']' :: after))) = some (page ++ ']' :: ']' :: after) := by
    rcases separates with rfl | rfl
    · rw [show afterPrefix "|" (['|'] ++ (page ++ ']' :: ']' :: after)) = _ from afterPrefix_append "|" _]
      rfl
    · rw [show afterPrefix ">>" (['>', '>'] ++ (page ++ ']' :: ']' :: after)) = _ from afterPrefix_append ">>" _]
      rfl
  have closed : afterPrefix "]]" (']' :: ']' :: after) = some after := afterPrefix_append "]]" after
  have notEmpty : ∀ {text : List Char}, IsPart text → text.isEmpty = false := by
    intro text isText
    cases text with
    | nil => exact absurd rfl isText.nonempty
    | cons c text => rfl
  rw [linkMatch, inside, Option.bind_some]
  dsimp only
  rw [taken, notEmpty isLabel, List.drop_left, separated]
  dsimp only [Option.bind_some]
  rw [isPage.takeWhile_close, List.drop_left, closed, notEmpty isPage]
  rfl

theorem linkMatch_bare {page after : List Char} (isPage : IsPart page) :
    linkMatch ('[' :: '[' :: (page ++ ']' :: ']' :: after)) = none := by
  have inside : afterPrefix "[[" ('[' :: '[' :: (page ++ ']' :: ']' :: after)) = some (page ++ ']' :: ']' :: after) :=
    afterPrefix_append "[[" _
  have taken := @IsPart.takeWhile page isPage ']' (']' :: after) (Or.inl rfl)
  have unseparated : (afterPrefix "|" (']' :: ']' :: after)).or (afterPrefix ">>" (']' :: ']' :: after)) = none := rfl
  rw [linkMatch, inside, Option.bind_some]
  dsimp only
  rw [taken, List.drop_left, unseparated]
  split
  · rfl
  · rfl

theorem subLinks_separated {label page separator after : List Char} (isLabel : IsPart label) (isPage : IsPart page)
    (separates : separator = ['|'] ∨ separator = ['>', '>']) :
    subLinks 0 ('[' :: '[' :: (label ++ (separator ++ (page ++ ']' :: ']' :: after)))) =
      ((strip (String.ofList page)).toList ++ (subLinks 0 after).1, strip (String.ofList label) :: (subLinks 0 after).2) := by
  have ends : after <:+ ('[' :: '[' :: (label ++ (separator ++ (page ++ ']' :: ']' :: after)))).drop 1 :=
    ⟨'[' :: (label ++ (separator ++ (page ++ [']', ']']))), by simp⟩
  have replaced := subLinks_match (linkMatch_separated isLabel isPage separates) ends
  rwa [Option.map_some, Option.getD_some] at replaced

theorem subLinks_markup {link : XWikiLink} (written : link.Written) (after : List Char) :
    subLinks 0 (link.markup ++ after) = (link.replaced ++ (subLinks 0 after).1, link.taken.toList ++ (subLinks 0 after).2) := by
  cases link with
  | bare page =>
    have isPage : IsPart page := written.1
    have none : linkMatch ('[' :: '[' :: (page ++ ']' :: ']' :: after)) = none := linkMatch_bare isPage
    have single : ¬ ['[', '['] <:+: '[' :: (page ++ [']', ']']) := by
      intro within
      rcases List.infix_cons_iff.mp within with starts | later
      · have second := (List.cons_prefix_cons.mp starts).2
        cases page with
        | nil => exact isPage.nonempty rfl
        | cons c page =>
          obtain ⟨rfl, _⟩ := List.cons_prefix_cons.mp second
          exact isPage.single (List.mem_cons_self ..)
      · have listed : '[' ∈ page ++ [']', ']'] := later.subset (List.mem_cons_self ..)
        rcases List.mem_append.mp listed with inPage | closing
        · exact isPage.single inPage
        · exact absurd closing (by decide)
    have closes : ('[' :: (page ++ [']', ']'])).getLast? = some ']' := by
      rw [show '[' :: (page ++ [']', ']']) = ('[' :: page ++ [']']) ++ [']'] by simp, List.getLast?_concat]
    have rest := @subLinks_plain ('[' :: (page ++ [']', ']'])) after single fun opens => by
      rw [closes] at opens
      cases opens
    have isText : (XWikiLink.bare page).markup ++ after = '[' :: '[' :: (page ++ ']' :: ']' :: after) := by simp [markup]
    have isRest : '[' :: (page ++ [']', ']']) ++ after = '[' :: (page ++ ']' :: ']' :: after) := by simp
    rw [isText, subLinks, none]
    dsimp only
    rw [← isRest, rest]
    rfl
  | piped label page =>
    have isText : (XWikiLink.piped label page).markup ++ after =
        '[' :: '[' :: (label ++ (['|'] ++ (page ++ ']' :: ']' :: after))) := by simp [markup]
    rw [isText]
    exact subLinks_separated (written.2 label rfl) written.1 (Or.inl rfl)
  | arrowed label page =>
    have isText : (XWikiLink.arrowed label page).markup ++ after =
        '[' :: '[' :: (label ++ (['>', '>'] ++ (page ++ ']' :: ']' :: after))) := by simp [markup]
    rw [isText]
    exact subLinks_separated (written.2 label rfl) written.1 (Or.inr rfl)

end XWikiLink

/-! ### Lines with links -/

structure LinkedText where
  pairs : List (List Char × XWikiLink)
  last : List Char

def isBracket (c : Char) : Bool := c = '[' || c = ']'

theorem isBracket_of_isSpace {c : Char} (blank : isSpace c = true) : isBracket c = false := by
  by_contra bracket
  simp only [isBracket, Bool.not_eq_false, Bool.or_eq_true, decide_eq_true_eq] at bracket
  rcases bracket with rfl | rfl
  · exact absurd blank (by decide)
  · exact absurd blank (by decide)

namespace LinkedText

section Parts
variable (line : LinkedText)

def text : List Char := line.pairs.flatMap (fun pair => pair.1 ++ pair.2.markup) ++ line.last

def links : List XWikiLink := line.pairs.map Prod.snd

def outside : List Char := line.pairs.flatMap Prod.fst ++ line.last

/-- The text where each link is replaced as the parser does it. -/
def replaced : List Char := line.pairs.flatMap (fun pair => pair.1 ++ pair.2.replaced) ++ line.last

/-- The text where each link is replaced by what a reader sees of it. -/
def shown : List Char :=
  line.pairs.flatMap (fun pair => pair.1 ++ (strip (String.ofList pair.2.shown)).toList) ++ line.last

/-- The links have a documented form, and what stands between them opens none. -/
structure Written : Prop where
  links : ∀ link ∈ line.links, link.Written
  plain : ∀ pair ∈ line.pairs, ¬ ['[', '['] <:+: pair.1 ∧ pair.1.getLast? ≠ some '['
  last : ¬ ['[', '['] <:+: line.last

end Parts

variable {line : LinkedText} {pair : List Char × XWikiLink} {pairs : List (List Char × XWikiLink)} {last : List Char}

theorem Written.tail (written : (LinkedText.mk (pair :: pairs) last).Written) : (LinkedText.mk pairs last).Written :=
  ⟨fun link listed => written.links link (List.mem_cons_of_mem _ listed),
    fun other listed => written.plain other (List.mem_cons_of_mem _ listed), written.last⟩

theorem text_cons : (LinkedText.mk (pair :: pairs) last).text = pair.1 ++ (pair.2.markup ++ (LinkedText.mk pairs last).text) := by
  simp [text]

theorem replaced_cons : (LinkedText.mk (pair :: pairs) last).replaced =
    pair.1 ++ (pair.2.replaced ++ (LinkedText.mk pairs last).replaced) := by
  simp [replaced]

theorem subLinks_text (written : line.Written) :
    subLinks 0 line.text = (line.replaced, line.links.filterMap XWikiLink.taken) := by
  obtain ⟨pairs, last⟩ := line
  induction pairs with
  | nil =>
    have plain := @subLinks_plain last [] written.last fun _ absurd_ => by cases absurd_
    rw [List.append_nil] at plain
    show subLinks 0 last = (last, [])
    rw [plain, subLinks, List.append_nil]
  | cons pair pairs ih =>
    obtain ⟨single, apart⟩ := written.plain pair (List.mem_cons_self ..)
    rw [text_cons, subLinks_plain single fun opens => absurd opens apart,
      XWikiLink.subLinks_markup (written.links pair.2 (List.mem_cons_self ..)), ih written.tail, replaced_cons]
    cases taken : pair.2.taken with
    | none => simp [links, taken]
    | some page => simp [links, taken]

theorem filter_replaced (written : line.Written) (separated : ∀ link ∈ line.links, link.label.isSome) :
    line.replaced.filter isBracket = line.outside.filter isBracket := by
  obtain ⟨pairs, last⟩ := line
  induction pairs with
  | nil => rfl
  | cons pair pairs ih =>
    have onward := ih written.tail fun link listed => separated link (List.mem_cons_of_mem _ listed)
    obtain ⟨label, isLabel⟩ := Option.isSome_iff_exists.mp (separated pair.2 (List.mem_cons_self ..))
    have isPage := (written.links pair.2 (List.mem_cons_self ..)).1
    have free : pair.2.replaced.filter isBracket = [] := by
      rw [XWikiLink.replaced, isLabel, Option.elim_some, filter_strip fun c => isBracket_of_isSpace, List.filter_eq_nil_iff]
      intro c listed
      have linkText := isPage.1 c listed
      simp only [XWikiLink.isLinkText, Bool.and_eq_true, decide_eq_true_eq] at linkText
      simp [isBracket, linkText.1.1.1, linkText.1.1.2]
    rw [replaced_cons, List.filter_append, List.filter_append, free, onward]
    simp [outside]

theorem shown_inside {link : XWikiLink} (listed : link ∈ line.links) (isLabel : link.label.isSome) :
    (strip (String.ofList link.target)).toList <:+: line.replaced := by
  obtain ⟨pair, inPairs, rfl⟩ := List.mem_map.mp listed
  obtain ⟨label, isLabel⟩ := Option.isSome_iff_exists.mp isLabel
  obtain ⟨before, after, split⟩ := List.append_of_mem inPairs
  have isReplaced : pair.2.replaced = (strip (String.ofList pair.2.target)).toList := by
    rw [XWikiLink.replaced, isLabel, Option.elim_some]
  refine ⟨before.flatMap (fun pair => pair.1 ++ pair.2.replaced) ++ pair.1,
    after.flatMap (fun pair => pair.1 ++ pair.2.replaced) ++ line.last, ?_⟩
  rw [replaced, split, List.flatMap_append, List.flatMap_cons, isReplaced]
  simp only [List.append_assoc]

end LinkedText

/-! ### Titles -/

theorem prefix_of_append {stop : Char} (other : stop ≠ mark) {n : Nat} {before : List Char}
    (starts : List.replicate n mark <+: before ++ stop :: after) : List.replicate n mark <+: before := by
  induction before generalizing n with
  | nil =>
    cases n with
    | zero => exact List.nil_prefix
    | succ n => exact absurd (List.cons_prefix_cons.mp starts).1.symm other
  | cons c before ih =>
    cases n with
    | zero => exact List.nil_prefix
    | succ n =>
      obtain ⟨same, onward⟩ := List.cons_prefix_cons.mp starts
      exact List.cons_prefix_cons.mpr ⟨same, ih onward⟩

theorem suffix_of_append {stop : Char} (other : stop ≠ mark) {n : Nat} {before : List Char}
    (ends : List.replicate n mark <:+ before ++ stop :: after) : List.replicate n mark <:+ after := by
  rw [← List.reverse_prefix, List.reverse_replicate] at ends ⊢
  rw [List.reverse_append, List.reverse_cons, List.append_assoc] at ends
  exact prefix_of_append other ends

theorem dropWhile_append_stop {stop : Char} (kept : p stop = false) (before after : List Char) :
    (before ++ stop :: after).dropWhile p = before.dropWhile p ++ stop :: after := by
  induction before with
  | nil => exact List.dropWhile_cons_of_neg (by simp [kept])
  | cons c before ih =>
    cases dropped : p c with
    | false => rw [List.cons_append, List.dropWhile_cons_of_neg (by simp [dropped]), List.dropWhile_cons_of_neg (by simp [dropped])]; rfl
    | true => rw [List.cons_append, List.dropWhile_cons_of_pos dropped, List.dropWhile_cons_of_pos dropped, ih]

theorem stripRight_append_stop {stop : Char} (kept : p stop = false) (before after : List Char) :
    stripRight p (before ++ stop :: after) = before ++ stop :: stripRight p after := by
  rw [stripRight, List.reverse_append, List.reverse_cons, List.append_assoc]
  rw [show after.reverse ++ ([stop] ++ before.reverse) = after.reverse ++ stop :: before.reverse from rfl,
    dropWhile_append_stop kept, stripRight]
  simp

theorem headingBody_some {level : Nat} {body : List Char} (found : headingBody level cs = some body) :
    ∃ middle, cs = List.replicate level '=' ++ (middle ++ List.replicate level '=') ∧
      body = dropBlanksRight (dropBlanks middle) := by
  unfold headingBody at found
  dsimp only at found
  split at found
  · rename_i marks
    obtain ⟨starts, ends⟩ := (Bool.and_eq_true ..).mp marks
    obtain ⟨rest, rfl⟩ := List.isPrefixOf_iff_prefix.mp starts
    have dropped : (List.replicate level '=' ++ rest).drop level = rest := List.drop_left' List.length_replicate
    rw [dropped] at ends found
    obtain ⟨middle, rfl⟩ := List.isSuffixOf_iff_suffix.mp ends
    refine ⟨middle, rfl, ?_⟩
    rw [← Option.some.inj found, List.take_left']
    simp only [List.length_append, List.length_replicate]
    omega
  · cases found

theorem filter_replicate_equals (n : Nat) : (List.replicate n '=').filter isBracket = [] := by
  rw [List.filter_eq_nil_iff]
  intro c listed
  rw [List.eq_of_mem_replicate listed]
  decide

theorem filter_dropBlanks (cs : List Char) : (dropBlanks cs).filter isBracket = cs.filter isBracket :=
  filter_dropWhile (fun _ => isBracket_of_isSpace) cs

theorem filter_dropBlanksRight (cs : List Char) : (dropBlanksRight cs).filter isBracket = cs.filter isBracket := by
  rw [dropBlanksRight, stripRight, List.filter_reverse, filter_dropWhile (fun _ => isBracket_of_isSpace), List.filter_reverse,
    List.reverse_reverse]

namespace LinkedText
variable {line : LinkedText}

theorem pairs_closed {pairs : List (List Char × XWikiLink)} (some : pairs ≠ []) :
    ∃ front, pairs.flatMap (fun pair => pair.1 ++ pair.2.markup) = front ++ [']'] := by
  obtain ⟨before, pair, rfl⟩ := (List.eq_nil_or_concat pairs).resolve_left some
  have closed : ∃ front, pair.2.markup = front ++ [']'] := by
    cases pair.2 with
    | bare page => exact ⟨'[' :: '[' :: (page ++ [']']), by simp [XWikiLink.markup]⟩
    | piped label page => exact ⟨'[' :: '[' :: (label ++ '|' :: (page ++ [']'])), by simp [XWikiLink.markup]⟩
    | arrowed label page => exact ⟨'[' :: '[' :: (label ++ '>' :: '>' :: (page ++ [']'])), by simp [XWikiLink.markup]⟩
  obtain ⟨front, isMarkup⟩ := closed
  refine ⟨before.flatMap (fun pair => pair.1 ++ pair.2.markup) ++ (pair.1 ++ front), ?_⟩
  rw [List.concat_eq_append, List.flatMap_append, List.flatMap_singleton, isMarkup]
  simp only [List.append_assoc]

theorem markup_opened (link : XWikiLink) : ∃ rest, link.markup = '[' :: rest := by
  cases link with
  | bare page => exact ⟨_, rfl⟩
  | piped label page => exact ⟨_, rfl⟩
  | arrowed label page => exact ⟨_, rfl⟩

theorem of_title {level : Nat} {body : List Char} (linked : line.pairs ≠ []) (found : headingBody level line.text = some body) :
    ∃ inner : LinkedText, inner.text = body ∧ inner.links = line.links ∧ (line.Written → inner.Written) ∧
      inner.outside.filter isBracket = line.outside.filter isBracket := by
  obtain ⟨pairs, last⟩ := line
  obtain ⟨⟨first, link⟩, pairs, rfl⟩ := List.exists_cons_of_ne_nil linked
  obtain ⟨middle, isText, isBody⟩ := headingBody_some found
  obtain ⟨opened, isOpened⟩ := markup_opened link
  obtain ⟨front, isFront⟩ := pairs_closed linked
  -- the marks of the heading are before the first link and after the last one
  have starts : List.replicate level '=' <+: first := by
    have whole : List.replicate level '=' <+: (LinkedText.mk ((first, link) :: pairs) last).text := ⟨_, isText.symm⟩
    rw [text_cons, isOpened] at whole
    exact prefix_of_append (by decide) whole
  have ends : List.replicate level '=' <:+ last := by
    have whole : List.replicate level '=' <:+ (LinkedText.mk ((first, link) :: pairs) last).text :=
      ⟨List.replicate level '=' ++ middle, by rw [isText, List.append_assoc]⟩
    have split : (LinkedText.mk ((first, link) :: pairs) last).text = front ++ ']' :: last := by
      show List.flatMap _ _ ++ last = _
      rw [isFront, List.append_assoc, List.singleton_append]
    rw [split] at whole
    exact suffix_of_append (by decide) whole
  obtain ⟨first, rfl⟩ := starts
  obtain ⟨last, rfl⟩ := ends
  have isMiddle : middle = (LinkedText.mk ((first, link) :: pairs) last).text := by
    have split : (LinkedText.mk ((List.replicate level '=' ++ first, link) :: pairs) (last ++ List.replicate level '=')).text =
        List.replicate level '=' ++ ((LinkedText.mk ((first, link) :: pairs) last).text ++ List.replicate level '=') := by
      simp [text]
    exact List.append_cancel_right (List.append_cancel_left (isText.symm.trans split))
  refine ⟨⟨(dropBlanks first, link) :: pairs, dropBlanksRight last⟩, ?_, rfl, ?_, ?_⟩
  · have left : dropBlanks middle = (LinkedText.mk ((dropBlanks first, link) :: pairs) last).text := by
      rw [isMiddle, text_cons, text_cons, isOpened]
      exact dropWhile_append_stop (by decide) first _
    obtain ⟨front, isFront⟩ := @pairs_closed ((dropBlanks first, link) :: pairs) (List.cons_ne_nil _ _)
    have split : ∀ tail, (LinkedText.mk ((dropBlanks first, link) :: pairs) tail).text = front ++ ']' :: tail := by
      intro tail
      show List.flatMap _ _ ++ tail = _
      rw [isFront, List.append_assoc, List.singleton_append]
    rw [isBody, left, split, split]
    exact (stripRight_append_stop (by decide) front last).symm
  · intro written
    obtain ⟨single, apart⟩ := written.plain _ (List.mem_cons_self ..)
    have tail : dropBlanks first <:+ List.replicate level '=' ++ first :=
      (List.dropWhile_suffix _).trans (List.suffix_append _ _)
    refine ⟨written.links, ?_, ?_⟩
    · intro pair listed
      rcases List.mem_cons.mp listed with rfl | later
      · refine ⟨fun within => single (within.trans tail.isInfix), fun isLast => apart ?_⟩
        obtain ⟨before, split⟩ := tail
        show (List.replicate level '=' ++ first).getLast? = some '['
        rw [← split, List.getLast?_append, isLast]
        rfl
      · exact written.plain pair (List.mem_cons_of_mem _ later)
    · have start : dropBlanksRight last <+: last ++ List.replicate level '=' := by
        obtain ⟨blanks, split, _⟩ := stripRight_append isSpace last
        exact ⟨blanks ++ List.replicate level '=', by rw [← List.append_assoc, dropBlanksRight, ← split]⟩
      exact fun within => written.last (within.trans start.isInfix)
  · simp [outside, filter_dropBlanks, filter_dropBlanksRight, filter_replicate_equals]

end LinkedText

/-! ### What a line gives to its node -/

/-- The text and the links that a line gives to a node. -/
def XWikiLine.given : XWikiLine → Option (String × List String)
  | .heading _ title => some (stripInline title)
  | .tableRow cells => some (ParsedTable.renderRow cells, [])
  | .item text => some (text, [])
  | .paragraph line => if (stripInline line).1 = "" then none else some (stripInline line)
  | .codeStart _ => none
  | .macro_ => none
  | .blank => none

def XWikiLine.givenLinks (kind : XWikiLine) : List String := kind.given.elim [] Prod.snd

def LinkedText.pages (line : LinkedText) : List String := line.links.map fun link => strip (String.ofList link.target)

/-- The text shows each link that is not written with formatting marks, and no
brackets but those outside of the links. -/
structure ShowsLinks (line : LinkedText) (text : String) : Prop where
  shown : ∀ link ∈ line.links, (∀ mark ∈ styleMarks, Unmarked mark (strip (String.ofList link.shown)).toList) →
    (strip (String.ofList link.shown)).toList <:+: text.toList
  brackets : text.toList.filter isBracket = line.outside.filter isBracket

def LabelsArePages (line : LinkedText) : Prop :=
  ∀ link ∈ line.links, ∃ label, link.label = some label ∧ strip (String.ofList label) = strip (String.ofList link.target)

/-- The line is a heading, or a paragraph with a text besides formatting marks. -/
def ReadWithLinks (line : LinkedText) : Prop :=
  (∃ level title, xwikiLine (String.ofList line.text) = .heading level title) ∨
    ((∃ text, xwikiLine (String.ofList line.text) = .paragraph text) ∧ strip (String.ofList (unformatted line.shown)) ≠ "")

namespace LinkedText
variable {line inner : LinkedText}

theorem stripInline_text (written : inner.Written) : stripInline (String.ofList inner.text) =
    (strip (String.ofList (unformatted inner.replaced)), inner.links.filterMap XWikiLink.taken) := by
  rw [stripInline_eq, String.toList_ofList, subLinks_text written]

theorem filterMap_taken_iff : line.links.filterMap XWikiLink.taken = line.pages ↔ LabelsArePages line :=
  List.filterMap_eq_map_iff_forall_eq_some.trans (forall₂_congr fun _ _ => Option.map_eq_some_iff)

theorem separated_of_labels (labels : LabelsArePages line) : ∀ link ∈ line.links, link.label.isSome := by
  intro link listed
  obtain ⟨label, isLabel, _⟩ := labels link listed
  rw [isLabel]
  rfl

theorem showsLinks (written : inner.Written) (links : inner.links = line.links)
    (brackets : inner.outside.filter isBracket = line.outside.filter isBracket) (labels : LabelsArePages line) :
    ShowsLinks line (strip (String.ofList (unformatted inner.replaced))) := by
  have separated : ∀ link ∈ inner.links, link.label.isSome := fun link listed => separated_of_labels labels link (links ▸ listed)
  refine ⟨?_, ?_⟩
  · intro link listed unmarked
    obtain ⟨label, isLabel, same⟩ := labels link listed
    have isShown : strip (String.ofList link.shown) = strip (String.ofList link.target) := by
      rw [XWikiLink.shown, isLabel, Option.getD_some, same]
    rw [isShown] at unmarked ⊢
    have inInner : link ∈ inner.links := links ▸ listed
    have some_ : (strip (String.ofList link.target)).toList ≠ [] := by
      intro empty
      exact (written.links link inInner).1.2 (String.toList_inj.mp empty)
    exact infix_strip some_ (strip_trimmed _) (infix_unformatted some_ unmarked (shown_inside inInner (separated link inInner)))
  · have visible : ∀ mark ∈ styleMarks, isBracket mark = false := by simp [styleMarks, isBracket]
    rw [filter_strip (fun _ => isBracket_of_isSpace), filter_unformatted visible, filter_replaced written separated, brackets]

theorem replaced_eq_shown (labels : LabelsArePages line) : line.replaced = line.shown := by
  refine congrArg (· ++ line.last) (congrArg List.flatten (List.map_congr_left fun pair listed => ?_))
  obtain ⟨label, isLabel, same⟩ := labels pair.2 (List.mem_map_of_mem listed)
  rw [XWikiLink.replaced, XWikiLink.shown, isLabel, Option.elim_some, Option.getD_some, same]

end LinkedText

theorem xwikiLine_heading {line title : String} {level : Nat} (isHeading : xwikiLine line = .heading level title) :
    ∃ body, headingBody level line.toList = some body ∧ title = String.ofList body := by
  have matched : headingMatch line = some (level, title) := by
    unfold xwikiLine at isHeading
    split at isHeading
    · cases isHeading
    · split at isHeading
      · cases isHeading
      · split at isHeading
        · rename_i found
          cases isHeading
          exact found
        · split at isHeading
          · cases isHeading
          · split at isHeading
            · cases isHeading
            · cases isHeading
            · cases isHeading
            · split at isHeading
              · cases isHeading
              · cases isHeading
  obtain ⟨level', _, found⟩ := List.exists_of_findSome?_eq_some matched
  obtain ⟨body, isBody, same⟩ := Option.map_eq_some_iff.mp found
  obtain ⟨rfl, rfl⟩ := Prod.mk.inj same
  exact ⟨body, isBody, rfl⟩

theorem xwikiLine_paragraph {line text : String} (isParagraph : xwikiLine line = .paragraph text) : text = line := by
  unfold xwikiLine at isParagraph
  split at isParagraph
  · cases isParagraph
  · split at isParagraph
    · cases isParagraph
    · split at isParagraph
      · cases isParagraph
      · split at isParagraph
        · cases isParagraph
        · split at isParagraph
          · cases isParagraph
          · cases isParagraph
          · cases isParagraph
          · split at isParagraph
            · cases isParagraph
            · cases isParagraph
              rfl

theorem XWikiLine.givenLinks_other {kind : XWikiLine} (notHeading : ¬ ∃ level title, kind = .heading level title)
    (notParagraph : ¬ ∃ text, kind = .paragraph text) : kind.givenLinks = [] := by
  cases kind with
  | heading level title => exact absurd ⟨level, title, rfl⟩ notHeading
  | paragraph text => exact absurd ⟨text, rfl⟩ notParagraph
  | tableRow cells => rfl
  | item text => rfl
  | codeStart language => rfl
  | macro_ => rfl
  | blank => rfl

structure LinkedLine extends LinkedText where
  written : toLinkedText.Written

namespace LinkedLine
variable (line : LinkedLine)

theorem stripInline_unlinked {part : List Char} (within : part <:+: line.last) : (stripInline (String.ofList part)).2 = [] := by
  have written : (LinkedText.mk [] part).Written := by
    refine ⟨fun link listed => ?_, fun pair listed => ?_, fun opens => line.written.last (opens.trans within)⟩
    · cases listed
    · cases listed
  have stripped := LinkedText.stripInline_text written
  have isText : (LinkedText.mk [] part).text = part := rfl
  rw [isText] at stripped
  rw [stripped]
  rfl

theorem text_unlinked (unlinked : line.links = []) : line.text = line.last := by
  have none : line.pairs = [] := List.map_eq_nil_iff.mp unlinked
  rw [LinkedText.text, none]
  rfl

theorem givenLinks_unlinked (unlinked : line.links = []) : (xwikiLine (String.ofList line.text)).givenLinks = [] := by
  have isText := line.text_unlinked unlinked
  by_cases heading : ∃ level title, xwikiLine (String.ofList line.text) = .heading level title
  · obtain ⟨level, title, isHeading⟩ := heading
    obtain ⟨body, isBody, rfl⟩ := xwikiLine_heading isHeading
    rw [String.toList_ofList, isText] at isBody
    obtain ⟨middle, split, rfl⟩ := headingBody_some isBody
    have start : dropBlanksRight (dropBlanks middle) <+: dropBlanks middle := by
      obtain ⟨blanks, whole, _⟩ := stripRight_append isSpace (dropBlanks middle)
      exact ⟨blanks, whole.symm⟩
    have tail : dropBlanks middle <:+ middle := List.dropWhile_suffix _
    have inLine : middle <:+: line.last := ⟨_, _, by rw [List.append_assoc]; exact split.symm⟩
    rw [isHeading]
    exact line.stripInline_unlinked (start.isInfix.trans (tail.isInfix.trans inLine))
  · by_cases paragraph : ∃ text, xwikiLine (String.ofList line.text) = .paragraph text
    · obtain ⟨text, isParagraph⟩ := paragraph
      have found := line.stripInline_unlinked (List.infix_refl _)
      rw [← isText, ← xwikiLine_paragraph isParagraph] at found
      rw [isParagraph, XWikiLine.givenLinks, XWikiLine.given]
      split
      · rfl
      · exact found
    · exact XWikiLine.givenLinks_other heading paragraph

theorem given_heading {level : Nat} {title : String} (isHeading : xwikiLine (String.ofList line.text) = .heading level title)
    (linked : line.links ≠ []) : ∃ text, stripInline title = (text, line.links.filterMap XWikiLink.taken) ∧
      (LabelsArePages line.toLinkedText → ShowsLinks line.toLinkedText text) := by
  obtain ⟨body, isBody, rfl⟩ := xwikiLine_heading isHeading
  rw [String.toList_ofList] at isBody
  have some_ : line.pairs ≠ [] := fun none => linked (List.map_eq_nil_iff.mpr none)
  obtain ⟨inner, rfl, links, written, brackets⟩ := LinkedText.of_title some_ isBody
  refine ⟨_, ?_, LinkedText.showsLinks (written line.written) links brackets⟩
  rw [LinkedText.stripInline_text (written line.written), links]

/-- A line gives its pages exactly when there are none, or it is read with its links
and each has a label that is its page. -/
theorem givenLinks_iff : (xwikiLine (String.ofList line.text)).givenLinks = line.pages ↔
    line.links = [] ∨ ReadWithLinks line.toLinkedText ∧ LabelsArePages line.toLinkedText := by
  have labels := @LinkedText.filterMap_taken_iff line.toLinkedText
  by_cases unlinked : line.links = []
  · refine iff_of_true ?_ (Or.inl unlinked)
    rw [line.givenLinks_unlinked unlinked, LinkedText.pages, unlinked]
    rfl
  · have some_ : [] ≠ line.pages := fun none => unlinked (List.map_eq_nil_iff.mp none.symm)
    rw [or_iff_right unlinked]
    by_cases heading : ∃ level title, xwikiLine (String.ofList line.text) = .heading level title
    · obtain ⟨level, title, isHeading⟩ := heading
      obtain ⟨text, stripped, _⟩ := line.given_heading isHeading unlinked
      rw [isHeading, XWikiLine.givenLinks, XWikiLine.given, stripped, Option.elim_some, labels]
      exact ⟨fun each => ⟨Or.inl ⟨level, title, isHeading⟩, each⟩, fun both => both.2⟩
    · by_cases paragraph : ∃ text, xwikiLine (String.ofList line.text) = .paragraph text
      · obtain ⟨text, isParagraph⟩ := paragraph
        obtain rfl := xwikiLine_paragraph isParagraph
        have shown := @LinkedText.replaced_eq_shown line.toLinkedText
        rw [isParagraph, XWikiLine.givenLinks, XWikiLine.given, LinkedText.stripInline_text line.written]
        dsimp only
        by_cases left : strip (String.ofList (unformatted line.replaced)) = ""
        · rw [if_pos left]
          refine iff_of_false some_ ?_
          rintro ⟨read, each⟩
          rw [shown each] at left
          exact (read.resolve_left heading).2 left
        · rw [if_neg left, Option.elim_some, labels]
          constructor
          · intro each
            rw [shown each] at left
            exact ⟨Or.inr ⟨⟨_, isParagraph⟩, left⟩, each⟩
          · exact fun both => both.2
      · rw [XWikiLine.givenLinks_other heading paragraph]
        exact iff_of_false some_ fun both => paragraph (both.1.resolve_left heading).1

theorem given_shows (linked : line.links ≠ []) (read : ReadWithLinks line.toLinkedText)
    (labels : LabelsArePages line.toLinkedText) :
    ∃ text, (xwikiLine (String.ofList line.text)).given = some (text, line.pages) ∧ ShowsLinks line.toLinkedText text := by
  have pages := LinkedText.filterMap_taken_iff.mpr labels
  rcases read with ⟨level, title, isHeading⟩ | ⟨⟨text, isParagraph⟩, left⟩
  · obtain ⟨text, stripped, shows_⟩ := line.given_heading isHeading linked
    refine ⟨text, ?_, shows_ labels⟩
    rw [isHeading, XWikiLine.given, stripped, pages]
  · obtain rfl := xwikiLine_paragraph isParagraph
    refine ⟨_, ?_, LinkedText.showsLinks line.written rfl rfl labels⟩
    rw [← LinkedText.replaced_eq_shown labels] at left
    rw [isParagraph, XWikiLine.given, LinkedText.stripInline_text line.written, if_neg left, pages]

end LinkedLine

/-! ### Pages -/

namespace XWikiWalk
variable (self : XWikiWalk)
variable (lines : List String)

def codeAfter (inCode : Bool) (line : String) : Bool :=
  if inCode then !isCodeEnd line
  else match xwikiLine line with
    | .codeStart _ => true
    | _ => false

def linksOf (inCode : Bool) : List String → List String
  | [] => []
  | line :: lines => (if inCode then [] else (xwikiLine line).givenLinks) ++ linksOf (codeAfter inCode line) lines

def linksAfter (before lines : List String) : List String := linksOf (before.foldl codeAfter false) lines

theorem linksOf_append (inCode : Bool) (before lines : List String) :
    linksOf inCode (before ++ lines) = linksOf inCode before ++ linksOf (before.foldl codeAfter inCode) lines := by
  induction before generalizing inCode with
  | nil => rfl
  | cons line before ih =>
    rw [List.cons_append, linksOf, ih, linksOf, List.append_assoc]
    rfl

theorem inCode_flush : self.flush.inCode = self.inCode := by
  unfold flush flushTable flushList
  split
  · split
    · rfl
    · rfl
  · split
    · rfl
    · rfl

theorem inCode_turn (line : String) : (self.turn line).inCode = codeAfter self.inCode line := by
  unfold turn codeAfter
  split
  · rename_i inCode
    split
    · rename_i ends
      rw [ends]
      rfl
    · rename_i stays
      rw [Bool.eq_false_iff.mpr stays]
      exact inCode
  · rename_i outside
    have stays := Bool.eq_false_iff.mpr outside
    have flushed : self.flush.inCode = false := self.inCode_flush.trans stays
    cases xwikiLine line with
    | codeStart language => rfl
    | macro_ => exact flushed
    | heading level title => exact flushed
    | tableRow cells =>
      show self.flushList.inCode = false
      unfold flushList
      split
      · exact stays
      · exact stays
    | item text =>
      show self.flushTable.inCode = false
      unfold flushTable
      split
      · exact stays
      · exact stays
    | blank => exact flushed
    | paragraph line =>
      dsimp only
      generalize stripInline line = stripped
      obtain ⟨text, links⟩ := stripped
      dsimp only
      split
      · exact flushed
      · exact flushed

theorem inCode_foldl : (lines.foldl turn self).inCode = lines.foldl codeAfter self.inCode := by
  induction lines generalizing self with
  | nil => rfl
  | cons line lines ih => rw [List.foldl_cons, ih, inCode_turn, List.foldl_cons]

theorem links_flushCalls : self.flushCalls.flatMap BuilderCall.links = [] := by
  have lists : self.flushListCalls.flatMap BuilderCall.links = [] := by
    unfold flushListCalls
    split
    · rfl
    · rfl
  have tables : self.flushTableCalls.flatMap BuilderCall.links = [] := by
    unfold flushTableCalls
    split
    · rfl
    · rfl
  rw [flushCalls, List.flatMap_append, lists, tables]
  rfl

theorem links_turnCalls (line : String) :
    (self.turnCalls line).flatMap BuilderCall.links = if self.inCode then [] else (xwikiLine line).givenLinks := by
  have flushed := self.links_flushCalls
  unfold turnCalls
  split
  · split
    · rfl
    · rfl
  · cases xwikiLine line with
    | codeStart language => exact flushed
    | macro_ => exact flushed
    | heading level title =>
      dsimp only
      rw [List.flatMap_append, flushed, List.nil_append, XWikiLine.givenLinks, XWikiLine.given]
      exact List.append_nil _
    | tableRow cells =>
      show self.flushListCalls.flatMap BuilderCall.links = []
      unfold flushListCalls
      split
      · rfl
      · rfl
    | item text =>
      show self.flushTableCalls.flatMap BuilderCall.links = []
      unfold flushTableCalls
      split
      · rfl
      · rfl
    | blank =>
      dsimp only
      rw [List.flatMap_append, flushed]
      rfl
    | paragraph line =>
      dsimp only
      rw [List.flatMap_append, flushed, List.nil_append, XWikiLine.givenLinks, XWikiLine.given]
      have stripped : strip (stripInline line).1 = (stripInline line).1 := by
        rw [stripInline_eq]
        exact strip_strip _
      generalize stripInline line = made at stripped
      split
      · rfl
      · rename_i some
        rw [List.flatMap_cons, BuilderCall.links, stripped, if_neg some]
        exact List.append_nil _

theorem links_runCalls : (self.runCalls lines).flatMap BuilderCall.links = linksOf self.inCode lines := by
  induction lines generalizing self with
  | nil => rfl
  | cons line lines ih => rw [runCalls, List.flatMap_append, ih, links_turnCalls, inCode_turn, linksOf]

/-- The calls of a page before the last one. -/
def openCalls (lines : List String) (nextUuid : Nat) : List BuilderCall :=
  let start : XWikiWalk := { builder := { nextUuid } }
  let last := lines.foldl turn start
  start.runCalls lines ++
    ((if last.inCode then [.codeBlock last.language (joinLines last.codeLines)] else []) ++ last.flushCalls)

theorem pageCalls_eq (nextUuid : Nat) : pageCalls lines nextUuid = openCalls lines nextUuid ++ [.finish] := by
  rw [pageCalls, openCalls, closeCalls]
  simp only [List.append_assoc]

theorem blocks_ofLines (nextUuid : Nat) : (ofLines lines nextUuid).builder.nodes.map BlockNode.block =
    BuilderCall.blocks [] [] (openCalls lines nextUuid ++ [.finish]) := by
  rw [ofLines_built, DocumentBuilder.blocks_built, pageCalls_eq]

theorem links_ofLines (nextUuid : Nat) :
    (ofLines lines nextUuid).builder.nodes.flatMap (fun node => node.links) = linksOf false lines := by
  have links := congrArg (List.flatMap fun block => block.links) (blocks_ofLines lines nextUuid)
  rw [DocumentBuilder.links_blocks _ (fun text listed => by cases listed) fun _ => rfl, List.flatMap_map] at links
  rw [show (fun node : BlockNode => node.links) = fun node => node.block.links from rfl, links, List.nil_append, openCalls,
    List.flatMap_append, List.flatMap_append, links_runCalls, links_flushCalls, List.append_nil]
  split
  · exact List.append_nil _
  · exact List.append_nil _

theorem given_held {before after : List String} {line text : String} {links : List String} {nextUuid : Nat}
    (outside : before.foldl codeAfter false = false) (given : (xwikiLine line).given = some (text, links))
    (read : (∃ level title, xwikiLine line = .heading level title) ∨ ∃ text, xwikiLine line = .paragraph text) :
    ∃ node ∈ (ofLines (before ++ line :: after) nextUuid).builder.nodes, DocumentBuilder.HoldsText text links node.block := by
  let start : XWikiWalk := { builder := { nextUuid } }
  let here := before.foldl turn start
  have notCode : here.inCode = false := (start.inCode_foldl before).trans outside
  have brings : ∃ call ∈ here.turnCalls line, (∃ level, call = .heading level text links) ∨
      call = .paragraph text links ∧ DocumentBuilder.Pends text := by
    unfold turnCalls
    rw [if_neg (by rw [notCode]; exact Bool.false_ne_true)]
    rcases read with ⟨level, title, isHeading⟩ | ⟨text', isParagraph⟩
    · rw [isHeading] at given ⊢
      have stripped : stripInline title = (text, links) := Option.some.inj given
      dsimp only
      rw [stripped]
      exact ⟨_, List.mem_append_right _ (List.mem_singleton.mpr rfl), Or.inl ⟨level, rfl⟩⟩
    · rw [isParagraph] at given ⊢
      have trimmed : strip (stripInline text').1 = (stripInline text').1 := by
        rw [stripInline_eq]
        exact strip_strip _
      unfold XWikiLine.given at given
      dsimp only at given ⊢
      generalize stripInline text' = stripped at given trimmed ⊢
      split at given
      · cases given
      · rename_i some_
        obtain rfl := Option.some.inj given
        rw [if_neg some_]
        exact ⟨_, List.mem_append_right _ (List.mem_singleton.mpr rfl), Or.inr ⟨rfl, trimmed, some_⟩⟩
  obtain ⟨call, made, brings⟩ := brings
  have run : ∀ (lines : List String) (self : XWikiWalk), call ∈ (lines.foldl turn self).turnCalls line →
      call ∈ self.runCalls (lines ++ line :: after) := by
    intro lines
    induction lines with
    | nil => exact fun self made => List.mem_append_left _ made
    | cons first lines ih => exact fun self made => List.mem_append_right _ (ih (self.turn first) made)
  have listed : call ∈ openCalls (before ++ line :: after) nextUuid := List.mem_append_left _ (run before start made)
  obtain ⟨block, member, holds⟩ := DocumentBuilder.call_held listed brings
  rw [← blocks_ofLines] at member
  obtain ⟨node, inNodes, rfl⟩ := List.mem_map.mp member
  exact ⟨node, inNodes, holds⟩

end XWikiWalk

/-- All links of a line are found where it stands in a page: between those of the
other lines the nodes have the pages of its links, and one node has them together
with a text that shows them. -/
structure FindsLinks (before : List String) (line : LinkedLine) (after : List String) (nodes : List BlockNode) : Prop where
  links : nodes.flatMap (fun node => node.links) = XWikiWalk.linksOf false before ++ line.pages ++
    XWikiWalk.linksAfter (before ++ [String.ofList line.text]) after
  shown : line.links ≠ [] → ∃ text, ShowsLinks line.toLinkedText text ∧
    ∃ node ∈ nodes, DocumentBuilder.HoldsText text line.pages node.block

/-- A reference to the home page as XWiki writes it. -/
def homeLink : LinkedLine where
  pairs := [("See ".toList, .arrowed "the home page".toList "Main.WebHome".toList)]
  last := ".".toList
  written := by
    refine ⟨?_, ?_, by decide⟩
    · intro link listed
      obtain rfl := List.mem_singleton.mp listed
      refine ⟨⟨List.all_eq_true.mp rfl, by decide⟩, ?_⟩
      intro label isLabel
      obtain rfl := Option.some.inj isLabel
      exact ⟨List.all_eq_true.mp rfl, by decide⟩
    · intro pair listed
      obtain rfl := List.mem_singleton.mp listed
      exact ⟨by decide, by decide⟩

end Brain
