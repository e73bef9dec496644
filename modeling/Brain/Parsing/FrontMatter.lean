import Brain.Adapters.MarkdownParser
import Brain.Parsing.Builder

namespace Brain

/-! ### Lines of joined lines -/

/-- A line that `str.splitlines` does not break. -/
def Unbroken (line : List Char) : Prop := ∀ c ∈ line, isLineBreak c = false

theorem linesFrom_char {c : Char} (unbroken : isLineBreak c = false) (line cs : List Char) :
    linesFrom line (c :: cs) = linesFrom (line ++ [c]) cs := by
  have notReturn : c ≠ '\r' := by
    rintro rfl
    cases unbroken
  rw [linesFrom]
  · rw [unbroken]
    rfl
  · rintro rest same
    exact absurd same notReturn

theorem linesFrom_newline (line cs : List Char) : linesFrom line ('\n' :: cs) = line :: linesFrom [] cs := rfl

theorem linesFrom_unbroken {text : List Char} (unbroken : Unbroken text) (line rest : List Char) :
    linesFrom line (text ++ rest) = linesFrom (line ++ text) rest := by
  induction text generalizing line with
  | nil => rw [List.nil_append, List.append_nil]
  | cons c text ih =>
    have later : Unbroken text := fun d member => unbroken d (List.mem_cons_of_mem _ member)
    rw [List.cons_append, linesFrom_char (unbroken c (List.mem_cons_self ..)), ih later, List.append_assoc]
    rfl

theorem unbroken_nil : Unbroken [] := fun _ listed => absurd listed List.not_mem_nil

theorem unbroken_of_mem_linesFrom {line text : List Char} (start : Unbroken line) :
    ∀ l ∈ linesFrom line text, Unbroken l := by
  induction line, text using linesFrom.induct with
  | case1 line isEmpty =>
    intro l member
    rw [linesFrom, if_pos isEmpty] at member
    cases member
  | case2 line some =>
    intro l member
    rw [linesFrom, if_neg some] at member
    rw [List.mem_singleton.mp member]
    exact start
  | case3 line cs ih =>
    intro l member
    rcases List.mem_cons.mp member with rfl | later
    · exact start
    · exact ih unbroken_nil l later
  | case4 line c cs other breaks ih =>
    intro l member
    have split : linesFrom line (c :: cs) = line :: linesFrom [] cs := by
      rw [linesFrom]
      · exact if_pos breaks
      · exact other
    rw [split] at member
    rcases List.mem_cons.mp member with rfl | later
    · exact start
    · exact ih unbroken_nil l later
  | case5 line c cs other unbroken ih =>
    intro l member
    rw [Bool.not_eq_true] at unbroken
    rw [linesFrom_char unbroken] at member
    refine ih ?_ l member
    intro d listed
    rcases List.mem_append.mp listed with earlier | last
    · exact start d earlier
    · rw [List.mem_singleton.mp last]
      exact unbroken

variable {lines : List String}

theorem linesFrom_joinLines (unbroken : ∀ l ∈ lines, Unbroken l.toList) :
    ∃ blanks : List String, (∀ l ∈ blanks, l = "") ∧ lines = splitlines (joinLines lines) ++ blanks := by
  induction lines with
  | nil => exact ⟨[], by simp, rfl⟩
  | cons line lines ih =>
    have first : Unbroken line.toList := unbroken line (List.mem_cons_self ..)
    by_cases last : lines = []
    · have whole : joinLines (line :: lines) = line := by rw [last, joinLines, String.intercalate_singleton]
      have read : linesFrom [] line.toList = linesFrom line.toList [] := by
        have consumed := linesFrom_unbroken first [] []
        rwa [List.append_nil, List.nil_append] at consumed
      rw [whole, last, splitlines, read, linesFrom]
      by_cases isEmpty : line.toList.isEmpty = true
      · rw [if_pos isEmpty]
        refine ⟨[line], ?_, rfl⟩
        intro l member
        rw [List.mem_singleton.mp member]
        exact String.toList_inj.mp (List.isEmpty_iff.mp isEmpty)
      · rw [if_neg isEmpty]
        exact ⟨[], by simp, by simp⟩
    · obtain ⟨blanks, empty, same⟩ := ih fun l member => unbroken l (List.mem_cons_of_mem _ member)
      refine ⟨blanks, empty, ?_⟩
      have read : linesFrom [] (joinLines (line :: lines)).toList = line.toList :: linesFrom [] (joinLines lines).toList := by
        rw [DocumentBuilder.joinLines_cons line last, linesFrom_unbroken first, List.nil_append, linesFrom_newline]
      rw [splitlines, read, List.map_cons, String.ofList_toList, List.cons_append, ← splitlines, ← same]

theorem splitlines_dropWhile (cs : List Char) : ∃ blanks : List String, (∀ l ∈ blanks, l = "") ∧
    splitlines (String.ofList cs) = blanks ++ splitlines (String.ofList (cs.dropWhile (· = '\n'))) := by
  induction cs with
  | nil => exact ⟨[], by simp, rfl⟩
  | cons c cs ih =>
    by_cases newline : c = '\n'
    · obtain ⟨blanks, empty, same⟩ := ih
      refine ⟨"" :: blanks, ?_, ?_⟩
      · intro l member
        rcases List.mem_cons.mp member with rfl | later
        · rfl
        · exact empty l later
      · rw [List.dropWhile_cons_of_pos (by simpa using newline), List.cons_append, ← same, newline, splitlines,
          String.toList_ofList, linesFrom_newline, splitlines, String.toList_ofList]
        rfl
    · exact ⟨[], by simp, by rw [List.dropWhile_cons_of_neg (by simpa using newline)]; rfl⟩

/-! ### What is kept -/

/-- The lines are in the text, in order. Only empty lines at either end may be missing. -/
def KeptIn (lines : List String) (text : String) : Prop :=
  ∃ blanks core empties, lines = blanks ++ core ++ empties ∧ (∀ l ∈ blanks, l = "") ∧ (∀ l ∈ empties, l = "") ∧
    core.Sublist (splitlines text)

variable {text : String}

theorem KeptIn.tail {line : String} (kept : KeptIn (line :: lines) text) : KeptIn lines text := by
  obtain ⟨blanks, core, empties, same, isBlank, isEmpty, listed⟩ := kept
  cases blanks with
  | cons blank blanks =>
    rw [List.cons_append, List.cons_append] at same
    exact ⟨blanks, core, empties, (List.cons.inj same).2, fun l member => isBlank l (List.mem_cons_of_mem _ member),
      isEmpty, listed⟩
  | nil =>
    cases core with
    | cons first core =>
      exact ⟨[], core, empties, (List.cons.inj same).2, by simp, isEmpty, (List.sublist_cons_self first core).trans listed⟩
    | nil =>
      cases empties with
      | nil => cases same
      | cons empty empties =>
        exact ⟨[], [], empties, (List.cons.inj same).2, by simp,
          fun l member => isEmpty l (List.mem_cons_of_mem _ member), List.nil_sublist _⟩

theorem KeptIn.of_suffix {late : List String} (kept : KeptIn lines text) (suffix : late <:+ lines) :
    KeptIn late text := by
  obtain ⟨early, rfl⟩ := suffix
  induction early with
  | nil => exact kept
  | cons line early ih => exact ih kept.tail

theorem keptIn_self (text : String) : KeptIn (splitlines text) text :=
  ⟨[], splitlines text, [], by simp, by simp, by simp, List.Sublist.refl _⟩

theorem keptIn_stripped (unbroken : ∀ l ∈ lines, Unbroken l.toList) :
    KeptIn lines (String.ofList ((joinLines lines).toList.dropWhile (· = '\n'))) := by
  obtain ⟨empties, isEmpty, same⟩ := linesFrom_joinLines unbroken
  obtain ⟨blanks, isBlank, stripped⟩ := splitlines_dropWhile (joinLines lines).toList
  rw [String.ofList_toList] at stripped
  exact ⟨blanks, _, empties, by rw [← stripped]; exact same, isBlank, isEmpty, List.Sublist.refl _⟩

/-! ### Front matter -/

/-- The first line and a later one are `---`. -/
def Delimited (text : String) : Prop := (splitlines text).head? = some "---" ∧ "---" ∈ (splitlines text).tail

instance (text : String) : Decidable (Delimited text) := inferInstanceAs (Decidable (_ ∧ _))

/-- What the parser takes for delimiters. -/
structure SeemsDelimited (text : String) : Prop where
  starts : "---".toList.isPrefixOf text.toList = true
  long : 3 ≤ (splitlines text).length
  closes : ∃ line ∈ (splitlines text).tail, strip line = "---"

/-- The lines that are neither delimiters nor between them. -/
def outsideLines (text : String) : List String :=
  if Delimited text then ((splitlines text).tail.dropWhile (· ≠ "---")).tail else splitlines text

/-- Front matter is only taken between delimiters, and the lines outside are kept. -/
structure Lossless (text : String) (extracted : RawDict × String) : Prop where
  whole : ¬ Delimited text → extracted = ([], text)
  kept : KeptIn (outsideLines text) extracted.2

theorem outsideLines_suffix (text : String) : outsideLines text <:+ splitlines text := by
  unfold outsideLines
  split
  · exact (List.tail_suffix _).trans ((List.dropWhile_suffix _).trans (List.tail_suffix _))
  · exact List.suffix_refl _

theorem extractFrontMatter_whole (other : ¬ SeemsDelimited text) : extractFrontMatter text = ([], text) := by
  unfold extractFrontMatter
  dsimp only
  split
  · rfl
  · rename_i starts
    rw [Bool.or_eq_true, not_or, Bool.not_eq_true, Bool.not_eq_false', decide_eq_true_eq, Nat.not_lt] at starts
    cases found : (splitlines text).tail.findIdx? fun line => strip line = "---" with
    | none => rfl
    | some end_ =>
      refine absurd ⟨starts.1, starts.2, ?_⟩ other
      obtain ⟨bound, isEnd, _⟩ := List.findIdx?_eq_some_iff_getElem.mp found
      exact ⟨_, List.getElem_mem bound, of_decide_eq_true isEnd⟩

theorem drop_of_findIdx? {p : String → Bool} {i : Nat} (found : lines.findIdx? p = some i) :
    lines.drop (i + 1) = (lines.dropWhile fun line => !p line).tail := by
  have first : lines.findIdx p = i := by
    rw [List.findIdx_eq_getD_findIdx?, found]
    rfl
  rw [List.dropWhile_eq_drop_findIdx_not]
  simp only [Bool.not_not]
  rw [first, List.tail_drop]

/-- The lines after the first that strips to `---`. -/
def bodyLines (text : String) : List String := ((splitlines text).tail.dropWhile fun line => !decide (strip line = "---")).tail

theorem bodyLines_suffix (text : String) : bodyLines text <:+ (splitlines text).tail :=
  (List.tail_suffix _).trans (List.dropWhile_suffix _)

theorem extractFrontMatter_body (seems : SeemsDelimited text) :
    (extractFrontMatter text).2 = String.ofList ((joinLines (bodyLines text)).toList.dropWhile (· = '\n')) := by
  obtain ⟨starts, long, line, later, closes⟩ := seems
  have short : ¬ ((!"---".toList.isPrefixOf text.toList || (splitlines text).length < 3 : Bool) = true) := by
    rw [starts]
    simpa using long
  unfold extractFrontMatter
  dsimp only
  rw [if_neg short]
  cases found : (splitlines text).tail.findIdx? fun line => strip line = "---" with
  | none =>
    have open_ := List.findIdx?_eq_none_iff.mp found line later
    rw [closes] at open_
    cases open_
  | some end_ =>
    dsimp only
    rw [drop_of_findIdx? found]
    rfl

theorem unbroken_splitlines (text : String) : ∀ line ∈ splitlines text, Unbroken line.toList := by
  intro line member
  obtain ⟨cs, listed, rfl⟩ := List.mem_map.mp member
  rw [String.toList_ofList]
  exact unbroken_of_mem_linesFrom unbroken_nil cs listed

theorem tail_dropWhile_suffix {p q : String → Bool} (weaker : ∀ line, q line = true → p line = true) (lines : List String) :
    (lines.dropWhile fun line => !q line).tail <:+ (lines.dropWhile fun line => !p line).tail := by
  induction lines with
  | nil => exact List.suffix_refl _
  | cons line lines ih =>
    cases seems : p line with
    | true =>
      have seen : ((line :: lines).dropWhile fun line => !p line) = line :: lines :=
        List.dropWhile_cons_of_neg (by simp [seems])
      rw [seen, List.tail_cons]
      cases exact_ : q line with
      | true =>
        exact ⟨[], by simp [exact_]⟩
      | false =>
        rw [List.dropWhile_cons_of_pos (by simp [exact_])]
        exact (List.tail_suffix _).trans (List.dropWhile_suffix _)
    | false =>
      have notExact : q line = false := by
        by_contra exact_
        rw [weaker line (by simpa using exact_)] at seems
        cases seems
      rw [List.dropWhile_cons_of_pos (by simp [notExact]), List.dropWhile_cons_of_pos (by simp [seems])]
      exact ih

theorem length_stripped (unbroken : ∀ l ∈ lines, Unbroken l.toList) :
    (splitlines (String.ofList ((joinLines lines).toList.dropWhile (· = '\n')))).length ≤ lines.length := by
  obtain ⟨empties, _, same⟩ := linesFrom_joinLines unbroken
  obtain ⟨blanks, _, stripped⟩ := splitlines_dropWhile (joinLines lines).toList
  rw [String.ofList_toList] at stripped
  have lengths := congrArg List.length same
  have strippedLengths := congrArg List.length stripped
  rw [List.length_append] at lengths strippedLengths
  omega

/-- Extraction is lossless unless the text only seems to have front matter. -/
theorem front_matter_lossless_iff (text : String) :
    Lossless text (extractFrontMatter text) ↔ Delimited text ∨ ¬ SeemsDelimited text := by
  have unbroken : ∀ line ∈ bodyLines text, Unbroken line.toList := fun line member =>
    unbroken_splitlines text line (((bodyLines_suffix text).trans (List.tail_suffix _)).subset member)
  by_cases seems : SeemsDelimited text
  · rw [or_iff_left (not_not_intro seems)]
    have body := extractFrontMatter_body seems
    constructor
    · intro lossless
      by_contra other
      rw [lossless.whole other] at body
      have most := length_stripped unbroken
      rw [← body] at most
      -- the body would have as many lines as the text, of which the first is no line of the body
      have fewer := (bodyLines_suffix text).length_le
      obtain ⟨line, later, _⟩ := seems.closes
      have more : 0 < (splitlines text).tail.length := List.length_pos_of_mem later
      rw [List.length_tail] at fewer more
      dsimp only at most
      omega
    · intro delimited
      refine ⟨fun other => absurd delimited other, ?_⟩
      rw [body, outsideLines, if_pos delimited]
      refine (keptIn_stripped unbroken).of_suffix ?_
      have weaker : ∀ line : String, decide (line = "---") = true → decide (strip line = "---") = true := by
        intro line isExact
        rw [of_decide_eq_true isExact]
        rfl
      have suffix := tail_dropWhile_suffix weaker (splitlines text).tail
      simpa [bodyLines] using suffix
  · refine iff_of_true ⟨fun _ => extractFrontMatter_whole seems, ?_⟩ (Or.inr seems)
    rw [extractFrontMatter_whole seems]
    exact (keptIn_self text).of_suffix (outsideLines_suffix text)

/-- A document that opens with a thematic break loses what is above the next one. -/
theorem thematic_break_lossy : ¬ Lossless "-----\nKept?\n---\n" (extractFrontMatter "-----\nKept?\n---\n") := by
  intro lossless
  exact absurd (congrArg Prod.snd (lossless.whole (by decide))) (by decide)

end Brain
