import Brain.Domain.Python
import Mathlib.Data.List.TakeWhile
import Mathlib.Tactic.SplitIfs
import Mathlib.Tactic.Use

namespace Brain

/-- Nothing is to be stripped from either end. -/
def Trimmed (cs : List Char) : Prop := (∀ c ∈ cs.head?, isSpace c = false) ∧ ∀ c ∈ cs.getLast?, isSpace c = false

variable {p : Char → Bool} {cs : List Char}

theorem stripLeft_eq_self (kept : ∀ c ∈ cs.head?, p c = false) : stripLeft p cs = cs := by
  cases cs with
  | nil => rfl
  | cons c cs => exact List.dropWhile_cons_of_neg (by simp [kept c rfl])

theorem stripRight_eq_self (kept : ∀ c ∈ cs.getLast?, p c = false) : stripRight p cs = cs := by
  have reversed : cs.reverse.dropWhile p = cs.reverse := stripLeft_eq_self (by rwa [List.head?_reverse])
  rw [stripRight, reversed, List.reverse_reverse]

theorem head?_dropWhile_false (cs : List Char) : ∀ c ∈ (cs.dropWhile p).head?, p c = false := by
  intro c first
  cases kept : cs.dropWhile p with
  | nil =>
    rw [kept] at first
    cases first
  | cons d ds =>
    rw [kept] at first
    cases first
    have fails := List.head_dropWhile_not p (l := cs) (by rw [kept]; exact List.cons_ne_nil _ _)
    simp only [kept, List.head_cons] at fails
    exact Bool.eq_false_iff.mpr (by simpa using fails)

theorem getLast?_stripRight (cs : List Char) : ∀ c ∈ (stripRight p cs).getLast?, p c = false := by
  rw [stripRight, List.getLast?_reverse]
  exact head?_dropWhile_false _

theorem head?_stripRight {c : Char} (first : c ∈ (stripRight p cs).head?) : c ∈ cs.head? := by
  have split : stripRight p cs ++ (cs.reverse.takeWhile p).reverse = cs := by
    rw [stripRight, ← List.reverse_append, List.takeWhile_append_dropWhile, List.reverse_reverse]
  rw [← split]
  cases kept : stripRight p cs with
  | nil =>
    rw [kept] at first
    cases first
  | cons d ds =>
    rw [kept] at first
    exact first

theorem stripRight_append (p : Char → Bool) (cs : List Char) : ∃ tail, cs = stripRight p cs ++ tail ∧ ∀ c ∈ tail, p c = true := by
  refine ⟨(cs.reverse.takeWhile p).reverse, ?_, ?_⟩
  · rw [stripRight, ← List.reverse_append, List.takeWhile_append_dropWhile, List.reverse_reverse]
  · intro c member
    exact List.mem_takeWhile_imp (List.mem_reverse.mp member)

theorem trimmed_of_stripRight (visible : ∀ c, p c = true → isSpace c = false) (some : stripRight p cs ≠ [])
    (trimmed : Trimmed (stripRight p cs)) : Trimmed cs := by
  obtain ⟨tail, split, passes⟩ := stripRight_append p cs
  rw [split]
  refine ⟨?_, ?_⟩
  · intro c first
    rw [List.head?_append_of_ne_nil _ some] at first
    exact trimmed.1 c first
  · intro c last
    rcases List.eq_nil_or_concat tail with rfl | ⟨before, d, rfl⟩
    · rw [List.append_nil] at last
      exact trimmed.2 c last
    · rw [List.concat_eq_append, ← List.append_assoc, List.getLast?_concat] at last
      cases last
      exact visible c (passes c (by simp))

theorem strip_eq_self {s : String} (trimmed : Trimmed s.toList) : strip s = s := by
  rw [strip, stripLeft_eq_self trimmed.1, stripRight_eq_self trimmed.2, String.ofList_toList]

theorem strip_trimmed (s : String) : Trimmed (strip s).toList := by
  rw [strip, String.toList_ofList]
  refine ⟨?_, getLast?_stripRight _⟩
  intro c first
  exact head?_dropWhile_false s.toList c (head?_stripRight first)

@[simp] theorem strip_strip (s : String) : strip (strip s) = strip s := strip_eq_self (strip_trimmed s)

theorem infix_dropWhile {part : List Char} (some : part ≠ []) (kept : ∀ c ∈ part.head?, p c = false)
    (within : part <:+: cs) : part <:+: cs.dropWhile p := by
  induction cs with
  | nil => exact absurd (List.infix_nil.mp within) some
  | cons c cs ih =>
    cases dropped : p c with
    | false =>
      rw [List.dropWhile_cons_of_neg (by simp [dropped])]
      exact within
    | true =>
      rw [List.dropWhile_cons_of_pos dropped]
      rcases List.infix_cons_iff.mp within with starts | later
      · obtain ⟨d, part, rfl⟩ := List.exists_cons_of_ne_nil some
        obtain ⟨rest, same⟩ := starts
        obtain rfl : d = c := (List.cons.inj same).1
        have fails := kept d rfl
        rw [dropped] at fails
        cases fails
      · exact ih later

theorem infix_stripRight {part : List Char} (some : part ≠ []) (kept : ∀ c ∈ part.getLast?, p c = false)
    (within : part <:+: cs) : part <:+: stripRight p cs := by
  rw [← List.reverse_infix, stripRight, List.reverse_reverse]
  exact infix_dropWhile (by simpa using some) (by rwa [List.head?_reverse]) (List.reverse_infix.mpr within)

theorem infix_strip {part : List Char} (some : part ≠ []) (trimmed : Trimmed part) (within : part <:+: cs) :
    part <:+: (strip (String.ofList cs)).toList := by
  rw [strip, String.toList_ofList, String.toList_ofList]
  exact infix_stripRight some trimmed.2 (infix_dropWhile some trimmed.1 within)

theorem filter_dropWhile {q : Char → Bool} (hidden : ∀ c, q c = true → p c = false) (cs : List Char) :
    (cs.dropWhile q).filter p = cs.filter p := by
  induction cs with
  | nil => rfl
  | cons c cs ih =>
    cases dropped : q c with
    | false => rw [List.dropWhile_cons_of_neg (by simp [dropped])]
    | true => rw [List.dropWhile_cons_of_pos dropped, ih, List.filter_cons_of_neg (by simp [hidden c dropped])]

theorem filter_strip (hidden : ∀ c, isSpace c = true → p c = false) (cs : List Char) :
    (strip (String.ofList cs)).toList.filter p = cs.filter p := by
  rw [strip, String.toList_ofList, String.toList_ofList, stripRight, List.filter_reverse, filter_dropWhile hidden,
    List.filter_reverse, List.reverse_reverse]
  exact filter_dropWhile hidden cs

theorem isSpace_eq_false {c : Char} (low : 0x41 ≤ c.toNat) (high : c.toNat ≤ 0x7a) : isSpace c = false := by
  have others : [0x85, 0xa0, 0x1680, 0x2028, 0x2029, 0x202f, 0x205f, 0x3000].contains c.toNat = false := by
    rw [Bool.eq_false_iff, ne_eq, List.contains_iff_mem]
    intro listed
    simp only [List.mem_cons, List.not_mem_nil, or_false] at listed
    omega
  unfold isSpace
  rw [others, Bool.or_false]
  simp only [Bool.or_eq_false_iff, Bool.and_eq_false_iff, decide_eq_false_iff_not]
  omega

/-! ### Letter case -/

theorem toNat_lowerChar (c : Char) :
    (lowerChar c).toNat =
      if c.toNat = 0x212a then 0x6b else if 0x41 ≤ c.toNat ∧ c.toNat ≤ 0x5a then c.toNat + 32 else c.toNat := by
  unfold lowerChar Char.toLower
  split
  · rfl
  · split
    · rename_i upper
      have low : 0x41 ≤ c.toNat := upper.1
      have high : c.toNat ≤ 0x5a := upper.2
      rw [if_pos ⟨low, high⟩]
      show (c.val + ('a'.val - 'A'.val)).toNat = c.toNat + 32
      rw [UInt32.toNat_add]
      exact Nat.mod_eq_of_lt (by show c.toNat + 32 < 2 ^ 32; omega)
    · rename_i other
      rw [if_neg (fun upper => other ⟨upper.1, upper.2⟩)]

theorem toNat_toUpper (c : Char) :
    c.toUpper.toNat = if 0x61 ≤ c.toNat ∧ c.toNat ≤ 0x7a then c.toNat - 32 else c.toNat := by
  unfold Char.toUpper
  split
  · rename_i small
    have low : 0x61 ≤ c.toNat := small.1
    have high : c.toNat ≤ 0x7a := small.2
    rw [if_pos ⟨low, high⟩]
    have moved : (c.val + ('A'.val - 'a'.val)).toNat = (c.toNat + 4294967264) % 4294967296 := UInt32.toNat_add ..
    show (c.val + ('A'.val - 'a'.val)).toNat = c.toNat - 32
    omega
  · rename_i other
    rw [if_neg (fun small => other ⟨small.1, small.2⟩)]

theorem lowerChar_eq_iff {c d : Char} : lowerChar c = d ↔ (lowerChar c).toNat = d.toNat :=
  ⟨fun same => congrArg _ same, fun same => Char.ext (UInt32.toNat_inj.mp same)⟩

theorem lowerChar_eq_mark {c d : Char} (mark : d.toNat < 0x41 ∨ d.toNat = 0x5c) : lowerChar c = d ↔ c = d := by
  constructor
  · intro same
    have value := congrArg Char.toNat same
    rw [toNat_lowerChar] at value
    apply Char.ext
    apply UInt32.toNat_inj.mp
    show c.toNat = d.toNat
    split at value
    · omega
    · split at value <;> omega
  · rintro rfl
    rw [lowerChar_eq_iff, toNat_lowerChar]
    split
    · omega
    · split <;> omega

theorem lowerChar_lowerChar (c : Char) : lowerChar (lowerChar c) = lowerChar c := by
  have first := toNat_lowerChar c
  have second := toNat_lowerChar (lowerChar c)
  rw [lowerChar_eq_iff]
  split_ifs at first second <;> omega

theorem lowerChar_toUpper (c : Char) : lowerChar (lowerChar c).toUpper = lowerChar c := by
  have first := toNat_lowerChar c
  have second := toNat_toUpper (lowerChar c)
  have third := toNat_lowerChar (lowerChar c).toUpper
  rw [lowerChar_eq_iff]
  split_ifs at first second third <;> omega

theorem isSpace_lowerChar (c : Char) : isSpace (lowerChar c) = isSpace c := by
  have value := toNat_lowerChar c
  split_ifs at value with kelvin capital
  · have high : isSpace c = false := by
      unfold isSpace
      rw [kelvin]
      decide
    rw [high]
    exact isSpace_eq_false (by omega) (by omega)
  · rw [isSpace_eq_false (c := c) (by omega) (by omega)]
    exact isSpace_eq_false (by omega) (by omega)
  · rw [lowerChar_eq_iff.mpr value]

theorem strip_lower (s : String) : strip (lower s) = lower (strip s) := by
  have same : (isSpace ∘ lowerChar) = isSpace := funext isSpace_lowerChar
  have left : ∀ cs : List Char, (cs.map lowerChar).dropWhile isSpace = (cs.dropWhile isSpace).map lowerChar := by
    intro cs
    rw [List.dropWhile_map, same]
  rw [strip, lower, lower, strip, String.toList_ofList, String.toList_ofList, stripLeft, stripRight, left, ← List.map_reverse,
    left, ← List.map_reverse]
  rfl

theorem lower_lower (s : String) : lower (lower s) = lower s := by
  rw [lower, lower, String.toList_ofList, List.map_map]
  congr 1
  apply List.map_congr_left
  intro c _
  exact lowerChar_lowerChar c

/-! ### Segments -/


theorem not_mem_lastSegment (separator : Char) (cs : List Char) : separator ∉ lastSegment separator cs := by
  intro inside
  have kept := List.mem_takeWhile_imp (List.mem_reverse.mp inside)
  simp at kept

variable {separator : Char}

theorem lastSegment_of_not_mem (plain : separator ∉ cs) : lastSegment separator cs = cs := by
  have kept : ∀ c ∈ cs.reverse, decide (c ≠ separator) = true := by
    intro c member
    exact decide_eq_true fun same => plain (same ▸ List.mem_reverse.mp member)
  rw [lastSegment, List.takeWhile_eq_self_iff.mpr kept, List.reverse_reverse]

theorem lastSegment_append_cons (above : List Char) {name : List Char} (plain : separator ∉ name) :
    lastSegment separator (above ++ separator :: name) = name := by
  have kept : ∀ c ∈ name.reverse, decide (c ≠ separator) = true := by
    intro c member
    exact decide_eq_true fun same => plain (same ▸ List.mem_reverse.mp member)
  rw [lastSegment, List.reverse_append, List.reverse_cons, List.append_assoc, List.takeWhile_append_of_pos kept,
    List.singleton_append, List.takeWhile_cons_of_neg (by simp), List.append_nil, List.reverse_reverse]

theorem lastSegment_split (separator : Char) (cs : List Char) :
    cs = lastSegment separator cs ∨ ∃ above, cs = above ++ separator :: lastSegment separator cs := by
  by_cases inside : separator ∈ cs
  · obtain ⟨name, above, reversed, plain⟩ := List.eq_append_cons_of_mem (List.mem_reverse.mpr inside)
    have split : cs = above.reverse ++ separator :: name.reverse := by
      rw [← List.reverse_reverse cs, reversed]
      simp
    right
    use above.reverse
    rw [split, lastSegment_append_cons above.reverse (fun member => plain (List.mem_reverse.mp member))]
  · exact .inl (lastSegment_of_not_mem inside).symm

variable {f : Char → Char}

theorem lastSegment_map (same : ∀ c, f c = separator ↔ c = separator) (cs : List Char)
    : lastSegment separator (cs.map f) = (lastSegment separator cs).map f := by
  have kept : ((fun c => decide (c ≠ separator)) ∘ f) = fun c => decide (c ≠ separator) := by
    funext c
    simp [same]
  rw [lastSegment, ← List.map_reverse, List.takeWhile_map, kept, ← List.map_reverse, lastSegment]

theorem getLast?_splitOn (separator : Char) (cs : List Char) :
    (cs.splitOn separator).getLast? = some (lastSegment separator cs) := by
  rcases lastSegment_split separator cs with whole | ⟨above, split⟩
  · rw [List.splitOn_eq_singleton (whole ▸ not_mem_lastSegment separator cs), List.getLast?_singleton, ← whole]
  · conv_lhs => rw [split]
    rw [List.splitOn_append_cons_self, List.splitOn_eq_singleton (not_mem_lastSegment separator cs),
      List.getLast?_append, List.getLast?_singleton, Option.some_or]

theorem splitOn_map_flatMap (keeps : f separator = separator) (cs : List Char) :
    (cs.map f).splitOn separator = (cs.splitOn separator).flatMap fun part => (part.map f).splitOn separator := by
  induction cs with
  | nil => rfl
  | cons c cs ih =>
    rw [List.map_cons, List.splitOn_cons_eq_if_modifyHead, List.splitOn_cons_eq_if_modifyHead, ih]
    by_cases own : c = separator
    · subst own
      simp [keeps]
    · cases parts : cs.splitOn separator with
      | nil => exact absurd parts (List.splitOn_ne_nil _ _)
      | cons first rest =>
        have kept : ¬ (c == separator) = true := by simpa using own
        rw [if_neg kept, List.modifyHead_cons, List.flatMap_cons, List.flatMap_cons, List.map_cons,
          List.splitOn_cons_eq_if_modifyHead]
        by_cases cut : f c = separator
        · simp [cut]
        · rw [if_neg (by simpa using cut), if_neg (by simpa using cut)]
          cases inner : (first.map f).splitOn separator with
          | nil => exact absurd inner (List.splitOn_ne_nil _ _)
          | cons head tail => rfl

theorem splitOn_map (same : ∀ c, f c = separator ↔ c = separator) (cs : List Char)
    : (cs.map f).splitOn separator = (cs.splitOn separator).map (List.map f) := by
  induction cs with
  | nil => rfl
  | cons c cs ih =>
    rw [List.map_cons, List.splitOn_cons_eq_if_modifyHead, List.splitOn_cons_eq_if_modifyHead, ih]
    by_cases own : c = separator
    · subst own
      simp [(same c).mpr rfl]
    · have moved : f c ≠ separator := fun back => own ((same c).mp back)
      rw [if_neg (by simpa using moved), if_neg (by simpa using own)]
      cases cs.splitOn separator with
      | nil => rfl
      | cons first rest => rfl

end Brain
