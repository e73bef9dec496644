import Mathlib.Data.List.Infix

/-! Readers take a value off the front of a list, and a search tries a reader at every place
of a list. A reader is local to an element where it never takes it, and so nothing
behind that element can change what is read before it. -/

namespace Readers
variable {α β γ : Type}

/-- What a reader makes of a front that `stop` ends is the same whatever stands behind. -/
def Local (stop : α) (read : List α → Option (β × List α)) : Prop :=
  ∀ front, (∀ back, read (front ++ stop :: back) = none) ∨
    ∃ value rest, rest <:+ front ∧ ∀ back, read (front ++ stop :: back) = some (value, rest ++ stop :: back)

section Stop
variable {stop : α} {p : α → Bool} (kept : p stop = false)
include kept

theorem dropWhile_stop (front back : List α) : (front ++ stop :: back).dropWhile p = front.dropWhile p ++ stop :: back := by
  induction front with
  | nil => exact List.dropWhile_cons_of_neg (by simp [kept])
  | cons c front ih =>
    cases taken : p c with
    | true => simpa [taken] using ih
    | false => simp [taken]

theorem takeWhile_stop (front back : List α) : (front ++ stop :: back).takeWhile p = front.takeWhile p := by
  induction front with
  | nil => exact List.takeWhile_cons_of_neg (by simp [kept])
  | cons c front ih =>
    cases taken : p c with
    | true => simpa [taken] using ih
    | false => simp [taken]

end Stop

namespace Local
variable {stop : α} {read : List α → Option (β × List α)}

theorem value (b : β) : Local stop fun cs : List α => some (b, cs) :=
  fun front => .inr ⟨b, front, List.suffix_rfl, fun _ => rfl⟩

/-- One reader after another. -/
theorem bind {next : β → List α → Option (γ × List α)} (first : Local stop read) (later : ∀ b, Local stop (next b)) :
    Local stop fun cs => (read cs).bind fun r => next r.1 r.2 := by
  intro front
  rcases first front with fails | ⟨b, rest, within, reads⟩
  · exact .inl fun back => by simp only [fails back, Option.bind_none]
  rcases later b rest with fails | ⟨c, rest', within', reads'⟩
  · exact .inl fun back => by simp only [reads back, Option.bind_some, fails back]
  · exact .inr ⟨c, rest', within'.trans within, fun back => by simp only [reads back, Option.bind_some, reads' back]⟩

/-- A reader or, where it fails, another. -/
theorem orElse {other : List α → Option (β × List α)} (first : Local stop read) (second : Local stop other) :
    Local stop fun cs => (read cs).or (other cs) := by
  intro front
  rcases first front with fails | ⟨b, rest, within, reads⟩
  · rcases second front with fails' | ⟨b, rest, within, reads⟩
    · exact .inl fun back => by simp only [fails back, fails' back, Option.or_none]
    · exact .inr ⟨b, rest, within, fun back => by simp only [fails back, reads back, Option.none_or]⟩
  · exact .inr ⟨b, rest, within, fun back => by simp only [reads back, Option.some_or]⟩

/-- A reader of what is left when what satisfies `p` is taken off the front. -/
theorem dropWhile {p : α → Bool} (kept : p stop = false) (later : Local stop read) :
    Local stop fun cs => read (cs.dropWhile p) := by
  intro front
  rcases later (front.dropWhile p) with fails | ⟨b, rest, within, reads⟩
  · exact .inl fun back => by simp only [dropWhile_stop kept, fails back]
  · exact .inr ⟨b, rest, within.trans (List.dropWhile_suffix p), fun back => by simp only [dropWhile_stop kept, reads back]⟩

end Local

/-! ### All matches of a pattern -/

/-- All matches of a pattern from left to right. The pattern is given the element before it;
`skip` elements belong to the last match. -/
def allMatches (pattern : α → List α → Option (β × List α)) (before : α) (skip : Nat) : List α → List (β × List α)
  | [] => []
  | c :: cs =>
    match skip with
    | skip + 1 => allMatches pattern c skip cs
    | 0 =>
      match pattern before (c :: cs) with
      | some (value, rest) => (value, rest) :: allMatches pattern c (cs.length - rest.length) cs
      | none => allMatches pattern c 0 cs

section AllMatches
variable {pattern : α → List α → Option (β × List α)} {before c stop : α} {skip : Nat} {cs front back rest : List α} {value : β}

theorem allMatches_some (found : pattern before (c :: cs) = some (value, rest)) :
    allMatches pattern before 0 (c :: cs) = (value, rest) :: allMatches pattern c (cs.length - rest.length) cs := by
  rw [allMatches, found]

theorem allMatches_none (absent : pattern before (c :: cs) = none) :
    allMatches pattern before 0 (c :: cs) = allMatches pattern c 0 cs := by
  rw [allMatches, absent]

theorem allMatches_skip : allMatches pattern before (front.length + 1) (front ++ c :: back) = allMatches pattern c 0 back := by
  induction front generalizing before with
  | nil => rfl
  | cons d front ih => exact ih

/-- A match that begins here ends before `back`. -/
theorem allMatches_found (found : pattern before (front ++ c :: back) = some (value, back)) :
    allMatches pattern before 0 (front ++ c :: back) = (value, back) :: allMatches pattern c 0 back := by
  cases front with
  | nil =>
    have taken : back.length - back.length = 0 := Nat.sub_self _
    rw [List.nil_append] at found ⊢
    rw [allMatches_some found, taken]
  | cons d front =>
    have taken : (front ++ c :: back).length - back.length = front.length + 1 := by
      rw [List.length_append, List.length_cons]
      omega
    rw [List.cons_append] at found ⊢
    rw [allMatches_some found, taken, allMatches_skip]

/-- Nothing matches before `back`. -/
theorem allMatches_quiet (quiet : ∀ b ∈ before :: front, ∀ cs, pattern b cs = none) :
    allMatches pattern before 0 (front ++ c :: back) = allMatches pattern c 0 back := by
  induction front generalizing before with
  | nil => exact allMatches_none (quiet before (List.mem_cons_self ..) _)
  | cons d front ih =>
    rw [List.cons_append, allMatches_none (quiet before (List.mem_cons_self ..) _)]
    exact ih fun b member => quiet b (List.mem_cons_of_mem _ member)

/-- Where a pattern is local to an element, the matches before it and those behind it are apart. -/
theorem allMatches_local (isLocal : ∀ before, Local stop (pattern before))
    (nowhere : ∀ before back, pattern before (stop :: back) = none) (within : skip ≤ front.length) :
    allMatches pattern before skip (front ++ stop :: back) =
      (allMatches pattern before skip (front ++ [stop])).map (fun found => (found.1, found.2 ++ back)) ++
        allMatches pattern stop 0 back := by
  induction front generalizing before skip with
  | nil =>
    obtain rfl : skip = 0 := Nat.le_zero.mp within
    rw [List.nil_append, List.nil_append, allMatches_none (nowhere before back), allMatches_none (nowhere before [])]
    rfl
  | cons c front ih =>
    cases skip with
    | succ skip => exact ih (Nat.le_of_succ_le_succ within)
    | zero =>
      have step := isLocal before (c :: front)
      rw [List.cons_append, List.cons_append]
      rcases step with fails | ⟨value, rest, suffix, reads⟩
      · have absent := fails back
        have absent' := fails []
        rw [List.cons_append] at absent absent'
        rw [allMatches_none absent, allMatches_none absent', ih (Nat.zero_le _)]
      · have found := reads back
        have found' := reads []
        rw [List.cons_append] at found found'
        have same (back : List α) : (front ++ stop :: back).length - (rest ++ stop :: back).length =
            front.length - rest.length := by
          simp only [List.length_append, List.length_cons]
          omega
        rw [allMatches_some found, allMatches_some found', same, same, ih (Nat.sub_le ..)]
        simp

/-- Every match is one of the pattern at some place. -/
theorem exists_of_mem_allMatches {found : β × List α} (member : found ∈ allMatches pattern before skip cs) :
    ∃ b place, place <:+ cs ∧ pattern b place = some found := by
  induction cs generalizing before skip with
  | nil => cases member
  | cons c cs ih =>
    have later {b : α} {n : Nat} (member : found ∈ allMatches pattern b n cs) :
        ∃ b place, place <:+ c :: cs ∧ pattern b place = some found := by
      obtain ⟨b', place, suffix, matches_⟩ := ih member
      exact ⟨b', place, suffix.trans (List.suffix_cons ..), matches_⟩
    cases skip with
    | succ skip => exact later member
    | zero =>
      cases here : pattern before (c :: cs) with
      | none =>
        rw [allMatches_none here] at member
        exact later member
      | some first =>
        rw [allMatches_some here] at member
        rcases List.mem_cons.mp member with same | member
        · exact ⟨before, c :: cs, List.suffix_rfl, by rw [here, same]⟩
        · exact later member

/-- There is no match exactly where the pattern matches at no place. -/
theorem allMatches_eq_nil_iff : allMatches pattern before 0 cs = [] ↔
    ∀ front c back, cs = front ++ c :: back → pattern (front.getLast?.getD before) (c :: back) = none := by
  induction cs generalizing before with
  | nil => exact ⟨fun _ front c back split => absurd split.symm (by simp), fun _ => rfl⟩
  | cons d cs ih =>
    have last (front : List α) : (d :: front).getLast?.getD before = front.getLast?.getD d := by
      rw [List.getLast?_cons]
      rfl
    cases here : pattern before (d :: cs) with
    | some first =>
      rw [allMatches_some here]
      refine ⟨fun none_ => absurd none_ (by simp), fun nowhere => ?_⟩
      have absent := nowhere [] d cs rfl
      exact absurd (here.symm.trans absent) (Option.some_ne_none _)
    | none =>
      rw [allMatches_none here, ih]
      constructor
      · intro nowhere front c back split
        cases front with
        | nil =>
          cases split
          exact here
        | cons e front =>
          injection split with same split
          subst same
          rw [last]
          exact nowhere front c back split
      · intro nowhere front c back split
        rw [← last]
        exact nowhere (d :: front) c back (by rw [split, List.cons_append])

end AllMatches

/-! ### The first match of a pattern -/

def firstMatch (pattern : Option α → List α → Option β) (before : Option α) : List α → Option β
  | [] => none
  | c :: cs => (pattern before (c :: cs)).or (firstMatch pattern (some c) cs)

/-- The pattern reads `b` at a place of a list. -/
def MatchAt (pattern : Option α → List α → Option β) (before : Option α) (cs : List α) (place : Nat) (b : β) : Prop :=
  ∃ front c back, cs = front ++ c :: back ∧ front.length = place ∧ pattern (front.getLast?.or before) (c :: back) = some b

section FirstMatch
variable {pattern : Option α → List α → Option β} {before : Option α} {c : α} {cs : List α} {b : β}

theorem matchAt_zero : MatchAt pattern before (c :: cs) 0 b ↔ pattern before (c :: cs) = some b := by
  constructor
  · rintro ⟨front, d, back, split, empty, reads⟩
    obtain rfl := List.length_eq_zero_iff.mp empty
    cases split
    exact reads
  · exact fun reads => ⟨[], c, cs, rfl, rfl, reads⟩

theorem matchAt_succ {place : Nat} :
    MatchAt pattern before (c :: cs) (place + 1) b ↔ MatchAt pattern (some c) cs place b := by
  have last (front : List α) : (c :: front).getLast?.or before = front.getLast?.or (some c) := by
    rw [List.getLast?_cons]
    cases front.getLast? <;> rfl
  constructor
  · rintro ⟨front, d, back, split, length, reads⟩
    cases front with
    | nil => cases length
    | cons e front =>
      injection split with same split
      subst same
      exact ⟨front, d, back, split, Nat.succ.inj length, last front ▸ reads⟩
  · rintro ⟨front, d, back, split, length, reads⟩
    exact ⟨c :: front, d, back, by rw [split, List.cons_append], by rw [List.length_cons, length], (last front).symm ▸ reads⟩

/-- The first match is at a place with none before it. -/
theorem firstMatch_eq_some_iff : firstMatch pattern before cs = some b ↔
    ∃ place, MatchAt pattern before cs place b ∧ ∀ earlier < place, ∀ other, ¬ MatchAt pattern before cs earlier other := by
  induction cs generalizing before with
  | nil =>
    constructor
    · intro found
      cases found
    · rintro ⟨_, ⟨front, c, back, split, _⟩, _⟩
      exact absurd split (by simp)
  | cons c cs ih =>
    rw [firstMatch]
    cases here : pattern before (c :: cs) with
    | some first =>
      rw [Option.some_or]
      constructor
      · intro same
        exact ⟨0, matchAt_zero.mpr (here.trans same), fun earlier less => absurd less (Nat.not_lt_zero _)⟩
      · rintro ⟨place, isMatch, none_⟩
        cases place with
        | zero => exact here.symm.trans (matchAt_zero.mp isMatch)
        | succ place => exact absurd (matchAt_zero.mpr here) (none_ 0 (Nat.succ_pos _) first)
    | none =>
      rw [Option.none_or, ih]
      constructor
      · rintro ⟨place, isMatch, none_⟩
        refine ⟨place + 1, matchAt_succ.mpr isMatch, fun earlier less other => ?_⟩
        cases earlier with
        | zero => exact fun isMatch => Option.some_ne_none _ ((matchAt_zero.mp isMatch).symm.trans here)
        | succ earlier => exact fun isMatch => none_ earlier (Nat.lt_of_succ_lt_succ less) other (matchAt_succ.mp isMatch)
      · rintro ⟨place, isMatch, none_⟩
        cases place with
        | zero => exact absurd ((matchAt_zero.mp isMatch).symm.trans here) (Option.some_ne_none _)
        | succ place =>
          exact ⟨place, matchAt_succ.mp isMatch, fun earlier less other isMatch =>
            none_ (earlier + 1) (Nat.succ_lt_succ less) other (matchAt_succ.mpr isMatch)⟩

theorem firstMatch_eq_none_iff : firstMatch pattern before cs = none ↔ ∀ place b, ¬ MatchAt pattern before cs place b := by
  induction cs generalizing before with
  | nil =>
    refine iff_of_true rfl fun place b => ?_
    rintro ⟨front, c, back, split, _⟩
    exact absurd split (by simp)
  | cons c cs ih =>
    rw [firstMatch, Option.or_eq_none_iff, ih]
    constructor
    · rintro ⟨here, later⟩ place b isMatch
      cases place with
      | zero => exact Option.some_ne_none _ ((matchAt_zero.mp isMatch).symm.trans here)
      | succ place => exact later place b (matchAt_succ.mp isMatch)
    · intro nowhere
      refine ⟨Option.eq_none_iff_forall_ne_some.mpr fun b reads => nowhere 0 b (matchAt_zero.mpr reads), fun place b isMatch => ?_⟩
      exact nowhere (place + 1) b (matchAt_succ.mpr isMatch)

end FirstMatch

end Readers
