import Mathlib.Data.List.Basic
import Mathlib.Data.List.Induction
import Mathlib.Data.List.TakeWhile

/-! Entries with levels, one after the other, and a stack whose length is the
level of the last one. A history has its latest entry first, a stack has its top
last. -/

namespace Outline
variable {α β : Type} {level : α → Nat}
variable (history : List α)

/-- The latest entry of a smaller level. -/
def enclosing (level : α → Nat) (history : List α) (l : Nat) : Option α := history.find? fun a => level a < l

/-- Entries leave the stack until it is shorter than `l`. -/
def popped (l : Nat) (stack : List β) : List β := stack.take (l - 1)

/-- An entry is put on the stack until it is as long as its level. -/
def pushed (l : Nat) (b : β) (stack : List β) : List β := stack ++ List.replicate (l - stack.length) b

def stack (level : α → Nat) : List α → List α
  | [] => []
  | a :: history => pushed (level a) a (popped (level a) (stack level history))

/-- The entry of a stack at a place: one of a level right above it, or the first
that came when the stack ended below. -/
def slot (level : α → Nat) (i : Nat) : List α → Option α
  | [] => none
  | a :: history =>
    if level a ≤ i then none else if level a = i + 1 then some a else (slot level i history).or (some a)

/-- What encloses the next entry if it has no level, the nearest first. -/
def enclosers (level : α → Nat) : List α → List α
  | [] => []
  | a :: history => a :: (enclosers level history).filter fun b => level b < level a

/-- What encloses the next entry if its level is `l`. -/
def enclosersAt (level : α → Nat) (history : List α) (l : Nat) : List α :=
  (enclosers level history).filter fun a => level a < l

def selected (P : List α → α → Bool) (before : List α) : List α → List α
  | [] => []
  | a :: rest => (if P before a then [a] else []) ++ selected P (before ++ [a]) rest

theorem length_popped (l : Nat) (s : List β) : (popped l s).length = min (l - 1) s.length := List.length_take

theorem length_pushed_popped (l : Nat) (b : β) (s : List β) : (pushed l b (popped l s)).length = l := by
  rw [pushed, List.length_append, List.length_replicate, length_popped]
  omega

theorem map_popped {γ : Type} (f : β → γ) (l : Nat) (s : List β) : (popped l s).map f = popped l (s.map f) :=
  List.map_take ..

theorem map_pushed {γ : Type} (f : β → γ) (l : Nat) (b : β) (s : List β) :
    (pushed l b s).map f = pushed l (f b) (s.map f) := by
  rw [pushed, pushed, List.map_append, List.map_replicate, List.length_map]

theorem mem_pushed_popped {l : Nat} {b c : β} {s : List β} (member : c ∈ pushed l b (popped l s)) : c = b ∨ c ∈ s := by
  rcases List.mem_append.mp member with kept | new
  · exact Or.inr (List.mem_of_mem_take kept)
  · exact Or.inl (List.eq_of_mem_replicate new)

theorem mem_stack {history : List α} {a : α} (member : a ∈ stack level history) : a ∈ history := by
  induction history with
  | nil => cases member
  | cons b history ih =>
    rcases mem_pushed_popped member with rfl | earlier
    · exact List.mem_cons_self ..
    · exact List.mem_cons_of_mem _ (ih earlier)

theorem length_stack_cons (a : α) (history : List α) : (stack level (a :: history)).length = level a :=
  length_pushed_popped ..

theorem getElem?_stack (i : Nat) : (stack level history)[i]? = slot level i history := by
  induction history generalizing i with
  | nil => rfl
  | cons a history ih =>
    have kept : (popped (level a) (stack level history)).length = min (level a - 1) (stack level history).length :=
      length_popped ..
    have earlier : slot level i history = none ↔ (stack level history).length ≤ i := by
      rw [← ih, List.getElem?_eq_none_iff]
    unfold slot
    by_cases beyond : level a ≤ i
    · rw [if_pos beyond, List.getElem?_eq_none_iff, length_stack_cons]
      exact beyond
    · rw [if_neg beyond, stack, pushed]
      by_cases own : level a = i + 1
      · rw [if_pos own, List.getElem?_append_right (by omega), List.getElem?_replicate, if_pos (by omega)]
      · rw [if_neg own]
        by_cases short : (stack level history).length ≤ i
        · rw [List.getElem?_append_right (by omega), List.getElem?_replicate, if_pos (by omega), earlier.mpr short]
          rfl
        · rw [List.getElem?_append_left (by omega), popped, List.getElem?_take_of_lt (by omega), ih]
          cases found : slot level i history with
          | none => exact absurd (earlier.mp found) short
          | some b => rfl

/-- Below an entry that is at least two levels down, the stack holds the
enclosing entry where this one is exactly one level up. -/
theorem slot_eq_enclosing {a : α} {history : List α} {i : Nat} (deep : i + 2 ≤ level a) :
    slot level i (a :: history) = enclosing level (a :: history) (i + 2) ↔
      (enclosing level (a :: history) (i + 2)).map level = some (i + 1) := by
  have here : slot level i (a :: history) = (slot level i history).or (some a) := by
    rw [slot, if_neg (by omega), if_neg (by omega)]
  have onward : enclosing level (a :: history) (i + 2) = enclosing level history (i + 2) := by
    rw [enclosing, List.find?_cons_of_neg (by simpa using deep)]
    rfl
  rw [here, onward]
  clear here onward
  induction history generalizing a with
  | nil => simp [slot, enclosing]
  | cons b history ih =>
    by_cases low : level b ≤ i
    · have different : a ≠ b := by
        rintro rfl
        omega
      have found : enclosing level (b :: history) (i + 2) = some b :=
        List.find?_cons_of_pos (by simp only [decide_eq_true_eq]; omega)
      rw [slot, if_pos low, found, Option.none_or, Option.map_some]
      simp only [Option.some.injEq]
      constructor
      · exact fun same => absurd same different
      · omega
    · by_cases own : level b = i + 1
      · have found : enclosing level (b :: history) (i + 2) = some b :=
          List.find?_cons_of_pos (by simp only [decide_eq_true_eq]; omega)
        rw [slot, if_neg low, if_pos own, found, Option.some_or, Option.map_some, own]
        simp
      · have onward : enclosing level (b :: history) (i + 2) = enclosing level history (i + 2) := by
          rw [enclosing, List.find?_cons_of_neg (by simp only [decide_eq_true_eq]; omega)]
          rfl
        have below := @ih b (by omega)
        rw [slot, if_neg low, if_neg own, onward, Option.or_assoc, Option.some_or]
        exact below

/-- An entry of level `l` follows the enclosing one directly, or is exactly one
level below it. -/
def Stepwise (level : α → Nat) (history : List α) (l : Nat) : Prop :=
  ∀ a ∈ history.head?, level a < l ∨ ((enclosing level history l).elim 0 level) + 1 = l

theorem getLast?_stack (positive : ∀ a ∈ history, 1 ≤ level a) : (stack level history).getLast? = history.head? := by
  cases history with
  | nil => rfl
  | cons a history =>
    have own : 1 ≤ level a := positive a (List.mem_cons_self ..)
    rw [List.getLast?_eq_getElem?, getElem?_stack, length_stack_cons, slot, if_neg (by omega), if_pos (by omega)]
    rfl

/-- The top of the stack where an entry of level `l` comes is the enclosing entry
exactly when the entry is stepwise. -/
theorem getLast?_popped (positive : ∀ a ∈ history, 1 ≤ level a) {l : Nat} (isLevel : 1 ≤ l) :
    (popped l (stack level history)).getLast? = enclosing level history l ↔ Stepwise level history l := by
  cases history with
  | nil =>
    simp only [Stepwise, stack, popped, enclosing, List.take_nil, List.find?_nil, List.getLast?_nil, List.head?_nil,
      true_iff]
    rintro a member
    cases member
  | cons a history =>
    simp only [Stepwise, List.head?_cons, Option.mem_some_iff, forall_eq']
    by_cases above : level a < l
    · have whole : popped l (stack level (a :: history)) = stack level (a :: history) :=
        List.take_of_length_le (by rw [length_stack_cons]; omega)
      rw [whole, getLast?_stack _ positive, enclosing, List.find?_cons_of_pos (by simpa using above), List.head?_cons]
      exact iff_of_true rfl (Or.inl above)
    · rw [or_iff_right above]
      rcases Nat.lt_or_ge 1 l with deep | top
      · obtain ⟨i, rfl⟩ : ∃ i, l = i + 2 := ⟨l - 2, by omega⟩
        have last : (popped (i + 2) (stack level (a :: history))).getLast? = slot level i (a :: history) := by
          have length : (popped (i + 2) (stack level (a :: history))).length = i + 1 := by
            rw [length_popped, length_stack_cons]
            omega
          rw [List.getLast?_eq_getElem?, length, popped, List.getElem?_take_of_lt (by omega), getElem?_stack]
          rfl
        rw [last, slot_eq_enclosing (by omega)]
        cases enclosing level (a :: history) (i + 2) with
        | none => simp
        | some b => simp
      · obtain rfl : l = 1 := by omega
        have none : enclosing level (a :: history) 1 = none := by
          rw [enclosing, List.find?_eq_none]
          intro b member
          have := positive b member
          simp only [decide_eq_true_eq]
          omega
        rw [none]
        exact iff_of_true rfl rfl

theorem enclosing_map {level' : β → Nat} {f : α → β} (same : ∀ a, level' (f a) = level a) (history : List α) (l : Nat) :
    enclosing level' (history.map f) l = (enclosing level history l).map f := by
  rw [enclosing, List.find?_map]
  simp only [Function.comp_def, same]
  rfl

theorem stepwise_map (l : Nat) : Stepwise id (history.map level) l ↔ Stepwise level history l := by
  have heads : (history.map level).head? = history.head?.map level := List.head?_map
  have nearest := @enclosing_map _ _ level id level (fun _ => rfl) history l
  unfold Stepwise
  rw [heads, nearest]
  cases history.head? with
  | none => simp
  | some a => cases enclosing level history l <;> simp

/-- Each entry of a list stands in `P` to what comes before it. -/
def EachAfter (P : List α → α → Prop) (l : List α) : Prop := ∀ before a after, l = before ++ a :: after → P before a

theorem eachAfter_nil (P : List α → α → Prop) : EachAfter P [] := by
  intro before a after split
  have lengths := congrArg List.length split
  rw [List.length_append, List.length_cons, List.length_nil] at lengths
  omega

theorem eachAfter_concat {P : List α → α → Prop} {l : List α} {a : α} :
    EachAfter P (l ++ [a]) ↔ EachAfter P l ∧ P l a := by
  constructor
  · intro each
    refine ⟨?_, each l a [] rfl⟩
    intro before b after split
    exact each before b (after ++ [a]) (by rw [split, List.append_assoc, List.cons_append])
  · rintro ⟨each, last⟩ before b after split
    cases after using List.reverseRecOn with
    | nil =>
      obtain ⟨rfl, same⟩ := List.append_inj' split rfl
      obtain rfl := List.singleton_inj.mp same
      exact last
    | append_singleton after c =>
      rw [← List.cons_append, ← List.append_assoc] at split
      obtain ⟨rfl, _⟩ := List.append_inj' split rfl
      exact each before b after rfl

theorem eachAfter_map {P : List β → β → Prop} {f : α → β} {l : List α} :
    EachAfter P (l.map f) ↔ EachAfter (fun before a => P (before.map f) (f a)) l := by
  induction l using List.reverseRecOn with
  | nil => exact iff_of_true (eachAfter_nil _) (eachAfter_nil _)
  | append_singleton l a ih => rw [List.map_append, List.map_singleton, eachAfter_concat, eachAfter_concat, ih]

theorem enclosers_pairwise : (enclosers level history).Pairwise fun a b => level b < level a := by
  induction history with
  | nil => exact List.Pairwise.nil
  | cons a history ih =>
    refine List.pairwise_cons.mpr ⟨?_, ih.filter _⟩
    intro b listed
    simpa using (List.mem_filter.mp listed).2

/-- What encloses an entry of a level is the outer part of what encloses one without. -/
theorem enclosersAt_suffix (l : Nat) : enclosersAt level history l <:+ enclosers level history := by
  have falling := @enclosers_pairwise _ level history
  unfold enclosersAt
  generalize enclosers level history = chain at falling ⊢
  induction chain with
  | nil => exact List.suffix_refl _
  | cons a outer ih =>
    obtain ⟨above, falling⟩ := List.pairwise_cons.mp falling
    by_cases below : level a < l
    · have whole : (a :: outer).filter (fun a => level a < l) = a :: outer := by
        rw [List.filter_eq_self]
        intro b listed
        rcases List.mem_cons.mp listed with rfl | inOuter
        · simpa using below
        · have := above b inOuter
          simp only [decide_eq_true_eq]
          omega
      exact ⟨[], whole⟩
    · rw [List.filter_cons_of_neg (by simpa using below)]
      exact (ih falling).trans (List.suffix_cons _ _)

theorem mem_of_selected {P : List α → α → Bool} {before l : List α} {a : α} (member : a ∈ selected P before l) : a ∈ l := by
  induction l generalizing before with
  | nil => cases member
  | cons b rest ih =>
    rcases List.mem_append.mp member with here | later
    · split at here
      · rw [List.mem_singleton.mp here]
        exact List.mem_cons_self ..
      · cases here
    · exact List.mem_cons_of_mem _ (ih later)

theorem mem_selected {P : List α → α → Bool} {before l : List α} {a : α} :
    a ∈ selected P before l ↔ ∃ first rest, l = first ++ a :: rest ∧ P (before ++ first) a = true := by
  induction l generalizing before with
  | nil => simp [selected]
  | cons b l ih =>
    rw [selected, List.mem_append, ih]
    constructor
    · rintro (here | ⟨first, rest, rfl, passes⟩)
      · split at here
        · rename_i passes
          obtain rfl := List.mem_singleton.mp here
          exact ⟨[], l, rfl, by simpa using passes⟩
        · cases here
      · exact ⟨b :: first, rest, rfl, by simpa using passes⟩
    · rintro ⟨first, rest, split, passes⟩
      cases first with
      | nil =>
        obtain ⟨rfl, rfl⟩ := List.cons.inj split
        rw [List.append_nil] at passes
        exact Or.inl (by simp [passes])
      | cons c first =>
        obtain ⟨rfl, rfl⟩ := List.cons.inj split
        exact Or.inr ⟨first, rest, rfl, by simpa using passes⟩

theorem selected_map {f : α → β} {P : List β → β → Bool} {before l : List α} :
    (selected (fun first a => P (first.map f) (f a)) before l).map f = selected P (before.map f) (l.map f) := by
  induction l generalizing before with
  | nil => rfl
  | cons a l ih =>
    rw [selected, List.map_append, ih, List.map_cons, selected, List.map_append, List.map_singleton]
    cases P (before.map f) (f a) <;> rfl

/-- Entries that a key tells apart are selected alike exactly when each of them
passes the one or the other. -/
theorem selected_map_eq_iff {κ γ : Type} {key : α → κ} {f : α → γ} {P Q : List α → α → Bool} {before l : List α}
    (nodup : (l.map key).Nodup) (reads : ∀ a ∈ l, ∀ b ∈ l, f a = f b → key a = key b) :
    (selected P before l).map f = (selected Q before l).map f ↔
      EachAfter (fun first a => P (before ++ first) a = Q (before ++ first) a) l := by
  induction l generalizing before with
  | nil => exact iff_of_true rfl (eachAfter_nil _)
  | cons a l ih =>
    obtain ⟨fresh, nodup⟩ := List.nodup_cons.mp nodup
    have onward := @ih (before ++ [a]) nodup fun b listed c listed' =>
      reads b (List.mem_cons_of_mem _ listed) c (List.mem_cons_of_mem _ listed')
    have head : EachAfter (fun first b => P (before ++ first) b = Q (before ++ first) b) (a :: l) ↔
        P before a = Q before a ∧ EachAfter (fun first b => P (before ++ [a] ++ first) b = Q (before ++ [a] ++ first) b) l := by
      constructor
      · intro each
        refine ⟨by simpa using each [] a l rfl, ?_⟩
        rintro first b rest rfl
        simpa using each (a :: first) b rest rfl
      · rintro ⟨here, each⟩ first b rest split
        cases first with
        | nil =>
          obtain ⟨rfl, rfl⟩ := List.cons.inj split
          simpa using here
        | cons c first =>
          obtain ⟨rfl, rfl⟩ := List.cons.inj split
          simpa using each first b rest rfl
    have foreign : ∀ {R : List α → α → Bool}, f a ∉ (selected R (before ++ [a]) l).map f := by
      intro R listed
      obtain ⟨b, chosen, same⟩ := List.mem_map.mp listed
      have inList := mem_of_selected chosen
      exact fresh (List.mem_map.mpr ⟨b, inList, reads b (List.mem_cons_of_mem _ inList) a (List.mem_cons_self ..) same⟩)
    rw [head, ← onward, selected, selected]
    cases P before a with
    | true =>
      cases Q before a with
      | true => simp
      | false =>
        refine iff_of_false (fun same => ?_) (by simp)
        exact @foreign Q (by rw [← show _ = (selected Q (before ++ [a]) l).map f from same]; simp)
    | false =>
      cases Q before a with
      | true =>
        refine iff_of_false (fun same => ?_) (by simp)
        exact @foreign P (by rw [show (selected P (before ++ [a]) l).map f = _ from same]; simp)
      | false => simp

end Outline
