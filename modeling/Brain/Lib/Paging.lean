import Brain.Lib.Calls
import Mathlib.Data.List.Basic

namespace Calls
variable {κ ε σ α β : Type}

/-- `while True: turn; offset += size`, where a turn tells whether it breaks.
`none` when `turns` turns did not suffice. -/
def paged (size : Nat) (turn : Nat → β → Prog κ ε σ (β × Bool)) : Nat → Nat → β → Prog κ ε σ (Option β)
  | 0, _, _ => pure none
  | turns + 1, offset, acc => do
    let (acc, last) ← turn offset acc
    if last then pure (some acc) else paged size turn turns (offset + size) acc

/-- A loop whose offset stays within `limit` ends within the turns that reach it. -/
theorem Meets.paged {o : Outside κ ε} {size limit turns offset : Nat} {turn : Nat → β → Prog κ ε σ (β × Bool)}
    {acc : β} {s : σ} {Q : Except (Raised κ ε) (Option β) → σ → Prop} (I : Nat → β → σ → Prop)
    (start : I offset acc s) (bounded : ∀ offset acc t, I offset acc t → offset ≤ limit)
    (step : ∀ offset acc t, I offset acc t → Meets o (turn offset acc) t (byResult
      (fun r u => if r.2 then Q (.ok (some r.1)) u else I (offset + size) r.1 u) (fun e u => Q (.error e) u)))
    (enough : limit < offset + turns * size) : Meets o (Calls.paged size turn turns offset acc) s Q := by
  induction turns generalizing offset acc s with
  | zero =>
    have within := bounded offset acc s start
    omega
  | succ turns ih =>
    refine Meets.seq _ (step offset acc s start) ?_ (fun _ _ stopped => stopped)
    rintro ⟨next, last⟩ t reached
    cases last with
    | true => exact Meets.pure reached
    | false =>
      have later : limit < offset + size + turns * size := by
        rw [Nat.succ_mul] at enough
        omega
      exact ih reached later

theorem Preserves.paged {I : σ → Prop} {size : Nat} {turn : Nat → β → Prog κ ε σ (β × Bool)}
    (turns : ∀ offset acc, Preserves I (turn offset acc)) (limit offset : Nat) (acc : β) :
    Preserves I (Calls.paged size turn limit offset acc) := by
  induction limit generalizing offset acc with
  | zero => exact Preserves.pure none
  | succ limit ih =>
    refine Preserves.bind (turns offset acc) fun next => ?_
    obtain ⟨next, last⟩ := next
    cases last with
    | true => exact Preserves.pure _
    | false => exact ih _ _

/-- `t` is reached from `s` by one `step` for each element of a list in turn,
with `idle` moves in between. -/
inductive InTurn (step : α → σ → σ → Prop) (idle : σ → σ → Prop) (s : σ) : List α → σ → Prop
  | start : InTurn step idle s [] s
  | idle {l : List α} {t u : σ} (turns : InTurn step idle s l t) (moves : idle t u) : InTurn step idle s l u
  | step {l : List α} {a : α} {t u : σ} (turns : InTurn step idle s l t) (moves : step a t u) :
      InTurn step idle s (l ++ [a]) u

namespace InTurn
variable {step broken : α → σ → σ → Prop} {idle : σ → σ → Prop} {s t u : σ} {l l' : List α}

theorem trans (first : InTurn step idle s l t) (second : InTurn step idle t l' u) : InTurn step idle s (l ++ l') u := by
  induction second with
  | start => rwa [List.append_nil]
  | idle _ moves ih => exact ih.idle moves
  | step _ moves ih =>
    rw [← List.append_assoc]
    exact ih.step moves

/-- A preorder that contains every step and every idle move contains the walk. -/
theorem within {R : σ → σ → Prop} [IsPreorder σ R] (walk : InTurn step idle s l t)
    (steps : ∀ a ∈ l, ∀ t u, step a t u → R t u) (idles : ∀ t u, idle t u → R t u) : R s t := by
  induction walk with
  | start => exact refl_of R s
  | idle _ moves ih => exact trans_of R (ih steps) (idles _ _ moves)
  | @step l a _ _ _ moves ih =>
    have early := ih fun other member => steps other (List.mem_append_left _ member)
    exact trans_of R early (steps a (by simp) _ _ moves)

end InTurn

/-- A walk over `l` stopped at `t`: between two steps, or inside one. -/
def StopsIn (step broken : α → σ → σ → Prop) (idle : σ → σ → Prop) (s : σ) (l : List α) (t : σ) : Prop :=
  ∃ done rest u, l = done ++ rest ∧ InTurn step idle s done u ∧ (t = u ∨ ∃ a ∈ rest.head?, broken a u t)

namespace StopsIn
variable {step broken : α → σ → σ → Prop} {idle : σ → σ → Prop} {s t u : σ} {l l' : List α}

theorem before (walk : InTurn step idle s l t) (l' : List α) : StopsIn step broken idle s (l ++ l') t :=
  ⟨l, l', t, rfl, walk, Or.inl rfl⟩

theorem after (walk : InTurn step idle s l t) (stops : StopsIn step broken idle t l' u) (l'' : List α) :
    StopsIn step broken idle s (l ++ l' ++ l'') u := by
  obtain ⟨done, rest, v, rfl, early, at'⟩ := stops
  refine ⟨l ++ done, rest ++ l'', v, by simp, walk.trans early, at'.imp_right ?_⟩
  rintro ⟨a, first, moves⟩
  refine ⟨a, ?_, moves⟩
  cases rest with
  | nil => cases first
  | cons => exact first

theorem within {R : σ → σ → Prop} [IsPreorder σ R] (stops : StopsIn step broken idle s l t)
    (steps : ∀ a ∈ l, ∀ t u, step a t u → R t u) (breaks : ∀ a ∈ l, ∀ t u, broken a t u → R t u)
    (idles : ∀ t u, idle t u → R t u) : R s t := by
  obtain ⟨done, rest, u, rfl, early, at'⟩ := stops
  have before := early.within (fun a member => steps a (List.mem_append_left _ member)) idles
  rcases at' with rfl | ⟨a, first, moves⟩
  · exact before
  · have member : a ∈ rest := List.mem_of_mem_head? first
    exact trans_of R before (breaks a (List.mem_append_right _ member) _ _ moves)

end StopsIn

/-- A `for` loop walks through its list, and an exception comes from one of its turns. -/
theorem Meets.forEach_inTurn {o : Outside κ ε} {body : α → Prog κ ε σ Unit} {l : List α} {s : σ}
    {step broken : α → σ → σ → Prop} (idle : σ → σ → Prop) {E : Raised κ ε → Prop} (I : σ → Prop) (start : I s)
    (turn : ∀ a ∈ l, ∀ t, I t → Meets o (body a) t (byResult (fun _ u => step a t u ∧ I u)
      (fun e u => E e ∧ broken a t u))) :
    Meets o (Calls.forEach body l) s (byResult (fun _ t => InTurn step idle s l t ∧ I t)
      (fun e t => E e ∧ StopsIn step broken idle s l t)) := by
  induction l generalizing s with
  | nil => exact Meets.pure ⟨.start, start⟩
  | cons a l ih =>
    refine Meets.seq _ (turn a (List.mem_cons_self ..) s start) ?_ ?_
    · rintro _ t ⟨moves, kept⟩
      have first : InTurn step idle s [a] t := InTurn.start.step moves
      refine (ih kept fun b member => turn b (List.mem_cons_of_mem _ member)).mono ?_
      intro r u reached
      cases r with
      | ok _ => exact ⟨first.trans reached.1, reached.2⟩
      | error e =>
        refine ⟨reached.1, ?_⟩
        have stops := StopsIn.after first reached.2 []
        rwa [List.append_nil] at stops
    · rintro e t ⟨raised, broke⟩
      exact ⟨raised, [], a :: l, s, rfl, .start, Or.inr ⟨a, rfl, broke⟩⟩

end Calls

/-! ### What a paged reading of a list sees -/

namespace Paging
variable {ρ α : Type} (parse : ρ → Option α) (size : Nat) (l : List ρ)

/-- The elements of the first page that are accepted. -/
def page : List α := (l.take size).filterMap parse

/-- The number of elements before the first rejected one. -/
def accepted : Nat := (l.takeWhile fun r => (parse r).isSome).length

/-- How far a reading goes that stops at the first page with less than `size`
accepted elements. -/
def reach : Nat := (accepted parse l / size + 1) * size

def read : List α := (l.take (reach parse size l)).filterMap parse

/-- No accepted element is on a later page than a rejected one. -/
def Tidy : Prop := ∀ (i j : Nat) (r r' : ρ), l[i]? = some r → parse r = none → l[j]? = some r' →
  (parse r').isSome = true → j / size ≤ i / size

variable {parse size l}

theorem accepted_cons {r : ρ} : accepted parse (r :: l) = if (parse r).isSome then accepted parse l + 1 else 0 := by
  unfold accepted
  rw [List.takeWhile_cons]
  split <;> rfl

theorem page_short_iff : (page parse size l).length < size ↔ accepted parse l < size := by
  induction size generalizing l with
  | zero => simp
  | succ size ih =>
    cases l with
    | nil => simp [page, accepted]
    | cons r l =>
      have rest := ih (l := l)
      unfold page at rest ⊢
      rw [accepted_cons, List.take_succ_cons]
      cases parsed : parse r with
      | none =>
        have most : ((l.take size).filterMap parse).length ≤ size :=
          Nat.le_trans (List.length_filterMap_le _ _) (List.length_take_le _ _)
        simp [parsed]
        omega
      | some a =>
        simp [parsed]
        omega

theorem accepted_drop {n : Nat} (full : n ≤ accepted parse l) : accepted parse (l.drop n) = accepted parse l - n := by
  induction n generalizing l with
  | zero => rfl
  | succ n ih =>
    cases l with
    | nil => simp [accepted] at full
    | cons r l =>
      rw [accepted_cons] at full ⊢
      split at full
      · rename_i parsed
        rw [if_pos parsed, List.drop_succ_cons, ih (by omega)]
        omega
      · omega

theorem accepted_le : accepted parse l ≤ l.length := (List.takeWhile_prefix _).length_le

theorem read_of_short (short : (page parse size l).length < size) : read parse size l = page parse size l := by
  have few := page_short_iff.mp short
  rw [read, reach, Nat.div_eq_of_lt few, Nat.zero_add, Nat.one_mul, page]

theorem read_of_full (full : ¬ (page parse size l).length < size) (positive : 0 < size) :
    read parse size l = page parse size l ++ read parse size (l.drop size) := by
  have many : size ≤ accepted parse l := Nat.le_of_not_lt fun few => full (page_short_iff.mpr few)
  have further : reach parse size l = size + reach parse size (l.drop size) := by
    have quotient : accepted parse l / size = (accepted parse l - size) / size + 1 := Nat.div_eq_sub_div positive many
    rw [reach, reach, accepted_drop many, quotient]
    simp only [Nat.add_mul, Nat.one_mul]
    omega
  rw [read, further, List.take_add, List.filterMap_append]
  rfl

theorem page_prefix (positive : 0 < size) : ∃ later, read parse size l = page parse size l ++ later := by
  by_cases short : (page parse size l).length < size
  · exact ⟨[], by rw [read_of_short short, List.append_nil]⟩
  · exact ⟨_, read_of_full short positive⟩

theorem length_of_full (full : ¬ (page parse size l).length < size) : size ≤ l.length :=
  Nat.le_trans (Nat.le_of_not_lt fun few => full (page_short_iff.mpr few)) accepted_le

/-- At a page that is not the last, a reading goes on with the page at the next offset. -/
theorem read_of_full_at {offset : Nat} {p : List α} (isPage : page parse size (l.drop (offset - 1)) = p)
    (first : 1 ≤ offset) (full : ¬ p.length < size) (positive : 0 < size) :
    offset + size ≤ l.length + 1 ∧
      read parse size (l.drop (offset - 1)) = p ++ read parse size (l.drop (offset + size - 1)) := by
  rw [← isPage] at full ⊢
  have further := length_of_full full
  rw [List.length_drop] at further
  have next : offset - 1 + size = offset + size - 1 := by omega
  refine ⟨by omega, ?_⟩
  rw [read_of_full full positive, List.drop_drop, next]

theorem filterMap_eq_read : l.filterMap parse = read parse size l ++ (l.drop (reach parse size l)).filterMap parse := by
  rw [read, ← List.filterMap_append, List.take_append_drop]

theorem read_prefix : read parse size l <+: l.filterMap parse := ⟨_, filterMap_eq_read.symm⟩

theorem accepted_of_lt {i : Nat} {r : ρ} (at' : l[i]? = some r) (before : i < accepted parse l) : (parse r).isSome = true := by
  induction l generalizing i with
  | nil => simp at at'
  | cons x l ih =>
    rw [accepted_cons] at before
    split at before
    · rename_i parsed
      cases i with
      | zero =>
        cases at'
        exact parsed
      | succ i => exact ih at' (by omega)
    · omega

theorem rejected_at {r : ρ} (at' : l[accepted parse l]? = some r) : parse r = none := by
  induction l with
  | nil => simp at at'
  | cons x l ih =>
    rw [accepted_cons] at at'
    split at at'
    · exact ih at'
    · rename_i rejected
      cases at'
      simpa using rejected

/-- A reading sees every accepted element exactly when none is on a later page
than a rejected one. -/
theorem read_complete_iff (positive : 0 < size) : (read parse size l).Perm (l.filterMap parse) ↔ Tidy parse size l := by
  have beyond : (read parse size l).Perm (l.filterMap parse) ↔ ∀ r ∈ l.drop (reach parse size l), parse r = none := by
    rw [← List.filterMap_eq_nil_iff]
    constructor
    · intro perm
      have lengths := perm.length_eq
      rw [@filterMap_eq_read _ _ _ size, List.length_append] at lengths
      exact List.length_eq_zero_iff.mp (by omega)
    · intro none
      rw [@filterMap_eq_read _ _ _ size l, none, List.append_nil]
  rw [beyond]
  constructor
  · intro none i j r r' atI rejected atJ parsed
    have first : accepted parse l ≤ i := by
      by_contra early
      have taken := accepted_of_lt atI (Nat.lt_of_not_le early)
      rw [rejected] at taken
      cases taken
    have early : j < reach parse size l := by
      by_contra late
      have member : r' ∈ l.drop (reach parse size l) := by
        refine List.mem_of_getElem? (i := j - reach parse size l) ?_
        rw [List.getElem?_drop, Nat.add_sub_cancel' (Nat.le_of_not_lt late)]
        exact atJ
      rw [none r' member] at parsed
      cases parsed
    have onPage : j / size < accepted parse l / size + 1 := (Nat.div_lt_iff_lt_mul positive).mpr early
    have ordered : accepted parse l / size ≤ i / size := Nat.div_le_div_right first
    omega
  · intro tidy r' member
    obtain ⟨k, atK⟩ := List.mem_iff_getElem?.mp member
    rw [List.getElem?_drop] at atK
    by_contra parsed
    have parsed : (parse r').isSome = true := Option.isSome_iff_ne_none.mpr parsed
    have inside : accepted parse l < l.length := by
      have below : accepted parse l < reach parse size l := Nat.lt_mul_of_div_lt (Nat.lt_succ_self _) positive
      have listed := (List.getElem?_eq_some_iff.mp atK).1
      omega
    have onPage := tidy _ _ _ _ (List.getElem?_eq_getElem inside) (rejected_at (List.getElem?_eq_getElem inside)) atK parsed
    have late : accepted parse l / size + 1 ≤ (reach parse size l + k) / size := by
      rw [Nat.le_div_iff_mul_le positive]
      exact Nat.le_add_right _ _
    omega

/-- The same for a reading that starts at a later element: it must not leave out
an accepted one before. -/
theorem read_drop_complete_iff (positive : 0 < size) (k : Nat) :
    (read parse size (l.drop k)).Perm (l.filterMap parse) ↔
      (∀ r ∈ l.take k, parse r = none) ∧ Tidy parse size (l.drop k) := by
  have whole : l.filterMap parse = (l.take k).filterMap parse ++ (l.drop k).filterMap parse := by
    rw [← List.filterMap_append, List.take_append_drop]
  rw [← read_complete_iff positive, ← List.filterMap_eq_nil_iff]
  constructor
  · intro perm
    have lengths := perm.length_eq
    have most := List.IsPrefix.length_le (@ read_prefix _ _ parse size (l.drop k))
    rw [whole, List.length_append] at lengths
    have skipped : (l.take k).filterMap parse = [] := List.length_eq_zero_iff.mp (by omega)
    rw [whole, skipped, List.nil_append] at perm
    exact ⟨skipped, perm⟩
  · rintro ⟨skipped, perm⟩
    rw [whole, skipped, List.nil_append]
    exact perm

end Paging
