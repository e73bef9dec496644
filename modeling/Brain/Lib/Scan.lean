import Mathlib.Data.List.Basic

/-! A scan goes through a list until it has counted `limit` elements, and skips some. -/

namespace Scan
variable {α : Type} (skip counts : α → Bool) (limit : Nat)

/-- The elements that a scan takes after it has counted `n`. -/
def taken : List α → Nat → List α
  | [], _ => []
  | x :: xs, n =>
    if limit ≤ n then []
    else if skip x then taken xs n
    else x :: taken xs (if counts x then n + 1 else n)

/-- What a scan that reaches the end counts. -/
def weight (l : List α) : Nat := l.countP fun x => !skip x && counts x

variable {skip counts limit} {early late l : List α} {x : α} {n : Nat}

theorem weight_cons : weight skip counts (x :: l) = weight skip counts l + if !skip x && counts x then 1 else 0 :=
  List.countP_cons

/-- The limit stops a scan before what comes after enough counted elements. -/
theorem not_mem_taken (absent : x ∉ early) (full : limit ≤ n + weight skip counts early) :
    x ∉ taken skip counts limit (early ++ x :: late) n := by
  induction early generalizing n with
  | nil =>
    have stopped : limit ≤ n := full
    rw [List.nil_append, taken, if_pos stopped]
    exact List.not_mem_nil
  | cons y early ih =>
    rw [List.mem_cons, not_or] at absent
    rw [weight_cons] at full
    rw [List.cons_append, taken]
    by_cases stopped : limit ≤ n
    · rw [if_pos stopped]
      exact List.not_mem_nil
    rw [if_neg stopped]
    by_cases skipped : skip y = true
    · rw [if_pos skipped]
      exact ih absent.2 (by simpa [skipped] using full)
    rw [if_neg skipped, List.mem_cons, not_or]
    refine ⟨absent.1, ih absent.2 ?_⟩
    by_cases counted : counts y = true
    · simp [skipped, counted] at full ⊢
      omega
    · simpa [skipped, counted] using full

/-- A scan takes everything it does not skip in a part that the limit allows. -/
theorem mem_taken (member : x ∈ l) (taking : skip x = false) (counted : counts x = true)
    (within : n + weight skip counts l ≤ limit) : x ∈ taken skip counts limit (l ++ late) n := by
  induction l generalizing n with
  | nil => cases member
  | cons y l ih =>
    rw [weight_cons] at within
    have open' : ¬ limit ≤ n := by
      have positive : 0 < weight skip counts (y :: l) := List.countP_pos_iff.mpr ⟨x, member, by simp [taking, counted]⟩
      rw [weight_cons] at positive
      omega
    rw [List.cons_append, taken, if_neg open']
    rcases List.mem_cons.mp member with rfl | later
    · simp [taking]
    by_cases skipped : skip y = true
    · rw [if_pos skipped]
      exact ih later (by simpa [skipped] using within)
    rw [if_neg skipped]
    refine List.mem_cons_of_mem _ (ih later ?_)
    by_cases counts' : counts y = true
    · simp [skipped, counts'] at within ⊢
      omega
    · simpa [skipped, counts'] using within

variable {p : α → Bool}

/-- The element that has `k` selected ones before it. -/
theorem split_at_filter {k : Nat} (more : k < (l.filter p).length) :
    ∃ early x late, l = early ++ x :: late ∧ p x = true ∧ (early.filter p).length = k := by
  induction l generalizing k with
  | nil => simp at more
  | cons y l ih =>
    by_cases selected : p y = true
    · cases k with
      | zero => exact ⟨[], y, l, rfl, selected, rfl⟩
      | succ k =>
        have rest : k < (l.filter p).length := by
          rw [List.filter_cons_of_pos selected, List.length_cons] at more
          omega
        obtain ⟨early, x, late, rfl, isSelected, before⟩ := ih rest
        refine ⟨y :: early, x, late, rfl, isSelected, ?_⟩
        rw [List.filter_cons_of_pos selected, List.length_cons, before]
    · rw [List.filter_cons_of_neg selected] at more
      obtain ⟨early, x, late, rfl, isSelected, before⟩ := ih more
      refine ⟨y :: early, x, late, rfl, isSelected, ?_⟩
      rw [List.filter_cons_of_neg selected, before]

theorem filter_le_weight (implies : ∀ y ∈ l, p y = true → skip y = false ∧ counts y = true) :
    (l.filter p).length ≤ weight skip counts l := by
  rw [← List.countP_eq_length_filter]
  refine List.countP_mono_left fun y listed selected => ?_
  obtain ⟨taking, counted⟩ := implies y listed selected
  simp [taking, counted]

theorem weight_le_filter (implies : ∀ y ∈ l, skip y = false → p y = true) :
    weight skip counts l ≤ (l.filter p).length := by
  rw [← List.countP_eq_length_filter]
  refine List.countP_mono_left fun y listed weighs => ?_
  simp only [Bool.and_eq_true, Bool.not_eq_true'] at weighs
  exact implies y listed weighs.1

end Scan
