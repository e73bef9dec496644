import Mathlib.Data.List.Range

/-! ### Attempts up to the first that stops -/

/-- The attempts from `first` on, `left` of them or up to the first that stops. -/
def upTo (stops : Nat → Bool) : Nat → Nat → List Nat
  | 0, _ => []
  | left + 1, first => first :: if stops first then [] else upTo stops left (first + 1)

section UpTo
variable {stops stops' : Nat → Bool} {left first : Nat}

/-- They are numbered without gaps, and the last one is the least that stops. -/
theorem upTo_eq_range (stops : Nat → Bool) (left first : Nat) : upTo stops left first =
    List.range' first (((List.range' first left).find? stops).elim left fun n => n + 1 - first) := by
  induction left generalizing first with
  | zero => rfl
  | succ left ih =>
    rw [upTo, List.range'_succ, List.find?_cons]
    cases stopped : stops first with
    | true =>
      have once : first + 1 - first = 1 := by omega
      simp [once]
    | false =>
      rw [if_neg Bool.false_ne_true, ih]
      cases later : (List.range' (first + 1) left).find? stops with
      | none => rfl
      | some n =>
        have above := (List.mem_range'_1.mp (List.mem_of_find?_eq_some later)).1
        have number : n + 1 - first = (n + 1 - (first + 1)) + 1 := by omega
        show first :: List.range' (first + 1) (n + 1 - (first + 1)) = List.range' first (n + 1 - first)
        rw [number, List.range'_succ]

theorem mem_upTo {n : Nat} : n ∈ upTo stops left first ↔
    first ≤ n ∧ n < first + left ∧ ∀ m, first ≤ m → m < n → stops m = false := by
  induction left generalizing first with
  | zero =>
    show n ∈ ([] : List Nat) ↔ _
    simp only [List.not_mem_nil, false_iff, not_and]
    omega
  | succ left ih =>
    rw [upTo, List.mem_cons]
    constructor
    · rintro (rfl | later)
      · exact ⟨Nat.le_refl _, by omega, fun m low high => absurd (Nat.lt_of_le_of_lt low high) (Nat.lt_irrefl _)⟩
      · split at later
        · cases later
        · rename_i goesOn
          obtain ⟨low, high, none⟩ := ih.mp later
          refine ⟨by omega, by omega, fun m from' before => ?_⟩
          rcases Nat.eq_or_lt_of_le from' with rfl | above
          · simpa using goesOn
          · exact none m above before
    · rintro ⟨low, high, none⟩
      rcases Nat.eq_or_lt_of_le low with same | above
      · exact Or.inl same.symm
      · rw [none first (Nat.le_refl _) above, if_neg Bool.false_ne_true]
        exact Or.inr (ih.mpr ⟨above, by omega, fun m from' => none m (by omega)⟩)

/-- Stopping more often makes no difference exactly when it only stops the last one. -/
theorem upTo_eq_upTo (more : ∀ n, stops n = true → stops' n = true) :
    upTo stops left first = upTo stops' left first ↔
      ∀ n ∈ upTo stops left first, stops' n = true → stops n = false → n + 1 = first + left := by
  induction left generalizing first with
  | zero => simp [upTo]
  | succ left ih =>
    rw [upTo, upTo, List.cons.injEq, List.forall_mem_cons]
    cases stopped : stops first with
    | true =>
      rw [more first stopped]
      simp
    | false =>
      rw [if_neg Bool.false_ne_true]
      cases stopped' : stops' first with
      | false =>
        rw [if_neg Bool.false_ne_true]
        have further : first + 1 + left = first + (left + 1) := by omega
        simp [ih, further]
      | true =>
        rw [if_pos rfl]
        cases left with
        | zero => simp [upTo]
        | succ left =>
          simp only [upTo, true_and, reduceCtorEq, false_iff, not_and]
          intro only
          have wrong := only trivial trivial
          omega

end UpTo
