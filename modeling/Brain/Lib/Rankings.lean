import Brain.Lib.Keyed
import Mathlib.Data.List.Sort
import Mathlib.Order.Lattice

/-! Lists sorted by decreasing score, and tables that keep the best of several
entries with one key. -/

namespace Rankings
variable {α κ σ : Type} [LinearOrder σ] (score : α → σ)

/-- Elements of one score stay in their order. -/
def byScore (l : List α) : List α := l.mergeSort fun a b => decide (score b ≤ score a)

section Top
variable {score} {l : List α} {n : Nat}

variable (score) in
theorem byScore_perm (l : List α) : (byScore score l).Perm l := List.mergeSort_perm l _

theorem mem_byScore {a : α} : a ∈ byScore score l ↔ a ∈ l := (byScore_perm score l).mem_iff

variable (score) in
theorem byScore_pairwise (l : List α) : (byScore score l).Pairwise fun a b => score b ≤ score a := by
  have sorted : (byScore score l).Pairwise fun a b => decide (score b ≤ score a) = true := by
    apply List.pairwise_mergeSort
    · intro a b c first second
      exact decide_eq_true ((of_decide_eq_true second).trans (of_decide_eq_true first))
    · intro a b
      rcases le_total (score b) (score a) with below | above
      · simp [below]
      · simp [above]
  exact sorted.imp of_decide_eq_true

theorem mem_of_mem_take {a : α} (member : a ∈ (byScore score l).take n) : a ∈ l :=
  mem_byScore.mp (List.mem_of_mem_take member)

/-- What is cut off scores no higher than what is kept. -/
theorem le_of_dropped {kept dropped : α} (isKept : kept ∈ (byScore score l).take n) (listed : dropped ∈ l)
    (cut : dropped ∉ (byScore score l).take n) : score dropped ≤ score kept := by
  have sorted := byScore_pairwise score l
  have whole := List.take_append_drop n (byScore score l)
  have isDropped : dropped ∈ (byScore score l).drop n := by
    have member : dropped ∈ byScore score l := mem_byScore.mpr listed
    rw [← whole] at member
    exact (List.mem_append.mp member).resolve_left cut
  rw [← whole] at sorted
  exact (List.pairwise_append.mp sorted).2.2 kept isKept dropped isDropped

theorem take_byScore_nodup {key : α → κ} (nodup : (l.map key).Nodup) : (((byScore score l).take n).map key).Nodup :=
  ((List.take_sublist n _).map key).nodup (((byScore_perm score l).map key).nodup_iff.mpr nodup)

theorem mem_take_of_length_le {a : α} (short : l.length ≤ n) (listed : a ∈ l) : a ∈ (byScore score l).take n := by
  have length : (byScore score l).length ≤ n := by rwa [(byScore_perm score l).length_eq]
  rw [List.take_of_length_le length]
  exact mem_byScore.mpr listed

end Top

section Best
variable [DecidableEq κ] {key : α → κ}

/-- A hit enters where no entry has its key or the one that has scores lower. -/
def keepBest (table : Keyed key) (hit : α) : Keyed key :=
  match table.get (key hit) with
  | none => table.upsert hit
  | some existing => if score existing < score hit then table.upsert hit else table

/-- The entries are hits, and every hit has one under its key that scores at
least as high. -/
structure Best (table : Keyed key) (hits : List α) : Prop where
  among : ∀ a ∈ table.items, a ∈ hits
  best : ∀ hit ∈ hits, ∃ a ∈ table.items, key a = key hit ∧ score hit ≤ score a

variable {score} {table : Keyed key} {hits : List α}

omit [DecidableEq κ] in
theorem Best.empty : Best score (Keyed.empty : Keyed key) [] where
  among _ member := absurd member List.not_mem_nil
  best _ member := absurd member List.not_mem_nil

theorem Best.upsert (best : Best score table hits) {hit : α}
    (lower : ∀ a ∈ table.items, key a = key hit → score a ≤ score hit) : Best score (table.upsert hit) (hits ++ [hit]) where
  among a member := by
    rcases Keyed.mem_upsert.mp member with rfl | ⟨stored, _⟩
    · exact List.mem_append_right _ (List.mem_singleton_self a)
    · exact List.mem_append_left _ (best.among a stored)
  best other member := by
    rcases List.mem_append.mp member with earlier | last
    · obtain ⟨a, stored, same, above⟩ := best.best other earlier
      by_cases own : key a = key hit
      · exact ⟨hit, Keyed.mem_upsert_self table hit, own.symm.trans same, above.trans (lower a stored own)⟩
      · exact ⟨a, Keyed.mem_upsert.mpr (Or.inr ⟨stored, own⟩), same, above⟩
    · obtain rfl := List.mem_singleton.mp last
      exact ⟨other, Keyed.mem_upsert_self table other, rfl, le_refl _⟩

theorem Best.keepBest (best : Best score table hits) (hit : α) : Best score (keepBest score table hit) (hits ++ [hit]) := by
  unfold Rankings.keepBest
  cases found : table.get (key hit) with
  | none =>
    apply best.upsert
    intro a stored own
    exact absurd own (Keyed.get_eq_none.mp found a stored)
  | some existing =>
    obtain ⟨stored, own⟩ := Keyed.get_eq_some.mp found
    by_cases higher : score existing < score hit
    · show Best score (if score existing < score hit then table.upsert hit else table) _
      rw [if_pos higher]
      apply best.upsert
      intro a isStored same
      rw [table.key_injective isStored stored (same.trans own.symm)]
      exact higher.le
    · show Best score (if score existing < score hit then table.upsert hit else table) _
      rw [if_neg higher]
      refine ⟨fun a member => List.mem_append_left _ (best.among a member), fun other member => ?_⟩
      rcases List.mem_append.mp member with earlier | last
      · exact best.best other earlier
      · obtain rfl := List.mem_singleton.mp last
        exact ⟨existing, stored, own, not_lt.mp higher⟩

theorem Best.foldl (best : Best score table hits) (more : List α) :
    Best score (more.foldl (Rankings.keepBest score) table) (hits ++ more) := by
  induction more generalizing table hits with
  | nil => rwa [List.append_nil]
  | cons hit more ih =>
    have rest := ih (best.keepBest hit)
    rwa [List.append_assoc, List.singleton_append] at rest

end Best

end Rankings
