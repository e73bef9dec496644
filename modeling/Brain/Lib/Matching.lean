import Mathlib.Data.List.Perm.Subperm

/-! Lists that can be matched with a part of another list, one element for one. -/

namespace Matching
variable {α β : Type} {f : α → Option β} {R : β → α → Prop} {as : List α}

/-- Every element of the first list can be given one of the second, to no two
of them the same. -/
def Matched (R : β → α → Prop) (bs : List β) (as : List α) : Prop :=
  ∃ chosen : List α, chosen.Subperm as ∧ List.Forall₂ R bs chosen

theorem length_filterMap (f : α → Option β) (as : List α) :
    (as.filterMap f).length = (as.filter fun a => (f a).isSome).length := by
  induction as with
  | nil => rfl
  | cons a as ih => cases fa : f a <;> simp [fa, ih]

/-- What a list gives is matched with what gives it. -/
theorem forall₂_filterMap (holds : ∀ a ∈ as, ∀ b, f a = some b → R b a) :
    List.Forall₂ R (as.filterMap f) (as.filter fun a => (f a).isSome) := by
  induction as with
  | nil => exact .nil
  | cons a as ih =>
    have rest := ih fun other member => holds other (List.mem_cons_of_mem _ member)
    cases fa : f a with
    | none => simpa [fa] using rest
    | some b =>
      have here : R b a := holds a (List.mem_cons_self ..) b fa
      simpa [fa] using And.intro here rest

theorem exists_of_forall₂ {bs : List β} (all : List.Forall₂ R bs as) {a : α} (member : a ∈ as) : ∃ b ∈ bs, R b a := by
  induction all with
  | nil => cases member
  | cons here _ ih =>
    rcases List.mem_cons.mp member with rfl | later
    · exact ⟨_, List.mem_cons_self .., here⟩
    · obtain ⟨b, listed, related⟩ := ih later
      exact ⟨b, List.mem_cons_of_mem _ listed, related⟩

/-- Where only what gives an element can be matched with it, all is matched
exactly when each element is matched with what gives it. -/
theorem matched_iff (gives : ∀ b ∈ as.filterMap f, ∀ a ∈ as, R b a → f a = some b) :
    Matched R (as.filterMap f) as ↔ ∀ a ∈ as, ∀ b, f a = some b → R b a := by
  constructor
  · rintro ⟨chosen, within, all⟩ a member b isGiven
    have giver : ∀ c ∈ chosen, ∃ d, f c = some d ∧ R d c := by
      intro c isChosen
      obtain ⟨d, listed, related⟩ := exists_of_forall₂ all isChosen
      exact ⟨d, gives d listed c (within.subset isChosen) related, related⟩
    have kept : chosen.filter (fun c => (f c).isSome) = chosen := by
      refine List.filter_eq_self.mpr fun c isChosen => ?_
      obtain ⟨d, isGiven, _⟩ := giver c isChosen
      rw [isGiven]
      rfl
    -- all that gives an element is chosen, since there are as many of the one as of the other
    have inside := within.filter fun c => (f c).isSome
    rw [kept] at inside
    have many : (as.filter fun c => (f c).isSome).length = chosen.length :=
      (length_filterMap f as).symm.trans all.length_eq
    have isChosen : a ∈ chosen :=
      (inside.perm_of_length_le (Nat.le_of_eq many)).mem_iff.mpr (List.mem_filter.mpr ⟨member, by rw [isGiven]; rfl⟩)
    obtain ⟨d, isGiven', related⟩ := giver a isChosen
    obtain rfl : b = d := Option.some.inj (isGiven.symm.trans isGiven')
    exact related
  · intro holds
    exact ⟨_, List.filter_sublist.subperm, forall₂_filterMap holds⟩

end Matching
