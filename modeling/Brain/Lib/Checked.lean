import Mathlib.Data.List.Basic

/-! Maps over a list whose function may refuse an element. -/

namespace Checked
variable {α β ε : Type} {f : α → Except ε β} {l : List α}

theorem bind_eq_ok {x : Except ε α} {next : α → Except ε β} {b : β} :
    (x >>= next) = .ok b ↔ ∃ a, x = .ok a ∧ next a = .ok b := by
  cases x with
  | error e =>
    constructor
    · intro done
      cases done
    · rintro ⟨a, taken, _⟩
      cases taken
  | ok a =>
    constructor
    · exact fun done => ⟨a, rfl, done⟩
    · rintro ⟨b, taken, done⟩
      cases taken
      exact done

theorem map_eq_ok {x : Except ε α} {g : α → β} {b : β} : x.map g = .ok b ↔ ∃ a, x = .ok a ∧ g a = b := by
  cases x with
  | error e =>
    constructor
    · intro done
      cases done
    · rintro ⟨a, taken, _⟩
      cases taken
  | ok a =>
    constructor
    · exact fun done => ⟨a, rfl, Except.ok.inj done⟩
    · rintro ⟨b, taken, rfl⟩
      cases taken
      rfl

theorem mapM_of_ok {g : α → β} (accepts : ∀ a ∈ l, f a = .ok (g a)) : l.mapM f = .ok (l.map g) := by
  induction l with
  | nil => rfl
  | cons a l ih =>
    rw [List.mapM_cons, accepts a (List.mem_cons_self ..), ih fun b later => accepts b (List.mem_cons_of_mem _ later)]
    rfl

/-- The elements of an accepted list are accepted one by one. -/
theorem forall₂_of_mapM {bs : List β} (accepted : l.mapM f = .ok bs) : List.Forall₂ (fun a b => f a = .ok b) l bs := by
  induction l generalizing bs with
  | nil =>
    cases accepted
    exact .nil
  | cons a l ih =>
    rw [List.mapM_cons] at accepted
    cases first : f a with
    | error e =>
      rw [first] at accepted
      cases accepted
    | ok b =>
      rw [first] at accepted
      cases rest : l.mapM f with
      | error e =>
        rw [rest] at accepted
        cases accepted
      | ok others =>
        rw [rest] at accepted
        cases accepted
        exact .cons first (ih rest)

/-- One refused element refuses the list. -/
theorem mapM_of_error {a : α} (member : a ∈ l) {e : ε} (refuses : f a = .error e) : ∃ e, l.mapM f = .error e := by
  induction l with
  | nil => cases member
  | cons b l ih =>
    rw [List.mapM_cons]
    cases first : f b with
    | error e => exact ⟨e, rfl⟩
    | ok value =>
      rcases List.mem_cons.mp member with rfl | later
      · rw [refuses] at first
        cases first
      · obtain ⟨e, rest⟩ := ih later
        rw [rest]
        exact ⟨e, rfl⟩

/-- Where each element is accepted or refused for a reason, the list is accepted
exactly when no element has the reason. -/
theorem mapM_ok_iff {g : α → β} {Bad : α → Prop} (refuses : ∀ a ∈ l, Bad a → ∃ e, f a = .error e)
    (accepts : ∀ a ∈ l, ¬ Bad a → f a = .ok (g a)) :
    (∃ bs, l.mapM f = .ok bs) ↔ ∀ a ∈ l, ¬ Bad a := by
  constructor
  · rintro ⟨bs, accepted⟩ a member bad
    obtain ⟨e, refused⟩ := refuses a member bad
    obtain ⟨e, whole⟩ := mapM_of_error member refused
    rw [accepted] at whole
    cases whole
  · intro good
    exact ⟨l.map g, mapM_of_ok fun a member => accepts a member (good a member)⟩

end Checked
