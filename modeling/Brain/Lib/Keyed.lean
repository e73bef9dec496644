import Mathlib.Data.List.Nodup

section Put
variable {α κ : Type} [DecidableEq κ]

/-- Replaces the entry that has the key of `a` where it stands, or appends `a`
when no entry has that key. -/
def putKeyed (key : α → κ) (a : α) : List α → List α
  | [] => [a]
  | b :: bs => if key b = key a then a :: bs else b :: putKeyed key a bs

variable {key : α → κ} {a : α} {l : List α}

theorem map_key_putKeyed_of_mem (member : key a ∈ l.map key) :
    (putKeyed key a l).map key = l.map key := by
  induction l with
  | nil => simp at member
  | cons b bs ih =>
    unfold putKeyed
    split
    · rename_i same
      simp [same]
    · rename_i other
      have later : key a ∈ bs.map key := by
        rcases List.mem_cons.mp member with same | later
        · exact absurd same.symm other
        · exact later
      simp [ih later]

theorem putKeyed_of_not_mem (absent : key a ∉ l.map key) : putKeyed key a l = l ++ [a] := by
  induction l with
  | nil => rfl
  | cons b bs ih =>
    simp only [List.map_cons, List.mem_cons, not_or] at absent
    simp [putKeyed, Ne.symm absent.1, ih absent.2]

theorem nodup_putKeyed (nodup : (l.map key).Nodup) : ((putKeyed key a l).map key).Nodup := by
  by_cases member : key a ∈ l.map key
  · rwa [map_key_putKeyed_of_mem member]
  · rw [putKeyed_of_not_mem member, List.map_append, List.nodup_append]
    refine ⟨nodup, by simp, ?_⟩
    intro k old k' new
    simp only [List.map_cons, List.map_nil, List.mem_singleton] at new
    subst new
    exact fun same => member (same ▸ old)

theorem mem_putKeyed (nodup : (l.map key).Nodup) {x : α} :
    x ∈ putKeyed key a l ↔ x = a ∨ (x ∈ l ∧ key x ≠ key a) := by
  induction l with
  | nil => simp [putKeyed]
  | cons b bs ih =>
    simp only [List.map_cons, List.nodup_cons, List.mem_map, not_exists, not_and] at nodup
    unfold putKeyed
    split
    · rename_i same
      have others : x ∈ bs → key x ≠ key a := fun member equal => nodup.1 x member (equal.trans same.symm)
      simp only [List.mem_cons]
      constructor
      · rintro (rfl | member)
        · exact Or.inl rfl
        · exact Or.inr ⟨Or.inr member, others member⟩
      · rintro (rfl | ⟨rfl | member, other⟩)
        · exact Or.inl rfl
        · exact absurd same other
        · exact Or.inr member
    · rename_i other
      simp only [List.mem_cons, ih nodup.2]
      constructor
      · rintro (rfl | rfl | ⟨member, different⟩)
        · exact Or.inr ⟨Or.inl rfl, other⟩
        · exact Or.inl rfl
        · exact Or.inr ⟨Or.inr member, different⟩
      · rintro (rfl | ⟨rfl | member, different⟩)
        · exact Or.inr (Or.inl rfl)
        · exact Or.inl rfl
        · exact Or.inr (Or.inr ⟨member, different⟩)

/-- A view that cannot tell the new entry from the one it replaces is unchanged. -/
theorem map_putKeyed {β : Type} (f : α → β) (agree : ∀ b ∈ l, key b = key a → f b = f a)
    (present : key a ∈ l.map key) : (putKeyed key a l).map f = l.map f := by
  induction l with
  | nil => simp at present
  | cons b bs ih =>
    unfold putKeyed
    split
    · rename_i same
      simp [agree b (List.mem_cons_self ..) same]
    · rename_i other
      have later : key a ∈ bs.map key := by
        rcases List.mem_cons.mp present with same | later
        · exact absurd same.symm other
        · exact later
      simp [ih (fun c member => agree c (List.mem_cons_of_mem _ member)) later]

/-- A search whose test the new entry passes exactly when the entry it replaces
does finds the same place, now holding the new entry. -/
theorem find?_putKeyed (p : α → Bool) (agree : ∀ b ∈ l, key b = key a → p b = p a)
    (present : key a ∈ l.map key) :
    (putKeyed key a l).find? p = (l.find? p).map (fun b => if key b = key a then a else b) := by
  induction l with
  | nil => simp at present
  | cons b bs ih =>
    unfold putKeyed
    by_cases same : key b = key a
    · rw [if_pos same]
      have tests := agree b (List.mem_cons_self ..) same
      cases found : p a with
      | true => simp [found, tests, same]
      | false =>
        simp only [List.find?_cons, found, tests]
        cases rest : bs.find? p with
        | none => rfl
        | some c =>
          have passes := List.find?_some rest
          have inRest := List.mem_of_find?_eq_some rest
          have different : key c ≠ key a := by
            intro equal
            have := agree c (List.mem_cons_of_mem _ inRest) equal
            simp [found, passes] at this
          simp [different]
    · rw [if_neg same]
      have later : key a ∈ bs.map key := by
        rcases List.mem_cons.mp present with equal | later
        · exact absurd equal.symm same
        · exact later
      have rest := ih (fun c member => agree c (List.mem_cons_of_mem _ member)) later
      cases found : p b with
      | true => simp [found, same]
      | false => simp [found, rest]

theorem putKeyed_of_mem (nodup : (l.map key).Nodup) (stored : a ∈ l) : putKeyed key a l = l := by
  induction l with
  | nil => simp at stored
  | cons b bs ih =>
    simp only [List.map_cons, List.nodup_cons] at nodup
    unfold putKeyed
    rcases List.mem_cons.mp stored with rfl | later
    · rw [if_pos rfl]
    · have other : key b ≠ key a := fun same => nodup.1 (same ▸ List.mem_map_of_mem later)
      rw [if_neg other, ih nodup.2 later]

/-- Of two writes under one key the second alone shows. -/
theorem putKeyed_putKeyed {b : α} (same : key a = key b) :
    putKeyed key b (putKeyed key a l) = putKeyed key b l := by
  induction l with
  | nil => simp [putKeyed, same]
  | cons c cs ih =>
    by_cases here : key c = key b
    · simp [putKeyed, same, here]
    · simp [putKeyed, same, here, ih]

/-- A write shows in a part of the table that its key belongs to, and in no other. -/
theorem filter_putKeyed (p : κ → Bool) :
    (putKeyed key a l).filter (fun x => p (key x)) =
      if p (key a) then putKeyed key a (l.filter fun x => p (key x)) else l.filter fun x => p (key x) := by
  induction l with
  | nil => cases own : p (key a) <;> simp [putKeyed, own]
  | cons b bs ih =>
    simp only [putKeyed]
    by_cases same : key b = key a
    · rw [if_pos same, List.filter_cons, List.filter_cons, same]
      cases own : p (key a) <;> simp [putKeyed, same]
    · rw [if_neg same, List.filter_cons, List.filter_cons, ih]
      cases own : p (key a) with
      | false => simp
      | true =>
        cases listed : p (key b) with
        | false => simp
        | true => simp [putKeyed, same]

end Put

/-- An insertion-ordered table in which no two entries have the same key. -/
structure Keyed {α κ : Type} (key : α → κ) where
  items : List α
  nodup : (items.map key).Nodup

namespace Keyed
variable {α κ : Type} {key : α → κ}

def empty : Keyed key := ⟨[], List.nodup_nil⟩

instance : Inhabited (Keyed key) := ⟨empty⟩

@[simp] theorem items_empty : (empty : Keyed key).items = [] := rfl

variable {t : Keyed key}

theorem ext_items {u : Keyed key} (same : t.items = u.items) : t = u := by
  cases t
  cases u
  exact Keyed.mk.injEq .. ▸ same

variable {a : α}

theorem key_injective (t : Keyed key) {b : α} (left : a ∈ t.items) (right : b ∈ t.items) (same : key a = key b)
    : a = b :=
  List.inj_on_of_nodup_map t.nodup left right same

variable [DecidableEq κ]

def get (t : Keyed key) (k : κ) : Option α := t.items.find? (fun a => key a = k)

def upsert (t : Keyed key) (a : α) : Keyed key := ⟨putKeyed key a t.items, nodup_putKeyed t.nodup⟩

def delete (t : Keyed key) (k : κ) : Keyed key :=
  ⟨t.items.filter (fun a => key a ≠ k), (List.filter_sublist.map key).nodup t.nodup⟩

/-- Keeps the entries that pass a test. -/
def filter (t : Keyed key) (p : α → Bool) : Keyed key :=
  ⟨t.items.filter p, (List.filter_sublist.map key).nodup t.nodup⟩

theorem get_eq_some {k : κ} : t.get k = some a ↔ a ∈ t.items ∧ key a = k := by
  constructor
  · intro found
    exact ⟨List.mem_of_find?_eq_some found, by simpa using List.find?_some found⟩
  · rintro ⟨member, rfl⟩
    cases found : t.get (key a) with
    | none =>
      have missing := List.find?_eq_none.mp found a member
      simp at missing
    | some b =>
      have other : b ∈ t.items ∧ key b = key a :=
        ⟨List.mem_of_find?_eq_some found, by simpa using List.find?_some found⟩
      rw [t.key_injective other.1 member other.2]

theorem get_eq_none {k : κ} : t.get k = none ↔ ∀ a ∈ t.items, key a ≠ k := by
  simp [get]

theorem mem_upsert {x : α} : x ∈ (t.upsert a).items ↔ x = a ∨ (x ∈ t.items ∧ key x ≠ key a) :=
  mem_putKeyed t.nodup

theorem mem_upsert_self (t : Keyed key) (a : α) : a ∈ (t.upsert a).items :=
  mem_upsert.mpr (Or.inl rfl)

theorem items_upsert_fresh (fresh : ∀ b ∈ t.items, key b ≠ key a) : (t.upsert a).items = t.items ++ [a] := by
  apply putKeyed_of_not_mem
  simpa using fresh

/-- Writing what is stored already changes nothing, and nothing else does so. -/
theorem upsert_eq_self : t.upsert a = t ↔ a ∈ t.items := by
  constructor
  · intro same
    rw [← same]
    exact mem_upsert_self t a
  · intro stored
    exact ext_items (putKeyed_of_mem t.nodup stored)

theorem upsert_upsert {b : α} (same : key a = key b) : (t.upsert a).upsert b = t.upsert b :=
  ext_items (putKeyed_putKeyed same)

variable {as : List α}

/-- Entries with new keys go to the end of the table, in order. -/
theorem items_foldl_upsert_fresh (fresh : ∀ a ∈ as, ∀ b ∈ t.items, key b ≠ key a) (nodup : (as.map key).Nodup)
    : (as.foldl upsert t).items = t.items ++ as := by
  induction as generalizing t with
  | nil => simp
  | cons a as ih =>
    simp only [List.map_cons, List.nodup_cons] at nodup
    have first := items_upsert_fresh (fresh a (List.mem_cons_self ..))
    rw [List.foldl_cons, ih ?_ nodup.2, first, List.append_assoc, List.singleton_append]
    intro b later c stored
    rw [first] at stored
    rcases List.mem_append.mp stored with old | new
    · exact fresh b (List.mem_cons_of_mem _ later) c old
    · rw [List.mem_singleton.mp new]
      exact fun same => nodup.1 (same ▸ List.mem_map_of_mem later)

theorem filter_upsert (t : Keyed key) (a : α) (p : κ → Bool) :
    (t.upsert a).filter (fun x => p (key x)) =
      if p (key a) then (t.filter fun x => p (key x)).upsert a else t.filter fun x => p (key x) := by
  apply ext_items
  have items := @filter_putKeyed _ _ _ key a t.items p
  cases own : p (key a) <;> simpa [filter, upsert, own] using items

/-- Writes to one part of a table are writes to that part alone. -/
theorem filter_foldl_upsert {p : κ → Bool} (own : ∀ a ∈ as, p (key a) = true) (t : Keyed key) :
    (as.foldl upsert t).filter (fun x => p (key x)) = as.foldl upsert (t.filter fun x => p (key x)) := by
  induction as generalizing t with
  | nil => rfl
  | cons a as ih =>
    have first := filter_upsert t a p
    rw [if_pos (own a (List.mem_cons_self ..))] at first
    rw [List.foldl_cons, ih (fun b later => own b (List.mem_cons_of_mem _ later)), first, List.foldl_cons]

theorem filter_foldl_upsert_other {p : κ → Bool} (other : ∀ a ∈ as, p (key a) = false) (t : Keyed key) :
    (as.foldl upsert t).filter (fun x => p (key x)) = t.filter fun x => p (key x) := by
  induction as generalizing t with
  | nil => rfl
  | cons a as ih =>
    have first := filter_upsert t a p
    rw [other a (List.mem_cons_self ..), if_neg Bool.false_ne_true] at first
    rw [List.foldl_cons, ih (fun b later => other b (List.mem_cons_of_mem _ later)), first]

theorem foldl_upsert_stored (stored : ∀ a ∈ as, a ∈ t.items) : as.foldl upsert t = t := by
  induction as with
  | nil => rfl
  | cons a as ih =>
    rw [List.foldl_cons, upsert_eq_self.mpr (stored a (List.mem_cons_self ..))]
    exact ih fun b later => stored b (List.mem_cons_of_mem _ later)

theorem mem_foldl_upsert {x : α} (member : x ∈ (as.foldl upsert t).items) : x ∈ t.items ∨ x ∈ as := by
  induction as generalizing t with
  | nil => exact Or.inl member
  | cons a as ih =>
    rcases ih member with before | later
    · rcases mem_upsert.mp before with rfl | ⟨old, _⟩
      · exact Or.inr (List.mem_cons_self ..)
      · exact Or.inl old
    · exact Or.inr (List.mem_cons_of_mem _ later)

/-- What is stored stays while other keys are written. -/
theorem stays_foldl_upsert (stored : a ∈ t.items) (others : ∀ b ∈ as, key b ≠ key a)
    : a ∈ (as.foldl upsert t).items := by
  induction as generalizing t with
  | nil => exact stored
  | cons b as ih =>
    apply ih
    · exact mem_upsert.mpr (Or.inr ⟨stored, (others b (List.mem_cons_self ..)).symm⟩)
    · exact fun c later => others c (List.mem_cons_of_mem _ later)

theorem stored_foldl_upsert (nodup : (as.map key).Nodup) (member : a ∈ as) : a ∈ (as.foldl upsert t).items := by
  induction as generalizing t with
  | nil => cases member
  | cons b as ih =>
    simp only [List.map_cons, List.nodup_cons] at nodup
    rcases List.mem_cons.mp member with rfl | later
    · apply stays_foldl_upsert (mem_upsert_self t a)
      intro c inRest same
      exact nodup.1 (same ▸ List.mem_map_of_mem inRest)
    · exact ih nodup.2 later

@[simp] theorem get_upsert_self (t : Keyed key) (a : α) : (t.upsert a).get (key a) = some a :=
  get_eq_some.mpr ⟨mem_upsert_self t a, rfl⟩

theorem get_upsert_ne (t : Keyed key) {k : κ} (other : k ≠ key a) : (t.upsert a).get k = t.get k := by
  apply Option.ext
  intro b
  simp only [get_eq_some, mem_upsert]
  constructor
  · rintro ⟨rfl | ⟨member, _⟩, rfl⟩
    · exact absurd rfl other
    · exact ⟨member, rfl⟩
  · rintro ⟨member, rfl⟩
    exact ⟨Or.inr ⟨member, other⟩, rfl⟩

theorem get_upsert (t : Keyed key) (a : α) (k : κ) :
    (t.upsert a).get k = if k = key a then some a else t.get k := by
  split
  · rename_i same
    rw [same, get_upsert_self]
  · rename_i other
    exact get_upsert_ne t other

theorem get_delete (t : Keyed key) (k k' : κ) : (t.delete k).get k' = if k' = k then none else t.get k' := by
  by_cases same : k' = k
  · rw [if_pos same, get_eq_none]
    intro a member
    rw [same]
    simpa using (List.mem_filter.mp member).2
  · rw [if_neg same]
    apply Option.ext
    intro a
    simp only [get_eq_some, delete, List.mem_filter, decide_eq_true_eq]
    constructor
    · rintro ⟨⟨member, _⟩, isKey⟩
      exact ⟨member, isKey⟩
    · rintro ⟨member, rfl⟩
      exact ⟨⟨member, same⟩, rfl⟩

theorem map_upsert {β : Type} {old : α} (f : α → β) (stored : old ∈ t.items) (same : key old = key a)
    (agree : f old = f a) : (t.upsert a).items.map f = t.items.map f := by
  apply map_putKeyed
  · intro b member equal
    rw [t.key_injective member stored (equal.trans same.symm), agree]
  · exact List.mem_map.mpr ⟨old, stored, same⟩

/-- Updating an entry in place leaves every search that cannot tell the old
entry from the new one at the same place. -/
theorem find?_upsert {old : α} (p : α → Bool) (stored : old ∈ t.items) (same : key old = key a) (agree : p old = p a) :
    (t.upsert a).items.find? p = (t.items.find? p).map (fun b => if key b = key a then a else b) := by
  apply find?_putKeyed
  · intro b member equal
    rw [t.key_injective member stored (equal.trans same.symm), agree]
  · exact List.mem_map.mpr ⟨old, stored, same⟩

omit [DecidableEq κ] in
/-- A filter that only one entry passes. -/
theorem filter_eq_singleton (p : α → Bool) (stored : a ∈ t.items) (passes : p a = true)
    (only : ∀ b ∈ t.items, p b = true → b = a) : t.items.filter p = [a] := by
  have nodup : (t.items.filter p).Nodup := (List.Nodup.of_map key t.nodup).filter p
  have member : a ∈ t.items.filter p := List.mem_filter.mpr ⟨stored, passes⟩
  have same : ∀ b ∈ t.items.filter p, b = a := by
    intro b inFilter
    obtain ⟨listed, hit⟩ := List.mem_filter.mp inFilter
    exact only b listed hit
  cases filtered : t.items.filter p with
  | nil => simp [filtered] at member
  | cons b bs =>
    rw [filtered] at nodup same
    have head := same b (List.mem_cons_self ..)
    cases bs with
    | nil => rw [head]
    | cons c cs =>
      have second := same c (by simp)
      rw [head, second] at nodup
      simp at nodup

end Keyed
