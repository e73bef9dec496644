import Brain.Adapters.InMemory

namespace Brain

/-- The ids of the entities of a table with their references, in order of creation. -/
def identities {α : Type} {id : α → Uuid} (externalRefs : α → List ExternalReference) (table : Keyed id) :
    List (Uuid × List ExternalReference) :=
  table.items.map fun a => (id a, externalRefs a)

theorem identities_rewrite {α : Type} {id : α → Uuid} {externalRefs : α → List ExternalReference}
    {table : Keyed id} {old a : α} (stored : old ∈ table.items) (sameId : id old = id a)
    (sameRefs : externalRefs old = externalRefs a) :
    identities externalRefs (table.upsert a) = identities externalRefs table :=
  Keyed.map_upsert _ stored sameId (by rw [sameId, sameRefs])

theorem identities_create {α : Type} {id : α → Uuid} {externalRefs : α → List ExternalReference}
    {table : Keyed id} {a : α} (unused : ∀ b ∈ table.items, id b ≠ id a) :
    identities externalRefs (table.upsert a) = identities externalRefs table ++ [(id a, externalRefs a)] := by
  simp only [identities, Keyed.items_upsert_fresh unused, List.map_append, List.map_cons, List.map_nil]

/-- A table of entities the services created for OpenProject objects of one
type: each entity has the one reference it was created with, no two entities
have the same, and all ids were drawn before. -/
structure Registered {α : Type} {id : α → Uuid} (externalRefs : α → List ExternalReference)
    (externalType : String) (table : Keyed id) (nextUuid : Nat) : Prop where
  named : ∀ a ∈ table.items, ∃ x, externalRefs a = [openProjectRef x externalType]
  unique : ∀ a ∈ table.items, ∀ b ∈ table.items, externalRefs a = externalRefs b → a = b
  below : ∀ a ∈ table.items, (id a).Below nextUuid

namespace Registered
variable {α : Type} {id : α → Uuid} {externalRefs : α → List ExternalReference} {externalType : String}
  {table : Keyed id} {nextUuid : Nat}

theorem of_empty : Registered externalRefs externalType (Keyed.empty : Keyed id) nextUuid where
  named := by simp
  unique := by simp
  below := by simp

theorem later {later : Nat} (registered : Registered externalRefs externalType table nextUuid)
    (le : nextUuid ≤ later) : Registered externalRefs externalType table later where
  named := registered.named
  unique := registered.unique
  below a member := (registered.below a member).mono le

theorem fresh (registered : Registered externalRefs externalType table nextUuid) :
    ∀ a ∈ table.items, id a ≠ .v4 nextUuid :=
  fun a member => (registered.below a member).ne_fresh

variable {x : String}

theorem find_eq_some (registered : Registered externalRefs externalType table nextUuid) {a : α} :
    findByExternalRef externalRefs table.items "openproject" x (some externalType) = some a ↔
      a ∈ table.items ∧ externalRefs a = [openProjectRef x externalType] := by
  have hit : ∀ b ∈ table.items,
      (externalRefs b).any (fun ref => ref.refersTo "openproject" x (some externalType)) = true ↔
        externalRefs b = [openProjectRef x externalType] := by
    intro b member
    obtain ⟨y, named⟩ := registered.named b member
    simp [named, openProjectRef_refersTo, openProjectRef_inj]
  constructor
  · intro found
    unfold findByExternalRef at found
    have member := List.mem_of_find?_eq_some found
    have passes := List.find?_some found
    exact ⟨member, (hit a member).mp passes⟩
  · rintro ⟨member, refs⟩
    unfold findByExternalRef
    cases found : table.items.find? (fun entity =>
        (externalRefs entity).any (fun ref => ref.refersTo "openproject" x (some externalType))) with
    | none => exact absurd ((hit a member).mpr refs) (List.find?_eq_none.mp found a member)
    | some b =>
      have stored := List.mem_of_find?_eq_some found
      have passes := List.find?_some found
      have same := (hit b stored).mp passes
      rw [registered.unique b stored a member (same.trans refs.symm)]

theorem find_eq_none (registered : Registered externalRefs externalType table nextUuid) :
    findByExternalRef externalRefs table.items "openproject" x (some externalType) = none ↔
      ∀ a ∈ table.items, externalRefs a ≠ [openProjectRef x externalType] := by
  constructor
  · intro missing a member refs
    rw [registered.find_eq_some.mpr ⟨member, refs⟩] at missing
    cases missing
  · intro absent
    cases found : findByExternalRef externalRefs table.items "openproject" x (some externalType) with
    | none => rfl
    | some a =>
      have stored := registered.find_eq_some.mp found
      exact absurd stored.2 (absent a stored.1)

theorem create (registered : Registered externalRefs externalType table nextUuid) {a : α}
    (absent : findByExternalRef externalRefs table.items "openproject" x (some externalType) = none)
    (refs : externalRefs a = [openProjectRef x externalType]) (below : (id a).Below nextUuid) :
    Registered externalRefs externalType (table.upsert a) nextUuid := by
  have others := registered.find_eq_none.mp absent
  refine ⟨?_, ?_, ?_⟩
  · intro b member
    rcases Keyed.mem_upsert.mp member with rfl | ⟨old, _⟩
    · exact ⟨x, refs⟩
    · exact registered.named b old
  · intro b left c right same
    rcases Keyed.mem_upsert.mp left with rfl | ⟨oldLeft, _⟩ <;>
      rcases Keyed.mem_upsert.mp right with rfl | ⟨oldRight, _⟩
    · rfl
    · exact absurd (same.symm.trans refs) (others c oldRight)
    · exact absurd (same.trans refs) (others b oldLeft)
    · exact registered.unique b oldLeft c oldRight same
  · intro b member
    rcases Keyed.mem_upsert.mp member with rfl | ⟨old, _⟩
    · exact below
    · exact registered.below b old

theorem rewrite (registered : Registered externalRefs externalType table nextUuid) {old a : α}
    (stored : old ∈ table.items) (sameId : id old = id a) (sameRefs : externalRefs old = externalRefs a) :
    Registered externalRefs externalType (table.upsert a) nextUuid := by
  have others : ∀ b ∈ table.items, id b ≠ id a → externalRefs b ≠ externalRefs a := by
    intro b member different same
    have equal := registered.unique b member old stored (same.trans sameRefs.symm)
    exact different (equal ▸ sameId)
  refine ⟨?_, ?_, ?_⟩
  · intro b member
    rcases Keyed.mem_upsert.mp member with rfl | ⟨kept, _⟩
    · exact sameRefs ▸ registered.named old stored
    · exact registered.named b kept
  · intro b left c right same
    rcases Keyed.mem_upsert.mp left with rfl | ⟨keptLeft, differentLeft⟩ <;>
      rcases Keyed.mem_upsert.mp right with rfl | ⟨keptRight, differentRight⟩
    · rfl
    · exact absurd same.symm (others c keptRight differentRight)
    · exact absurd same (others b keptLeft differentLeft)
    · exact registered.unique b keptLeft c keptRight same
  · intro b member
    rcases Keyed.mem_upsert.mp member with rfl | ⟨kept, _⟩
    · exact sameId ▸ registered.below old stored
    · exact registered.below b kept

theorem find_create (registered : Registered externalRefs externalType table nextUuid) {a : α}
    (absent : findByExternalRef externalRefs table.items "openproject" x (some externalType) = none)
    (unused : ∀ b ∈ table.items, id b ≠ id a) (refs : externalRefs a = [openProjectRef x externalType])
    (below : (id a).Below nextUuid) (y : String) :
    findByExternalRef externalRefs (table.upsert a).items "openproject" y (some externalType) =
      if y = x then some a
      else findByExternalRef externalRefs table.items "openproject" y (some externalType) := by
  apply Option.ext
  intro b
  have created := registered.create absent refs below
  rw [created.find_eq_some, Keyed.mem_upsert]
  by_cases same : y = x
  · subst same
    simp only [if_true, Option.some.injEq]
    constructor
    · rintro ⟨rfl | ⟨old, _⟩, named⟩
      · rfl
      · exact absurd named (registered.find_eq_none.mp absent b old)
    · rintro rfl
      exact ⟨Or.inl rfl, refs⟩
  · rw [if_neg same, registered.find_eq_some]
    constructor
    · rintro ⟨rfl | ⟨old, _⟩, named⟩
      · rw [refs] at named
        simp only [List.cons.injEq, and_true, openProjectRef_inj] at named
        exact absurd named.symm same
      · exact ⟨old, named⟩
    · rintro ⟨old, named⟩
      exact ⟨Or.inr ⟨old, unused b old⟩, named⟩

theorem find_rewrite (registered : Registered externalRefs externalType table nextUuid) {old a : α}
    (found : findByExternalRef externalRefs table.items "openproject" x (some externalType) = some old)
    (sameId : id old = id a) (sameRefs : externalRefs old = externalRefs a) (y : String) :
    findByExternalRef externalRefs (table.upsert a).items "openproject" y (some externalType) =
      if y = x then some a
      else findByExternalRef externalRefs table.items "openproject" y (some externalType) := by
  obtain ⟨stored, oldRefs⟩ := registered.find_eq_some.mp found
  have refs := sameRefs.symm.trans oldRefs
  have rewritten := registered.rewrite stored sameId sameRefs
  apply Option.ext
  intro b
  rw [rewritten.find_eq_some, Keyed.mem_upsert]
  by_cases same : y = x
  · subst same
    simp only [if_true, Option.some.injEq]
    constructor
    · rintro ⟨rfl | ⟨kept, different⟩, named⟩
      · rfl
      · have equal := registered.unique b kept old stored (named.trans oldRefs.symm)
        exact absurd (equal ▸ sameId) different
    · rintro rfl
      exact ⟨Or.inl rfl, refs⟩
  · rw [if_neg same, registered.find_eq_some]
    constructor
    · rintro ⟨rfl | ⟨kept, _⟩, named⟩
      · rw [refs] at named
        simp only [List.cons.injEq, and_true, openProjectRef_inj] at named
        exact absurd named.symm same
      · exact ⟨kept, named⟩
    · rintro ⟨kept, named⟩
      refine ⟨Or.inr ⟨kept, ?_⟩, named⟩
      intro equal
      have := table.key_injective kept stored (equal.trans sameId.symm)
      subst this
      rw [oldRefs] at named
      simp only [List.cons.injEq, and_true, openProjectRef_inj] at named
      exact same named.symm

end Registered

end Brain
