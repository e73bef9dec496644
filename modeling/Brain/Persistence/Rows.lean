import Brain.Adapters.PostgresRepositories
import Brain.Lib.Checked

namespace Brain

theorem orRaise_eq_ok {α : Type} {error : DatabaseError} {o : Option α} {a : α} : orRaise error o = .ok a ↔ o = some a := by
  cases o <;> simp [orRaise]

/-- No two references of one owner have the same provider and external id. -/
def DistinctRefs (refs : List ExternalReference) : Prop := (refs.map fun ref => (ref.provider, ref.externalId)).Nodup

namespace ExternalReferences
variable {references references' : ExternalReferences} {ownerType ownerType' : String} {ownerId ownerId' : Uuid}
  {ref : ExternalReference} {refs : List ExternalReference}

def Has (references : ExternalReferences) (ownerType : String) (ownerId : Uuid) (ref : ExternalReference) : Prop :=
  ∃ row ∈ references.table.items, row.ownerType = ownerType ∧ row.ownerId = ownerId ∧ row.reference = ref

/-- The counter is ahead of the ids of the rows. -/
def Drawn (references : ExternalReferences) : Prop :=
  ∀ row ∈ references.table.items, row.id.Below references.nextUuid

theorem drawn_empty : Drawn {} := fun _ member => absurd member List.not_mem_nil

theorem not_has_empty : ¬ Has {} ownerType ownerId ref := fun ⟨_, member, _⟩ => absurd member List.not_mem_nil

variable {row : ExternalReferenceRow}

theorem mem_delete : row ∈ (references.deleteExternalRefs ownerType ownerId).table.items ↔
    row ∈ references.table.items ∧ ¬ (row.ownerType = ownerType ∧ row.ownerId = ownerId) := by
  unfold deleteExternalRefs
  simp [Decidable.imp_iff_not_or]

theorem Drawn.delete (drawn : references.Drawn) (ownerType : String) (ownerId : Uuid) :
    (references.deleteExternalRefs ownerType ownerId).Drawn := fun row member => drawn row (mem_delete.mp member).1

theorem has_delete : (references.deleteExternalRefs ownerType ownerId).Has ownerType' ownerId' ref ↔
    ¬ (ownerType' = ownerType ∧ ownerId' = ownerId) ∧ references.Has ownerType' ownerId' ref := by
  constructor
  · rintro ⟨row, member, rfl, rfl, rfl⟩
    obtain ⟨stored, other⟩ := mem_delete.mp member
    exact ⟨other, row, stored, rfl, rfl, rfl⟩
  · rintro ⟨other, row, stored, rfl, rfl, rfl⟩
    exact ⟨row, mem_delete.mpr ⟨stored, other⟩, rfl, rfl, rfl⟩

/-! ### Replacing the references of an owner -/

theorem rowsOf_identity (n : Nat) : (rowsOf ownerType ownerId refs n).map ExternalReferenceRow.identity =
    refs.map fun ref => (ownerType, ownerId, ref.provider, ref.externalId) := by
  unfold rowsOf
  rw [List.map_map, show (ExternalReferenceRow.identity ∘ fun drawn : ExternalReference × Nat =>
    { id := .v4 drawn.2, ownerType, ownerId, reference := drawn.1 }) =
      (fun ref : ExternalReference => (ownerType, ownerId, ref.provider, ref.externalId)) ∘ Prod.fst from rfl,
    ← List.map_map, List.zipIdx_map_fst]

theorem rowsOf_ids (n : Nat) : (rowsOf ownerType ownerId refs n).map ExternalReferenceRow.id =
    (List.range' n refs.length).map Uuid.v4 := by
  unfold rowsOf
  rw [List.map_map, show (ExternalReferenceRow.id ∘ fun drawn : ExternalReference × Nat =>
    { id := .v4 drawn.2, ownerType, ownerId, reference := drawn.1 }) = Uuid.v4 ∘ Prod.snd from rfl,
    ← List.map_map, List.zipIdx_map_snd]

theorem rowsOf_owner {n : Nat} (member : row ∈ rowsOf ownerType ownerId refs n) :
    row.ownerType = ownerType ∧ row.ownerId = ownerId ∧ row.reference ∈ refs := by
  unfold rowsOf at member
  obtain ⟨drawn, inRefs, rfl⟩ := List.mem_map.mp member
  exact ⟨rfl, rfl, List.fst_mem_of_mem_zipIdx inRefs⟩

theorem rowsOf_complete (n : Nat) (member : ref ∈ refs) :
    ∃ row ∈ rowsOf ownerType ownerId refs n, row.ownerType = ownerType ∧ row.ownerId = ownerId ∧ row.reference = ref := by
  have listed : ref ∈ (refs.zipIdx n).map Prod.fst := by rwa [List.zipIdx_map_fst]
  obtain ⟨drawn, inRefs, rfl⟩ := List.mem_map.mp listed
  exact ⟨_, List.mem_map.mpr ⟨drawn, inRefs, rfl⟩, rfl, rfl, rfl⟩

theorem rows_distinct (drawn : references.Drawn) :
    (((references.deleteExternalRefs ownerType ownerId).table.items ++
        rowsOf ownerType ownerId refs references.nextUuid).map ExternalReferenceRow.identity).Nodup ∧
      (((references.deleteExternalRefs ownerType ownerId).table.items ++
        rowsOf ownerType ownerId refs references.nextUuid).map ExternalReferenceRow.id).Nodup ↔ DistinctRefs refs := by
  have named : (refs.map fun ref => (ownerType, ownerId, ref.provider, ref.externalId)).Nodup ↔ DistinctRefs refs := by
    unfold DistinctRefs
    have injective : Function.Injective fun pair : String × String => (ownerType, ownerId, pair) := by
      intro pair pair' same
      simpa using same
    rw [show (fun ref : ExternalReference => (ownerType, ownerId, ref.provider, ref.externalId)) =
      (fun pair : String × String => (ownerType, ownerId, pair)) ∘ fun ref => (ref.provider, ref.externalId) from rfl,
      ← List.map_map]
    exact List.nodup_map_iff injective
  rw [List.map_append, List.map_append, rowsOf_identity, rowsOf_ids]
  constructor
  · rintro ⟨identities, _⟩
    exact named.mp (List.nodup_append'.mp identities).2.1
  · intro distinct
    constructor
    · refine List.nodup_append'.mpr ⟨(references.deleteExternalRefs ownerType ownerId).table.uniques, named.mpr distinct, ?_⟩
      intro identity kept new
      obtain ⟨row, stays, rfl⟩ := List.mem_map.mp kept
      obtain ⟨ref, _, same⟩ := List.mem_map.mp new
      simp only [ExternalReferenceRow.identity, Prod.mk.injEq] at same
      exact (mem_delete.mp stays).2 ⟨same.1.symm, same.2.1.symm⟩
    · refine List.nodup_append'.mpr ⟨(references.deleteExternalRefs ownerType ownerId).table.nodup, ?_, ?_⟩
      · exact List.Nodup.map (fun _ _ same => Uuid.v4.inj same) List.nodup_range'
      · intro id kept new
        obtain ⟨row, stays, rfl⟩ := List.mem_map.mp kept
        obtain ⟨k, later, same⟩ := List.mem_map.mp new
        have below : Uuid.Below references.nextUuid (.v4 k) := same ▸ drawn row (mem_delete.mp stays).1
        have above := (List.mem_range'_1.mp later).1
        exact absurd below (Nat.not_lt.mpr above)

theorem items_replace (done : references.replaceExternalRefs ownerType ownerId refs = .ok references') :
    references'.table.items = (references.deleteExternalRefs ownerType ownerId).table.items ++
        rowsOf ownerType ownerId refs references.nextUuid ∧
      references'.nextUuid = references.nextUuid + refs.length := by
  obtain ⟨table, inserted, rest⟩ := Checked.bind_eq_ok.mp done
  cases rest
  exact ⟨UniqueTable.insertAll_eq_some.mp (orRaise_eq_ok.mp inserted), rfl⟩

theorem replace_ok (drawn : references.Drawn) :
    (∃ references', references.replaceExternalRefs ownerType ownerId refs = .ok references') ↔ DistinctRefs refs := by
  constructor
  · rintro ⟨references', done⟩
    obtain ⟨items, _⟩ := items_replace done
    refine (@rows_distinct references ownerType ownerId refs drawn).mp ⟨?_, ?_⟩
    · rw [← items]
      exact references'.table.uniques
    · rw [← items]
      exact references'.table.nodup
  · intro distinct
    obtain ⟨identities, ids⟩ := (@rows_distinct references ownerType ownerId refs drawn).mpr distinct
    have inserted : UniqueTable.insertAll (rowsOf ownerType ownerId refs references.nextUuid)
        (references.deleteExternalRefs ownerType ownerId).table = some ⟨⟨_, ids⟩, identities⟩ :=
      UniqueTable.insertAll_eq_some.mpr rfl
    exact ⟨_, Checked.bind_eq_ok.mpr ⟨_, orRaise_eq_ok.mpr inserted, rfl⟩⟩

theorem Drawn.replace (drawn : references.Drawn)
    (done : references.replaceExternalRefs ownerType ownerId refs = .ok references') : references'.Drawn := by
  obtain ⟨items, counted⟩ := items_replace done
  intro row member
  rw [items, List.mem_append] at member
  rw [counted]
  rcases member with stays | new
  · exact (drawn row (mem_delete.mp stays).1).mono (Nat.le_add_right ..)
  · have isId : row.id ∈ (List.range' references.nextUuid refs.length).map Uuid.v4 := by
      rw [← @rowsOf_ids ownerType ownerId refs]
      exact List.mem_map_of_mem new
    obtain ⟨k, inRange, same⟩ := List.mem_map.mp isId
    rw [← same]
    exact (List.mem_range'_1.mp inRange).2

theorem has_replace (done : references.replaceExternalRefs ownerType ownerId refs = .ok references') :
    references'.Has ownerType' ownerId' ref ↔
      if ownerType' = ownerType ∧ ownerId' = ownerId then ref ∈ refs else references.Has ownerType' ownerId' ref := by
  obtain ⟨items, _⟩ := items_replace done
  have split : references'.Has ownerType' ownerId' ref ↔
      (references.deleteExternalRefs ownerType ownerId).Has ownerType' ownerId' ref ∨
        (∃ row ∈ rowsOf ownerType ownerId refs references.nextUuid,
          row.ownerType = ownerType' ∧ row.ownerId = ownerId' ∧ row.reference = ref) := by
    unfold Has
    rw [items]
    simp only [List.mem_append, or_and_right, exists_or]
  rw [split, has_delete]
  split_ifs with own
  · obtain ⟨rfl, rfl⟩ := own
    constructor
    · rintro (⟨other, _⟩ | ⟨row, new, _, _, rfl⟩)
      · exact absurd ⟨rfl, rfl⟩ other
      · exact (rowsOf_owner new).2.2
    · exact fun member => Or.inr (rowsOf_complete _ member)
  · constructor
    · rintro (⟨_, kept⟩ | ⟨row, new, rfl, rfl, _⟩)
      · exact kept
      · exact absurd ⟨(rowsOf_owner new).1, (rowsOf_owner new).2.1⟩ own
    · exact fun kept => Or.inl ⟨own, kept⟩

theorem mem_matching {provider externalId : String} {externalType : Option String} :
    row ∈ references.matching ownerType provider externalId externalType ↔
      row ∈ references.table.items ∧ row.ownerType = ownerType ∧ row.reference.refersTo provider externalId externalType = true := by
  unfold matching
  simp

end ExternalReferences

end Brain

namespace Brain.RowMapping
variable {α ρ : Type} {m : RowMapping α ρ} {items : m.Items} {rows rows' : m.Rows} {a : α}

abbrev Stores (m : RowMapping α ρ) (items : m.Items) (rows : m.Rows) : Prop := Keyed.Images m.row items rows

/-! ### Reading -/

theorem loadAll_row (as : List α) : m.loadAll (as.map m.row) = .ok as := by
  unfold loadAll
  induction as with
  | nil => rfl
  | cons a as ih =>
    rw [List.map_cons, List.mapM_cons, m.load_row, ih]
    rfl

theorem loadAll_perm {table : List ρ} {as : List α} (perm : table.Perm (as.map m.row)) :
    ∃ loaded, m.loadAll table = .ok loaded ∧ as.Perm loaded := by
  have rebuilt : ∀ l : List ρ, (∀ row ∈ l, ∃ a, m.row a = row) → (l.filterMap m.load).map m.row = l := by
    intro l ofEntities
    induction l with
    | nil => rfl
    | cons row l ih =>
      obtain ⟨a, rfl⟩ := ofEntities row (List.mem_cons_self ..)
      rw [List.filterMap_cons_some (m.load_row a), List.map_cons, ih fun row later => ofEntities row (List.mem_cons_of_mem _ later)]
  have ofEntities : ∀ row ∈ table, ∃ a, m.row a = row := by
    intro row member
    obtain ⟨a, _, same⟩ := List.mem_map.mp (perm.mem_iff.mp member)
    exact ⟨a, same⟩
  have loaded : m.loadAll table = .ok (table.filterMap m.load) := by
    rw [← loadAll_row (m := m) (table.filterMap m.load), rebuilt table ofEntities]
  have back : (as.map m.row).filterMap m.load = as := by
    rw [List.filterMap_map, show m.load ∘ m.row = some from funext m.load_row, List.filterMap_some]
  exact ⟨_, loaded, back ▸ (perm.filterMap m.load).symm⟩

theorem loadAll_mem {table : List ρ} {loaded : List α} (done : m.loadAll table = .ok loaded) :
    List.Forall₂ (fun row a => m.load row = some a) table loaded :=
  (Checked.forall₂_of_mapM done).imp fun _ _ found => orRaise_eq_ok.mp found

theorem fetch_eq (stores : m.Stores items rows) (id : Uuid) : m.fetch rows id = .ok (items.get id) := by
  unfold fetch
  rw [stores.get m.key_row]
  cases items.get id with
  | none => rfl
  | some a =>
    simp only [Option.map_some, m.load_row]
    rfl

variable {p : ρ → Bool} {q : α → Bool} (same : ∀ a, p (m.row a) = q a)
include same

theorem select_ok (plan : Plan) (stores : m.Stores items rows) :
    ∃ loaded, m.select plan p rows = .ok loaded ∧ (items.items.filter q).Perm loaded := by
  refine loadAll_perm ?_
  rw [← stores.filter same]
  exact plan.scan_perm _

theorem selectOrdered_ok (plan : Plan) (le : ρ → ρ → Bool) (stores : m.Stores items rows) :
    ∃ loaded, m.selectOrdered plan le p rows = .ok loaded ∧ (items.items.filter q).Perm loaded := by
  refine loadAll_perm ?_
  rw [← stores.filter same]
  exact (List.mergeSort_perm _ _).trans (plan.scan_perm _)

omit same

/-! ### Writing -/

theorem add_ok (stores : m.Stores items rows) : (∃ rows', m.add a rows = .ok rows') ↔ items.get (m.id a) = none := by
  have key : rows.get (m.key (m.row a)) = (items.get (m.id a)).map m.row := by rw [m.key_row, stores.get m.key_row]
  constructor
  · rintro ⟨rows', added⟩
    by_contra stored
    have refused : rows.insert (m.row a) = none := by
      refine Keyed.insert_stored ?_
      rw [key]
      simpa using stored
    rw [add, refused] at added
    cases added
  · intro fresh
    have inserted : rows.insert (m.row a) = some (rows.upsert (m.row a)) := by
      refine Keyed.insert_fresh ?_
      rw [key, fresh, Option.map_none]
    exact ⟨_, orRaise_eq_ok.mpr inserted⟩

theorem add_stores (stores : m.Stores items rows) (added : m.add a rows = .ok rows') : m.Stores (items.upsert a) rows' := by
  have inserted := orRaise_eq_ok.mp added
  unfold Keyed.insert at inserted
  split at inserted
  · cases inserted
  · cases inserted
    exact stores.upsert m.key_row a

theorem upsert_apply {row : ρ} (found : rows.get (m.id a) = some row) : rows.upsert (m.apply row a) = rows.upsert (m.row a) := by
  rw [m.apply_stored row a (Keyed.get_eq_some.mp found).2]

theorem write_ok (stores : m.Stores items rows) : ∃ rows', m.write a rows = .ok rows' ∧ m.Stores (items.upsert a) rows' := by
  unfold write
  cases found : rows.get (m.id a) with
  | none =>
    have fresh : items.get (m.id a) = none := by
      rw [stores.get m.key_row] at found
      exact Option.map_eq_none_iff.mp found
    obtain ⟨rows', added⟩ := (add_ok stores).mpr fresh
    exact ⟨rows', added, add_stores stores added⟩
  | some row =>
    refine ⟨_, rfl, ?_⟩
    rw [upsert_apply found]
    exact stores.upsert m.key_row a

/-! ### Entities with references -/

variable {ownerType : String} {externalRefs : α → List ExternalReference} {references references' : ExternalReferences}

structure Owns (m : RowMapping α ρ) (ownerType : String) (externalRefs : α → List ExternalReference) (items : m.Items)
    (rows : m.Rows) (references : ExternalReferences) : Prop where
  stores : m.Stores items rows
  lists : ∀ ownerId ref, references.Has ownerType ownerId ref ↔
    ∃ a ∈ items.items, m.id a = ownerId ∧ ref ∈ externalRefs a

def Elsewhere (ownerType : String) (references references' : ExternalReferences) : Prop :=
  ∀ ownerType' ownerId ref, ownerType' ≠ ownerType → (references'.Has ownerType' ownerId ref ↔ references.Has ownerType' ownerId ref)

theorem Owns.elsewhere {other : String} (owns : m.Owns ownerType externalRefs items rows references)
    (elsewhere : Elsewhere other references references') (different : ownerType ≠ other) :
    m.Owns ownerType externalRefs items rows references' :=
  ⟨owns.stores, fun ownerId ref => (elsewhere ownerType ownerId ref different).trans (owns.lists ownerId ref)⟩

theorem Owns.replaced (owns : m.Owns ownerType externalRefs items rows references) (stores : m.Stores (items.upsert a) rows')
    (done : references.replaceExternalRefs ownerType (m.id a) (externalRefs a) = .ok references') :
    m.Owns ownerType externalRefs (items.upsert a) rows' references' ∧ Elsewhere ownerType references references' := by
  refine ⟨⟨stores, fun ownerId ref => ?_⟩, fun ownerType' ownerId ref other => ?_⟩
  · rw [ExternalReferences.has_replace done]
    simp only [true_and, Keyed.mem_upsert]
    split_ifs with own
    · subst own
      constructor
      · exact fun member => ⟨a, Or.inl rfl, rfl, member⟩
      · rintro ⟨b, rfl | ⟨_, other⟩, sameId, member⟩
        · exact member
        · exact absurd sameId other
    · rw [owns.lists]
      constructor
      · rintro ⟨b, stored, rfl, member⟩
        exact ⟨b, Or.inr ⟨stored, own⟩, rfl, member⟩
      · rintro ⟨b, rfl | ⟨stored, _⟩, rfl, member⟩
        · exact absurd rfl own
        · exact ⟨b, stored, rfl, member⟩
  · rw [ExternalReferences.has_replace done, if_neg fun both => other both.1]

theorem create_ok (owns : m.Owns ownerType externalRefs items rows references) (drawn : references.Drawn) :
    (∃ result, m.create ownerType externalRefs a rows references = .ok result) ↔
      items.get (m.id a) = none ∧ DistinctRefs (externalRefs a) := by
  rw [← add_ok owns.stores, ← ExternalReferences.replace_ok drawn]
  constructor
  · rintro ⟨result, done⟩
    obtain ⟨rows', added, rest⟩ := Checked.bind_eq_ok.mp done
    obtain ⟨references', replaced, _⟩ := Checked.bind_eq_ok.mp rest
    exact ⟨⟨rows', added⟩, ⟨references', replaced⟩⟩
  · rintro ⟨⟨rows', added⟩, ⟨references', replaced⟩⟩
    exact ⟨_, Checked.bind_eq_ok.mpr ⟨rows', added, Checked.bind_eq_ok.mpr ⟨references', replaced, rfl⟩⟩⟩

theorem create_owns (owns : m.Owns ownerType externalRefs items rows references) (drawn : references.Drawn)
    (done : m.create ownerType externalRefs a rows references = .ok (rows', references')) :
    m.Owns ownerType externalRefs (items.upsert a) rows' references' ∧ references'.Drawn ∧
      Elsewhere ownerType references references' := by
  obtain ⟨rows'', added, rest⟩ := Checked.bind_eq_ok.mp done
  obtain ⟨references'', replaced, same⟩ := Checked.bind_eq_ok.mp rest
  cases same
  obtain ⟨owns', elsewhere⟩ := owns.replaced (add_stores owns.stores added) replaced
  exact ⟨owns', drawn.replace replaced, elsewhere⟩

theorem update_ok (owns : m.Owns ownerType externalRefs items rows references) (drawn : references.Drawn) :
    (∃ result, m.update ownerType externalRefs a rows references = .ok result) ↔ DistinctRefs (externalRefs a) := by
  unfold update
  cases found : rows.get (m.id a) with
  | none =>
    have fresh : items.get (m.id a) = none := by
      rw [owns.stores.get m.key_row] at found
      exact Option.map_eq_none_iff.mp found
    exact (create_ok owns drawn).trans (and_iff_right fresh)
  | some row =>
    rw [← @ExternalReferences.replace_ok references ownerType (m.id a) (externalRefs a) drawn]
    constructor
    · rintro ⟨result, done⟩
      obtain ⟨references', replaced, _⟩ := Checked.bind_eq_ok.mp done
      exact ⟨references', replaced⟩
    · rintro ⟨references', replaced⟩
      exact ⟨_, Checked.bind_eq_ok.mpr ⟨references', replaced, rfl⟩⟩

theorem update_owns (owns : m.Owns ownerType externalRefs items rows references) (drawn : references.Drawn)
    (done : m.update ownerType externalRefs a rows references = .ok (rows', references')) :
    m.Owns ownerType externalRefs (items.upsert a) rows' references' ∧ references'.Drawn ∧
      Elsewhere ownerType references references' := by
  unfold update at done
  cases found : rows.get (m.id a) with
  | none =>
    rw [found] at done
    exact create_owns owns drawn done
  | some row =>
    rw [found] at done
    obtain ⟨references'', replaced, same⟩ := Checked.bind_eq_ok.mp done
    cases same
    rw [upsert_apply found]
    obtain ⟨owns', elsewhere⟩ := owns.replaced (owns.stores.upsert m.key_row a) replaced
    exact ⟨owns', drawn.replace replaced, elsewhere⟩

theorem delete_owns (owns : m.Owns ownerType externalRefs items rows references) (drawn : references.Drawn) {id : Uuid}
    (done : m.delete ownerType id rows references = (rows', references')) :
    m.Owns ownerType externalRefs (items.delete id) rows' references' ∧ references'.Drawn ∧
      Elsewhere ownerType references references' := by
  unfold delete at done
  cases found : rows.get id with
  | none =>
    rw [found] at done
    cases done
    have absent : items.get id = none := by
      rw [owns.stores.get m.key_row] at found
      exact Option.map_eq_none_iff.mp found
    have same : items.delete id = items := by
      refine Keyed.ext_items (List.filter_eq_self.mpr fun a member => ?_)
      simpa using Keyed.get_eq_none.mp absent a member
    rw [same]
    exact ⟨owns, drawn, fun _ _ _ _ => Iff.rfl⟩
  | some row =>
    rw [found] at done
    cases done
    refine ⟨⟨owns.stores.delete m.key_row id, fun ownerId ref => ?_⟩, drawn.delete _ _, fun ownerType' ownerId ref other => ?_⟩
    · rw [ExternalReferences.has_delete, owns.lists]
      simp only [true_and, Keyed.delete, List.mem_filter, decide_eq_true_eq]
      constructor
      · rintro ⟨other, a, stored, rfl, member⟩
        exact ⟨a, ⟨stored, other⟩, rfl, member⟩
      · rintro ⟨a, ⟨stored, other⟩, rfl, member⟩
        exact ⟨other, a, stored, rfl, member⟩
    · rw [ExternalReferences.has_delete]
      exact and_iff_right fun both => other both.1

/-! ### Finding by a reference -/

section Find
variable {provider externalId : String} {externalType : Option String}

def OneNamed (externalRefs : α → List ExternalReference) (provider externalId : String) (externalType : Option String)
    (items : List α) : Prop :=
  ∀ a ∈ items, ∀ b ∈ items, (externalRefs a).any (·.refersTo provider externalId externalType) = true →
    (externalRefs b).any (·.refersTo provider externalId externalType) = true → a = b

theorem Owns.named_of_row (owns : m.Owns ownerType externalRefs items rows references) {row : ExternalReferenceRow}
    (member : row ∈ references.matching ownerType provider externalId externalType) :
    ∃ a ∈ items.items, m.id a = row.ownerId ∧ (externalRefs a).any (·.refersTo provider externalId externalType) = true := by
  obtain ⟨stored, ofType, refers⟩ := ExternalReferences.mem_matching.mp member
  obtain ⟨a, inItems, isOwner, listed⟩ := (owns.lists row.ownerId row.reference).mp ⟨row, stored, ofType, rfl, rfl⟩
  exact ⟨a, inItems, isOwner, List.any_eq_true.mpr ⟨_, listed, refers⟩⟩

theorem Owns.row_of_named (owns : m.Owns ownerType externalRefs items rows references) (inItems : a ∈ items.items)
    (named : (externalRefs a).any (·.refersTo provider externalId externalType) = true) :
    ∃ row ∈ references.matching ownerType provider externalId externalType, row.ownerId = m.id a := by
  obtain ⟨ref, listed, refers⟩ := List.any_eq_true.mp named
  obtain ⟨row, stored, ofType, isOwner, rfl⟩ := (owns.lists (m.id a) ref).mpr ⟨a, inItems, rfl, listed⟩
  exact ⟨row, ExternalReferences.mem_matching.mpr ⟨stored, ofType, refers⟩, isOwner⟩

theorem fetch_stored (owns : m.Owns ownerType externalRefs items rows references) (inItems : a ∈ items.items) :
    m.fetch rows (m.id a) = .ok (some a) := by
  rw [fetch_eq owns.stores, Keyed.get_eq_some.mpr ⟨inItems, rfl⟩]

theorem findByExternalRef_eq (owns : m.Owns ownerType externalRefs items rows references) (plan : Plan)
    (one : OneNamed externalRefs provider externalId externalType items.items) :
    m.findByExternalRef ownerType plan provider externalId externalType rows references =
      .ok (Brain.findByExternalRef externalRefs items.items provider externalId externalType) := by
  unfold findByExternalRef
  cases first : (plan.scan (references.matching ownerType provider externalId externalType)).head? with
  | none =>
    have none : Brain.findByExternalRef externalRefs items.items provider externalId externalType = none := by
      refine List.find?_eq_none.mpr fun a inItems named => ?_
      obtain ⟨row, member, _⟩ := owns.row_of_named inItems named
      rw [List.head?_eq_none_iff] at first
      have scanned := plan.mem_scan.mpr member
      rw [first] at scanned
      exact List.not_mem_nil scanned
    rw [none]
  | some row =>
    have member := plan.mem_scan.mp (List.mem_of_mem_head? first)
    obtain ⟨a, inItems, isOwner, named⟩ := owns.named_of_row member
    have found : Brain.findByExternalRef externalRefs items.items provider externalId externalType = some a := by
      unfold Brain.findByExternalRef
      cases find : items.items.find? fun entity =>
          (externalRefs entity).any fun ref => ref.refersTo provider externalId externalType with
      | none => exact absurd named (List.find?_eq_none.mp find a inItems)
      | some b =>
        have namedB : (externalRefs b).any (·.refersTo provider externalId externalType) = true := by
          have passes := List.find?_some find
          exact passes
        rw [one b (List.mem_of_find?_eq_some find) a inItems namedB named]
    rw [found]
    show m.fetch rows row.ownerId = .ok (some a)
    rw [← isOwner]
    exact fetch_stored owns inItems

theorem oneNamed_of_find (owns : m.Owns ownerType externalRefs items rows references) {found : Option α}
    (always : ∀ plan, m.findByExternalRef ownerType plan provider externalId externalType rows references = .ok found) :
    OneNamed externalRefs provider externalId externalType items.items := by
  have each : ∀ a ∈ items.items, (externalRefs a).any (·.refersTo provider externalId externalType) = true →
      found = some a := by
    intro a inItems named
    obtain ⟨row, member, isOwner⟩ := owns.row_of_named inItems named
    obtain ⟨plan, first⟩ := Plan.scan_first member
    have result := always plan
    unfold findByExternalRef at result
    rw [first] at result
    have fetched := fetch_stored owns inItems
    rw [← isOwner] at fetched
    exact (Except.ok.inj (fetched.symm.trans result)).symm
  intro a inA b inB namedA namedB
  exact Option.some.inj ((each a inA namedA).symm.trans (each b inB namedB))

end Find

end Brain.RowMapping
