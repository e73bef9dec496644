import Brain.Mirror.Model

namespace Brain
open Calls

def World.package (w : World) (x : String) : Option WorkItem :=
  w.findWorkItem "openproject" x (some "work_package")

def World.packageName (w : World) (id : WorkItemId) : Option String :=
  (w.workItems.get id).bind fun item => item.externalRefs.head?.map ExternalReference.externalId

def World.Holds (w : World) (id : WorkItemId) : Prop := ∃ item ∈ w.workItems.items, item.id = id

/-- The world in the provider's own names. -/
def World.mirror (w : World) : Mirror where
  item x := (w.package x).map WorkItem.content
  parent x := (w.package x).bind fun item => item.parentId.bind w.packageName
  relation := {e | ∃ r ∈ w.relations.items, w.packageName r.sourceWorkItemId = some e.1 ∧
    w.packageName r.targetWorkItemId = some e.2.1 ∧ r.relationType = e.2.2}

/-- The mapping of a work item that was created for `x`. -/
def World.MapsTo (w : World) (mapping : IntegrationMapping) : Prop :=
  mapping.provider = "openproject" ∧ ∃ item ∈ w.workItems.items, item.id = mapping.workItemId ∧
    item.externalRefs = [openProjectRef mapping.externalId "work_package"]

/-- What every operation of the ingestion service keeps, wherever it stops. -/
structure Sound (w : World) : Prop where
  workItems : Registered WorkItem.externalRefs "work_package" w.workItems w.nextUuid
  attachments : Registered Attachment.externalRefs "attachment" w.attachments w.nextUuid
  comments : Registered Comment.externalRefs "activity" w.comments w.nextUuid
  parents : ∀ item ∈ w.workItems.items, ∀ p, item.parentId = some p → w.Holds p
  ends : ∀ r ∈ w.relations.items, w.Holds r.sourceWorkItemId ∧ w.Holds r.targetWorkItemId
  triples : ∀ r ∈ w.relations.items, ∀ r' ∈ w.relations.items, World.sameTriple r r' = true → r = r'
  relationIds : ∀ r ∈ w.relations.items, r.id.Below w.nextUuid
  mappings : ∀ mapping ∈ w.mappings.items, w.MapsTo mapping

/-- A world before any ingestion: only projects exist. -/
def World.start (projects : Keyed Project.id) (nextUuid : Nat) : World := { projects, nextUuid }

def World.oneProject : World :=
  World.start ((Keyed.empty : Keyed Project.id).upsert { id := .v5 "project", name := "Project" }) 0

theorem Sound.start (projects : Keyed Project.id) (nextUuid : Nat) : Sound (World.start projects nextUuid) where
  workItems := Registered.of_empty
  attachments := Registered.of_empty
  comments := Registered.of_empty
  parents := by simp [World.start]
  ends := by simp [World.start]
  triples := by simp [World.start]
  relationIds := by simp [World.start]
  mappings := by simp [World.start]

variable {w : World}

theorem mirror_congr {t : World} (items : t.workItems = w.workItems) (relations : t.relations = w.relations) :
    t.mirror = w.mirror := by
  have names : t.packageName = w.packageName := by
    funext id
    simp only [World.packageName, items]
  simp only [World.mirror, World.package, World.findWorkItem, names, items, relations]

variable {x : String}

theorem Sound.package_eq_some (sound : Sound w) {item : WorkItem} : w.package x = some item ↔
      item ∈ w.workItems.items ∧ item.externalRefs = [openProjectRef x "work_package"] :=
  sound.workItems.find_eq_some

theorem Sound.packageName_eq_some (sound : Sound w) {id : WorkItemId} :
    w.packageName id = some x ↔ ∃ item, w.package x = some item ∧ item.id = id := by
  constructor
  · intro named
    obtain ⟨item, stored, ref⟩ := Option.bind_eq_some_iff.mp named
    obtain ⟨member, same⟩ := Keyed.get_eq_some.mp stored
    obtain ⟨y, refs⟩ := sound.workItems.named item member
    simp only [refs, List.head?_cons, Option.map_some, Option.some.injEq] at ref
    have equal : y = x := ref
    exact ⟨item, sound.package_eq_some.mpr ⟨member, equal ▸ refs⟩, same⟩
  · rintro ⟨item, found, rfl⟩
    obtain ⟨member, refs⟩ := sound.package_eq_some.mp found
    have stored : w.workItems.get item.id = some item := Keyed.get_eq_some.mpr ⟨member, rfl⟩
    simp [World.packageName, stored, refs, openProjectRef]

theorem Sound.packageName_package (sound : Sound w) {item : WorkItem} (found : w.package x = some item)
    : w.packageName item.id = some x :=
  sound.packageName_eq_some.mpr ⟨item, found, rfl⟩

theorem Sound.packageName_injective (sound : Sound w) {id id' : WorkItemId} (left : w.packageName id = some x)
    (right : w.packageName id' = some x) : id = id' := by
  obtain ⟨item, found, rfl⟩ := sound.packageName_eq_some.mp left
  obtain ⟨item', found', rfl⟩ := sound.packageName_eq_some.mp right
  rw [found] at found'
  cases found'
  rfl

theorem Sound.packageName_isSome (sound : Sound w) {id : WorkItemId} (holds : w.Holds id) :
    ∃ x, w.packageName id = some x := by
  obtain ⟨item, member, rfl⟩ := holds
  obtain ⟨x, refs⟩ := sound.workItems.named item member
  exact ⟨x, sound.packageName_package (sound.package_eq_some.mpr ⟨member, refs⟩)⟩

theorem World.mirror_knows : w.mirror.Knows x ↔ (w.package x).isSome = true := by
  simp [Mirror.Knows, World.mirror]

/-! ### Creating a work item -/

section Create
variable {w : World} {item : WorkItem} {x : String} (sound : Sound w) (absent : w.package x = none)
  (refs : item.externalRefs = [openProjectRef x "work_package"]) (root : item.parentId = none)
  (below : item.id.Below w.nextUuid) (unused : ∀ other ∈ w.workItems.items, other.id ≠ item.id)
include sound absent refs below unused

theorem package_create (y : String) :
    (World.putWorkItem item w).package y = if y = x then some item else w.package y :=
  sound.workItems.find_create absent unused refs below y

omit sound absent refs below unused in
theorem Holds_putWorkItem {id : WorkItemId} (holds : w.Holds id) : (World.putWorkItem item w).Holds id := by
  obtain ⟨other, member, rfl⟩ := holds
  by_cases same : other.id = item.id
  · exact ⟨item, Keyed.mem_upsert_self _ _, same.symm⟩
  · exact ⟨other, Keyed.mem_upsert.mpr (Or.inr ⟨member, same⟩), rfl⟩

omit sound absent refs below in
theorem packageName_create {id : WorkItemId} (holds : w.Holds id) :
    (World.putWorkItem item w).packageName id = w.packageName id := by
  obtain ⟨other, member, rfl⟩ := holds
  have kept := Keyed.get_upsert_ne w.workItems (unused other member)
  simp only [World.packageName, World.putWorkItem, kept]

include root

theorem Sound.create : Sound (World.putWorkItem item w) where
  workItems := sound.workItems.create absent refs below
  attachments := sound.attachments
  comments := sound.comments
  parents := by
    intro other member p parent
    rcases Keyed.mem_upsert.mp member with rfl | ⟨old, _⟩
    · rw [root] at parent
      cases parent
    · exact Holds_putWorkItem (sound.parents other old p parent)
  ends r member := ⟨Holds_putWorkItem (sound.ends r member).1, Holds_putWorkItem (sound.ends r member).2⟩
  triples := sound.triples
  relationIds := sound.relationIds
  mappings := by
    intro mapping member
    obtain ⟨provider, other, stored, same, named⟩ := sound.mappings mapping member
    exact ⟨provider, other, Keyed.mem_upsert.mpr (Or.inr ⟨stored, unused other stored⟩), same, named⟩

theorem mirror_create_eq : (World.putWorkItem item w).mirror =
    { w.mirror with item := Function.update w.mirror.item x (some item.content) } := by
  have found := package_create sound absent refs below unused
  ext1
  · funext y
    simp only [World.mirror, found, Function.update_apply]
    split <;> rfl
  · funext y
    simp only [World.mirror, found]
    by_cases same : y = x
    · simp [same, root, absent]
    · rw [if_neg same]
      cases known : w.package y with
      | none => rfl
      | some other =>
        have member := (sound.package_eq_some.mp known).1
        cases parent : other.parentId with
        | none => simp [parent]
        | some p =>
          simp only [Option.bind_some, parent]
          exact packageName_create unused (sound.parents other member p parent)
  · ext e
    constructor
    · rintro ⟨r, member, source, target, type⟩
      rw [packageName_create unused (sound.ends r member).1] at source
      rw [packageName_create unused (sound.ends r member).2] at target
      exact ⟨r, member, source, target, type⟩
    · rintro ⟨r, member, source, target, type⟩
      refine ⟨r, member, ?_, ?_, type⟩
      · rw [packageName_create unused (sound.ends r member).1, source]
      · rw [packageName_create unused (sound.ends r member).2, target]

end Create

/-! ### Rewriting a work item -/

structure Revises (old item : WorkItem) : Prop where
  id : old.id = item.id
  refs : old.externalRefs = item.externalRefs

section Rewrite
variable {w : World} {item old : WorkItem} {x : String} (sound : Sound w) (found : w.package x = some old)
  (revises : Revises old item)
include sound found revises

theorem package_rewrite (y : String) :
    (World.putWorkItem item w).package y = if y = x then some item else w.package y :=
  sound.workItems.find_rewrite found revises.id revises.refs y

theorem packageName_rewrite (id : WorkItemId) : (World.putWorkItem item w).packageName id = w.packageName id := by
  have stored := (sound.package_eq_some.mp found).1
  simp only [World.packageName, World.putWorkItem, Keyed.get_upsert]
  by_cases same : id = item.id
  · have before : w.workItems.get id = some old := Keyed.get_eq_some.mpr ⟨stored, revises.id.trans same.symm⟩
    simp [same ▸ before, same, revises.refs]
  · rw [if_neg same]

theorem Sound.rewrite (parent : ∀ p, item.parentId = some p → w.Holds p) : Sound (World.putWorkItem item w) where
  workItems := sound.workItems.rewrite (sound.package_eq_some.mp found).1 revises.id revises.refs
  attachments := sound.attachments
  comments := sound.comments
  parents := by
    intro other member p named
    rcases Keyed.mem_upsert.mp member with rfl | ⟨kept, _⟩
    · exact Holds_putWorkItem (parent p named)
    · exact Holds_putWorkItem (sound.parents other kept p named)
  ends r member := ⟨Holds_putWorkItem (sound.ends r member).1, Holds_putWorkItem (sound.ends r member).2⟩
  triples := sound.triples
  relationIds := sound.relationIds
  mappings := by
    intro mapping member
    obtain ⟨provider, other, stored, same, named⟩ := sound.mappings mapping member
    obtain ⟨oldStored, _⟩ := sound.package_eq_some.mp found
    refine ⟨provider, ?_⟩
    by_cases equal : other.id = item.id
    · have this := w.workItems.key_injective stored oldStored (equal.trans revises.id.symm)
      subst this
      exact ⟨item, Keyed.mem_upsert_self _ _, revises.id.symm.trans same, revises.refs.symm.trans named⟩
    · exact ⟨other, Keyed.mem_upsert.mpr (Or.inr ⟨stored, equal⟩), same, named⟩

theorem mirror_rewrite : (World.putWorkItem item w).mirror =
    { w.mirror with
      item := Function.update w.mirror.item x (some item.content)
      parent := Function.update w.mirror.parent x (item.parentId.bind w.packageName) } := by
  have packages := package_rewrite sound found revises
  have names : (World.putWorkItem item w).packageName = w.packageName :=
    funext (packageName_rewrite sound found revises)
  ext1
  · funext y
    simp only [World.mirror, packages, Function.update_apply]
    split <;> rfl
  · funext y
    simp only [World.mirror, packages, names, Function.update_apply]
    split <;> rfl
  · simp only [World.mirror, names]
    rfl

end Rewrite

/-! ### Creating a relation -/

section Relation
variable {w : World} {r : WorkItemRelation}

theorem Sound.createRelation (sound : Sound w) (below : r.id.Below w.nextUuid) (source : w.Holds r.sourceWorkItemId)
    (target : w.Holds r.targetWorkItemId) (unused : ∀ old ∈ w.relations.items, old.id ≠ r.id) :
    Sound (World.createRelation r w) := by
  unfold World.createRelation
  split
  · exact sound
  · rename_i absent
    simp only [List.any_eq_true, not_exists, not_and] at absent
    have items := Keyed.items_upsert_fresh unused
    refine ⟨sound.workItems, sound.attachments, sound.comments, sound.parents, ?_, ?_, ?_, sound.mappings⟩
    · intro r' member
      rcases Keyed.mem_upsert.mp member with rfl | ⟨old, _⟩
      · exact ⟨source, target⟩
      · exact sound.ends r' old
    · intro a left b right same
      rcases Keyed.mem_upsert.mp left with rfl | ⟨oldLeft, _⟩ <;>
        rcases Keyed.mem_upsert.mp right with rfl | ⟨oldRight, _⟩
      · rfl
      · have swapped : World.sameTriple b a = true := by
          simp only [World.sameTriple, Bool.and_eq_true, decide_eq_true_eq] at same ⊢
          exact ⟨⟨same.1.1.symm, same.1.2.symm⟩, same.2.symm⟩
        exact absurd swapped (absent b oldRight)
      · exact absurd same (absent a oldLeft)
      · exact sound.triples a oldLeft b oldRight same
    · intro r' member
      rcases Keyed.mem_upsert.mp member with rfl | ⟨old, _⟩
      · exact below
      · exact sound.relationIds r' old

theorem mirror_createRelation {a b : String} (source : w.packageName r.sourceWorkItemId = some a)
    (target : w.packageName r.targetWorkItemId = some b) (unused : ∀ old ∈ w.relations.items, old.id ≠ r.id) :
    (World.createRelation r w).mirror = w.mirror.addRelation (a, b, r.relationType) := by
  unfold World.createRelation
  split
  · rename_i present
    obtain ⟨old, member, same⟩ := List.any_eq_true.mp present
    simp only [World.sameTriple, Bool.and_eq_true, decide_eq_true_eq] at same
    have there : (a, b, r.relationType) ∈ w.mirror.relation := by
      refine ⟨old, member, ?_, ?_, same.2⟩
      · rw [same.1.1, source]
      · rw [same.1.2, target]
    rw [Mirror.addRelation, Set.insert_eq_of_mem there]
  · ext e
    · rfl
    · rfl
    · constructor
      · rintro ⟨r', member, source', target', type⟩
        rcases Keyed.mem_upsert.mp member with rfl | ⟨old, _⟩
        · have first : a = e.1 := Option.some.inj (source.symm.trans source')
          have second : b = e.2.1 := Option.some.inj (target.symm.trans target')
          exact Or.inl (by rw [first, second, type])
        · exact Or.inr ⟨r', old, source', target', type⟩
      · rintro (rfl | ⟨r', member, source', target', type⟩)
        · exact ⟨r, Keyed.mem_upsert_self _ _, source, target, rfl⟩
        · exact ⟨r', Keyed.mem_upsert.mpr (Or.inr ⟨member, unused r' member⟩), source', target', type⟩

end Relation

end Brain

namespace Brain

def WorkItem.rename (f : WorkItemId → WorkItemId) (item : WorkItem) : WorkItem :=
  { item with id := f item.id, parentId := item.parentId.map f }

/-- Every work item and every relation of `w` is in `t` under its new ids. -/
structure Renames (f : WorkItemId → WorkItemId) (w t : World) : Prop where
  workItems : ∀ item ∈ w.workItems.items, item.rename f ∈ t.workItems.items
  relations : ∀ r ∈ w.relations.items, ∃ r' ∈ t.relations.items, r'.sourceWorkItemId = f r.sourceWorkItemId ∧
    r'.targetWorkItemId = f r.targetWorkItemId ∧ r'.relationType = r.relationType

/-- The work items, their parents and the relations of two worlds agree up to
the names of the work items. -/
def SameUpToIds (w t : World) : Prop :=
  ∃ f g : WorkItemId → WorkItemId, Renames f w t ∧ Renames g t w ∧
    (∀ item ∈ w.workItems.items, g (f item.id) = item.id) ∧ ∀ item ∈ t.workItems.items, f (g item.id) = item.id

/-- The id in `t` of the work package that has the id `id` in `w`. -/
def renamed (w t : World) (id : WorkItemId) : WorkItemId :=
  (((w.packageName id).bind t.package).map WorkItem.id).getD id

section Renaming
variable {w t : World} (atW : Sound w) (atT : Sound t) (same : w.mirror = t.mirror)
include atW

theorem renamed_package {x : String} {a b : WorkItem} (found : w.package x = some a) (other : t.package x = some b) :
    renamed w t a.id = b.id := by
  simp only [renamed, atW.packageName_package found, Option.bind_some, other, Option.map_some, Option.getD_some]

include same

omit atW in
theorem package_of_mirror {x : String} {a : WorkItem} (found : w.package x = some a) :
    ∃ b, t.package x = some b ∧ b.content = a.content := by
  have items : w.mirror.item x = t.mirror.item x := by rw [same]
  simp only [World.mirror, found, Option.map_some] at items
  exact Option.map_eq_some_iff.mp items.symm

include atT

theorem renamed_named {id : WorkItemId} {x : String} (named : w.packageName id = some x) :
    t.packageName (renamed w t id) = some x := by
  obtain ⟨a, found, rfl⟩ := atW.packageName_eq_some.mp named
  obtain ⟨b, other, _⟩ := package_of_mirror same found
  rw [renamed_package atW found other]
  exact atT.packageName_package other

theorem renames_of_mirror : Renames (renamed w t) w t where
  workItems := by
    intro a stored
    obtain ⟨x, refs⟩ := atW.workItems.named a stored
    have found := atW.package_eq_some.mpr ⟨stored, refs⟩
    obtain ⟨b, other, content⟩ := package_of_mirror same found
    obtain ⟨storedB, refsB⟩ := atT.package_eq_some.mp other
    have parents : w.mirror.parent x = t.mirror.parent x := by rw [same]
    simp only [World.mirror, found, other, Option.bind_some] at parents
    have parent : b.parentId = a.parentId.map (renamed w t) := by
      cases pa : a.parentId with
      | none =>
        rw [pa, Option.bind_none] at parents
        cases pb : b.parentId with
        | none => rfl
        | some q =>
          obtain ⟨y, named⟩ := atT.packageName_isSome (atT.parents b storedB q pb)
          rw [pb, Option.bind_some, named] at parents
          cases parents
      | some p =>
        obtain ⟨y, named⟩ := atW.packageName_isSome (atW.parents a stored p pa)
        have there := renamed_named atW atT same named
        rw [pa, Option.bind_some, named] at parents
        cases pb : b.parentId with
        | none => rw [pb] at parents; cases parents
        | some q =>
          rw [pb, Option.bind_some] at parents
          rw [Option.map_some, atT.packageName_injective parents.symm there]
    have equal : a.rename (renamed w t) = b := by
      have id := renamed_package atW found other
      have refs' := refs.trans refsB.symm
      obtain ⟨⟩ := a
      obtain ⟨⟩ := b
      simp only [WorkItem.content, Content.mk.injEq] at content
      simp_all [WorkItem.rename]
    rw [equal]
    exact storedB
  relations := by
    intro r stored
    obtain ⟨source, target⟩ := atW.ends r stored
    obtain ⟨x, namedX⟩ := atW.packageName_isSome source
    obtain ⟨y, namedY⟩ := atW.packageName_isSome target
    have there : (x, y, r.relationType) ∈ t.mirror.relation := by
      rw [← same]
      exact ⟨r, stored, namedX, namedY, rfl⟩
    obtain ⟨r', stored', source', target', type⟩ := there
    exact ⟨r', stored', atT.packageName_injective source' (renamed_named atW atT same namedX),
      atT.packageName_injective target' (renamed_named atW atT same namedY), type⟩

theorem renamed_inverse {a : WorkItem} (stored : a ∈ w.workItems.items) :
    renamed t w (renamed w t a.id) = a.id := by
  obtain ⟨x, refs⟩ := atW.workItems.named a stored
  have found := atW.package_eq_some.mpr ⟨stored, refs⟩
  obtain ⟨b, other, _⟩ := package_of_mirror same found
  rw [renamed_package atW found other, renamed_package atT other found]

end Renaming

theorem sameUpToIds_of_mirror {w t : World} (atW : Sound w) (atT : Sound t) (same : w.mirror = t.mirror) :
    SameUpToIds w t :=
  ⟨renamed w t, renamed t w, renames_of_mirror atW atT same, renames_of_mirror atT atW same.symm,
    fun _ => renamed_inverse atW atT same, fun _ => renamed_inverse atT atW same.symm⟩

end Brain
