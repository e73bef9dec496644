import Brain.Ingestion.Moves

namespace Brain
open Calls

/-- The sites between the creation of a work item and the save of its snapshot. -/
def Site.isApply : Site → Bool
  | .applyUpdate | .parentFind | .parentUpdate | .relationSourceFind | .relationTargetFind
  | .relationsCreate => true
  | site => site.isSide

theorem isApply_of_isSide {site : Site} (side : SideSite site) : site.isApply = true := by
  unfold Site.isApply
  split <;> first | rfl | exact side

/-- The exception came before the work item could be stored. -/
def BeforeWorkItem (e : Raised) : Prop :=
  e.site = .findOrCreateFind ∨ e.site = .findOrCreateCreate ∧ e.tookEffect = false

/-- The exception came when the work item was stored and its snapshot was not. -/
def AfterWorkItem (e : Raised) : Prop :=
  e.site = .findOrCreateCreate ∧ e.tookEffect = true ∨ e.site = .saveMapping ∨ e.site.isApply = true

theorem packageName_iff_knows {w : World} (sound : Sound w) {x : String} :
    w.mirror.Knows x ↔ ∃ id, w.packageName id = some x := by
  rw [World.mirror_knows, Option.isSome_iff_exists]
  constructor
  · rintro ⟨item, found⟩
    exact ⟨item.id, sound.packageName_package found⟩
  · rintro ⟨id, named⟩
    obtain ⟨item, found, _⟩ := sound.packageName_eq_some.mp named
    exact ⟨item, found⟩

section Create
variable {o : Outside} {w : World} {s : OpenProjectWorkItemSnapshot} {projectId : ProjectId} (sound : Sound w)
include sound

theorem findOrCreateWorkItem_refines :
    Meets o (findOrCreateWorkItem s projectId) w (byResult
      (fun r t => Moves w t ∧ t.package s.externalId = some r.1 ∧ t.mirror = w.mirror.create projectId s ∧
        r.2 = (w.package s.externalId).isNone ∧ (Mapped w → Mapped t))
      (fun e t => Moves w t ∧ o.Raises e ∧ e.site.isRepository = true ∧ (BeforeWorkItem e ∧ t.mirror = w.mirror ∨
        AfterWorkItem e ∧ w.package s.externalId = none ∧ t.mirror = w.mirror.create projectId s))) := by
  refine Meets.bind (Meets.query ?_ fun _ _ raises => ⟨Moves.refl w, raises, rfl, Or.inl ⟨Or.inl rfl, rfl⟩⟩)
  dsimp only [byResult]
  split
  · rename_i item found
    have package : w.package s.externalId = some item := found
    refine Meets.pure ⟨Moves.refl w, package, ?_, by rw [package]; rfl, id⟩
    exact (Mirror.create_of_knows _ (by rw [World.mirror_knows, package]; rfl)).symm
  · rename_i missing
    have absent : w.package s.externalId = none := missing
    have unknown : w.mirror.item s.externalId = none := by simp [World.mirror, absent]
    refine Meets.seq _ (newUuid_id o w) ?_ (fun _ _ stopped => stopped.elim)
    rintro id t ⟨rfl, rfl⟩
    have drawn : Tends w { w with nextUuid := w.nextUuid + 1 } :=
      (Drawn.beside ⟨w.nextUuid + 1, Nat.le_succ _, rfl⟩).tends
    have later := drawn.sound sound
    have unused := sound.workItems.fresh
    have below := Uuid.fresh_below w.nextUuid
    have created : Moves w (World.putWorkItem (newWorkItem (.v4 w.nextUuid) s projectId)
        { w with nextUuid := w.nextUuid + 1 }) := by
      refine ⟨rfl, ⟨[], by simp [World.putWorkItem], by simp [DocumentEventsOnly]⟩, Nat.le_succ _, fun _ => ?_⟩
      refine ⟨later.create absent rfl rfl below unused, ?_, fun _ => id, fun _ => id, fun _ => id⟩
      simp only [World.identities, World.putWorkItem]
      rw [identities_create unused]
      exact List.subset_append_left _ _
    have mirror : (World.putWorkItem (newWorkItem (.v4 w.nextUuid) s projectId)
        { w with nextUuid := w.nextUuid + 1 }).mirror = w.mirror.create projectId s := by
      rw [mirror_create_eq later absent rfl rfl below unused, drawn.1.mirror, Mirror.create_of_unknown _ unknown]
      rfl
    have package : (World.putWorkItem (newWorkItem (.v4 w.nextUuid) s projectId)
        { w with nextUuid := w.nextUuid + 1 }).package s.externalId =
          some (newWorkItem (.v4 w.nextUuid) s projectId) := by
      rw [package_create later absent rfl below unused, if_pos rfl]
    have mapped : World.MapsTo (World.putWorkItem (newWorkItem (.v4 w.nextUuid) s projectId)
        { w with nextUuid := w.nextUuid + 1 })
        { workItemId := .v4 w.nextUuid, provider := "openproject", externalId := s.externalId
          syncState := .synced } :=
      ⟨rfl, newWorkItem (.v4 w.nextUuid) s projectId, Keyed.mem_upsert_self _ _, rfl, rfl⟩
    have saved := created.trans (saveMapping_moves mapped)
    refine Meets.bind (Meets.command ?_ ?_ ?_)
    · refine Meets.bind (Meets.command ?_ ?_ ?_)
      · exact Meets.pure ⟨saved, package, mirror, by rw [absent]; rfl,
          fun mapped => mapped_create (drawn.reworks.mapped mapped) unused rfl⟩
      · exact fun _ raises => ⟨created, raises, rfl, Or.inr ⟨Or.inr (Or.inl rfl), absent, mirror⟩⟩
      · exact fun _ raises => ⟨saved, raises, rfl, Or.inr ⟨Or.inr (Or.inl rfl), absent, mirror⟩⟩
    · exact fun _ raises => ⟨drawn.reworks.toMoves, raises, rfl, Or.inl ⟨Or.inr ⟨rfl, rfl⟩, drawn.1.mirror⟩⟩
    · exact fun _ raises => ⟨created, raises, rfl, Or.inr ⟨Or.inl ⟨rfl, rfl⟩, absent, mirror⟩⟩

end Create

theorem mirror_content {w : World} {item old : WorkItem} {x : String} (sound : Sound w)
    (found : w.package x = some old) (revises : Revises old item) (sameParent : old.parentId = item.parentId) :
    (World.putWorkItem item w).mirror =
      { w.mirror with item := Function.update w.mirror.item x (some item.content) } := by
  have parent : item.parentId.bind w.packageName = w.mirror.parent x := by
    simp [World.mirror, found, sameParent]
  rw [mirror_rewrite sound found revises, parent, Function.update_eq_self]

theorem mirror_parent {w : World} {item old : WorkItem} {x : String} (sound : Sound w)
    (found : w.package x = some old) (revises : Revises old item) (sameContent : old.content = item.content) :
    (World.putWorkItem item w).mirror =
      { w.mirror with parent := Function.update w.mirror.parent x (item.parentId.bind w.packageName) } := by
  have content : some item.content = w.mirror.item x := by
    simp [World.mirror, found, sameContent]
  rw [mirror_rewrite sound found revises, content, Function.update_eq_self]

section Apply
variable {o : Outside} {w : World} {s : OpenProjectWorkItemSnapshot} {item : WorkItem} (sound : Sound w)
  (found : w.package s.externalId = some item)
include sound found

theorem applySnapshot_refines :
    Meets o (applySnapshot item s) w (byResult
      (fun item' t => Reworks w t ∧ t.package s.externalId = some item' ∧ t.mirror = w.mirror.apply s)
      (fun e t => Reworks w t ∧ o.Raises e ∧ e.site.isApply = true ∧
        (t.mirror = w.mirror ∨ t.mirror = w.mirror.apply s))) := by
  refine Meets.seq _ resolveAssignee_beside ?_ ?_
  · rintro actor t ⟨beside, rfl⟩
    have package : t.package s.externalId = some item := (beside.1.package _).trans found
    have aside := beside.tends.reworks
    have later := (aside.sound sound).1
    have revises : Revises item (appliedSnapshot item s (snapshotActor s)) := ⟨rfl, rfl⟩
    have parent : ∀ p, (appliedSnapshot item s (snapshotActor s)).parentId = some p → t.Holds p :=
      fun p named => later.parents item (later.package_eq_some.mp package).1 p named
    have applied : Reworks w (World.putWorkItem (appliedSnapshot item s (snapshotActor s)) t) :=
      trans_of Reworks aside (putWorkItem_reworks package revises fun _ => parent)
    have mirror : (World.putWorkItem (appliedSnapshot item s (snapshotActor s)) t).mirror = w.mirror.apply s := by
      have content : (w.mirror.item s.externalId).map (Content.apply s) =
          some (appliedSnapshot item s (snapshotActor s)).content := by simp [World.mirror, found]; rfl
      rw [mirror_content later package revises rfl, beside.1.mirror, Mirror.apply, content]
    have after : (World.putWorkItem (appliedSnapshot item s (snapshotActor s)) t).package s.externalId =
        some (appliedSnapshot item s (snapshotActor s)) := by
      rw [package_rewrite later package revises, if_pos rfl]
    refine Meets.bind (Meets.command (Meets.pure ⟨applied, after, mirror⟩) ?_ ?_)
    · exact fun _ raises => ⟨aside, raises, rfl, Or.inl beside.1.mirror⟩
    · exact fun _ raises => ⟨applied, raises, rfl, Or.inr mirror⟩
  · rintro e t ⟨beside, side, raises⟩
    exact ⟨beside.tends.reworks, raises, isApply_of_isSide side, Or.inl beside.1.mirror⟩

theorem resolveParent_refines :
    Meets o (resolveParent item s) w (byResult
      (fun item' t => Reworks w t ∧ t.package s.externalId = some item' ∧ t.mirror = w.mirror.resolveParent s)
      (fun e t => Reworks w t ∧ o.Raises e ∧ e.site.isApply = true ∧
        (t.mirror = w.mirror ∨ t.mirror = w.mirror.resolveParent s))) := by
  have knows : w.mirror.Knows s.externalId := by rw [World.mirror_knows, found]; rfl
  unfold resolveParent
  cases named : parentExternalId s with
  | none => exact Meets.pure ⟨refl_of Reworks w, found, by simp [Mirror.resolveParent, named]⟩
  | some p =>
    refine Meets.bind (Meets.query ?_ fun _ _ raises => ⟨refl_of Reworks w, raises, rfl, Or.inl rfl⟩)
    dsimp only [byResult]
    split
    · rename_i missing
      have absent : w.package p = none := missing
      have unknown : ¬ w.mirror.Knows p := by rw [World.mirror_knows, absent]; simp
      exact Meets.pure ⟨refl_of Reworks w, found, by simp [Mirror.resolveParent, named, unknown]⟩
    · rename_i parent hit
      have package : w.package p = some parent := hit
      have knowsParent : w.mirror.Knows p := by rw [World.mirror_knows, package]; rfl
      have differ : parent.id = item.id ↔ p = s.externalId := by
        constructor
        · intro same
          have left := sound.packageName_package package
          rw [same, sound.packageName_package found] at left
          exact (Option.some.inj left).symm
        · rintro rfl
          rw [found] at package
          cases package
          rfl
      split
      · rename_i same
        have self := differ.mp same
        exact Meets.pure ⟨refl_of Reworks w, found, by simp [Mirror.resolveParent, named, self]⟩
      · rename_i other
        have different : p ≠ s.externalId := fun same => other (differ.mpr same)
        have holds : w.Holds parent.id := ⟨parent, (sound.package_eq_some.mp package).1, rfl⟩
        have revises : Revises item { item with parentId := some parent.id } := ⟨rfl, rfl⟩
        have updated : Reworks w (World.putWorkItem { item with parentId := some parent.id } w) := by
          refine putWorkItem_reworks found revises ?_
          rintro _ q ⟨⟩
          exact holds
        have mirror : (World.putWorkItem { item with parentId := some parent.id } w).mirror =
            w.mirror.resolveParent s := by
          rw [mirror_parent sound found revises rfl]
          simp [Mirror.resolveParent, named, knows, knowsParent, different, sound.packageName_package package]
        have after : (World.putWorkItem { item with parentId := some parent.id } w).package s.externalId =
            some { item with parentId := some parent.id } := by
          rw [package_rewrite sound found revises, if_pos rfl]
        refine Meets.bind (Meets.command (Meets.pure ⟨updated, after, mirror⟩) ?_ ?_)
        · exact fun _ raises => ⟨refl_of Reworks w, raises, rfl, Or.inl rfl⟩
        · exact fun _ raises => ⟨updated, raises, rfl, Or.inr mirror⟩

omit sound in
theorem resolveSource_finds (source : Option String) :
    Meets o (resolveSource item source) w (byResult
      (fun id t => t = w ∧ id = (w.package (source.getD s.externalId)).map WorkItem.id)
      (fun e t => t = w ∧ o.Raises e ∧ e.site.isApply = true)) := by
  cases source with
  | none => exact Meets.pure ⟨rfl, by simp [found]⟩
  | some x =>
    refine Meets.bind (Meets.query ?_ fun _ _ raises => ⟨rfl, raises, rfl⟩)
    exact Meets.pure ⟨rfl, rfl⟩

omit found in
theorem storeRelation_refines {r : WorkItemRelation} {x y : String}
    (source : w.packageName r.sourceWorkItemId = some x) (target : w.packageName r.targetWorkItemId = some y)
    (below : r.id.Below w.nextUuid) (unused : ∀ old ∈ w.relations.items, old.id ≠ r.id) :
    Meets o (command .relationsCreate (World.createRelation r)) w (byResult
      (fun _ t => Reworks w t ∧ t.workItems = w.workItems ∧ t.mirror = w.mirror.addRelation (x, y, r.relationType))
      (fun e t => Reworks w t ∧ o.Raises e ∧ e.site.isApply = true ∧
        (t.mirror = w.mirror ∨ t.mirror = w.mirror.addRelation (x, y, r.relationType)))) := by
  obtain ⟨a, left, atSource⟩ := sound.packageName_eq_some.mp source
  obtain ⟨b, right, atTarget⟩ := sound.packageName_eq_some.mp target
  have stored : Reworks w (World.createRelation r w) :=
    createRelation_reworks below ⟨a, (sound.package_eq_some.mp left).1, atSource⟩
      ⟨b, (sound.package_eq_some.mp right).1, atTarget⟩ unused
  have mirror := mirror_createRelation source target unused
  refine Meets.command ⟨stored, createRelation_workItems, mirror⟩ ?_ ?_
  · exact fun _ raises => ⟨refl_of Reworks w, raises, rfl, Or.inl rfl⟩
  · exact fun _ raises => ⟨stored, raises, rfl, Or.inr mirror⟩

theorem resolveRelation_refines (raw : RawDict) :
    Meets o (resolveRelation item s raw) w (byResult
      (fun _ t => Reworks w t ∧ t.package s.externalId = some item ∧ t.mirror = w.mirror.resolveRelation s raw)
      (fun e t => Reworks w t ∧ o.Raises e ∧ e.site.isApply = true ∧
        (t.mirror = w.mirror ∨ t.mirror = w.mirror.resolveRelation s raw))) := by
  unfold resolveRelation
  split
  · rename_i skipped
    exact Meets.pure ⟨refl_of Reworks w, found, by simp [Mirror.resolveRelation, Mirror.namedRelation, skipped]⟩
  · rename_i source target mapped named
    have edge : Mirror.namedRelation s raw = some (source.getD s.externalId, target, mapped) := by
      simp [Mirror.namedRelation, named]
    refine Meets.seq _ (resolveSource_finds found source) ?_ ?_
    · rintro _ t ⟨stayed, rfl⟩
      rw [stayed]
      cases left : w.package (source.getD s.externalId) with
      | none =>
        have unknown : ¬ w.mirror.Knows (source.getD s.externalId) := by rw [World.mirror_knows, left]; simp
        exact Meets.pure ⟨refl_of Reworks w, found,
          by simp [Mirror.resolveRelation, edge, Mirror.Resolvable, unknown]⟩
      | some a =>
        refine Meets.bind (Meets.query ?_ fun _ _ raises => ⟨refl_of Reworks w, raises, rfl, Or.inl rfl⟩)
        dsimp only [byResult]
        split
        · rename_i missing
          have absent : w.package target = none := missing
          have unknown : ¬ w.mirror.Knows target := by rw [World.mirror_knows, absent]; simp
          exact Meets.pure ⟨refl_of Reworks w, found,
            by simp [Mirror.resolveRelation, edge, Mirror.Resolvable, unknown]⟩
        · rename_i b hit
          have right : w.package target = some b := hit
          have nameA := sound.packageName_package left
          have nameB := sound.packageName_package right
          have knows : w.mirror.Knows (source.getD s.externalId) ∧ w.mirror.Knows target :=
            ⟨(packageName_iff_knows sound).mpr ⟨a.id, nameA⟩, (packageName_iff_knows sound).mpr ⟨b.id, nameB⟩⟩
          split
          · rename_i same
            have self : target = source.getD s.externalId := by
              rw [same, nameA] at nameB
              exact (Option.some.inj nameB).symm
            exact Meets.pure ⟨refl_of Reworks w, found,
              by simp [Mirror.resolveRelation, edge, Mirror.Resolvable, self]⟩
          · rename_i other
            have different : target ≠ source.getD s.externalId := by
              intro same
              rw [← same] at nameA
              exact other (sound.packageName_injective nameB nameA)
            have resolved : w.mirror.resolveRelation s raw =
                w.mirror.addRelation (source.getD s.externalId, target, mapped) := by
              simp [Mirror.resolveRelation, edge, Mirror.Resolvable, knows.1, knows.2, different]
            rw [resolved]
            refine Meets.seq _ (newUuid_id o w) ?_ (fun _ _ stopped => stopped.elim)
            rintro id u ⟨rfl, rfl⟩
            have drawn : Tends w { w with nextUuid := w.nextUuid + 1 } :=
              (Drawn.beside ⟨w.nextUuid + 1, Nat.le_succ _, rfl⟩).tends
            have unused : ∀ old ∈ w.relations.items, old.id ≠ .v4 w.nextUuid :=
              fun old member => (sound.relationIds old member).ne_fresh
            refine Meets.seq _ (storeRelation_refines (drawn.sound sound) nameA nameB
              (Uuid.fresh_below w.nextUuid) unused) ?_ ?_
            · rintro _ u ⟨reworks, items, mirror⟩
              exact Meets.pure ⟨trans_of Reworks drawn.reworks reworks, (package_congr items _).trans found, mirror⟩
            · rintro e u ⟨reworks, raises, site, mirror⟩
              exact ⟨trans_of Reworks drawn.reworks reworks, raises, site, mirror⟩
    · rintro e t ⟨stayed, raises, site⟩
      rw [stayed]
      exact ⟨refl_of Reworks w, raises, site, Or.inl rfl⟩

end Apply

section Relations
variable {o : Outside} {s : OpenProjectWorkItemSnapshot} {item : WorkItem}

theorem resolveRelations_refines {w : World} (sound : Sound w) (found : w.package s.externalId = some item)
    (raws : List RawDict) :
    Meets o (tally (resolveRelation item s) raws) w (byResult
      (fun _ t => Reworks w t ∧ t.package s.externalId = some item ∧
        t.mirror = raws.foldl (fun m raw => m.resolveRelation s raw) w.mirror)
      (fun e t => Reworks w t ∧ o.Raises e ∧ e.site.isApply = true ∧ ∃ done, done <+: raws ∧
        t.mirror = done.foldl (fun m raw => m.resolveRelation s raw) w.mirror)) := by
  induction raws generalizing w with
  | nil => exact Meets.pure ⟨refl_of Reworks w, found, rfl⟩
  | cons raw raws ih =>
    refine Meets.seq _ (resolveRelation_refines sound found raw) ?_ ?_
    · rintro n t ⟨reworks, package, mirror⟩
      refine Meets.seq _ (ih (reworks.sound sound).1 package) ?_ ?_
      · rintro n' u ⟨reworks', package', mirror'⟩
        rw [mirror] at mirror'
        exact Meets.pure ⟨trans_of Reworks reworks reworks', package', mirror'⟩
      · rintro e u ⟨reworks', raises, site, done, before, mirror'⟩
        rw [mirror] at mirror'
        exact ⟨trans_of Reworks reworks reworks', raises, site, raw :: done,
          List.cons_prefix_cons.mpr ⟨rfl, before⟩, mirror'⟩
    · rintro e t ⟨reworks, raises, site, untouched | resolved⟩
      · exact ⟨reworks, raises, site, [], List.nil_prefix, untouched⟩
      · exact ⟨reworks, raises, site, [raw], List.cons_prefix_cons.mpr ⟨rfl, List.nil_prefix⟩, resolved⟩

end Relations

namespace OpenProjectIngestionService
variable (self : OpenProjectIngestionService) {o : Outside} {w : World} {s : OpenProjectWorkItemSnapshot}
  {projectId : ProjectId}

/-- The canonical part of an ingestion refines `Mirror.ingest`. Where it raises,
some of its writes took place, and the site tells whether the work item exists. -/
theorem ingestCanonical_refines (changes : List SemanticChange) (sound : Sound w) :
    Meets o (self.ingestCanonical s changes projectId) w (byResult
      (fun r t => Moves w t ∧ t.package s.externalId = some r.1 ∧ t.mirror = w.mirror.ingest projectId s ∧
        r.2.created = (w.package s.externalId).isNone ∧ r.2.changes = changes ∧ (Mapped w → Mapped t))
      (fun e t => Moves w t ∧ o.Raises e ∧ Mirror.Reach projectId [s] w.mirror t.mirror ∧
        (e.site.isRepository = true ∨ (Mapped w → Mapped t)) ∧
        (BeforeWorkItem e ∧ t.mirror = w.mirror ∨ AfterWorkItem e ∧ t.mirror.Knows s.externalId))) := by
  have only : s ∈ [s] := List.mem_singleton.mpr rfl
  have start : Mirror.Reach projectId [s] w.mirror w.mirror := Relation.ReflTransGen.refl
  have known : (w.mirror.create projectId s).Knows s.externalId := Mirror.knows_create.mpr (Or.inl rfl)
  -- an exception after the creation
  have late : ∀ (u t : World) (e : Raised), Moves w u → (Mapped w → Mapped u) → Reworks u t →
      Mirror.Reach projectId [s] (w.mirror.create projectId s) t.mirror → o.Raises e → e.site.isApply = true →
      Moves w t ∧ o.Raises e ∧ Mirror.Reach projectId [s] w.mirror t.mirror ∧
        (e.site.isRepository = true ∨ (Mapped w → Mapped t)) ∧
        (BeforeWorkItem e ∧ t.mirror = w.mirror ∨ AfterWorkItem e ∧ t.mirror.Knows s.externalId) := by
    intro u t e moves mapped reworks reached raises site
    exact ⟨moves.trans reworks.toMoves, raises, (start.create only).trans reached,
      Or.inr fun before => reworks.mapped (mapped before), Or.inr ⟨Or.inr (Or.inr site), reached.knows known⟩⟩
  refine Meets.seq _ (findOrCreateWorkItem_refines sound) ?_ ?_
  · rintro ⟨item, created⟩ t₁ ⟨moves₁, package₁, mirror₁, isNew, mapped₁⟩
    have reach₁ : Mirror.Reach projectId [s] (w.mirror.create projectId s) t₁.mirror := by
      rw [mirror₁]
    refine Meets.seq _ (applySnapshot_refines (moves₁.sound sound).1 package₁) ?_ ?_
    · rintro item₂ t₂ ⟨reworks₂, package₂, mirror₂⟩
      have moves₂ := moves₁.trans reworks₂.toMoves
      have mapped₂ := fun before => reworks₂.mapped (mapped₁ before)
      have reach₂ := reach₁.apply only
      rw [← mirror₂] at reach₂
      refine Meets.seq _ (resolveParent_refines (moves₂.sound sound).1 package₂) ?_ ?_
      · rintro item₃ t₃ ⟨reworks₃, package₃, mirror₃⟩
        have moves₃ := moves₂.trans reworks₃.toMoves
        have mapped₃ := fun before => reworks₃.mapped (mapped₂ before)
        have reach₃ := reach₂.resolveParent only
        rw [← mirror₃] at reach₃
        refine Meets.seq _ (resolveRelations_refines (moves₃.sound sound).1 package₃ s.relations) ?_ ?_
        · rintro relationsIngested t₄ ⟨reworks₄, package₄, mirror₄⟩
          have moves₄ := moves₃.trans reworks₄.toMoves
          have mapped₄ := fun before => reworks₄.mapped (mapped₃ before)
          have mirror : t₄.mirror = w.mirror.ingest projectId s := by
            rw [mirror₄, mirror₃, mirror₂, mirror₁]
            rfl
          refine Meets.seq _ (self.reconcileAttachments_tends item₃ s) ?_ ?_
          · rintro attachmentsIngested t₅ ⟨tends₅, _⟩
            have tends₅ : Tends t₄ t₅ := tends₅
            refine Meets.seq _ (projectSubgraph_beside (S := fun _ => False) item₃ o t₅) ?_ ?_
            · intro _ t₆ beside₆
              have tends := trans_of Tends tends₅ beside₆.tends
              exact Meets.pure ⟨moves₄.trans tends.reworks.toMoves, (tends.1.package _).trans package₄,
                tends.1.mirror.trans mirror, isNew, rfl, fun before => tends.reworks.mapped (mapped₄ before)⟩
            · exact fun _ _ stopped => stopped.2.1.elim
          · rintro e t ⟨⟨tends, side, raises⟩, _⟩
            have reached := reach₃.resolveRelations only
            rw [Mirror.resolveRelations, ← mirror₄, ← tends.1.mirror] at reached
            exact late t₄ t e moves₄ mapped₄ tends.reworks reached raises (isApply_of_isSide side)
        · rintro e t ⟨reworks, raises, site, done, before, mirror⟩
          have reached := reach₃.resolveSome only before.subset
          rw [← mirror] at reached
          exact late t₃ t e moves₃ mapped₃ reworks reached raises site
      · rintro e t ⟨reworks, raises, site, untouched | resolved⟩
        · exact late t₂ t e moves₂ mapped₂ reworks (by rw [untouched]; exact reach₂) raises site
        · exact late t₂ t e moves₂ mapped₂ reworks (by rw [resolved]; exact reach₂.resolveParent only) raises site
    · rintro e t ⟨reworks, raises, site, untouched | applied⟩
      · exact late t₁ t e moves₁ mapped₁ reworks (by rw [untouched]; exact reach₁) raises site
      · exact late t₁ t e moves₁ mapped₁ reworks (by rw [applied]; exact reach₁.apply only) raises site
  · rintro e t ⟨moves, raises, repository, ⟨before, untouched⟩ | ⟨after, absent, created⟩⟩
    · exact ⟨moves, raises, by rw [untouched], Or.inl repository, Or.inl ⟨before, untouched⟩⟩
    · refine ⟨moves, raises, by rw [created]; exact start.create only, Or.inl repository, Or.inr ⟨after, ?_⟩⟩
      rw [created]
      exact known

end OpenProjectIngestionService

end Brain

namespace Brain
open Calls

structure Unattached (w t : World) : Prop where
  attachments : t.attachments = w.attachments
  published : t.published = w.published
  nextUuid : w.nextUuid ≤ t.nextUuid

instance : IsPreorder World Unattached where
  refl _ := ⟨rfl, rfl, Nat.le_refl _⟩
  trans _ _ _ first second := ⟨second.attachments.trans first.attachments, second.published.trans first.published,
    Nat.le_trans first.nextUuid second.nextUuid⟩

theorem Unattached.registered {w t : World} (unattached : Unattached w t) (registered : AttachmentsRegistered w) :
    AttachmentsRegistered t := by
  unfold AttachmentsRegistered
  rw [unattached.attachments]
  exact registered.later unattached.nextUuid

theorem Unattached.allCatalogued {w t : World} (unattached : Unattached w t) {attachments : List RawDict} :
    AllCatalogued t attachments ↔ AllCatalogued w attachments := by
  simp only [AllCatalogued, Catalogued, unattached.attachments]

abbrev AnySite (_ : Site) : Prop := True

theorem newUuid_unattached : Within Unattached AnySite newUuid :=
  Within.internal fun _ => ⟨rfl, rfl, Nat.le_succ _⟩

theorem command_unattached {site : Site} {f : World → World}
    (moves : ∀ w, Unattached w (f w)) : Within Unattached AnySite (command site f : Prog Unit) :=
  Within.command moves trivial

theorem createRelation_unattached (relation : WorkItemRelation) (w : World) :
    Unattached w (World.createRelation relation w) := by
  unfold World.createRelation
  split
  · exact refl_of Unattached w
  · exact ⟨rfl, rfl, Nat.le_refl _⟩

section Steps
variable (s : OpenProjectWorkItemSnapshot) (item : WorkItem)

theorem findOrCreateWorkItem_unattached (projectId : ProjectId) :
    Within Unattached AnySite (findOrCreateWorkItem s projectId) := by
  refine Within.bind (Within.query trivial) fun existing => ?_
  split
  · exact Within.pure _
  · refine Within.bind newUuid_unattached fun id => ?_
    refine Within.bind (command_unattached fun _ => ⟨rfl, rfl, Nat.le_refl _⟩) fun _ => ?_
    exact Within.bind (command_unattached fun _ => ⟨rfl, rfl, Nat.le_refl _⟩) fun _ => Within.pure _

theorem applySnapshot_unattached : Within Unattached AnySite (applySnapshot item s) := by
  refine Within.bind ?_ fun assignee => ?_
  · unfold resolveAssignee
    split
    · exact Within.pure _
    · refine Within.bind (Within.query trivial) fun actor => ?_
      split
      · exact Within.pure _
      · exact Within.bind (command_unattached fun _ => ⟨rfl, rfl, Nat.le_refl _⟩) fun _ => Within.pure _
  · exact Within.bind (command_unattached fun _ => ⟨rfl, rfl, Nat.le_refl _⟩) fun _ => Within.pure _

theorem resolveParent_unattached : Within Unattached AnySite (resolveParent item s) := by
  unfold resolveParent
  split
  · exact Within.pure _
  · refine Within.bind (Within.query trivial) fun parent => ?_
    split
    · exact Within.pure _
    · split
      · exact Within.pure _
      · exact Within.bind (command_unattached fun _ => ⟨rfl, rfl, Nat.le_refl _⟩) fun _ => Within.pure _

theorem resolveRelations_unattached : Within Unattached AnySite (resolveRelations item s) := by
  refine Within.tally fun raw _ => ?_
  unfold resolveRelation
  split
  · exact Within.pure _
  · refine Within.bind ?_ fun source => ?_
    · unfold resolveSource
      split
      · exact Within.pure _
      · exact Within.bind (Within.query trivial) fun _ => Within.pure _
    · split
      · exact Within.pure _
      · refine Within.bind (Within.query trivial) fun target => ?_
        split
        · exact Within.pure _
        · split
          · exact Within.pure _
          · refine Within.bind newUuid_unattached fun id => ?_
            exact Within.bind (command_unattached (createRelation_unattached _)) fun _ => Within.pure _

theorem projectSubgraph_unattached : Within Unattached AnySite (projectSubgraph item) := by
  refine Within.swallow (S := AnySite) (Within.bind (Within.query trivial) fun project => ?_)
  refine Within.bind (Within.query trivial) fun relations => Within.bind ?_ fun _ => ?_
  · exact command_unattached fun _ => ⟨rfl, rfl, Nat.le_refl _⟩
  · exact command_unattached fun _ => ⟨rfl, rfl, Nat.le_refl _⟩

end Steps

namespace OpenProjectIngestionService
variable (self : OpenProjectIngestionService)

/-- The canonical part of an ingestion leaves every attachment of its snapshot
stored, and publishes nothing when they all were. -/
theorem ingestCanonical_catalogues {o : Outside} {w : World} {s : OpenProjectWorkItemSnapshot}
    {projectId : ProjectId} (changes : List SemanticChange) (registered : AttachmentsRegistered w) :
    Meets o (self.ingestCanonical s changes projectId) w (fun r t =>
      (∀ a, r = .ok a → AllCatalogued t s.attachments) ∧
        (AllCatalogued w s.attachments → t.published = w.published)) := by
  have stop : ∀ (t : World) (e : Raised), Unattached w t → (∀ a : WorkItem × OpenProjectIngestionResult,
      (.error e : Except Raised _) = .ok a → AllCatalogued t s.attachments) ∧
        (AllCatalogued w s.attachments → t.published = w.published) :=
    fun t e unattached => ⟨by simp, fun _ => unattached.published⟩
  refine Meets.seq _ (findOrCreateWorkItem_unattached s projectId o w) ?_ (fun e t stays => stop t e stays.store)
  rintro ⟨item, created⟩ t first
  have first : Unattached w t := first
  refine Meets.seq _ (applySnapshot_unattached s item o t) ?_
    (fun e u stays => stop u e (trans_of Unattached first stays.store))
  intro item u second
  have second := trans_of Unattached first second
  refine Meets.seq _ (resolveParent_unattached s item o u) ?_
    (fun e v stays => stop v e (trans_of Unattached second stays.store))
  intro item v third
  have third := trans_of Unattached second third
  refine Meets.seq _ (resolveRelations_unattached s item o v) ?_
    (fun e v stays => stop v e (trans_of Unattached third stays.store))
  intro relations x fourth
  have fourth := trans_of Unattached third fourth
  have atAttachments := fourth.registered registered
  refine Meets.seq _ (self.reconcileAttachments_tends item s) ?_ ?_
  · rintro count y ⟨tends, outcome⟩
    obtain ⟨catalogued, silent⟩ := outcome atAttachments
    refine Meets.seq _ (projectSubgraph_unattached item o y) ?_ ?_
    · intro _ z last
      have last : Unattached y z := last
      refine Meets.pure ⟨fun _ _ => last.allCatalogued.mpr (catalogued count rfl), ?_⟩
      intro all
      rw [last.published, silent (fourth.allCatalogued.mpr all), fourth.published]
    · intro e z stays
      refine ⟨by simp, ?_⟩
      intro all
      rw [stays.store.published, silent (fourth.allCatalogued.mpr all), fourth.published]
  · rintro e y ⟨_, outcome⟩
    refine ⟨by simp, ?_⟩
    intro all
    rw [(outcome atAttachments).2 (fourth.allCatalogued.mpr all), fourth.published]

end OpenProjectIngestionService

end Brain
