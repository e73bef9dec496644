import Brain.Ingestion.Silence
import Brain.Mirror.TwoPass

namespace Brain
open Calls

def Mirror.outgoing (m : Mirror) (x : String) : Set (String × String × WorkItemRelationType) :=
  {e ∈ m.relation | e.1 = x}

/-- Ingesting `s` where the same work packages are known gives the same parent,
or the old one, and the same relations besides the old ones. -/
theorem Mirror.ingest_congr {m k : Mirror} {projectId other : ProjectId} {s : OpenProjectWorkItemSnapshot}
    (same : ∀ y, y ≠ s.externalId → (k.Knows y ↔ m.Knows y)) (orphan : k.parent s.externalId = none)
    (isolated : k.outgoing s.externalId = ∅) :
    (m.ingest projectId s).parent s.externalId =
        ((k.ingest other s).parent s.externalId).or (m.parent s.externalId) ∧
      (m.ingest projectId s).outgoing s.externalId =
        m.outgoing s.externalId ∪ (k.ingest other s).outgoing s.externalId := by
  have created : ∀ y, (k.create other s).Knows y ↔ (m.create projectId s).Knows y := by
    intro y
    rw [Mirror.knows_create, Mirror.knows_create]
    by_cases own : y = s.externalId
    · simp [own]
    · rw [same y own]
  have found : (k.create other s).foundRelations s = (m.create projectId s).foundRelations s := by
    simp only [Mirror.foundRelations, Mirror.Resolvable, created]
  constructor
  · rw [Mirror.parent_ingest, Mirror.parent_ingest, Function.update_self, Function.update_self, orphan,
      Option.or_none, Mirror.namedParent_congr created]
  · have none : ∀ e ∈ k.relation, e.1 ≠ s.externalId := by
      intro e member own
      have listed : e ∈ k.outgoing s.externalId := ⟨member, own⟩
      rw [isolated] at listed
      exact listed
    ext e
    simp only [Mirror.outgoing, Mirror.relation_ingest, found, Set.mem_ofPred_eq, Set.mem_union]
    constructor
    · rintro ⟨old | new, own⟩
      · exact Or.inl ⟨old, own⟩
      · exact Or.inr ⟨Or.inr new, own⟩
    · rintro (⟨old, own⟩ | ⟨old | new, own⟩)
      · exact ⟨Or.inl old, own⟩
      · exact absurd own (none e old)
      · exact ⟨Or.inr new, own⟩

namespace OpenProjectIngestionService
variable (self : OpenProjectIngestionService)

theorem Ingested.mirror {w t : World} {s : OpenProjectWorkItemSnapshot} {options : IngestOptions}
    {result : OpenProjectIngestionResult} {projectId : ProjectId}
    (ingested : self.Ingested w options s (.ok result) t)
    (project : w.resolvedProject s options.projectId = some projectId) :
    t.mirror = w.mirror.ingest projectId s := by
  cases ingested with
  | closed prepared _ publishes =>
    rw [publishes.mirror]
    cases prepared with
    | resolved found _ _ mirror =>
      rw [project] at found
      cases found
      exact mirror
    | unresolved missing =>
      rw [project] at missing
      cases missing

def IngestsOther (x : String) (call : Call) : Prop :=
  ∃ s options, call.op = .ingest s options ∧ s.externalId ≠ x

def NamedIn (history : List Call) (e : String × String × WorkItemRelationType) : Prop :=
  ∃ call ∈ history, ∃ s options, call.op = .ingest s options ∧
    ∃ raw ∈ s.relations, Mirror.namedRelation s raw = some e

theorem after_ingestsOther {x : String} {history : List Call} {w : World} (sound : Sound w)
    (others : ∀ call ∈ history, IngestsOther x call) :
    (self.after history w).mirror.item x = w.mirror.item x ∧
      (self.after history w).mirror.parent x = w.mirror.parent x ∧
      w.mirror.relation ⊆ (self.after history w).mirror.relation ∧
      ∀ e ∈ (self.after history w).mirror.relation, e ∈ w.mirror.relation ∨ NamedIn history e := by
  induction history generalizing w with
  | nil => exact ⟨rfl, rfl, subset_rfl, fun _ => Or.inl⟩
  | cons call history ih =>
    obtain ⟨s, options, op, other⟩ := others call (List.mem_cons_self ..)
    obtain ⟨r, ingested, _⟩ := self.ended_ingest op sound
    have reach := ingested.reach ((w.resolvedProject s options.projectId).getD default) (by simp +contextual)
    have first := reach.others (x := x) (by simpa using other)
    obtain ⟨kept, named⟩ := reach.relation_subset
    obtain ⟨items, parents, keeps, names⟩ := ih (self.ended_sound call sound).1
      (fun later member => others later (List.mem_cons_of_mem _ member))
    refine ⟨items.trans first.1, parents.trans first.2, kept.trans keeps, ?_⟩
    intro e member
    rcases names e member with before | ⟨later, listed, named'⟩
    · rcases named before with old | ⟨s', only, raw, listed, new, _⟩
      · exact Or.inl old
      · rw [List.mem_singleton.mp only] at listed new
        exact Or.inr ⟨call, List.mem_cons_self .., s, options, op, raw, listed, new⟩
    · exact Or.inr ⟨later, List.mem_cons_of_mem _ listed, named'⟩

/-- How the work item of `s` in `f` compares with the one in `v`, where `s` was
ingested alone, and with the one in `w`, before `s` was ingested. -/
structure Converges (s : OpenProjectWorkItemSnapshot) (late : List Call) (w v f : World) : Prop where
  workItem : ∃ a b, f.package s.externalId = some a ∧ v.package s.externalId = some b ∧
    a.type = b.type ∧ a.humanWorkStatus = b.humanWorkStatus ∧ a.priority = b.priority ∧
    a.title = (if s.summary = "" then ((w.package s.externalId).map WorkItem.title).getD b.title else b.title) ∧
    a.description = (if s.description = "" then ((w.package s.externalId).map WorkItem.description).getD b.description
      else b.description) ∧
    a.assignee = b.assignee.or ((w.package s.externalId).bind WorkItem.assignee)
  parent : f.mirror.parent s.externalId = (v.mirror.parent s.externalId).or (w.mirror.parent s.externalId)
  kept : w.mirror.outgoing s.externalId ∪ v.mirror.outgoing s.externalId ⊆ f.mirror.outgoing s.externalId
  named : ∀ e ∈ f.mirror.outgoing s.externalId,
    e ∈ w.mirror.outgoing s.externalId ∨ e ∈ v.mirror.outgoing s.externalId ∨ NamedIn late e

theorem package_of_item {w : World} {x : String} {c : Content} (item : w.mirror.item x = some c) :
    ∃ a, w.package x = some a ∧ a.content = c :=
  Option.map_eq_some_iff.mp item

theorem isolated_of_unknown {u : World} {x : String} (sound : Sound u) (unknown : u.package x = none) :
    u.mirror.parent x = none ∧ u.mirror.outgoing x = ∅ := by
  have absent : ¬ u.mirror.Knows x := by rw [World.mirror_knows, unknown]; simp
  refine ⟨by simp [World.mirror, unknown], Set.eq_empty_of_forall_notMem ?_⟩
  rintro e ⟨⟨r, stored, source, _⟩, own⟩
  rw [own] at source
  exact absent ((packageName_iff_knows sound).mpr ⟨_, source⟩)

theorem content_converges {w f v : World} {p q : ProjectId} {s : OpenProjectWorkItemSnapshot}
    (item : f.mirror.item s.externalId = some (Mirror.ingested p s ((w.package s.externalId).map WorkItem.content)))
    (alone : v.mirror.item s.externalId = some (Mirror.ingested q s none)) :
    ∃ a b, f.package s.externalId = some a ∧ v.package s.externalId = some b ∧
      a.type = b.type ∧ a.humanWorkStatus = b.humanWorkStatus ∧ a.priority = b.priority ∧
      a.title = (if s.summary = "" then ((w.package s.externalId).map WorkItem.title).getD b.title else b.title) ∧
      a.description = (if s.description = "" then ((w.package s.externalId).map WorkItem.description).getD b.description
        else b.description) ∧
      a.assignee = b.assignee.or ((w.package s.externalId).bind WorkItem.assignee) := by
  obtain ⟨a, foundA, contentA⟩ := package_of_item item
  obtain ⟨b, foundB, contentB⟩ := package_of_item alone
  simp only [WorkItem.content, Mirror.ingested, Content.apply, Content.new, newWorkItem, Content.mk.injEq,
    Option.getD_none] at contentA contentB
  obtain ⟨_, typeA, titleA, descriptionA, priorityA, assigneeA, statusA, _⟩ := contentA
  obtain ⟨_, typeB, titleB, descriptionB, priorityB, assigneeB, statusB, _⟩ := contentB
  refine ⟨a, b, foundA, foundB, typeA.trans typeB.symm, statusA.trans statusB.symm,
    priorityA.trans priorityB.symm, ?_, ?_, ?_⟩
  · rw [titleA, titleB]
    by_cases empty : s.summary = ""
    · cases w.package s.externalId <;> simp [strOr, empty, WorkItem.content]
    · simp [strOr, empty]
  · rw [descriptionA, descriptionB]
    by_cases empty : s.description = ""
    · cases w.package s.externalId <;> simp [strOr, empty, WorkItem.content]
    · simp [strOr, empty]
  · rw [assigneeA, assigneeB]
    cases w.package s.externalId <;> simp [WorkItem.content]

/-- After its last ingestion a work item agrees with one that was ingested alone,
except where that leaves a field empty: there the old value stays, as do the old
relations. -/
theorem ingest_converges (early late other : List Call) (call alone : Call) (projects projects' : Keyed Project.id)
    (nextUuid nextUuid' : Nat) {s : OpenProjectWorkItemSnapshot} {options options' : IngestOptions}
    {w u v f : World} (before : w = self.after early (World.start projects nextUuid))
    (op : call.op = .ingest s options) (returned : (self.ended call w).result = .ok ())
    (project : (w.resolvedProject s options.projectId).isSome = true)
    (others : ∀ later ∈ late, IngestsOther s.externalId later) (final : f = self.after (call :: late) w)
    (reference : u = self.after other (World.start projects' nextUuid'))
    (unknown : u.package s.externalId = none)
    (same : ∀ y, y ≠ s.externalId → u.mirror.item y = w.mirror.item y)
    (opAlone : alone.op = .ingest s options') (returnedAlone : (self.ended alone u).result = .ok ())
    (projectAlone : (u.resolvedProject s options'.projectId).isSome = true)
    (ingestedAlone : v = (self.ended alone u).store) :
    Converges s late w v f := by
  have soundW := (self.after_sound early (Sound.start projects nextUuid)).1
  have soundU := (self.after_sound other (Sound.start projects' nextUuid')).1
  rw [← before] at soundW
  rw [← reference] at soundU
  obtain ⟨p, found⟩ := Option.isSome_iff_exists.mp project
  obtain ⟨q, foundAlone⟩ := Option.isSome_iff_exists.mp projectAlone
  obtain ⟨result, ingested⟩ := self.ended_completes soundW op rfl (fun _ => returned)
  obtain ⟨result', ingested'⟩ := self.ended_completes soundU opAlone rfl (fun _ => returnedAlone)
  have mirrorT := ingested.mirror self found
  have mirrorV := ingested'.mirror self foundAlone
  rw [← ingestedAlone] at mirrorV
  obtain ⟨items, parents, keeps, names⟩ := self.after_ingestsOther (self.ended_sound call soundW).1 others
  rw [after_cons] at final
  rw [← final, mirrorT] at items parents keeps names
  obtain ⟨orphan, isolated⟩ := isolated_of_unknown soundU unknown
  have knows : ∀ y, y ≠ s.externalId → (u.mirror.Knows y ↔ w.mirror.Knows y) := by
    intro y differs
    rw [Mirror.Knows, Mirror.Knows, same y differs]
  obtain ⟨parent, outgoing⟩ := @Mirror.ingest_congr _ _ p q _ knows orphan isolated
  rw [← mirrorV] at parent outgoing
  refine ⟨?_, parents.trans parent, ?_, ?_⟩
  · have itemF : f.mirror.item s.externalId =
        some (Mirror.ingested p s ((w.package s.externalId).map WorkItem.content)) := by
      rw [items, Mirror.item_ingest, Function.update_self]
      rfl
    have itemV : v.mirror.item s.externalId = some (Mirror.ingested q s none) := by
      have none : u.mirror.item s.externalId = none := by simp [World.mirror, unknown]
      rw [mirrorV, Mirror.item_ingest, Function.update_self, none]
    exact content_converges itemF itemV
  · rw [← outgoing]
    rintro e ⟨member, own⟩
    exact ⟨keeps member, own⟩
  · rintro e ⟨member, own⟩
    rcases names e member with old | new
    · have listed : e ∈ (w.mirror.ingest p s).outgoing s.externalId := ⟨old, own⟩
      rw [outgoing] at listed
      rcases listed with atW | atV
      · exact Or.inl atW
      · exact Or.inr (Or.inl atV)
    · exact Or.inr (Or.inr new)

/-- A work package ingested alone, and then another one. -/
theorem ingest_converges_alone :
    let call := Call.undisturbed (.ingest { externalId := "1", summary := "One" } { mode := .live, source := "webhook" })
    let alone := Call.undisturbed (.ingest { externalId := "1", summary := "One" } { mode := .bootstrap, source := "bootstrap" })
    let later := Call.undisturbed (.ingest { externalId := "2" } { mode := .live, source := "webhook" })
    Converges { externalId := "1", summary := "One" } [later] World.oneProject (ended {} alone World.oneProject).store
      (after {} [call, later] World.oneProject) := by
  refine ingest_converges {} [] _ [] _ _ _ _ 0 0 rfl rfl rfl (by decide) ?_ rfl rfl (by decide) (fun _ _ => rfl) rfl
    rfl (by decide) rfl
  intro later member
  rw [List.mem_singleton.mp member]
  exact ⟨_, _, rfl, by decide⟩

/-- Clearing the description, the assignee and the parent is reported and not
done, unlike in a work item ingested alone; and a parent that arrives later is
not found by the ingestion of the parent. -/
theorem cleared_fields_stay :
    let full : OpenProjectWorkItemSnapshot :=
      { externalId := "1", description := "Text", assigneeId := some "7", parentId := some 2 }
    let cleared : OpenProjectWorkItemSnapshot := { externalId := "1" }
    let parent : OpenProjectWorkItemSnapshot := { externalId := "2" }
    let ingest (s : OpenProjectWorkItemSnapshot) := Call.undisturbed (.ingest s { mode := .live, source := "webhook" })
    let state (history : List Call) := ((after {} history World.oneProject).package "1").map fun item =>
      (item.description, item.assignee, item.parentId.isSome)
    diffSnapshots (some full) cleared = [.descriptionChanged, .assigneeChanged, .parentChanged] ∧
      state [ingest parent, ingest full, ingest cleared] ≠ state [ingest parent, ingest cleared] ∧
      state [ingest full, ingest parent] ≠ state [ingest parent, ingest full] := by
  decide +kernel

end OpenProjectIngestionService

end Brain

namespace Brain
open Calls

namespace OpenProjectIngestionService
variable (self : OpenProjectIngestionService)

def firstPass (options : IngestOptions) (batch : List OpenProjectWorkItemSnapshot) : List Call :=
  batch.map fun s => .undisturbed (.ingest s options)

def importOf (options : IngestOptions) (batch whole : List OpenProjectWorkItemSnapshot) : List Call :=
  firstPass options batch ++ [.undisturbed (.resolveRelationships whole)]

variable {options : IngestOptions} {project : ProjectId} {w : World}

theorem resolvedProject_of_get (into : options.projectId = some project) (exists' : (w.projects.get project).isSome = true)
    (s : OpenProjectWorkItemSnapshot) : w.resolvedProject s options.projectId = some project := by
  obtain ⟨found, stored⟩ := Option.isSome_iff_exists.mp exists'
  simp [World.resolvedProject, into, stored]

theorem ended_undisturbed (s : OpenProjectWorkItemSnapshot) (sound : Sound w) :
    ∃ result, self.Ingested w options s (.ok result) (self.ended (.undisturbed (.ingest s options)) w).store := by
  obtain ⟨r, ingested, _, raises⟩ := @ended_ingest self _ (.undisturbed (.ingest s options)) _ _ rfl sound
  cases r with
  | ok result => exact ⟨result, ingested⟩
  | error e => exact absurd (raises e rfl) (Outside.not_raises_of_returns fun _ => rfl)

theorem after_firstPass (into : options.projectId = some project) (batch : List OpenProjectWorkItemSnapshot)
    (exists' : (w.projects.get project).isSome = true) (sound : Sound w) :
    (self.after (firstPass options batch) w).mirror = w.mirror.ingestAll project batch := by
  induction batch generalizing w with
  | nil => rfl
  | cons s batch ih =>
    obtain ⟨result, ingested⟩ := @ended_undisturbed self options _ s sound
    have first := ingested.mirror self (resolvedProject_of_get into exists' s)
    have projects := ingested.projects
    have rest := ih (w := (self.ended (.undisturbed (.ingest s options)) w).store)
      (by rw [projects]; exact exists') (self.ended_sound _ sound).1
    rw [first] at rest
    exact rest

theorem after_importOf (into : options.projectId = some project) (batch whole : List OpenProjectWorkItemSnapshot)
    (exists' : (w.projects.get project).isSome = true) (sound : Sound w) :
    (self.after (importOf options batch whole) w).mirror =
      (w.mirror.ingestAll project batch).resolveAll whole := by
  have between := (self.after_sound (firstPass options batch) sound).1
  have second : Returns Outside.clean (resolveRelationships whole) (self.after (firstPass options batch) w)
      (fun _ t => t.mirror = (self.after (firstPass options batch) w).mirror.resolveAll whole) := by
    refine ((resolveRelationships_refines project whole between).returns Outside.clean_clean ?_).mono ?_
    · exact fun e t stopped => stopped.2.1
    · intro r t reached
      cases r with
      | ok _ => exact reached.2
      | error e => exact reached
  have atEnd : (self.after (importOf options batch whole) w).mirror =
      (self.after (firstPass options batch) w).mirror.resolveAll whole := by
    have run := second 0
    rw [importOf, after_append, after_cons, after_nil]
    cases result : (resolveRelationships whole Outside.clean 0 (self.after (firstPass options batch) w)).result with
    | ok _ => rw [result] at run; exact run
    | error e => rw [result] at run; exact run.elim
  rw [atEnd, self.after_firstPass into batch exists' sound]

/-- Exactly the work packages of the batch are stored, with the parents and the
relations that the batch names within itself. -/
structure Imported (batch : List OpenProjectWorkItemSnapshot) (t : World) : Prop where
  workItems : ∀ x, (t.package x).isSome = true ↔ ∃ s ∈ batch, s.externalId = x
  parents : ∀ s ∈ batch, ∀ p, t.mirror.parent s.externalId = some p ↔
    parentExternalId s = some p ∧ (∃ other ∈ batch, other.externalId = p) ∧ p ≠ s.externalId
  relations : t.mirror.relation = {e | ∃ s ∈ batch, ∃ raw ∈ s.relations, Mirror.namedRelation s raw = some e ∧
    (∃ source ∈ batch, source.externalId = e.1) ∧ (∃ target ∈ batch, target.externalId = e.2.1) ∧ e.2.1 ≠ e.1}

theorem imported_of_pass {batch : List OpenProjectWorkItemSnapshot} {t : World}
    (distinct : (batch.map OpenProjectWorkItemSnapshot.externalId).Nodup) {m : Mirror}
    (unknown : ∀ x, ¬ m.Knows x) (orphans : ∀ x, m.parent x = none) (unrelated : m.relation = ∅)
    (mirror : t.mirror = m.pass project batch) : Imported batch t := by
  have knows : ∀ x, (m.pass project batch).Knows x ↔ ∃ s ∈ batch, s.externalId = x := by
    intro x
    rw [Mirror.knows_pass]
    simp [unknown x]
  refine ⟨?_, ?_, ?_⟩
  · intro x
    rw [← World.mirror_knows, mirror, knows]
  · intro s member p
    rw [mirror, Mirror.parent_pass_orphan distinct member (orphans _), Mirror.namedParent_eq_some, knows]
  · rw [mirror, Mirror.relation_pass, unrelated, Set.empty_union]
    simp only [Mirror.foundRelations, Mirror.Resolvable, knows, Set.mem_ofPred_eq]

/-- Two imports of the same distinct work packages, each pass in any order, end
with the same work items, parents and relations up to the ids drawn for them. -/
theorem import_order_independent (projects : Keyed Project.id) (nextUuid : Nat) (project : ProjectId)
    {options : IngestOptions} {l l' r r' : List OpenProjectWorkItemSnapshot}
    (into : options.projectId = some project)
    (stored : (projects.get project).isSome = true)
    (distinct : (l.map OpenProjectWorkItemSnapshot.externalId).Nodup) (perm : l'.Perm l) (whole : r.Perm l)
    (whole' : r'.Perm l) :
    SameUpToIds (self.after (importOf options l r) (World.start projects nextUuid))
        (self.after (importOf options l' r') (World.start projects nextUuid)) ∧
      Imported l (self.after (importOf options l r) (World.start projects nextUuid)) ∧
      Imported l (self.after (importOf options l' r') (World.start projects nextUuid)) := by
  have start := Sound.start projects nextUuid
  have distinct' : (l'.map OpenProjectWorkItemSnapshot.externalId).Nodup := ((perm.map _).nodup_iff).mpr distinct
  have first := self.after_importOf into l r (w := World.start projects nextUuid) stored start
  have second := self.after_importOf into l' r' (w := World.start projects nextUuid) stored start
  rw [Mirror.resolveAll_perm distinct whole] at first
  rw [Mirror.resolveAll_perm distinct' (whole'.trans perm.symm), Mirror.pass_perm distinct perm] at second
  have absent : ∀ x, (World.start projects nextUuid).package x = none := fun _ => rfl
  have imported : ∀ t : World, t.mirror = (World.start projects nextUuid).mirror.pass project l → Imported l t := by
    intro t mirror
    refine imported_of_pass distinct ?_ ?_ ?_ mirror
    · intro x
      rw [World.mirror_knows, absent]
      simp
    · intro x
      simp [World.mirror, absent]
    · simp [World.mirror, World.start]
  refine ⟨?_, imported _ first, imported _ second⟩
  exact sameUpToIds_of_mirror (self.after_sound _ start).1 (self.after_sound _ start).1 (first.trans second.symm)

/-- A child and its parent with a relation, imported in both orders. -/
theorem import_order_independent_child :
    let child : OpenProjectWorkItemSnapshot :=
      { externalId := "1", parentId := some 2, relations := [[("to", .str "2"), ("type", .str "blocks")]] }
    let parent : OpenProjectWorkItemSnapshot := { externalId := "2" }
    let options : IngestOptions := { mode := .bootstrap, source := "bootstrap", projectId := some (.v5 "project") }
    SameUpToIds (after {} (importOf options [child, parent] [child, parent]) World.oneProject)
        (after {} (importOf options [parent, child] [child, parent]) World.oneProject) ∧
      Imported [child, parent] (after {} (importOf options [child, parent] [child, parent]) World.oneProject) ∧
      Imported [child, parent] (after {} (importOf options [parent, child] [child, parent]) World.oneProject) := by
  intro child parent options
  exact import_order_independent {} _ 0 (.v5 "project") rfl (by decide) (by decide) (List.Perm.swap ..) (List.Perm.refl _)
    (List.Perm.refl _)

/-- The parent id 0 counts as missing, also where the batch has a work package 0. -/
theorem parent_zero_unresolved :
    let root : OpenProjectWorkItemSnapshot := { externalId := "0" }
    let child : OpenProjectWorkItemSnapshot := { externalId := "1", parentId := some 0 }
    let options : IngestOptions := { mode := .bootstrap, source := "bootstrap", projectId := some (.v5 "project") }
    let final := after {} (importOf options [root, child] [root, child]) World.oneProject
    child.parentId.map toString = some root.externalId ∧ root.externalId ≠ child.externalId ∧
      (final.package "0").isSome = true ∧ (final.package "1").map WorkItem.parentId = some none := by
  decide +kernel

end OpenProjectIngestionService

end Brain
