import Brain.Documents.Retry
import Brain.Parsing.Stored

namespace Brain
open Calls

/-! ### What the parsers make -/

/-- The nodes of a parser form a forest, and their ids are among those it drew. -/
structure ParsedFrom (nextUuid drawn : Nat) (nodes : List BlockNode) : Prop where
  forest : ParsedForest nodes
  ids : ∀ node ∈ nodes, node.id.Between nextUuid (nextUuid + drawn)

namespace ParsedFrom
variable {nextUuid drawn : Nat} {nodes : List BlockNode}

theorem ids_of_range (ids : nodes.map (fun node => node.id) = (List.range' nextUuid nodes.length).map Uuid.v4) :
    (nodes.map fun node => node.id).Nodup ∧ ∀ node ∈ nodes, node.id.Between nextUuid (nextUuid + nodes.length) := by
  constructor
  · rw [ids]
    exact List.Nodup.map (fun a b same => Uuid.v4.inj same) List.nodup_range'
  · intro node listed
    have member : node.id ∈ nodes.map fun node => node.id := List.mem_map_of_mem listed
    rw [ids] at member
    obtain ⟨n, inRange, same⟩ := List.mem_map.mp member
    rw [List.mem_range'_1] at inRange
    exact ⟨n, inRange.1, inRange.2, same.symm⟩

theorem of_roots (ids : nodes.map (fun node => node.id) = (List.range' nextUuid nodes.length).map Uuid.v4)
    (roots : ∀ node ∈ nodes, node.parentId = none ∧ node.childIds = []) : ParsedFrom nextUuid nodes.length nodes := by
  obtain ⟨nodup, between⟩ := ids_of_range ids
  exact ⟨Forest.of_roots nodup (fun node listed => (roots node listed).1) fun node listed => (roots node listed).2, between⟩

theorem built (calls : List BuilderCall) (nextUuid : Nat) :
    ParsedFrom nextUuid (DocumentBuilder.built calls nextUuid).nodes.length (DocumentBuilder.built calls nextUuid).nodes :=
  ⟨(DocumentBuilder.rooted calls nextUuid).forest, (ids_of_range (DocumentBuilder.rooted calls nextUuid).ids).2⟩

theorem withFrontMatter (frontMatter : RawDict) (calls : List BuilderCall) (nextUuid : Nat) :
    ParsedFrom nextUuid (withFrontMatter frontMatter (DocumentBuilder.built calls nextUuid)).length
      (withFrontMatter frontMatter (DocumentBuilder.built calls nextUuid)) := by
  have body := built calls nextUuid
  have next := (DocumentBuilder.rooted calls nextUuid).next
  unfold Brain.withFrontMatter
  split
  · exact body
  · have isNew : (Uuid.v4 (DocumentBuilder.built calls nextUuid).nextUuid).Between nextUuid
        (nextUuid + ((DocumentBuilder.built calls nextUuid).nodes.length + 1)) :=
      Uuid.fresh_between (by omega) (by omega)
    refine ⟨Forest.cons ?_ rfl rfl body.forest, ?_⟩
    · intro listed
      obtain ⟨node, inBody, same⟩ := List.mem_map.mp listed
      have below := (body.ids node inBody).below
      rw [same, ← next] at below
      exact below.ne_fresh rfl
    · intro node listed
      rcases List.mem_cons.mp listed with rfl | inBody
      · exact isNew
      · exact (body.ids node inBody).mono (Nat.le_refl _) (by rw [List.length_cons]; omega)

theorem map (from_ : ParsedFrom nextUuid drawn nodes) (f : BlockNode → BlockNode) (ids : ∀ node, (f node).id = node.id)
    (parents : ∀ node, (f node).parentId = node.parentId) (childs : ∀ node, (f node).childIds = node.childIds) :
    ParsedFrom nextUuid drawn (nodes.map f) := by
  refine ⟨Forest.map f (fun node _ => ids node) (fun node _ => parents node) (fun node _ => childs node) from_.forest, ?_⟩
  intro node listed
  obtain ⟨before, member, rfl⟩ := List.mem_map.mp listed
  exact ids before ▸ from_.ids before member

end ParsedFrom

/-- What the scan of an ADR does to a node. -/
def BlockNode.retagged (node : BlockNode) : BlockNode := node.classifySection.elim node node.retag

theorem BlockNode.retagged_eq (node : BlockNode) :
    node.retagged.id = node.id ∧ node.retagged.parentId = node.parentId ∧ node.retagged.childIds = node.childIds := by
  unfold retagged
  cases node.classifySection with
  | none => exact ⟨rfl, rfl, rfl⟩
  | some section_ => exact ⟨rfl, rfl, rfl⟩

theorem AdrScan.nodes_scan (self : AdrScan) (nodes : List BlockNode) :
    (self.scan nodes).nodes = self.nodes ++ nodes.map BlockNode.retagged := by
  induction nodes generalizing self with
  | nil => exact (List.append_nil _).symm
  | cons node rest ih =>
    have turned : (self.turn node rest).nodes = self.nodes ++ [node.retagged] := by
      unfold turn BlockNode.retagged
      cases node.classifySection with
      | some section_ => rfl
      | none =>
        dsimp only
        split
        · rfl
        · rfl
    rw [scan, ih, turned, List.append_assoc, List.map_cons, List.singleton_append]

theorem adrParse_nodes (artifact : SourceArtifact) (parsed : ParserDocument) :
    (adrParse artifact parsed).nodes = parsed.nodes.map BlockNode.retagged :=
  (AdrScan.nodes_scan {} parsed.nodes).trans (List.nil_append _)

namespace HtmlWalk

/-- The nodes so far are roots, numbered from `nextUuid` on. -/
structure Flat (nextUuid : Nat) (walked : HtmlWalk) : Prop where
  ids : walked.nodes.map (fun node => node.id) = (List.range' nextUuid walked.nodes.length).map Uuid.v4
  next : walked.nextUuid = nextUuid + walked.nodes.length
  roots : ∀ node ∈ walked.nodes, node.parentId = none ∧ node.childIds = []

variable {nextUuid : Nat} {self : HtmlWalk}

theorem Flat.add (flat : Flat nextUuid self) (block : Block) (order : Nat) : Flat nextUuid (self.add block order) := by
  refine ⟨?_, ?_, ?_⟩
  · show (self.nodes ++ [_]).map _ = _
    rw [List.map_append, flat.ids, HtmlWalk.add, List.length_append, List.length_singleton, List.range'_concat,
      List.map_append, Nat.one_mul, ← flat.next]
    rfl
  · show self.nextUuid + 1 = _
    rw [flat.next, HtmlWalk.add, List.length_append, List.length_singleton]
    omega
  · intro node listed
    rcases List.mem_append.mp listed with old | new
    · exact flat.roots node old
    · rw [List.mem_singleton.mp new]
      exact ⟨rfl, rfl⟩

theorem Flat.walk (flat : Flat nextUuid self) (order : Nat) (contents : HtmlContents) :
    Flat nextUuid (self.walk order contents) := by
  induction contents generalizing self order with
  | nil => exact flat
  | text _ rest ih => exact ih flat order
  | comment _ rest ih => exact ih flat order
  | tag name attributes contents rest inner ih =>
    rw [HtmlWalk.walk]
    cases htmlKind name with
    | heading level =>
      have entered : Flat nextUuid (self.enter level (contents.getText " ")) := ⟨flat.ids, flat.next, flat.roots⟩
      exact ih (entered.add _ order) (order + 1)
    | table => exact ih (flat.add _ order) (order + 1)
    | pre => exact ih (flat.add _ order) (order + 1)
    | list => exact ih (flat.add _ order) (order + 1)
    | paragraph =>
      dsimp only
      split
      · exact ih (flat.add _ order) (order + 1)
      · exact ih flat order
    | wrapper =>
      dsimp only
      split
      · exact ih (flat.add _ order) (order + 1)
      · exact ih (inner flat order) order
    | other => exact ih flat order

end HtmlWalk

theorem htmlParse_from (soup : HtmlContents) (nextUuid : Nat) :
    ParsedFrom nextUuid (htmlParse soup nextUuid).2 (htmlParse soup nextUuid).1.nodes := by
  have flat : HtmlWalk.Flat nextUuid { nextUuid } := by
    refine ⟨rfl, rfl, ?_⟩
    intro node listed
    cases listed
  have walked := flat.walk 0 (((soup.removeNoise.find "body").map HtmlTag.contents).getD soup.removeNoise)
  exact ParsedFrom.of_roots walked.ids walked.roots

theorem pdfParse_from (isUpper : String → Bool) (pages : List String) (nextUuid : Nat) :
    ParsedFrom nextUuid (pdfParse isUpper pages nextUuid).2 (pdfParse isUpper pages nextUuid).1.nodes := by
  unfold pdfParse
  generalize splitParagraphs (joinLines pages) = paragraphs
  refine ParsedFrom.of_roots ?_ ?_
  · apply List.ext_getElem
    · simp
    · intro i left right
      simp only [List.getElem_map, List.getElem_zipIdx, List.getElem_range']
      split <;> simp
  · intro node listed
    obtain ⟨⟨text, index⟩, _, rfl⟩ := List.mem_map.mp listed
    dsimp only
    split
    · exact ⟨rfl, rfl⟩
    · exact ⟨rfl, rfl⟩

section Structured
variable {libraries : ParserLibraries} {sources : StructuredSources} {unresolved : BlockNode → List String}

theorem parseMarkdown_from {mdParse : String → List Token} {artifact : SourceArtifact} {nextUuid drawn : Nat}
    {document : ParserDocument} (parsed : libraries.parseMarkdown mdParse artifact nextUuid = .ok (document, drawn)) :
    ParsedFrom nextUuid drawn document.nodes := by
  obtain ⟨text, _, parsed⟩ := Checked.bind_eq_ok.mp parsed
  obtain ⟨calls, nodes, isDrawn⟩ := markdownParse_nodes parsed
  rw [isDrawn, nodes]
  exact ParsedFrom.withFrontMatter document.frontMatter calls nextUuid

theorem parseStructured_from {parser : StructuredParser} {artifact : TaggedArtifact} {nextUuid drawn : Nat}
    {document : ParsedDocument}
    (parsed : libraries.parseStructured sources unresolved parser artifact nextUuid = .ok (document, drawn)) :
    ∃ nodes, ParsedFrom nextUuid drawn nodes ∧ document.nodes = nodes.map (BlockNode.parsed unresolved) := by
  unfold ParserLibraries.parseStructured at parsed
  cases parser with
  | markdown =>
    obtain ⟨made, isMade, same⟩ := Checked.map_eq_ok.mp parsed
    obtain ⟨rfl, rfl⟩ := Prod.mk.inj same
    exact ⟨made.1.nodes, parseMarkdown_from isMade, rfl⟩
  | adr =>
    obtain ⟨made, isMade, same⟩ := Checked.map_eq_ok.mp parsed
    obtain ⟨rfl, rfl⟩ := Prod.mk.inj same
    obtain ⟨read, isRead, isMade⟩ := Checked.bind_eq_ok.mp isMade
    cases isMade
    refine ⟨_, ?_, rfl⟩
    rw [adrParse_nodes]
    exact (parseMarkdown_from isRead).map BlockNode.retagged (fun node => node.retagged_eq.1)
      (fun node => node.retagged_eq.2.1) fun node => node.retagged_eq.2.2
  | html =>
    obtain ⟨made, isMade, same⟩ := Checked.map_eq_ok.mp parsed
    obtain ⟨rfl, rfl⟩ := Prod.mk.inj same
    obtain ⟨text, _, isMade⟩ := Checked.bind_eq_ok.mp isMade
    cases isMade
    exact ⟨_, htmlParse_from _ _, rfl⟩
  | pdf =>
    obtain ⟨pages, _, same⟩ := Checked.map_eq_ok.mp parsed
    obtain ⟨rfl, rfl⟩ := Prod.mk.inj same
    exact ⟨_, pdfParse_from _ _ _, rfl⟩
  | xwiki =>
    obtain ⟨made, isMade, same⟩ := Checked.map_eq_ok.mp parsed
    obtain ⟨rfl, rfl⟩ := Prod.mk.inj same
    obtain ⟨text, _, isMade⟩ := Checked.bind_eq_ok.mp isMade
    obtain ⟨nodes, isDrawn⟩ := xwikiParse_nodes artifact.sourceUri artifact.metadata text nextUuid
    have isMade : xwikiParse artifact.sourceUri artifact.metadata text nextUuid = made := Except.ok.inj isMade
    rw [isMade] at nodes isDrawn
    refine ⟨made.1.nodes, ?_, rfl⟩
    rw [isDrawn, nodes]
    exact ParsedFrom.built _ nextUuid

end Structured

namespace DocumentIngestionService
variable {self : DocumentIngestionService} {call : IngestCall} {o : Outside} {w t : World}

structure ParsesForests (service : DocumentIngestionService) : Prop extends service.Parses where
  forest : ∀ artifact n,
    Forest ParsedNode.id ParsedNode.parentId ParsedNode.childIds (service.parse artifact n).1.nodes

theorem structured_parsesForests (self : DocumentIngestionService) (libraries : ParserLibraries) (sources : StructuredSources)
    (unresolved : BlockNode → List String) (select : SourceArtifact → StructuredParser × RawDict) :
    (self.structured libraries sources unresolved select).ParsesForests := by
  have each : ∀ artifact n, ∃ nodes, ParsedFrom n ((self.structured libraries sources unresolved select).parse artifact n).2
        nodes ∧
      ((self.structured libraries sources unresolved select).parse artifact n).1.nodes =
        nodes.map (BlockNode.parsed unresolved) := by
    intro artifact n
    unfold structured
    dsimp only
    cases parsed : libraries.parseStructured sources unresolved (select artifact).1
        { toSourceArtifact := artifact, metadata := (select artifact).2 } n with
    | ok made => exact parseStructured_from parsed
    | error e =>
      refine ⟨[], ⟨Forest.nil, ?_⟩, rfl⟩
      intro node listed
      cases listed
  have forest : ∀ artifact n, Forest ParsedNode.id ParsedNode.parentId ParsedNode.childIds
      ((self.structured libraries sources unresolved select).parse artifact n).1.nodes := by
    intro artifact n
    obtain ⟨nodes, from_, isParsed⟩ := each artifact n
    rw [isParsed]
    exact Forest.map _ (fun _ _ => rfl) (fun _ _ => rfl) (fun _ _ => rfl) from_.forest
  refine ⟨⟨?_, fun artifact n => (forest artifact n).nodup⟩, forest⟩
  intro artifact n node listed
  obtain ⟨nodes, from_, isParsed⟩ := each artifact n
  rw [isParsed] at listed
  obtain ⟨before, member, rfl⟩ := List.mem_map.mp listed
  exact from_.ids before member

/-! ### What ingestion stores -/

/-- A call adds the nodes of one version, and begins with the first of those that
were parsed. -/
def AddsNodes (self : DocumentIngestionService) (call : IngestCall) (w t : World) : Prop :=
  ∃ versionId part, part <+: (self.parseAt call w.nextUuid).nodes ∧
    (part ≠ [] → versionId.Between w.nextUuid t.nextUuid) ∧
    t.documentNodes.items = w.documentNodes.items ++ part.map (documentNode versionId)

theorem addsNodes_none (leads : Filing.Leads { documents := t.documents } w t) : self.AddsNodes call w t :=
  ⟨.v4 0, [], List.nil_prefix, fun absurd_ => absurd rfl absurd_, leads.nodes⟩

theorem perform_addsNodes (curated : Curated w) (parses : self.Parses) :
    Meets o (self.perform call) w (fun _ t => self.AddsNodes call w t) := by
  refine Meets.seq _ (runParser_draws (self.hashed call.artifact)) ?_ ?_
  rotate_left
  · rintro e t ⟨drawn, _⟩
    have leads := Filing.leads_of_drawn drawn
    exact addsNodes_none (leads.documents ▸ leads)
  rintro parsed t ⟨drawn, rfl, ids⟩
  have drawn := Filing.leads_of_drawn drawn
  refine Meets.seq _ (findOrCreateDocument_finds (curated.drawn drawn)) ?_ ?_
  rotate_left
  · rintro e u ⟨_, leads, _⟩
    exact addsNodes_none (drawn.trans leads)
  rintro ⟨document, current⟩ u ⟨table, leads, _⟩
  have behind : Behind (call.projectId, call.artifact.sourceUri) t u := ⟨[], [], by simp, by simp, table, leads⟩
  have curated' := (curated.drawn drawn).behind behind
  have whole : Filing.Leads { documents := u.documents } w u := drawn.trans leads
  have fresh : ∀ node ∈ (self.parseAt call w.nextUuid).nodes, ∀ old ∈ u.documentNodes.items, old.id ≠ node.id := by
    intro node listed old inStore
    rw [whole.nodes, List.append_nil] at inStore
    exact (parses.drawn _ _ node listed).ne_old (curated.nodeIds old inStore)
  have stores : Meets o (self.storeVersion (self.hashed call.artifact) (self.parseAt call w.nextUuid)
      (call.documentType.getD (self.parseAt call w.nextUuid).documentType) call.projectId call.repositoryId
      call.commitSha document) u (fun _ v => self.AddsNodes call w v) := by
    refine (storeVersion_moves curated' fresh (parses.distinct _ _)).mono ?_
    rintro r v ⟨version, isId, _, _, later, ended⟩
    have versionId : version.id.Between w.nextUuid v.nextUuid := isId ▸ Uuid.fresh_between whole.nextUuid later
    have added : ∃ part, part <+: (self.parseAt call w.nextUuid).nodes ∧
        v.documentNodes.items = u.documentNodes.items ++ part.map (documentNode version.id) := by
      split at ended
      · obtain ⟨_, _, _, _, _, _, written⟩ := ended
        exact ⟨_, List.prefix_refl _, written.nodes⟩
      · obtain ⟨_, part, _, first, written⟩ := ended
        exact ⟨part, first, written.nodes⟩
    obtain ⟨part, first, items⟩ := added
    refine ⟨version.id, part, first, fun _ => versionId, ?_⟩
    rw [items, whole.nodes, List.append_nil]
  cases current with
  | none => exact stores
  | some version =>
    dsimp only
    split
    · refine Meets.bind (Meets.query ?_ fun _ _ _ => addsNodes_none whole)
      dsimp only [byResult]
      exact Meets.pure (addsNodes_none whole)
    · exact stores

structure Forested (w : World) : Prop where
  laws : ∀ id, ParentChildLaws DocumentNode.id DocumentNode.parentId DocumentNode.childIds (w.listNodes id)
  whole : ∀ document ∈ w.documents.items, ∀ id, document.currentVersionId = some id →
    ChildrenListed DocumentNode.id DocumentNode.childIds (w.listNodes id)

theorem laws_of_addsNodes (curated : Curated w) (parses : self.ParsesForests) (adds : self.AddsNodes call w t)
    (before : ∀ id, ParentChildLaws DocumentNode.id DocumentNode.parentId DocumentNode.childIds (w.listNodes id)) (id : Uuid) :
    ParentChildLaws DocumentNode.id DocumentNode.parentId DocumentNode.childIds (t.listNodes id) := by
  obtain ⟨versionId, part, first, between, items⟩ := adds
  have nodes : t.listNodes id =
      w.listNodes id ++ (part.map (documentNode versionId)).filter (fun node => node.versionId = id) := by
    rw [World.listNodes, items, List.filter_append]
    rfl
  rw [nodes]
  by_cases own : versionId = id ∧ part ≠ []
  · obtain ⟨rfl, some_⟩ := own
    have none : w.listNodes versionId = [] := by
      refine List.filter_eq_nil_iff.mpr fun node stored => ?_
      simpa using (between some_).ne_old (curated.nodeVersions node stored)
    have all : (part.map (documentNode versionId)).filter (fun node => node.versionId = versionId) =
        part.map (documentNode versionId) := by
      refine List.filter_eq_self.mpr fun node listed => ?_
      obtain ⟨parsed, _, rfl⟩ := List.mem_map.mp listed
      exact decide_eq_true rfl
    rw [none, all, List.nil_append]
    have forest := parses.forest (self.hashed call.artifact) w.nextUuid
    have stored := @Forest.map _ _ _ ParsedNode.id ParsedNode.parentId ParsedNode.childIds _ _ DocumentNode.id
      DocumentNode.parentId DocumentNode.childIds (documentNode versionId) (fun _ _ => rfl) (fun _ _ => rfl) (fun _ _ => rfl)
      forest
    exact stored.laws_of_prefix (first.map _)
  · have none : (part.map (documentNode versionId)).filter (fun node => node.versionId = id) = [] := by
      refine List.filter_eq_nil_iff.mpr fun node listed => ?_
      obtain ⟨parsed, member, rfl⟩ := List.mem_map.mp listed
      have other : versionId ≠ id := fun same => own ⟨same, List.ne_nil_of_mem member⟩
      exact fun same => other (of_decide_eq_true same)
    rw [none, List.append_nil]
    exact before id

theorem listNodes_behind {key : ProjectId × String} (behind : Behind key w t) {id : Uuid} (old : id.Below w.nextUuid) :
    t.listNodes id = w.listNodes id := by
  obtain ⟨versions, nodes, _, nodeIds, _, leads⟩ := behind
  have none : nodes.filter (fun node => node.versionId = id) = [] := by
    refine List.filter_eq_nil_iff.mpr fun node listed => ?_
    simpa using ((nodeIds node listed).2.ne_old old).symm
  rw [World.listNodes, leads.nodes, List.filter_append, none, List.append_nil]
  rfl

theorem Forested.step (curated : Curated w) (parses : self.ParsesForests) (forested : Forested w)
    {r : Except Raised DocumentIngestionResult} (outcome : self.Outcome call r w t) (adds : self.AddsNodes call w t) :
    Forested t := by
  refine ⟨laws_of_addsNodes curated parses adds forested.laws, ?_⟩
  have known : ∀ d ∈ w.documents.items, ∀ id, d.currentVersionId = some id → id.Below w.nextUuid := by
    intro d stored id pointer
    obtain ⟨version, listed, rfl, _⟩ := curated.pointers d stored id pointer
    exact curated.versionIds version listed
  unfold Outcome at outcome
  split at outcome
  · intro d stored id pointer
    have nodes : t.listNodes id = w.listNodes id := by
      rw [World.listNodes, outcome.nodes, List.append_nil]
      rfl
    rw [outcome.documents] at stored
    rw [nodes]
    exact forested.whole d stored id pointer
  · split at outcome
    · obtain ⟨document, version, advanced⟩ := outcome
      intro d stored id pointer
      rw [advanced.documents] at stored
      rcases Keyed.mem_upsert.mp stored with rfl | ⟨old, _⟩
      · obtain rfl : version.id = id := Option.some.inj (advanced.pointer.symm.trans pointer)
        rw [advanced.listNodes_self curated]
        have forest := parses.forest (self.hashed call.artifact) w.nextUuid
        have all := @Forest.map _ _ _ ParsedNode.id ParsedNode.parentId ParsedNode.childIds _ _ DocumentNode.id
          DocumentNode.parentId DocumentNode.childIds (documentNode version.id) (fun _ _ => rfl) (fun _ _ => rfl)
          (fun _ _ => rfl) forest
        exact all.childrenListed
      · rw [advanced.listNodes_old (known d old id pointer)]
        exact forested.whole d old id pointer
    · have documents := outcome
      obtain ⟨_, _, _, _, table, _⟩ := documents
      intro d stored id pointer
      have old : d ∈ w.documents.items := by
        rcases table with same | ⟨document, _, unset, _, _, put⟩
        · rwa [same] at stored
        · rw [put] at stored
          rcases Keyed.mem_upsert.mp stored with rfl | ⟨old, _⟩
          · rw [unset] at pointer
            cases pointer
          · exact old
      rw [listNodes_behind outcome (known d old id pointer)]
      exact forested.whole d old id pointer

theorem forested_afterCalls (parses : self.ParsesForests) (history : List (IngestCall × Outside × Nat)) :
    Forested (self.afterCalls history) := by
  induction history using List.reverseRecOn with
  | nil =>
    refine ⟨fun id => Forest.nil.laws, ?_⟩
    intro d stored
    cases stored
  | append_singleton history made ih =>
    have curated := curated_afterCalls parses.toParses history
    rw [afterCalls, List.foldl_append]
    exact ih.step curated parses (perform_outcome curated parses.toParses made.2.2)
      (perform_addsNodes curated parses.toParses made.2.2)

/-- What the builders make of any calls is a forest in order whose paths extend
one another, and what ingestion stores for a version, however its calls end, keeps
the laws of one. -/
theorem documents_are_forests :
    (∀ (calls : List BuilderCall) (nextUuid : Nat),
      let nodes := (DocumentBuilder.built calls nextUuid).nodes
      ParentChildLaws (fun node : BlockNode => node.id) (fun node => node.parentId) (fun node => node.childIds) nodes ∧
        ChildrenListed (fun node : BlockNode => node.id) (fun node => node.childIds) nodes ∧
        (∀ (i : Nat) (node : BlockNode), nodes[i]? = some node → node.order = i) ∧ ExtendsPaths nodes) ∧
      ∀ (self : DocumentIngestionService) (libraries : ParserLibraries) (sources : StructuredSources)
        (unresolved : BlockNode → List String) (select : SourceArtifact → StructuredParser × RawDict)
        (history : List (IngestCall × Outside × Nat)),
        Forested ((self.structured libraries sources unresolved select).afterCalls history) := by
  constructor
  · intro calls nextUuid
    have rooted := DocumentBuilder.rooted calls nextUuid
    exact ⟨rooted.forest.laws, rooted.forest.childrenListed, fun i node => DocumentBuilder.order_eq calls nextUuid,
      rooted.paths⟩
  · intro self libraries sources unresolved select history
    exact forested_afterCalls (self.structured_parsesForests libraries sources unresolved select) history

end DocumentIngestionService

end Brain
