import Brain.Documentation.Cycles
import Brain.Documents.History
import Mathlib.Data.List.TakeDrop

namespace Brain
open Calls

/-! ### Page references -/

def isSeparator (c : Char) : Bool := c = '/' || c = '.'

/-- A name in a reference: none of the signs the references are built with. -/
def PlainName (name : List Char) : Prop := name ≠ [] ∧ ∀ c ∈ name, isSeparator c = false ∧ c ≠ ':'

instance (name : List Char) : Decidable (PlainName name) :=
  @instDecidableAnd _ _ inferInstance (List.decidableBAll (fun c => isSeparator c = false ∧ c ≠ ':') name)

structure SpacePath where
  top : List Char
  nested : List (List Char) := []
  plainTop : PlainName top
  plainNested : ∀ name ∈ nested, PlainName name

namespace SpacePath

def chars (path : SpacePath) : List Char := path.top ++ path.nested.flatMap ('.' :: ·)

/-- The name a project maps the space by. -/
def text (path : SpacePath) : String := String.ofList path.chars

def topText (path : SpacePath) : String := String.ofList path.top

def Contains (path inner : SpacePath) : Prop := inner.top = path.top ∧ path.nested <+: inner.nested

end SpacePath

inductive ReferenceForm
  /-- `s.P` -/
  | dotted
  /-- `wiki:s.P` -/
  | prefixed (wiki : List Char)
  /-- `wiki/s/P` -/
  | slashed (wiki : List Char)

structure PageReference where
  form : ReferenceForm
  space : SpacePath
  page : List Char

namespace PageReference

def chars (reference : PageReference) : List Char :=
  match reference.form with
  | .dotted => reference.space.chars ++ '.' :: reference.page
  | .prefixed wiki => wiki ++ ':' :: (reference.space.chars ++ '.' :: reference.page)
  | .slashed wiki => wiki ++ '/' :: (reference.space.chars ++ '/' :: reference.page)

/-- What the forms ask of a page name: a dotted reference has no slash, and in
`wiki/s/P` no colon stands before the first dot. -/
def Readable (reference : PageReference) : Prop :=
  match reference.form with
  | .dotted => '/' ∉ reference.page
  | .prefixed wiki => PlainName wiki ∧ '/' ∉ reference.page
  | .slashed wiki => PlainName wiki ∧ (∃ c ∈ reference.page, isSeparator c = false) ∧
      (reference.space.nested = [] → ':' ∉ reference.page.takeWhile (fun c => c ≠ '.'))

/-- `externalId` is the reference, perhaps with space around it. -/
structure Spells (reference : PageReference) (externalId : String) : Prop where
  readable : reference.Readable
  text : (strip externalId).toList = reference.chars

end PageReference

/-! ### The space of a reference -/

/-- The parts `extract_space` takes a reference apart into. -/
def pieces (raw : List Char) : List (List Char) :=
  (raw.splitOnP (fun c => c = '/' || c = '.')).filter (fun part => !part.isEmpty)

theorem pieces_append {name rest : List Char} {c : Char} (plain : PlainName name) (separates : isSeparator c = true) :
    pieces (name ++ c :: rest) = name :: pieces rest := by
  have first := List.splitOnP_append_cons_of_forall_mem (fun x member => (plain.2 x member).1) c separates rest
  unfold pieces
  change List.filter _ (List.splitOnP isSeparator (name ++ c :: rest)) = _
  rw [first]
  exact List.filter_cons_of_pos (by simpa using plain.1)

variable {raw : List Char}

theorem pieces_ne_nil {c : Char} (member : c ∈ raw) (ordinary : isSeparator c = false) : pieces raw ≠ [] := by
  induction raw with
  | nil => cases member
  | cons x raw ih =>
    unfold pieces at ih ⊢
    rw [List.splitOnP_cons_eq_if_modifyHead]
    split
    · rename_i separates
      rcases List.mem_cons.mp member with rfl | later
      · exact absurd (separates.symm.trans ordinary) (by decide)
      · simpa using ih later
    · obtain ⟨head, tail, isSplit⟩ := List.exists_cons_of_ne_nil
        (List.splitOnP_ne_nil (fun c => decide (c = '/') || decide (c = '.')) raw)
      rw [isSplit]
      simp

theorem dropWikiPrefix_self (noColon : ':' ∉ raw.takeWhile (fun c => c ≠ '.')) : dropWikiPrefix raw = raw := by
  -- a prefix would end in a colon before the first dot
  have stop : ∀ rest : List Char, raw.dropWhile (fun c => c ≠ '.' && c ≠ ':') ≠ ':' :: rest := by
    intro rest
    induction raw with
    | nil => simp
    | cons x raw ih =>
      by_cases dot : x = '.'
      · simp [dot]
      · have later : ':' ≠ x ∧ ':' ∉ raw.takeWhile (fun c => c ≠ '.') := by simpa [dot] using noColon
        simpa [dot, later.1.symm] using ih later.2
  unfold dropWikiPrefix
  rw [List.span_eq_takeWhile_dropWhile]
  split
  · rename_i isPair
    exact absurd (congrArg Prod.snd isPair) (stop _)
  · rfl

theorem dropWikiPrefix_prefixed {wiki rest : List Char} (plain : PlainName wiki) :
    dropWikiPrefix (wiki ++ ':' :: rest) = rest := by
  have passes : ∀ c ∈ wiki, (c ≠ '.' && c ≠ ':') = true := by
    intro c member
    obtain ⟨ordinary, noColon⟩ := plain.2 c member
    have noDot : c ≠ '.' := fun dot => by rw [dot] at ordinary; cases ordinary
    simp [noDot, noColon]
  obtain ⟨first, others, rfl⟩ := List.exists_cons_of_ne_nil plain.1
  unfold dropWikiPrefix
  rw [List.span_eq_takeWhile_dropWhile, List.takeWhile_append_of_pos passes, List.dropWhile_append_of_pos passes]
  simp

theorem extractSpace_dotted {pageId : String} {name : List Char} {rest : List (List Char)}
    (isRaw : dropWikiPrefix (strip pageId).toList = raw) (parts : pieces raw = name :: rest) (noSlash : '/' ∉ raw) :
    extractSpace pageId = String.ofList name := by
  have noSlash : raw.contains '/' = false := by simpa using noSlash
  have parts : (raw.splitOnP (fun c => c = '/' || c = '.')).filter (fun part => !part.isEmpty) = name :: rest := parts
  unfold extractSpace
  simp only [isRaw, parts, noSlash]
  cases rest with
  | nil => rfl
  | cons second rest => cases rest <;> rfl

theorem extractSpace_slashed {pageId : String} {wiki name page : List Char} {rest : List (List Char)}
    (isRaw : dropWikiPrefix (strip pageId).toList = raw) (parts : pieces raw = wiki :: name :: page :: rest)
    (slash : '/' ∈ raw) : extractSpace pageId = String.ofList name := by
  have slash : raw.contains '/' = true := by simpa using slash
  have parts : (raw.splitOnP (fun c => c = '/' || c = '.')).filter (fun part => !part.isEmpty) =
    wiki :: name :: page :: rest := parts
  unfold extractSpace
  simp only [isRaw, parts, slash, if_true]

namespace PlainName

theorem not_mem {name : List Char} {c : Char} (plain : PlainName name) (sign : isSeparator c = true ∨ c = ':') :
    c ∉ name := by
  intro member
  obtain ⟨ordinary, noColon⟩ := plain.2 c member
  rcases sign with separates | colon
  · exact absurd (separates.symm.trans ordinary) (by decide)
  · exact noColon colon

theorem takeWhile {name : List Char} (plain : PlainName name) (rest : List Char) :
    (name ++ rest).takeWhile (fun c => c ≠ '.') = name ++ rest.takeWhile (fun c => c ≠ '.') := by
  refine List.takeWhile_append_of_pos ?_
  intro c member
  simpa using fun dot : c = '.' => plain.not_mem (Or.inl rfl) (dot ▸ member)

end PlainName

namespace SpacePath
variable (path : SpacePath)

theorem slash_not_mem_chars : '/' ∉ path.chars := by
  intro member
  rcases List.mem_append.mp member with inTop | inNested
  · exact path.plainTop.not_mem (Or.inl rfl) inTop
  · obtain ⟨name, listed, inName⟩ := List.mem_flatMap.mp inNested
    rcases List.mem_cons.mp inName with isDot | inName
    · cases isDot
    · exact (path.plainNested name listed).not_mem (Or.inl rfl) inName

theorem chars_append (c : Char) (page : List Char) :
    ∃ after rest, (after = '.' ∨ path.nested = [] ∧ after = c ∧ rest = page) ∧ page <:+ rest ∧
      path.chars ++ c :: page = path.top ++ after :: rest := by
  unfold chars
  cases path.nested with
  | nil => exact ⟨c, page, Or.inr ⟨rfl, rfl, rfl⟩, List.suffix_refl page, by simp⟩
  | cons name names =>
    refine ⟨'.', name ++ (names.flatMap ('.' :: ·) ++ c :: page), Or.inl rfl, ?_, by simp⟩
    exact ((List.suffix_cons c page).trans (List.suffix_append _ _)).trans (List.suffix_append _ _)

end SpacePath

namespace PageReference
variable {reference : PageReference} {externalId : String}

theorem extractSpace_spells (spells : reference.Spells externalId) :
    extractSpace externalId = reference.space.topText := by
  obtain ⟨form, space, page⟩ := reference
  obtain ⟨readable, isText⟩ := spells
  have plain := space.plainTop
  -- what a dotted reference is read as
  have dotted : dropWikiPrefix (strip externalId).toList = space.chars ++ '.' :: page → '/' ∉ page →
      extractSpace externalId = space.topText := by
    intro isRaw noSlash
    obtain ⟨after, rest, isAfter, _, split⟩ := space.chars_append '.' page
    obtain rfl : after = '.' := isAfter.elim id (fun here => here.2.1)
    have parts : pieces (space.chars ++ '.' :: page) = space.top :: pieces rest := by
      rw [split]
      exact pieces_append plain rfl
    refine extractSpace_dotted isRaw parts ?_
    simp [space.slash_not_mem_chars, noSlash]
  cases form with
  | dotted =>
    have isText : (strip externalId).toList = space.chars ++ '.' :: page := isText
    refine dotted ?_ readable
    obtain ⟨after, rest, isAfter, _, split⟩ := space.chars_append '.' page
    obtain rfl : after = '.' := isAfter.elim id (fun here => here.2.1)
    rw [isText]
    refine dropWikiPrefix_self ?_
    rw [split, plain.takeWhile]
    simpa using plain.not_mem (Or.inr rfl)
  | prefixed wiki =>
    have isText : (strip externalId).toList = wiki ++ ':' :: (space.chars ++ '.' :: page) := isText
    refine dotted ?_ readable.2
    rw [isText]
    exact dropWikiPrefix_prefixed readable.1
  | slashed wiki =>
    have isText : (strip externalId).toList = wiki ++ '/' :: (space.chars ++ '/' :: page) := isText
    obtain ⟨plainWiki, ⟨c, inPage, ordinary⟩, noColon⟩ := readable
    obtain ⟨after, rest, isAfter, follows, split⟩ := space.chars_append '/' page
    have isRaw : dropWikiPrefix (wiki ++ '/' :: (space.chars ++ '/' :: page)) =
        wiki ++ '/' :: (space.top ++ after :: rest) := by
      rw [split]
      have noColonAfter : ':' ∉ (after :: rest).takeWhile (fun c => c ≠ '.') := by
        rcases isAfter with rfl | ⟨flat, rfl, rfl⟩
        · simp
        · simpa using noColon flat
      refine dropWikiPrefix_self ?_
      rw [plainWiki.takeWhile, List.takeWhile_cons_of_pos (by decide), plain.takeWhile]
      intro member
      rcases List.mem_append.mp member with inWiki | inSlashed
      · exact plainWiki.not_mem (Or.inr rfl) inWiki
      · rcases List.mem_append.mp ((List.mem_cons.mp inSlashed).resolve_left (by decide)) with inTop | inRest
        · exact plain.not_mem (Or.inr rfl) inTop
        · exact noColonAfter inRest
    obtain ⟨third, others, isThird⟩ := List.exists_cons_of_ne_nil (pieces_ne_nil (follows.subset inPage) ordinary)
    have separates : isSeparator after = true := by
      rcases isAfter with rfl | ⟨_, rfl, _⟩ <;> rfl
    have parts : pieces (wiki ++ '/' :: (space.top ++ after :: rest)) = wiki :: space.top :: third :: others := by
      rw [pieces_append plainWiki rfl, pieces_append plain separates, isThird]
    exact extractSpace_slashed (isText ▸ isRaw) parts (by simp)

end PageReference

/-! ### The project of a space -/

def Project.Maps (project : Project) (space : String) : Prop :=
  ∃ ref ∈ project.externalRefs, ref.provider = "xwiki" ∧ ref.externalId = space ∧ ref.externalType = some "space"

/-- Each mapped space is mapped to one project. -/
def World.OneOwner (w : World) : Prop :=
  ∀ space, ∀ p ∈ w.projects.items, ∀ q ∈ w.projects.items, p.Maps space → q.Maps space → p = q

theorem maps_iff_any (project : Project) (space : String) :
    project.externalRefs.any (fun ref => ref.refersTo "xwiki" space (some "space")) = true ↔ project.Maps space := by
  simp [ExternalReference.refersTo, Project.Maps, and_assoc]

theorem findProject_space {w : World} (oneOwner : w.OneOwner) (space : String) (project : Project) :
    w.findProject "xwiki" space (some "space") = some project ↔ project ∈ w.projects.items ∧ project.Maps space := by
  have found : ∀ p, w.findProject "xwiki" space (some "space") = some p → p ∈ w.projects.items ∧ p.Maps space := by
    intro p isFound
    have passes := List.find?_some isFound
    exact ⟨List.mem_of_find?_eq_some isFound, (maps_iff_any p space).mp passes⟩
  refine ⟨found project, ?_⟩
  rintro ⟨stored, maps⟩
  cases search : w.findProject "xwiki" space (some "space") with
  | none => exact absurd ((maps_iff_any project space).mpr maps) (List.find?_eq_none.mp search project stored)
  | some other =>
    obtain ⟨storedOther, mapsOther⟩ := found other search
    rw [oneOwner space other storedOther project stored mapsOther maps]

theorem resolve_spells {o : Outside} {w : World} {reference : PageReference} {ref : ExternalReference}
    (spells : reference.Spells ref.externalId) :
    Meets o (XWikiProjectResolver.resolve ref) w (byResult
      (fun owner t => t = w ∧ owner = w.findProject "xwiki" reference.space.topText (some "space"))
      (fun e t => t = w ∧ o.Raises e)) := by
  refine Meets.query ⟨rfl, ?_⟩ (fun _ _ raises => ⟨rfl, raises⟩)
  rw [PageReference.extractSpace_spells spells]

/-! ### What a page's ingestion writes -/

/-- Projects and documents stay as they are. -/
def Untouched (w t : World) : Prop := t.projects = w.projects ∧ t.documents = w.documents

instance : IsPreorder World Untouched where
  refl _ := ⟨rfl, rfl⟩
  trans _ _ _ first second := ⟨second.1.trans first.1, second.2.trans first.2⟩

structure FiledFor (projectId : ProjectId) (w t : World) : Prop where
  projects : t.projects = w.projects
  documents : ∀ document ∈ t.documents.items, document ∈ w.documents.items ∨ document.projectId = projectId

instance (projectId : ProjectId) : IsPreorder World (FiledFor projectId) where
  refl _ := ⟨rfl, fun _ => Or.inl⟩
  trans := by
    rintro u v w first second
    refine ⟨second.projects.trans first.projects, ?_⟩
    intro document stored
    exact (second.documents document stored).elim (first.documents document) Or.inr

theorem Untouched.filedFor {w t : World} (untouched : Untouched w t) (projectId : ProjectId) : FiledFor projectId w t :=
  ⟨untouched.1, fun _ stored => Or.inl (untouched.2 ▸ stored)⟩

theorem filedFor_put {w : World} {document : Document} {projectId : ProjectId} (own : document.projectId = projectId) :
    FiledFor projectId w (World.putDocument document w) := by
  refine ⟨rfl, ?_⟩
  intro other stored
  rcases Keyed.mem_upsert.mp stored with rfl | ⟨old, _⟩
  · exact Or.inr own
  · exact Or.inl old

def HasSource (w : World) (key : ProjectId × String) : Prop := ∃ document ∈ w.documents.items, document.sourceKey = key

namespace DocumentIngestionService
variable (self : DocumentIngestionService) {o : Outside} {w : World} {projectId : ProjectId} {artifact : SourceArtifact}

theorem newUuid_untouched : Within Untouched (fun _ => True) newUuid := Within.internal fun _ => ⟨rfl, rfl⟩

theorem runParser_untouched (artifact : SourceArtifact) : Within Untouched (fun _ => True) (self.runParser artifact) :=
  Within.call (fun _ => ⟨rfl, rfl⟩) trivial

theorem persistNodes_untouched (versionId : DocumentVersionId) (nodes : List ParsedNode) :
    Within Untouched (fun _ => True) (persistNodes versionId nodes) :=
  Within.forEach fun _ _ => Within.command (fun _ => ⟨rfl, rfl⟩) trivial

theorem createDecisions_untouched (parsed : ParsedDocument) (artifact : SourceArtifact) (projectId : ProjectId) :
    Within Untouched (fun _ => True) (self.createDecisions parsed artifact projectId) := by
  unfold createDecisions
  split
  · split
    · refine Within.bind newUuid_untouched fun id => Within.bind ?_ fun _ => Within.pure _
      exact Within.command (fun _ => ⟨rfl, rfl⟩) trivial
    · exact Within.pure _
  · exact Within.pure _

theorem publishDocumentChanged_untouched (document : Document) (source : String) :
    Within Untouched (fun _ => True) (publishDocumentChanged document source) := by
  refine Within.bind ?_ fun _ => Within.command (fun _ => ⟨rfl, rfl⟩) trivial
  exact Within.bind newUuid_untouched fun _ => Within.bind newUuid_untouched fun _ => Within.pure _

theorem findOrCreateDocument_filedFor (artifact : SourceArtifact) (parsed : ParsedDocument) (docType : DocumentType)
    (projectId : ProjectId) :
    Meets o (findOrCreateDocument artifact parsed docType projectId) w (byResult
      (fun found t => FiledFor projectId w t ∧ found.1 ∈ t.documents.items ∧
        found.1.sourceKey = (projectId, artifact.sourceUri))
      (fun e t => FiledFor projectId w t ∧ o.Raises e)) := by
  refine Meets.bind (Meets.query ?_ fun _ _ raises => ⟨refl_of _ w, raises⟩)
  dsimp only [byResult]
  cases found : w.findDocumentBySource projectId artifact.sourceUri with
  | some document =>
    have passes := List.find?_some found
    simp only [Bool.and_eq_true, decide_eq_true_eq] at passes
    have stored : document ∈ w.documents.items ∧ document.sourceKey = (projectId, artifact.sourceUri) :=
      ⟨List.mem_of_find?_eq_some found, Prod.ext passes.1 passes.2⟩
    dsimp only
    split
    · refine Meets.bind (Meets.query ?_ fun _ _ raises => ⟨refl_of _ w, raises⟩)
      exact Meets.pure ⟨refl_of _ w, stored⟩
    · exact Meets.pure ⟨refl_of _ w, stored⟩
  | none =>
    refine Meets.after newUuid_untouched (fun id t untouched => ?_) fun e t untouched raises =>
      ⟨untouched.filedFor _, raises⟩
    have before := untouched.filedFor projectId
    refine Meets.bind (Meets.command ?_ ?_ ?_)
    · exact Meets.pure ⟨trans_of _ before (filedFor_put rfl), Keyed.mem_upsert_self _ _, rfl⟩
    · exact fun _ raises => ⟨before, raises⟩
    · exact fun _ raises => ⟨trans_of _ before (filedFor_put rfl), raises⟩

theorem storeVersion_filedFor (parsed : ParsedDocument) (docType : DocumentType) (repositoryId : Option RepositoryId)
    (commitSha : Option String) {document : Document} (isKey : document.sourceKey = (projectId, artifact.sourceUri)) :
    Meets o (self.storeVersion artifact parsed docType projectId repositoryId commitSha document) w (byResult
      (fun _ t => FiledFor projectId w t ∧ HasSource t (projectId, artifact.sourceUri))
      (fun e t => FiledFor projectId w t ∧ o.Raises e)) := by
  have stop : ∀ {v : World}, Untouched w v → ∀ (e : Raised) (t : World), Untouched v t → o.Raises e →
      FiledFor projectId w t ∧ o.Raises e :=
    fun before e t untouched raises => ⟨(trans_of Untouched before untouched).filedFor _, raises⟩
  refine Meets.after newUuid_untouched (fun id t₁ first => ?_) (stop (refl_of Untouched w))
  refine Meets.after (S := fun _ => True) Within.now (fun ingestedAt t₂ next => ?_) (stop first)
  have second := trans_of Untouched first next
  refine Meets.after (S := fun _ => True) (Within.command (fun _ => ⟨rfl, rfl⟩) trivial) (fun _ t₃ next => ?_) (stop second)
  have third := trans_of Untouched second next
  refine Meets.after (persistNodes_untouched _ _) (fun _ t₄ next => ?_) (stop third)
  have before := (trans_of Untouched third next).filedFor projectId
  have own : document.projectId = projectId := congrArg Prod.fst isKey
  have moved : ∀ versionId, FiledFor projectId w (World.putDocument
      { document with currentVersionId := some versionId, type := docType } t₄) :=
    fun versionId => trans_of _ before
      (@filedFor_put t₄ { document with currentVersionId := some versionId, type := docType } projectId own)
  refine Meets.bind (Meets.command ?_ (fun _ raises => ⟨before, raises⟩) (fun _ raises => ⟨moved _, raises⟩))
  have written : ∀ versionId t, Untouched (World.putDocument
      { document with currentVersionId := some versionId, type := docType } t₄) t →
      FiledFor projectId w t ∧ HasSource t (projectId, artifact.sourceUri) := by
    intro versionId t untouched
    refine ⟨trans_of _ (moved versionId) (untouched.filedFor _),
      { document with currentVersionId := some versionId, type := docType }, ?_, isKey⟩
    rw [untouched.2]
    exact Keyed.mem_upsert_self _ _
  refine Meets.after (self.createDecisions_untouched _ _ _) (fun decisions t₅ next => ?_)
    fun e t untouched raises => ⟨(written _ t untouched).1, raises⟩
  dsimp only
  split
  · refine Meets.after (publishDocumentChanged_untouched _ _) (fun _ t₆ last => ?_)
      fun e t untouched raises => ⟨(written _ t (trans_of Untouched next untouched)).1, raises⟩
    exact Meets.pure (written _ _ (trans_of Untouched next last))
  · exact Meets.pure (written _ _ next)

theorem ingest_filedFor (artifact : SourceArtifact) (projectId : ProjectId) (documentType : Option DocumentType) :
    Meets o (self.ingest artifact projectId documentType) w (byResult
      (fun _ t => FiledFor projectId w t ∧ HasSource t (projectId, artifact.sourceUri))
      (fun e t => FiledFor projectId w t ∧ o.Raises e)) := by
  refine Meets.after (self.runParser_untouched _) (fun parsed t₁ untouched => ?_)
    fun e t untouched raises => ⟨untouched.filedFor _, raises⟩
  have first := untouched.filedFor projectId
  refine Meets.seq _ (findOrCreateDocument_filedFor _ _ _ _) ?_ fun e t ended => ⟨trans_of _ first ended.1, ended.2⟩
  rintro ⟨document, current⟩ t₂ ⟨found, stored, isKey⟩
  have before := trans_of _ first found
  have stores : ∀ (artifact' : SourceArtifact), artifact'.sourceUri = artifact.sourceUri →
      Meets o (self.storeVersion artifact' parsed (documentType.getD parsed.documentType) projectId none none document) t₂
        (byResult (fun _ t => FiledFor projectId w t ∧ HasSource t (projectId, artifact.sourceUri))
          (fun e t => FiledFor projectId w t ∧ o.Raises e)) := by
    intro artifact' sameUri
    have sameKey : document.sourceKey = (projectId, artifact'.sourceUri) := sameUri ▸ isKey
    refine (self.storeVersion_filedFor parsed _ none none sameKey).mono ?_
    intro r t ended
    cases r with
    | ok _ => exact ⟨trans_of _ before ended.1, sameUri ▸ ended.2⟩
    | error e => exact ⟨trans_of _ before ended.1, ended.2⟩
  cases current with
  | none => exact stores _ rfl
  | some version =>
    dsimp only
    split
    · refine Meets.bind (Meets.query ?_ fun _ _ raises => ⟨before, raises⟩)
      exact Meets.pure ⟨before, document, stored, isKey⟩
    · exact stores _ rfl

end DocumentIngestionService

/-! ### The cycles of a project -/

def DocumentationPort.ListsUnder (port : DocumentationPort) (path : SpacePath) : Prop :=
  ∀ n since, ∀ ref ∈ port.listChangedDocuments n since [path.text],
    ∃ reference : PageReference, reference.Spells ref.externalId ∧ path.Contains reference.space

/-- How a turn for a page of the project ends: the page is in the project, or a
call raised. -/
def Placed (o : Outside) (projectId : ProjectId) (w : World) : PageOutcome → Prop
  | .unmapped _ => False
  | .raised exception => ∃ site tookEffect, o.Raises ⟨site, tookEffect, exception⟩
  | .ingested _ artifact _ => HasSource w (projectId, artifact.sourceUri)

namespace XWikiDocumentationSyncService
variable {self : XWikiDocumentationSyncService} {port : DocumentationPort} {o : Outside} {w : World} {project : Project}

def Owned (w : World) (project : Project) (ref : ExternalReference) : Prop :=
  ∃ reference : PageReference, reference.Spells ref.externalId ∧
    w.findProject "xwiki" reference.space.topText (some "space") = some project

variable {ref : ExternalReference}

theorem Owned.filedFor {t : World} {projectId : ProjectId} (owned : Owned w project ref)
    (filed : FiledFor projectId w t) : Owned t project ref := by
  obtain ⟨reference, spells, isOwner⟩ := owned
  refine ⟨reference, spells, ?_⟩
  unfold World.findProject at isOwner ⊢
  rw [filed.projects, isOwner]

theorem tryPage_placed (owned : Owned w project ref) : Meets o (self.tryPage port ref) w (byResult
      (fun outcome t => FiledFor project.id w t ∧ Placed o project.id t outcome)
      (fun e t => FiledFor project.id w t ∧ o.Raises e)) := by
  obtain ⟨reference, spells, isOwner⟩ := owned
  refine Meets.seq _ (resolve_spells spells) ?_ ?_
  · rintro owner t ⟨rfl, isResolved⟩
    rw [isOwner] at isResolved
    subst isResolved
    have fetch : Within Eq (fun _ => True) (ask .fetchDocument fun n _ => (n, port.fetchDocument n ref) :
      Prog (Nat × SourceArtifact)) := Within.ask trivial
    refine Meets.after fetch ?_ ?_
    · rintro ⟨fetchedAt, artifact⟩ u rfl
      refine Meets.seq _ (self.ingestion.ingest_filedFor artifact project.id (self.documentType ref)) ?_ fun _ _ => id
      exact fun ingested u ended => Meets.pure ended
    · rintro e u rfl raises
      exact ⟨refl_of _ t, raises⟩
  · rintro e t ⟨rfl, raises⟩
    exact ⟨refl_of _ t, raises⟩

theorem syncPage_placed (owned : Owned w project ref) :
    Returns o (self.syncPage port ref) w (fun outcome t => FiledFor project.id w t ∧ Placed o project.id t outcome) := by
  refine Meets.bind (Meets.attempt ((tryPage_placed owned).mono ?_))
  intro r t ended
  cases r with
  | ok outcome => exact Meets.pure ended
  | error e => exact Meets.pure ⟨ended.1, e.site, e.tookEffect, ended.2⟩

/-- On the way from `w` to `t` the turn ended with its page in place. -/
def PlacedBetween (o : Outside) (projectId : ProjectId) (w t : World) (outcome : PageOutcome) : Prop :=
  ∃ u, FiledFor projectId w u ∧ FiledFor projectId u t ∧ Placed o projectId u outcome

theorem syncPages_placed {refs : List ExternalReference} {cycle : SpaceCycle} (owned : ∀ ref ∈ refs, Owned w project ref) :
    Returns o (self.syncPages port refs cycle) w (fun after t => FiledFor project.id w t ∧
      ∀ turn ∈ after.attempts, turn ∈ cycle.attempts ∨ PlacedBetween o project.id w t turn.2) := by
  induction refs generalizing cycle w with
  | nil => exact Meets.pure ⟨refl_of _ w, fun _ => Or.inl⟩
  | cons ref refs ih =>
    refine Meets.seq _ (syncPage_placed (owned ref (List.mem_cons_self ..))) ?_ (fun _ _ stopped => stopped.elim)
    rintro outcome u ⟨filed, placed⟩
    have later : ∀ other ∈ refs, Owned u project other :=
      fun other member => (owned other (List.mem_cons_of_mem _ member)).filedFor filed
    refine (ih later).mono ?_
    rintro (_ | after) t ended
    · exact ended.elim
    · obtain ⟨filedAfter, turns⟩ := ended
      refine ⟨trans_of _ filed filedAfter, ?_⟩
      intro turn member
      rcases turns turn member with earlier | ⟨v, before, rest, isPlaced⟩
      · rw [(cycle.count_rest ref outcome).2.2.2] at earlier
        rcases List.mem_append.mp earlier with old | here
        · exact Or.inl old
        · rw [List.mem_singleton.mp here]
          exact Or.inr ⟨u, filed, filedAfter, placed⟩
      · exact Or.inr ⟨v, trans_of _ filed before, rest, isPlaced⟩

theorem since_untouched (projectId : ProjectId) (space : String) :
    Within Untouched (fun _ => True) (XWikiWatermarks.since projectId space) := by
  refine Within.bind (Within.call (fun w => ?_) trivial) fun _ => Within.pure _
  unfold World.getOrCreateWatermark
  split <;> exact ⟨rfl, rfl⟩

theorem advance_untouched (projectId : ProjectId) (space : String) (lastExternalId : Option String) :
    Within Untouched (fun _ => True) (XWikiWatermarks.advance projectId space none lastExternalId) := by
  refine Within.bind (Within.call (fun w => ?_) trivial) fun _ => Within.bind Within.now fun _ => ?_
  · unfold World.getOrCreateWatermark
    split <;> exact ⟨rfl, rfl⟩
  · exact Within.command (fun _ => ⟨rfl, rfl⟩) trivial

/-- The space belongs to the project down from its top-level space, and the port
keeps to it. -/
def OwnSpace (port : DocumentationPort) (project : Project) (space : String) : Prop :=
  ∃ path : SpacePath, path.text = space ∧ project.Maps path.topText ∧ port.ListsUnder path

theorem reconcile_placed {space : String} (oneOwner : w.OneOwner) (stored : project ∈ w.projects.items)
    (kept : OwnSpace port project space) :
    Meets o (self.reconcile port project space) w (byResult
      (fun cycle t => FiledFor project.id w t ∧ ∀ turn ∈ cycle.attempts, PlacedBetween o project.id w t turn.2)
      (fun _ t => FiledFor project.id w t)) := by
  obtain ⟨path, rfl, maps, lists⟩ := kept
  refine Meets.after (since_untouched project.id path.text) ?_ fun e t untouched _ => untouched.filedFor _
  intro since t untouched
  have filed := untouched.filedFor project.id
  refine Meets.bind (Meets.ask ?_ fun _ _ _ => filed)
  intro n
  have owned : ∀ ref ∈ port.listChangedDocuments n since [path.text], Owned w project ref := by
    intro ref listed
    obtain ⟨reference, spells, sameTop, _⟩ := lists n since ref listed
    refine ⟨reference, spells, (findProject_space oneOwner _ project).mpr ⟨stored, ?_⟩⟩
    show project.Maps (String.ofList reference.space.top)
    rw [sameTop]
    exact maps
  have turns := @syncPages_placed self port o t project _ (SpaceCycle.start project.id path.text since
    (port.listChangedDocuments n since [path.text])) fun ref listed => (owned ref listed).filedFor filed
  refine turns.mono ?_
  rintro (_ | after) u ended
  · exact ended.elim
  · refine ⟨trans_of _ filed ended.1, ?_⟩
    intro turn member
    rcases ended.2 turn member with none | ⟨v, before, rest, placed⟩
    · cases none
    · exact ⟨v, trans_of _ filed before, rest, placed⟩

theorem syncSpace_filedFor {space : String} (oneOwner : w.OneOwner) (stored : project ∈ w.projects.items)
    (kept : OwnSpace port project space) :
    Meets o (self.syncSpace port project space) w (fun _ t => FiledFor project.id w t) := by
  refine Meets.seq _ (reconcile_placed oneOwner stored kept) ?_ fun _ _ filed => filed
  rintro cycle t ⟨filed, _⟩
  dsimp only
  split
  · refine Meets.after (advance_untouched _ _ _) ?_ ?_
    · exact fun _ u untouched => Meets.pure (trans_of _ filed (untouched.filedFor _))
    · exact fun _ u untouched _ => trans_of _ filed (untouched.filedFor _)
  · exact Meets.pure filed

theorem syncSpaces_filedFor {spaces : List String} (oneOwner : w.OneOwner) (stored : project ∈ w.projects.items)
    (kept : ∀ space ∈ spaces, OwnSpace port project space) :
    Meets o (self.syncSpaces port project spaces) w (fun _ t => FiledFor project.id w t) := by
  induction spaces generalizing w with
  | nil => exact Meets.pure (refl_of _ w)
  | cons space spaces ih =>
    refine Meets.seq _ (syncSpace_filedFor oneOwner stored (kept space (List.mem_cons_self ..))) ?_ fun _ _ filed => filed
    intro result t filed
    have oneOwner : t.OneOwner := by
      unfold World.OneOwner
      rwa [filed.projects]
    have rest := ih oneOwner (filed.projects ▸ stored) fun other member => kept other (List.mem_cons_of_mem _ member)
    refine Meets.seq _ rest ?_ fun _ _ filedAfter => trans_of _ filed filedAfter
    exact fun results u filedAfter => Meets.pure (trans_of _ filed filedAfter)

def spaceProject (space : String) : Project :=
  { id := .v4 0, name := space
    externalRefs := [{ provider := "xwiki", externalId := space, externalType := some "space" }] }

def brakingPath : SpacePath where
  top := ['A', 'D', 'A', 'S']
  nested := [['R', 'e', 'q', 'u', 'i', 'r', 'e', 'm', 'e', 'n', 't', 's']]
  plainTop := by decide
  plainNested := by decide

def braking : PageReference := { form := .dotted, space := brakingPath, page := "Braking".toList }

theorem braking_spells : braking.Spells "ADAS.Requirements.Braking" where
  readable := by
    show '/' ∉ "Braking".toList
    decide
  text := by decide

theorem spaceProject_maps (space other : String) : (spaceProject space).Maps other ↔ other = space := by
  simp [spaceProject, Project.Maps, eq_comm]

theorem spaceProject_oneOwner (space : String) : (World.putProject (spaceProject space) {}).OneOwner := by
  intro other p stored q stored' _ _
  rw [List.mem_singleton.mp stored, List.mem_singleton.mp stored']

/-- A wiki whose only page is in a nested space. -/
def brakingWiki : DocumentationPort where
  listChangedDocuments _ _ _ := [{ provider := "xwiki", externalId := "ADAS.Requirements.Braking" }]
  fetchDocument _ ref := { sourceUri := ref.externalId, provider := "xwiki" }

theorem brakingWiki_ownSpace : OwnSpace brakingWiki (spaceProject "ADAS") "ADAS" := by
  refine ⟨{ top := ['A', 'D', 'A', 'S'], plainTop := by decide, plainNested := by simp }, by decide, ?_, ?_⟩
  · exact (spaceProject_maps _ _).mpr (by decide)
  · intro n since ref listed
    rw [List.mem_singleton.mp listed]
    exact ⟨braking, braking_spells, rfl, List.nil_prefix⟩

end XWikiDocumentationSyncService

/-! ### The documents over whole runs -/

/-- `t` still holds the documents of `w`, and its stores are in order. -/
def KeepsDocuments (w t : World) : Prop := Curated t ∧ Retains w t

section Kept
variable {w t u : World}

theorem KeepsDocuments.watermarks (kept : KeepsDocuments w t) (watermarks : Keyed ProviderSyncWatermark.key) :
    KeepsDocuments w { t with watermarks } := by
  obtain ⟨⟨documentIds, versionIds, nodeIds, nodeVersions, decisionIds, oneEach, pointers⟩, retains⟩ := kept
  exact ⟨⟨documentIds, versionIds, nodeIds, nodeVersions, decisionIds, oneEach, pointers⟩,
    ⟨retains.documents, retains.versions, retains.nodes⟩⟩

theorem watermarkGet_kept (site : Site) (syncKey : String) :
    Preserves (KeepsDocuments w) (call site (World.getOrCreateWatermark "xwiki" syncKey) : Prog ProviderSyncWatermark) := by
  refine Preserves.call fun t kept => ?_
  unfold World.getOrCreateWatermark
  split
  · exact kept
  · exact kept.watermarks _

theorem perform_kept {ingestion : DocumentIngestionService} (parses : ingestion.Parses) (call : IngestCall) :
    Preserves (KeepsDocuments w) (ingestion.perform call) := by
  rintro o t ⟨curated, retains⟩
  refine (DocumentIngestionService.perform_outcome curated parses).mono fun _ _ outcome => ?_
  exact ⟨outcome.curated curated, retains.trans (DocumentIngestionService.retains_of_outcome curated outcome)⟩

namespace XWikiDocumentationSyncService
variable {self : XWikiDocumentationSyncService} (parses : self.ingestion.Parses)
include parses

theorem syncPages_kept (port : DocumentationPort) (refs : List ExternalReference) (cycle : SpaceCycle) :
    Preserves (KeepsDocuments w) (self.syncPages port refs cycle) := by
  induction refs generalizing cycle with
  | nil => exact Preserves.pure cycle
  | cons ref refs ih =>
    refine Preserves.bind (Preserves.bind (Preserves.attempt ?_) fun turn => ?_) fun outcome => ih _
    · refine Preserves.bind Preserves.query fun resolution => ?_
      cases resolution with
      | none => exact Preserves.pure _
      | some project =>
        refine Preserves.bind (fun _ _ kept => Meets.ask (fun _ => kept) fun _ _ _ => kept) fun fetched => ?_
        exact Preserves.bind (perform_kept parses ⟨fetched.2, project.id, self.documentType ref, none, none⟩) fun _ =>
          Preserves.pure _
    · cases turn with
      | ok outcome => exact Preserves.pure _
      | error e => exact Preserves.pure _

theorem syncSpace_kept (port : DocumentationPort) (project : Project) (space : String) :
    Preserves (KeepsDocuments w) (self.syncSpace port project space) := by
  have listed : ∀ since : Option Time, Preserves (KeepsDocuments w)
      (ask .listChangedDocuments fun n _ => port.listChangedDocuments n since [space] : Prog (List ExternalReference)) :=
    fun since _ _ kept => Meets.ask (fun _ => kept) fun _ _ _ => kept
  have reconciles : Preserves (KeepsDocuments w) (self.reconcile port project space) := by
    refine Preserves.bind (Preserves.bind (watermarkGet_kept _ _) fun _ => Preserves.pure _) fun since => ?_
    exact Preserves.bind (listed since) fun refs => syncPages_kept parses port refs _
  refine Preserves.bind reconciles fun cycle => ?_
  dsimp only
  split
  · refine Preserves.bind (Preserves.bind (watermarkGet_kept _ _) fun watermark => Preserves.bind Preserves.now fun _ => ?_)
      fun _ => Preserves.pure _
    exact Preserves.call fun t kept => kept.watermarks _
  · exact Preserves.pure _

theorem syncSpaces_kept (port : DocumentationPort) (project : Project) (spaces : List String) :
    Preserves (KeepsDocuments w) (self.syncSpaces port project spaces) := by
  induction spaces with
  | nil => exact Preserves.pure _
  | cons space spaces ih =>
    exact Preserves.bind (syncSpace_kept parses port project space) fun _ => Preserves.bind ih fun _ => Preserves.pure _

end XWikiDocumentationSyncService
end Kept

/-- A pass over the mapped spaces of a project, or one artifact that is ingested. -/
inductive DocumentTurn
  | sync (service : XWikiDocumentationSyncService) (port : DocumentationPort) (project : Project)
  | ingest (service : DocumentIngestionService) (call : IngestCall)

namespace DocumentTurn

def ingestion : DocumentTurn → DocumentIngestionService
  | .sync service _ _ => service.ingestion
  | .ingest service _ => service

def ended (w : World) : DocumentTurn × Outside × Nat → World
  | (.sync service port project, o, n) => (service.syncProjectSpaces port project o n w).store
  | (.ingest service call, o, n) => (service.perform call o n w).store

/-- Whatever the wikis list and wherever a pass or an ingestion breaks off, each
source has its one document, every pointer leads to a version of its document, and
no document, version or node that was stored is lost or changed. -/
theorem documents_kept (turns : List (DocumentTurn × Outside × Nat)) (parses : ∀ turn ∈ turns, turn.1.ingestion.Parses)
    {w : World} (curated : Curated w) : KeepsDocuments w (turns.foldl ended w) := by
  have step : ∀ turn : DocumentTurn × Outside × Nat, turn.1.ingestion.Parses → ∀ t, KeepsDocuments w t →
      KeepsDocuments w (ended t turn) := by
    rintro ⟨turn, o, n⟩ parses t kept
    cases turn with
    | sync service port project => exact XWikiDocumentationSyncService.syncSpaces_kept parses port project _ o t kept n
    | ingest service call => exact perform_kept parses call o t kept n
  exact List.foldlRecOn turns ended ⟨curated, Retains.refl w⟩ fun t kept turn listed => step turn (parses turn listed) t kept

/-- A pass that breaks off, an artifact, and the pass again. -/
def brakingTurns : List (DocumentTurn × Outside × Nat) :=
  let sync : DocumentTurn := .sync { ingestion := .oneNode } XWikiDocumentationSyncService.brakingWiki
    (XWikiDocumentationSyncService.spaceProject "ADAS")
  let down : Outside := { outcome := fun n _ => if n < 7 then .returns else .raises false ⟨"ConnectionError", "down"⟩, clock := id }
  [(sync, down, 0), (.ingest .oneNode (DocumentIngestionService.readmeCall "a").1, Outside.clean, 0), (sync, Outside.clean, 0)]

theorem documents_kept_braking :
    let w := World.putProject (XWikiDocumentationSyncService.spaceProject "ADAS") {}
    KeepsDocuments w (brakingTurns.foldl ended w) := by
  refine documents_kept brakingTurns ?_ (by constructor <;> simp [World.putProject])
  intro turn listed
  simp only [brakingTurns, List.mem_cons, List.not_mem_nil, or_false] at listed
  rcases listed with rfl | rfl | rfl <;> exact DocumentIngestionService.oneNode_parses

end DocumentTurn
end Brain
