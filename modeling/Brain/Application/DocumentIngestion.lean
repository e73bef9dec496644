import Brain.Adapters.Ports

namespace Brain
open Calls

/-- The collaborators of the service that are not repositories. `parse` stands
for the parser the registry selects: given the next free number for node ids it
yields the parsed document and how many ids it drew. An artifact without parser
and a parser that fails both show as an exception of that call. -/
structure DocumentIngestionService where
  parse : SourceArtifact → Nat → ParsedDocument × Nat
  sha256 : String → String
  decisions : Bool
  eventBus : Bool

structure DocumentIngestionResult where
  document : Document
  version : DocumentVersion
  createdNewVersion : Bool
  nodes : List DocumentNode := []
  decisions : List Decision := []

namespace DocumentIngestionService
variable (self : DocumentIngestionService)

def contentHash (artifact : SourceArtifact) : String :=
  self.sha256 (((given artifact.content).or (given artifact.rawBytesRef)).getD artifact.sourceUri)

def defaultTitle (artifact : SourceArtifact) : String :=
  strOr ((given artifact.fileName).getD "")
    (strOr (String.ofList (lastSegment '/' artifact.sourceUri.toList)) artifact.sourceUri)

def documentNode (versionId : DocumentVersionId) (node : ParsedNode) : DocumentNode :=
  { id := node.id, versionId, nodeType := node.nodeType, title := node.title,
    headingPath := node.headingPath, content := node.content, parentId := node.parentId,
    childIds := node.childIds, links := node.links, unresolvedRefs := node.unresolvedRefs }

def persistNodes (versionId : DocumentVersionId) (nodes : List ParsedNode) : Prog Unit :=
  forEach (fun node => command .documentAddNode (World.addNode (documentNode versionId node))) nodes

def createDecisions (parsed : ParsedDocument) (artifact : SourceArtifact) (projectId : ProjectId) :
    Prog (List Decision) :=
  match parsed.adrSections with
  | some sections =>
    if self.decisions then do
      let id ← newUuid
      let decision : Decision :=
        { id, projectId, title := strOr (parsed.title.getD "") artifact.sourceUri
          context := sections.context, decision := sections.decision
          alternatives := sections.alternatives, consequences := sections.consequences
          status := parsed.adrStatus }
      command .decisionCreate (World.putDecision decision)
      pure [decision]
    else pure []
  | none => pure []

/-- The parser call. The ids it draws are gone also when it fails late. -/
def runParser (artifact : SourceArtifact) : Prog ParsedDocument :=
  call .parserParse (fun w =>
    ((self.parse artifact w.nextUuid).1,
      { w with nextUuid := w.nextUuid + (self.parse artifact w.nextUuid).2 }))

def publishDocumentChanged (document : Document) (source : String) : Prog Unit := do
  let envelope ← modelToEnvelope .documentChanged (.documentChanged document) source
    (some document.projectId) none
  command .publishDocumentChanged (World.publish envelope)

/-- `find_by_source` and the current version, creating a missing document. -/
def findOrCreateDocument (artifact : SourceArtifact) (parsed : ParsedDocument) (docType : DocumentType)
    (projectId : ProjectId) : Prog (Document × Option DocumentVersion) := do
  let existing ← query .documentFindBySource (·.findDocumentBySource projectId artifact.sourceUri)
  match existing with
  | some document =>
    match document.currentVersionId with
    | some versionId => do
      let version ← query .documentGetVersion (·.documentVersions.get versionId)
      pure (document, version)
    | none => pure (document, none)
  | none => do
    let id ← newUuid
    let document : Document :=
      { id, projectId, type := docType, title := strOr (parsed.title.getD "") (defaultTitle artifact)
        source := { provider := artifact.provider, uri := artifact.sourceUri, mimeType := artifact.mimeType } }
    command .documentCreate (World.putDocument document)
    pure (document, none)

/-- The part of `ingest` for content that differs from the current version. -/
def storeVersion (artifact : SourceArtifact) (parsed : ParsedDocument) (docType : DocumentType)
    (projectId : ProjectId) (repositoryId : Option RepositoryId) (commitSha : Option String)
    (document : Document) : Prog DocumentIngestionResult := do
  let id ← newUuid
  let ingestedAt ← now
  let version : DocumentVersion :=
    { id, documentId := document.id, sourceVersion := artifact.revision, repositoryId, commitSha
      checksum := artifact.contentHash.getD "", ingestedAt, contentUri := artifact.rawBytesRef }
  command .documentAddVersion (World.addVersion version)
  persistNodes version.id parsed.nodes
  let document := { document with currentVersionId := some version.id, type := docType }
  command .documentUpdate (World.putDocument document)
  let decisions ← self.createDecisions parsed artifact projectId
  if self.eventBus then publishDocumentChanged document artifact.provider
  pure { document, version, createdNewVersion := true
         nodes := parsed.nodes.map (documentNode version.id), decisions }

def ingest (artifact : SourceArtifact) (projectId : ProjectId) (documentType : Option DocumentType := none)
    (repositoryId : Option RepositoryId := none) (commitSha : Option String := none) :
    Prog DocumentIngestionResult := do
  let artifact : SourceArtifact :=
    { artifact with contentHash := some (artifact.contentHash.getD (self.contentHash artifact)) }
  let parsed ← self.runParser artifact
  let docType := documentType.getD parsed.documentType
  let (document, currentVersion) ← findOrCreateDocument artifact parsed docType projectId
  match currentVersion with
  | some version =>
    if some version.checksum = artifact.contentHash then do
      let nodes ← query .documentListNodes (·.listNodes version.id)
      pure { document, version, createdNewVersion := false, nodes }
    else self.storeVersion artifact parsed docType projectId repositoryId commitSha document
  | none => self.storeVersion artifact parsed docType projectId repositoryId commitSha document

end DocumentIngestionService

end Brain
