import Brain.Application.DocumentIngestion

namespace Brain
open Calls

/-- The provider as `sync_space` sees it. Each answer is the one at the moment of
the call. -/
structure DocumentationPort where
  listChangedDocuments : Nat → Option Time → List String → List ExternalReference
  fetchDocument : Nat → ExternalReference → SourceArtifact

/-- `_WIKI_PREFIX_RE.sub("", raw)`. -/
def dropWikiPrefix (raw : List Char) : List Char :=
  match raw.span (fun c => c ≠ '.' && c ≠ ':') with
  | (_ :: _, ':' :: rest) => rest
  | _ => raw

def extractSpace (pageId : String) : String :=
  let raw := dropWikiPrefix (strip pageId).toList
  let parts := (raw.splitOnP (fun c => c = '/' || c = '.')).filter (fun part => !part.isEmpty)
  match parts with
  | [] => String.ofList raw
  | first :: rest =>
    -- the slash form <wiki>/<space>/<page>
    match rest with
    | second :: _ :: _ => if raw.contains '/' then String.ofList second else String.ofList first
    | _ => String.ofList first

example : (["ADAS.Requirements.Braking", "xwiki/Main/WebHome", "xwiki:ADAS.WebHome"].map extractSpace) =
    ["ADAS", "Main", "ADAS"] := by decide

/-- `document_type_for_page`, which sees the page's id only. -/
def documentTypeForPage (pageId : String) : DocumentType :=
  let pageId := lower pageId
  if textContains pageId "adr" || textContains pageId "decision" then .adr
  else if textContains pageId "requirement" || textContains pageId "req-" then .requirements
  else if textContains pageId "architecture" then .architecture
  else .general

namespace XWikiProjectResolver

def resolve (ref : ExternalReference) : Prog (Option Project) :=
  query .pageProjectFind (·.findProject "xwiki" (extractSpace ref.externalId) (some "space"))

end XWikiProjectResolver

namespace XWikiWatermarks

def syncKey (projectId : ProjectId) (space : String) : String := "project:" ++ projectId.text ++ ":space:" ++ space

def since (projectId : ProjectId) (space : String) : Prog (Option Time) := do
  let watermark ← call .spaceWatermarkGet (World.getOrCreateWatermark "xwiki" (syncKey projectId space))
  pure watermark.lastSyncedAt

def advance (projectId : ProjectId) (space : String) (syncedAt : Option Time) (lastExternalId : Option String) :
    Prog Unit := do
  let watermark ← call .advanceWatermarkGet (World.getOrCreateWatermark "xwiki" (syncKey projectId space))
  let current ← now
  command .advanceWatermarkSave (World.saveWatermark { watermark with
    lastSyncedAt := some (syncedAt.getD current)
    lastExternalId := (given lastExternalId).or watermark.lastExternalId })

end XWikiWatermarks

structure XWikiSpaceSyncResult where
  projectId : ProjectId
  space : String
  since : Option Time := none
  discovered : Nat := 0
  ingested : Nat := 0
  unchanged : Nat := 0
  failed : Nat := 0
  details : List String := []

/-- How one turn of the loop of `sync_space` ends. -/
inductive PageOutcome
  | unmapped (space : String)
  | raised (exception : PyException)
  /-- Ingested as it was fetched at a moment. -/
  | ingested (fetchedAt : Nat) (artifact : SourceArtifact) (createdNewVersion : Bool)

def PageOutcome.isFailure : PageOutcome → Bool
  | .ingested _ _ _ => false
  | _ => true

/-- The local variables of `sync_space`, and the turns its loop has made, which
the code does not keep. -/
structure SpaceCycle where
  refs : List ExternalReference
  result : XWikiSpaceSyncResult
  failed : Bool := false
  attempts : List (ExternalReference × PageOutcome) := []

namespace SpaceCycle

/-- The local variables before the loop. -/
def start (projectId : ProjectId) (space : String) (since : Option Time) (refs : List ExternalReference) : SpaceCycle :=
  { refs, result := { projectId, space, since, discovered := refs.length } }

variable (cycle : SpaceCycle)

def fail (ref : ExternalReference) (detail : String) : SpaceCycle :=
  { cycle with
    result := { cycle.result with
      failed := cycle.result.failed + 1
      details := cycle.result.details ++ [ref.externalId ++ ": " ++ detail] }
    failed := true }

/-- What a turn does to the local variables. -/
def count (ref : ExternalReference) (outcome : PageOutcome) : SpaceCycle :=
  let counted : SpaceCycle :=
    match outcome with
    | .unmapped space => cycle.fail ref ("unmapped space " ++ space)
    | .raised exception => cycle.fail ref (exception.typeName ++ ": " ++ exception.message)
    | .ingested _ _ true => { cycle with result := { cycle.result with ingested := cycle.result.ingested + 1 } }
    | .ingested _ _ false => { cycle with result := { cycle.result with unchanged := cycle.result.unchanged + 1 } }
  { counted with attempts := cycle.attempts ++ [(ref, outcome)] }

/-- The condition of `sync_space` for moving the watermark. -/
def advances : Bool := !cycle.failed && (0 < cycle.result.discovered || cycle.result.since.isSome)

end SpaceCycle

structure XWikiDocumentationSyncService where
  ingestion : DocumentIngestionService
  /-- Whether there is an `XWikiMappingService`. -/
  mapping : Bool := true

namespace XWikiDocumentationSyncService
variable (self : XWikiDocumentationSyncService)

def documentType (ref : ExternalReference) : Option DocumentType :=
  if self.mapping then some (documentTypeForPage ref.externalId) else none

/-- The `try` of the loop. -/
def tryPage (port : DocumentationPort) (ref : ExternalReference) : Prog PageOutcome := do
  let resolution ← XWikiProjectResolver.resolve ref
  match resolution with
  | none => pure (.unmapped (extractSpace ref.externalId))
  | some project => do
    let (fetchedAt, artifact) ← ask .fetchDocument fun n _ => (n, port.fetchDocument n ref)
    let ingested ← self.ingestion.ingest artifact project.id (self.documentType ref)
    pure (.ingested fetchedAt artifact ingested.createdNewVersion)

def syncPage (port : DocumentationPort) (ref : ExternalReference) : Prog PageOutcome := do
  let turn ← attempt (self.tryPage port ref)
  match turn with
  | .ok outcome => pure outcome
  | .error e => pure (.raised e.exception)

def syncPages (port : DocumentationPort) : List ExternalReference → SpaceCycle → Prog SpaceCycle
  | [], cycle => pure cycle
  | ref :: refs, cycle => do
    let outcome ← self.syncPage port ref
    syncPages port refs (cycle.count ref outcome)

/-- `sync_space` up to the end of its loop. -/
def reconcile (port : DocumentationPort) (project : Project) (space : String) : Prog SpaceCycle := do
  let since ← XWikiWatermarks.since project.id space
  let refs ← ask .listChangedDocuments fun n _ => port.listChangedDocuments n since [space]
  self.syncPages port refs (SpaceCycle.start project.id space since refs)

def syncSpace (port : DocumentationPort) (project : Project) (space : String) : Prog XWikiSpaceSyncResult := do
  let cycle ← self.reconcile port project space
  if cycle.advances then
    XWikiWatermarks.advance project.id space none (cycle.refs.getLast?.map ExternalReference.externalId)
  pure cycle.result

/-- The spaces of `sync_project_spaces`. -/
def mappedSpaces (project : Project) : List String :=
  (project.externalRefs.filter (fun ref => ref.provider = "xwiki" && ref.externalType = some "space")).map
    ExternalReference.externalId

/-- The comprehension over them. -/
def syncSpaces (port : DocumentationPort) (project : Project) : List String → Prog (List XWikiSpaceSyncResult)
  | [] => pure []
  | space :: spaces => do
    let result ← self.syncSpace port project space
    let results ← syncSpaces port project spaces
    pure (result :: results)

def syncProjectSpaces (port : DocumentationPort) (project : Project) : Prog (List XWikiSpaceSyncResult) :=
  self.syncSpaces port project (mappedSpaces project)

end XWikiDocumentationSyncService

end Brain
