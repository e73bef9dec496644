import Brain.Domain.Entities

namespace Brain

inductive DocumentType
  | readme | requirements | architecture | adr | apiSpec | general
  deriving DecidableEq

inductive DocumentNodeType
  | section | paragraph | codeBlock | table | list | frontMatter | adrContext | adrDecision
  | adrAlternatives | adrConsequences
  deriving DecidableEq

def DocumentNodeType.value : DocumentNodeType → String
  | .section => "section"
  | .paragraph => "paragraph"
  | .codeBlock => "code_block"
  | .table => "table"
  | .list => "list"
  | .frontMatter => "front_matter"
  | .adrContext => "adr_context"
  | .adrDecision => "adr_decision"
  | .adrAlternatives => "adr_alternatives"
  | .adrConsequences => "adr_consequences"

structure DocumentSource where
  provider : String
  uri : String
  mimeType : Option String := none
  deriving DecidableEq

/-- What the ingestion pipeline reads. The raw bytes are kept as their text. -/
structure SourceArtifact where
  sourceUri : String
  provider : String
  mimeType : Option String := none
  fileName : Option String := none
  revision : Option String := none
  contentHash : Option String := none
  rawBytesRef : Option String := none
  content : Option String := none
  deriving DecidableEq

structure DocumentVersion where
  id : DocumentVersionId
  documentId : DocumentId
  sourceVersion : Option String := none
  repositoryId : Option RepositoryId := none
  commitSha : Option String := none
  checksum : String
  ingestedAt : Time
  contentUri : Option String := none
  deriving DecidableEq

structure Document where
  id : DocumentId
  projectId : ProjectId
  type : DocumentType := .general
  title : String
  source : DocumentSource
  currentVersionId : Option DocumentVersionId := none
  deriving DecidableEq

structure DocumentNode where
  id : Uuid
  versionId : DocumentVersionId
  nodeType : DocumentNodeType := .section
  title : Option String := none
  headingPath : List String := []
  content : String := ""
  parentId : Option Uuid := none
  childIds : List Uuid := []
  links : List String := []
  unresolvedRefs : List String := []
  deriving DecidableEq

structure ParsedNode where
  id : Uuid
  nodeType : DocumentNodeType := .section
  title : Option String := none
  headingPath : List String := []
  content : String := ""
  parentId : Option Uuid := none
  childIds : List Uuid := []
  links : List String := []
  unresolvedRefs : List String := []
  deriving DecidableEq

structure AdrSections where
  context : String := ""
  decision : String := ""
  alternatives : List String := []
  consequences : List String := []
  deriving DecidableEq

inductive DecisionStatus
  | proposed | accepted | superseded | rejected | deprecated
  deriving DecidableEq

def DecisionStatus.value : DecisionStatus → String
  | .proposed => "proposed"
  | .accepted => "accepted"
  | .superseded => "superseded"
  | .rejected => "rejected"
  | .deprecated => "deprecated"

structure ParsedDocument where
  title : Option String := none
  documentType : DocumentType := .general
  adrStatus : DecisionStatus := .proposed
  nodes : List ParsedNode := []
  adrSections : Option AdrSections := none
  deriving DecidableEq

structure Decision where
  id : Uuid
  projectId : ProjectId
  title : String
  context : String := ""
  decision : String := ""
  alternatives : List String := []
  consequences : List String := []
  status : DecisionStatus := .proposed
  deriving DecidableEq

end Brain
